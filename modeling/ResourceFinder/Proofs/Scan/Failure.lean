import ResourceFinder.Proofs.Except.Failure
import ResourceFinder.Proofs.FileSystem.Folder
import ResourceFinder.Scan.FileSystem

/-
Where a scan gets its failure from.

The scan of a directory fails for an ignore file that it reads and for nothing else, and the scan of
an archive for the archive.  Resolving what a scan lists fails for that candidate alone.
-/

namespace ResourceFinder
namespace Scan

theorem failure_append {a b : Scan} {f : Fault} (h : (a.append b).failure = some f) :
    a.failure = some f ∨ b.failure = some f := by
  unfold append at h
  cases ha : a.failure with
  | some f' =>
    rw [ha] at h
    exact .inl (ha.symm.trans h)
  | none =>
    rw [ha] at h
    exact .inr h

section

variable {fs : FileSystem} {base : Path}

theorem rulesIn_of_chainOf {ways : List (List Text)} {cache : RuleCache} {e : Ignore.FileError}
    (h : chainOf fs base cache ways = .error e) : ∃ names, rulesIn fs base names = .error e := by
  induction ways generalizing cache with
  | nil => cases h
  | cons names ways ih =>
    rw [chainOf] at h
    obtain hnames | ⟨⟨rules, cache₁⟩, -, hways⟩ := bind_eq_error.1 h
    · unfold cachedRulesIn at hnames
      cases hlookup : cache.lookup names with
      | some rules =>
        rw [hlookup] at hnames
        cases hnames
      | none =>
        rw [hlookup] at hnames
        exact ⟨names, map_eq_error.1 hnames⟩
    · obtain hrest | ⟨_, -, hdone⟩ := bind_eq_error.1 hways
      · exact ih hrest
      · cases hdone

end

namespace DirectoryScan

variable {d : DirectoryScan}

/-- What a scan fails with comes from an ignore file in a directory, and only where those count. -/
def BlamesIgnoreFile (d : DirectoryScan) (f : Fault) : Prop :=
  d.config.respectGitignore = true ∧
    ∃ names e, rulesIn d.fs d.base names = .error e ∧ f = .ofIgnoreFile e

theorem blames_of_chain {cache : RuleCache} {names : List Text} {e : Ignore.FileError}
    (h : d.chain cache names = .error e) : d.BlamesIgnoreFile (.ofIgnoreFile e) := by
  unfold chain at h
  split at h
  case isTrue hrespect =>
    obtain ⟨names', hrules⟩ := rulesIn_of_chainOf h
    exact ⟨hrespect, names', e, hrules, rfl⟩
  case isFalse => cases h

/-- The folders below one fail only for an ignore file, if each of them does. -/
theorem blames_of_scanFolders {folders : List (Text × Folder)}
    (hfolders : ∀ x ∈ folders, ∀ names cache f,
      (d.scanFolder names cache x.2).1.failure = some f → d.BlamesIgnoreFile f)
    {chain : RuleChain} {names : List Text} {cache : RuleCache} {f : Fault}
    (h : (d.scanFolders chain names cache folders).1.failure = some f) :
    d.BlamesIgnoreFile f := by
  induction folders generalizing cache with
  | nil => cases h
  | cons x rest ih =>
    obtain ⟨name, folder⟩ := x
    obtain ⟨hfolder, hrest⟩ := List.forall_mem_cons.1 hfolders
    rw [scanFolders] at h
    split at h
    case isTrue =>
      -- An excluded folder is not entered, so it cannot fail.
      exact ih hrest h
    case isFalse =>
      rcases failure_append h with hhere | hmore
      · exact hfolder _ _ f hhere
      · exact ih hrest hmore

theorem blames_of_scanFolder {folder : Folder} {names : List Text} {cache : RuleCache} {f : Fault}
    (h : (d.scanFolder names cache folder).1.failure = some f) : d.BlamesIgnoreFile f := by
  induction folder using Folder.induct generalizing names cache f with
  | mk files folders ih =>
    rw [scanFolder] at h
    cases hchain : d.chain cache names with
    | error e =>
      rw [hchain] at h
      obtain rfl : Fault.ofIgnoreFile e = f := Option.some.inj h
      exact blames_of_chain hchain
    | ok chained =>
      rw [hchain] at h
      rcases failure_append h with hhere | hbelow
      · cases hhere
      · exact blames_of_scanFolders (fun x hx names cache f => ih x hx) hbelow

end DirectoryScan

/-- The ignore files that a scan of a directory may read: the one at the top that bears the tool's
name and, unless they are not to be respected, the common ones in any directory below. -/
def IsIgnoreFile (config : ScanConfig) (base file : Path) : Prop :=
  file = base.joinText config.ignoreFileName ∨
    config.respectGitignore = true ∧ ∃ names, file = (base.below names).child gitignoreName

theorem failure_ofDirectory {fs : FileSystem} {config : ScanConfig} {patterns : Ignore.Rules}
    {base : Path} {f : Fault} (h : (ofDirectory fs config patterns base).failure = some f) :
    ∃ file e, IsIgnoreFile config base file ∧ Ignore.load fs file = .error e ∧
      f = .ofIgnoreFile e := by
  unfold ofDirectory at h
  cases hload : Ignore.load fs (base.joinText config.ignoreFileName) with
  | error e =>
    rw [hload] at h
    exact ⟨_, e, .inl rfl, hload, (Option.some.inj h).symm⟩
  | ok toolRules =>
    rw [hload] at h
    obtain ⟨hrespect, names, e, hrules, rfl⟩ := DirectoryScan.blames_of_scanFolder h
    exact ⟨_, e, .inr ⟨hrespect, names, rfl⟩, hrules, rfl⟩

theorem failure_ofArchive {fs : FileSystem} {config : ScanConfig} {patterns : Ignore.Rules}
    {p : Path} {f : Fault} (h : (ofArchive fs config patterns p).failure = some f) :
    archiveEntries fs p = .error f := by
  unfold ofArchive at h
  cases hentries : archiveEntries fs p with
  | error f' =>
    rw [hentries] at h
    rw [Option.some.inj h]
  | ok archive =>
    rw [hentries] at h
    cases h

end Scan

namespace Scanner

/-- A candidate that does not resolve is left out and stops nothing. -/
theorem resolve_ofFileSystem {config : ScanConfig} {patterns : Ignore.Rules} {fs : FileSystem}
    {root : Root} {c : Candidate} {f : Fault}
    (h : (ofFileSystem config patterns fs).resolve root c = .error f) :
    ∃ why, f = .unresolvable why := by
  unfold ofFileSystem resolveFile resolveEntry at h
  cases hkind : root.kind with
  | directory =>
    simp only [hkind] at h
    split at h
    case isTrue => cases h
    case isFalse => exact ⟨_, (Except.error.inj h).symm⟩
  | archive =>
    simp only [hkind] at h
    split at h
    case isTrue => exact ⟨_, (Except.error.inj h).symm⟩
    case isFalse =>
      split at h
      case isTrue => exact ⟨_, (Except.error.inj h).symm⟩
      case isFalse => cases h

end Scanner
end ResourceFinder
