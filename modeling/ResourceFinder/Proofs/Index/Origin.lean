import ResourceFinder.Proofs.FileSystem.Named
import ResourceFinder.Proofs.Index.Failure
import ResourceFinder.Proofs.Scan.Archive
import ResourceFinder.Proofs.Scan.Ended

/-
Where the resources of an index come from.

An index that has been built holds resources of candidates that resolved, and the scans of all its
roots have come to their end.  A candidate of a directory stands for an entry below it, and one of an
archive for the first entry of its name.
-/

namespace ResourceFinder
namespace Builder

/-! ## Building -/

theorem failure_append_eq_none {p q : Progress} (h : (p.append q).failure = none) :
    p.failure = none ∧ q.failure = none := by
  cases hp : p.failure with
  | none => exact ⟨rfl, (resources_append hp).2 ▸ h⟩
  | some f =>
    rw [Progress.append, hp] at h
    exact absurd (hp.symm.trans h) (by simp)

theorem mem_resources_append {p q : Progress} {r : Resource} (h : r ∈ (p.append q).resources) :
    r ∈ p.resources ∨ r ∈ q.resources := by
  cases hp : p.failure with
  | none =>
    rw [(resources_append hp).1] at h
    exact List.mem_append.1 h
  | some f =>
    rw [Progress.append, hp] at h
    exact .inl h

theorem candidate_of_resolveAll {s : Scanner} {root : Root} {candidates : List Candidate}
    {r : Resource} (h : r ∈ (resolveAll s root candidates).resources) :
    ∃ c ∈ candidates, s.resolve root c = .ok r.location ∧ r.name = c.name := by
  induction candidates with
  | nil => cases h
  | cons c rest ih =>
    rcases mem_resources_append h with hone | hrest
    · rw [resolveOne] at hone
      split at hone
      case h_1 l hl =>
        obtain rfl := List.mem_singleton.1 hone
        exact ⟨c, List.mem_cons_self, hl, rfl⟩
      case h_2 => cases hone
      case h_3 => cases hone
    · obtain ⟨c', hc', hresolve⟩ := ih hrest
      exact ⟨c', List.mem_cons_of_mem c hc', hresolve⟩

theorem candidate_of_scanRoot {s : Scanner} {root : Root} {r : Resource}
    (h : r ∈ (scanRoot s root).resources) :
    ∃ c ∈ (s.scan root).candidates, s.resolve root c = .ok r.location ∧ r.name = c.name := by
  rcases mem_resources_append h with hresolved | hnone
  · exact candidate_of_resolveAll hresolved
  · cases hnone

theorem candidate_of_scanRoots {s : Scanner} {roots : List Root} {r : Resource}
    (h : r ∈ (scanRoots s roots).resources) :
    ∃ root ∈ roots, ∃ c ∈ (s.scan root).candidates,
      s.resolve root c = .ok r.location ∧ r.name = c.name := by
  induction roots with
  | nil => cases h
  | cons root rest ih =>
    rcases mem_resources_append h with hhere | hrest
    · exact ⟨root, List.mem_cons_self, candidate_of_scanRoot hhere⟩
    · obtain ⟨root', hroot', hc⟩ := ih hrest
      exact ⟨root', List.mem_cons_of_mem root hroot', hc⟩

theorem ended_of_scanRoots {s : Scanner} {roots : List Root}
    (h : (scanRoots s roots).failure = none) : ∀ root ∈ roots, (s.scan root).failure = none := by
  induction roots with
  | nil => simp
  | cons root rest ih =>
    obtain ⟨hhere, hrest⟩ := failure_append_eq_none h
    exact List.forall_mem_cons.2 ⟨(failure_append_eq_none hhere).2, ih hrest⟩

section

variable {b : Builder} {fs : FileSystem} {index : Index}

theorem scanned_of_build (hbuild : (b.build fs).result = .ok index) :
    (scanRoots (b.scanner fs) b.roots).failure = none ∧
      index = Index.ofResources (scanRoots (b.scanner fs) b.roots).resources := by
  unfold build at hbuild
  split at hbuild
  case isTrue => cases hbuild
  case isFalse =>
    cases hfailure : (scanRoots (b.scanner fs) b.roots).failure with
    | some f =>
      simp only [hfailure] at hbuild
      cases hbuild
    | none =>
      simp only [hfailure, Except.ok.injEq] at hbuild
      exact ⟨rfl, hbuild.symm⟩

/-- The scans of the roots of an index have come to their end. -/
theorem ended_of_build (hbuild : (b.build fs).result = .ok index) :
    ∀ root ∈ b.roots, ((b.scanner fs).scan root).failure = none :=
  ended_of_scanRoots (scanned_of_build hbuild).1

/-- What is in an index is the resource of a candidate that resolved. -/
theorem candidate_of_build (hbuild : (b.build fs).result = .ok index) {r : Resource}
    (hr : r ∈ index.resources) :
    ∃ root ∈ b.roots, ∃ c ∈ ((b.scanner fs).scan root).candidates,
      (b.scanner fs).resolve root c = .ok r.location ∧ r.name = c.name := by
  obtain ⟨-, rfl⟩ := scanned_of_build hbuild
  exact candidate_of_scanRoots ((distinctBy_sublist Resource.name _).mem hr)

end

/-- The names found are those of the candidates that resolve. -/
theorem mem_names_found {b : Builder} {fs : FileSystem} {name : Text} :
    name ∈ (Index.ofResources (b.found fs)).names ↔ ∃ root ∈ b.roots,
      ∃ c ∈ ((b.scanner fs).scan root).candidates, c.name = name ∧
        ∃ l, (b.scanner fs).resolve root c = .ok l := by
  rw [Index.names_ofResources, List.mem_eraseDups, List.mem_map]
  constructor
  · intro ⟨r, hr, hname⟩
    obtain ⟨root, hroot, hfound⟩ := List.mem_flatMap.1 hr
    obtain ⟨c, hc, hresource⟩ := List.mem_filterMap.1 hfound
    unfold Scanner.resource? at hresource
    cases hresolve : (b.scanner fs).resolve root c with
    | ok l =>
      rw [hresolve] at hresource
      obtain rfl := Option.some.inj hresource
      exact ⟨root, hroot, c, hc, hname, l, hresolve⟩
    | error f =>
      rw [hresolve] at hresource
      cases hresource
  · intro ⟨root, hroot, c, hc, hname, l, hresolve⟩
    refine ⟨⟨c.name, l⟩, List.mem_flatMap.2 ⟨root, hroot, List.mem_filterMap.2 ⟨c, hc, ?_⟩⟩, hname⟩
    rw [Scanner.resource?, hresolve]

/-- The index of one root holds what resolves there. -/
theorem build_addRoot (scanner : FileSystem → Scanner) (fs : FileSystem) {root : Root}
    (hsound : (scanner fs).IsSound root) :
    ∃ i, (((Builder.ofScanner scanner).addRoot root).build fs).result = .ok i ∧
      ∀ name, name ∈ i.names ↔ ∃ c ∈ ((scanner fs).scan root).candidates, c.name = name ∧
        ∃ l, (scanner fs).resolve root c = .ok l := by
  have hroots : ((Builder.ofScanner scanner).addRoot root).roots = [root] := by
    simp [addRoot, ofScanner]
  have hscanner : ((Builder.ofScanner scanner).addRoot root).scanner = scanner :=
    scanner_addRoot _ root
  refine ⟨_, build_eq (by simp [hroots]) ?_, fun name => ?_⟩
  · rw [hroots, hscanner]
    exact List.forall_mem_singleton.2 hsound
  · rw [mem_names_found, hroots, hscanner]
    simp only [List.mem_singleton, exists_eq_left]

end Builder

/-! ## Candidates of a directory -/

namespace Scan

/-- An entry below a directory that is no directory itself, by the names of the real directories on
the way to it and its own. -/
structure HasEntry (fs : FileSystem) (base : Path) (dirs : List Text) (file : Text) (place : Place)
    (entries : List (Text × Node)) : Prop where
  directory : fs.HasDirectory base dirs place entries
  entry : file ∈ entries.map (·.1)
  noDirectory : fs.leadsToDirectory place file = false

variable {fs : FileSystem} {config : ScanConfig} {patterns : Ignore.Rules} {base : Path}

/-- The names on the way to an entry are its names. -/
theorem HasEntry.isEntryName (hnamed : fs.root.isNamed = true) {dirs : List Text} {file : Text}
    {place : Place} {entries : List (Text × Node)} (h : HasEntry fs base dirs file place entries) :
    ∀ s ∈ dirs ++ [file], Path.IsEntryName s := by
  obtain ⟨start, -, rfl, hnode⟩ := h.directory
  obtain ⟨hentries, hway⟩ := Node.isNamed_at hnamed hnode
  obtain ⟨e, he, rfl⟩ := List.mem_map.1 h.entry
  exact List.forall_mem_append.2 ⟨fun s hs => hway s (List.mem_append_right _ hs),
    List.forall_mem_singleton.2 (isNamed_of_mem hentries he).1⟩

/-- A candidate of a directory stands for an entry below it that is not too large. -/
theorem entry_of_candidate (htree : fs.root.isTree = true)
    (hend : (ofDirectory fs config patterns base).failure = none) {c : Candidate}
    (hc : c ∈ (ofDirectory fs config patterns base).candidates) :
    ∃ dirs file place entries, HasEntry fs base dirs file place entries ∧
      c = ⟨Text.join "/" (dirs ++ [file]), (base.below (dirs ++ [file])).text⟩ ∧
      ∀ size, fs.size? (base.below (dirs ++ [file])) = some size →
        config.filesMaxSize = 0 ∨ (size : Int) ≤ config.filesMaxSize := by
  obtain ⟨toolRules, -, hscan⟩ := ofDirectory_of_end hend
  rw [hscan] at hc
  obtain ⟨way, hway, rfl⟩ := List.mem_map.1 hc
  obtain ⟨dirs, file, g, rfl, hreaches, hfile, -, hlists⟩ := DirectoryScan.mem_listed.1 hway
  obtain ⟨place, entries, hdirectory, hentry, hno⟩ :=
    (FileSystem.mem_files_below_folder htree).1 ⟨g, hreaches, hfile⟩
  rw [DirectoryScan.lists, Bool.and_eq_true, Bool.not_eq_true', DirectoryScan.isTooLarge_eq_false]
    at hlists
  exact ⟨dirs, file, place, entries, ⟨hdirectory, hentry, hno⟩, rfl, hlists.2⟩

/-- A scan of a directory that has come to its end yields no name twice. -/
theorem nodup_names_of_end (htree : fs.root.isTree = true)
    (hend : (ofDirectory fs config patterns base).failure = none) :
    ((ofDirectory fs config patterns base).candidates.map Candidate.name).Nodup := by
  obtain ⟨toolRules, -, hscan⟩ := ofDirectory_of_end hend
  have hslash {way : List Text} (hway : way ∈ DirectoryScan.listed
      ⟨fs, config, patterns, base, toolRules⟩ [] (fs.folder base)) :
      way ≠ [] ∧ ∀ t ∈ way, .char '/' ∉ t := by
    obtain ⟨dirs, file, g, rfl, hreaches, hfile, -⟩ := DirectoryScan.mem_listed.1 hway
    obtain ⟨place, entries, hdirectory, hentry, -⟩ :=
      (FileSystem.mem_files_below_folder htree).1 ⟨g, hreaches, hfile⟩
    exact ⟨by simp, hdirectory.slash_not_mem htree hentry⟩
  rw [hscan, ofCandidates, List.map_map]
  refine List.Nodup.map_on (fun way hway way' hway' heq => ?_)
    (DirectoryScan.nodup_listed fun way g => FileSystem.nodup_of_reaches_folder htree)
  exact Text.join_inj (hslash hway).1 (hslash hway').1 (hslash hway).2 (hslash hway').2 heq

end Scan

theorem Scanner.resolveFile_iff {fs : FileSystem} {root : Root} {c : Candidate} {l : Location} :
    resolveFile fs root c = .ok l ↔ fs.isFile (Path.ofText c.raw) = true ∧ l = ⟨root, c.name⟩ := by
  unfold resolveFile
  split
  case isTrue h => simp [h, eq_comm]
  case isFalse h => simp [h]

/-- What resolves is at the root in which it was found, under its name. -/
theorem Scanner.location_of_resolve {config : ScanConfig} {patterns : Ignore.Rules}
    {fs : FileSystem} {root : Root} {c : Candidate} {l : Location}
    (h : (ofFileSystem config patterns fs).resolve root c = .ok l) : l = ⟨root, c.name⟩ := by
  obtain ⟨kind, base⟩ := root
  cases kind with
  | directory => exact (resolveFile_iff.1 h).2
  | archive => exact Scan.resolveEntry_eq_ok h

/-! ## Roots -/

namespace Root

variable {fs : FileSystem} {shown : Text} {r : Refusals} {root : Root}

theorem locate_of_ofDirectory (h : ofDirectory fs shown r = .ok root) :
    ∃ place, fs.locate (Path.ofText shown) = .ok place ∧
      root = ⟨.directory, fs.resolve (Path.ofText shown)⟩ := by
  obtain ⟨found, htest, hfound⟩ := bind_eq_ok.1 h
  obtain ⟨rfl, hroot⟩ | ⟨-, hinvalid⟩ := ite_eq_iff.1 hfound
  · obtain ⟨n, hfind, -⟩ := FileSystem.find_of_test (mapError_eq_ok htest)
    obtain ⟨place, hplace⟩ := FileSystem.exists_locate_of_find hfind
    exact ⟨place, hplace, (Except.ok.inj hroot).symm⟩
  · cases hinvalid

theorem locate_of_ofArchive (h : ofArchive fs shown r = .ok root) :
    ∃ place, fs.locate (Path.ofText shown) = .ok place ∧
      root = ⟨.archive, fs.resolve (Path.ofText shown)⟩ := by
  obtain ⟨found, htest, hfound⟩ := bind_eq_ok.1 h
  obtain ⟨rfl, hroot⟩ | ⟨-, hinvalid⟩ := ite_eq_iff.1 hfound
  · obtain ⟨n, hfind, -⟩ := FileSystem.find_of_test (mapError_eq_ok htest)
    obtain ⟨place, hplace⟩ := FileSystem.exists_locate_of_find hfind
    split at hroot
    case h_1 => exact ⟨place, hplace, (Except.ok.inj hroot).symm⟩
    all_goals cases hroot
  · cases hinvalid

/-- The path of a root is what a path that leads somewhere is resolved to. -/
theorem exists_locate_of_ofPath (h : ofPath fs shown r = .ok root) :
    ∃ p place, fs.locate p = .ok place ∧ root.path = fs.resolve p := by
  obtain ⟨found, -, hfound⟩ := bind_eq_ok.1 h
  obtain ⟨-, hdirectory⟩ | ⟨-, hother⟩ := ite_eq_iff.1 hfound
  · obtain ⟨place, hplace, rfl⟩ := locate_of_ofDirectory hdirectory
    exact ⟨_, place, hplace, rfl⟩
  · obtain ⟨found, -, hfound⟩ := bind_eq_ok.1 hother
    obtain ⟨-, harchive⟩ | ⟨-, hinvalid⟩ := ite_eq_iff.1 hfound
    · obtain ⟨place, hplace, rfl⟩ := locate_of_ofArchive harchive
      exact ⟨_, place, hplace, rfl⟩
    · cases hinvalid

end Root

/-! ## Paths of resources -/

/-- The text of a way that is made of names is read as that way. -/
theorem Path.joinText_join (base : Path) {names : List Text} (h : ∀ s ∈ names, IsSegment s) :
    base.joinText (Text.join "/" names) = base.below names := by
  have hanchor : Anchor.ofText (Text.join "/" names) = .relative :=
    Anchor.ofText_text_append .relative (head?_join_ne_slash h)
  simp [joinText, join, ofText, hanchor, segmentsOf_join h, isAbsolute, below]

end ResourceFinder
