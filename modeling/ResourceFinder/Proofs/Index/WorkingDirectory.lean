import ResourceFinder.Proofs.FileSystem.WorkingDirectory
import ResourceFinder.Proofs.Index.Origin

/-
Indexes of absolute paths do not depend on the working directory.

A scan of an absolute root asks for absolute paths only, and so does resolving what it found.  Roots
are absolute in any case, so once they have been made of absolute paths, building an index of them
comes to the same from everywhere, and so does what happens on the way.
-/

namespace ResourceFinder

variable {fs : FileSystem} {place : Place}

theorem Ignore.load_seenFrom {p : Path} (h : p.isAbsolute = true) :
    load (fs.seenFrom place) p = load fs p := by
  rw [load, load, FileSystem.isFile_seenFrom h, FileSystem.readText_seenFrom h]

/-! ## Scans -/

namespace Scan

section

variable {base : Path} (h : base.isAbsolute = true)
include h

theorem rulesIn_seenFrom (names : List Text) :
    rulesIn (fs.seenFrom place) base names = rulesIn fs base names :=
  Ignore.load_seenFrom h

theorem chainOf_seenFrom (cache : RuleCache) (ways : List (List Text)) :
    chainOf (fs.seenFrom place) base cache ways = chainOf fs base cache ways := by
  have hcached (cache : RuleCache) (names : List Text) :
      cachedRulesIn (fs.seenFrom place) base cache names = cachedRulesIn fs base cache names := by
    rw [cachedRulesIn, cachedRulesIn, rulesIn_seenFrom h]
  induction ways generalizing cache with
  | nil => rfl
  | cons names ways ih => simp only [chainOf, hcached, ih]

end

namespace DirectoryScan

def seenFrom (d : DirectoryScan) (place : Place) : DirectoryScan :=
  { d with fs := d.fs.seenFrom place }

section

variable {d : DirectoryScan} (h : d.base.isAbsolute = true)
include h

theorem chain_seenFrom (cache : RuleCache) (names : List Text) :
    (d.seenFrom place).chain cache names = d.chain cache names := by
  simp only [chain, chainTo, seenFrom, chainOf_seenFrom h]

theorem admits_seenFrom (chain : RuleChain) :
    (d.seenFrom place).admits chain = d.admits chain := by
  funext names
  have hpath : (d.base.below names).isAbsolute = true := h
  simp only [admits, isTooLarge, seenFrom, FileSystem.size?_seenFrom hpath]
  rfl

end

variable {d : DirectoryScan}

mutual

theorem scanFolder_seenFrom (h : d.base.isAbsolute = true) (names : List Text)
    (cache : RuleCache) : (folder : Folder) →
      (d.seenFrom place).scanFolder names cache folder = d.scanFolder names cache folder
  | .mk files folders => by
    rw [scanFolder, scanFolder, chain_seenFrom h]
    cases d.chain cache names with
    | error e => rfl
    | ok found =>
      simp only [admits_seenFrom h, scanFolders_seenFrom h found.1 names found.2 folders]
      rfl

theorem scanFolders_seenFrom (h : d.base.isAbsolute = true) (chain : RuleChain)
    (names : List Text) (cache : RuleCache) : (folders : List (Text × Folder)) →
      (d.seenFrom place).scanFolders chain names cache folders =
        d.scanFolders chain names cache folders
  | [] => rfl
  | (name, folder) :: rest => by
    rw [scanFolders, scanFolders]
    simp only [scanFolder_seenFrom h (names ++ [name]) _ folder,
      scanFolders_seenFrom h chain names _ rest]
    rfl

end

theorem mem_candidates_append {a b : Scan} {c : Candidate} (h : c ∈ (a.append b).candidates) :
    c ∈ a.candidates ∨ c ∈ b.candidates := by
  unfold append at h
  split at h
  · exact .inl h
  · exact List.mem_append.1 h

mutual

/-- What a scan knows a candidate by is its path. -/
theorem candidate_of_scanFolder (names : List Text) (cache : RuleCache) : (folder : Folder) →
    ∀ c ∈ (d.scanFolder names cache folder).1.candidates, ∃ way, c = d.candidate way
  | .mk files folders => by
    intro c hc
    rw [scanFolder] at hc
    cases hchain : d.chain cache names with
    | error e =>
      rw [hchain] at hc
      cases hc
    | ok found =>
      rw [hchain] at hc
      rcases mem_candidates_append hc with hhere | hbelow
      · obtain ⟨way, -, rfl⟩ := List.mem_map.1 hhere
        exact ⟨way, rfl⟩
      · exact candidate_of_scanFolders found.1 names found.2 folders c hbelow

theorem candidate_of_scanFolders (chain : RuleChain) (names : List Text) (cache : RuleCache) :
    (folders : List (Text × Folder)) →
      ∀ c ∈ (d.scanFolders chain names cache folders).1.candidates, ∃ way, c = d.candidate way
  | [] => by
    intro c hc
    cases hc
  | (name, folder) :: rest => by
    intro c hc
    rw [scanFolders] at hc
    split at hc
    · exact candidate_of_scanFolders chain names cache rest c hc
    · rcases mem_candidates_append hc with hhere | hrest
      · exact candidate_of_scanFolder (names ++ [name]) cache folder c hhere
      · exact candidate_of_scanFolders chain names _ rest c hrest

end

end DirectoryScan

theorem ofDirectory_seenFrom {config : ScanConfig} {patterns : Ignore.Rules} {base : Path}
    (h : base.isAbsolute = true) :
    ofDirectory (fs.seenFrom place) config patterns base =
      ofDirectory fs config patterns base := by
  have htool : (base.joinText config.ignoreFileName).isAbsolute = true := Path.isAbsolute_join h
  unfold ofDirectory
  rw [Ignore.load_seenFrom htool, FileSystem.folder_seenFrom h]
  cases Ignore.load fs (base.joinText config.ignoreFileName) with
  | error e => rfl
  | ok toolRules =>
    exact congrArg Prod.fst (DirectoryScan.scanFolder_seenFrom
      (d := ⟨fs, config, patterns, base, toolRules⟩) h [] [] (fs.folder base))

/-- The candidates of an absolute directory are known by absolute paths. -/
theorem isAbsolute_raw {config : ScanConfig} {patterns : Ignore.Rules} {base : Path}
    (h : base.isAbsolute = true) :
    ∀ c ∈ (ofDirectory fs config patterns base).candidates,
      (Path.ofText c.raw).isAbsolute = true := by
  intro c hc
  unfold ofDirectory at hc
  split at hc
  · cases hc
  · obtain ⟨way, rfl⟩ := DirectoryScan.candidate_of_scanFolder [] [] _ c hc
    exact Path.isAbsolute_ofText_text (p := base.below way) h

end Scan

/-! ## Building -/

namespace Builder

theorem resolveAll_congr {s s' : Scanner} {root : Root} {candidates : List Candidate}
    (h : ∀ c ∈ candidates, s.resolve root c = s'.resolve root c) :
    resolveAll s root candidates = resolveAll s' root candidates := by
  induction candidates with
  | nil => rfl
  | cons c rest ih =>
    obtain ⟨hc, hrest⟩ := List.forall_mem_cons.1 h
    rw [resolveAll, resolveAll, ih hrest, resolveOne, resolveOne, hc]

/-- Scanners that answer alike for some roots and what they find there come to the same. -/
theorem scanRoots_congr {s s' : Scanner} {roots : List Root}
    (h : ∀ root ∈ roots, s.scan root = s'.scan root ∧
      ∀ c ∈ (s'.scan root).candidates, s.resolve root c = s'.resolve root c) :
    scanRoots s roots = scanRoots s' roots := by
  induction roots with
  | nil => rfl
  | cons root rest ih =>
    obtain ⟨⟨hscan, hresolve⟩, hrest⟩ := List.forall_mem_cons.1 h
    rw [scanRoots, scanRoots, ih hrest, scanRoot, scanRoot, hscan, resolveAll_congr hresolve]

theorem build_seenFrom {config : ScanConfig} {patterns : Ignore.Rules} {b : Builder}
    (hscanner : b.scanner = Scanner.ofFileSystem config patterns)
    (hroots : ∀ root ∈ b.roots, root.path.isAbsolute = true) :
    b.build (fs.seenFrom place) = b.build fs := by
  have hscans : scanRoots (b.scanner (fs.seenFrom place)) b.roots =
      scanRoots (b.scanner fs) b.roots := by
    rw [hscanner]
    refine scanRoots_congr fun root hroot => ?_
    obtain ⟨kind, base⟩ := root
    have hbase : base.isAbsolute = true := hroots _ hroot
    cases kind with
    | directory =>
      refine ⟨Scan.ofDirectory_seenFrom hbase, fun c hc => ?_⟩
      have hraw := Scan.isAbsolute_raw hbase c hc
      simp only [Scanner.ofFileSystem, Scanner.resolveFile, FileSystem.isFile_seenFrom hraw]
    | archive =>
      refine ⟨?_, fun c _ => rfl⟩
      simp only [Scanner.ofFileSystem, Scan.ofArchive, archiveEntries_seenFrom hbase]
  simp only [build, hscans]

end Builder

/-- Roots are absolute, whatever they are made of. -/
theorem Root.isAbsolute_of_ofPath {shown : Text} {root : Root} (h : ofPath fs shown = .ok root) :
    root.path.isAbsolute = true := by
  obtain ⟨p, -, -, hresolve⟩ := exists_locate_of_ofPath h
  rw [hresolve]
  exact fs.isAbsolute_resolve p

namespace Index

section

variable {paths : List Text} (h : ∀ path ∈ paths, (Path.ofText path).isAbsolute = true)
include h

theorem addPaths_seenFrom (b : Builder) :
    addPaths (fs.seenFrom place) b paths = addPaths fs b paths := by
  induction paths generalizing b with
  | nil => rfl
  | cons path rest ih =>
    obtain ⟨hpath, hrest⟩ := List.forall_mem_cons.1 h
    rw [addPaths, addPaths, Root.ofPath_seenFrom hpath]
    cases Root.ofPath fs path with
    | error f => rfl
    | ok root => simp only [ih hrest]

/-- The index of absolute paths, and all that happens until it is there. -/
theorem ofPaths_seenFrom (config : ScanConfig) :
    ofPaths (fs.seenFrom place) config paths = ofPaths fs config paths := by
  unfold ofPaths Builder.ofConfig
  cases Scanner.patternsOf config with
  | error f => rfl
  | ok patterns =>
    simp only [bind, Except.bind, pure, Except.pure, addPaths_seenFrom h]
    cases hadded : (addPaths fs (.ofScanner (.ofFileSystem config patterns)) paths).result with
    | error f => rfl
    | ok b =>
      obtain ⟨hscanner, hroots⟩ := addPaths_eq_ok hadded
      have hbuild : b.build (fs.seenFrom place) = b.build fs := by
        refine Builder.build_seenFrom hscanner fun root hroot => ?_
        rcases (hroots root).1 hroot with hnone | ⟨path, -, hpath⟩
        · cases hnone
        · exact Root.isAbsolute_of_ofPath hpath
      simp only [hbuild]

end

/-- The resources of an index of paths are at absolute roots. -/
theorem isAbsolute_of_ofPaths {config : ScanConfig} {paths : List Text} {index : Index}
    (h : (ofPaths fs config paths).result = .ok index) :
    ∀ r ∈ index.resources, r.location.root.path.isAbsolute = true := by
  intro r hr
  obtain ⟨patterns, b, hscanner, hroots, hbuild⟩ := ofPaths_eq_ok h
  obtain ⟨root, hroot, c, -, hresolve, -⟩ := Builder.candidate_of_build hbuild hr
  rw [hscanner] at hresolve
  rw [Scanner.location_of_resolve hresolve]
  obtain ⟨path, -, hpath⟩ := hroots root hroot
  exact Root.isAbsolute_of_ofPath hpath

end Index
end ResourceFinder
