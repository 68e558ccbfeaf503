import ResourceFinder.Proofs.Index.Failure
import ResourceFinder.Proofs.Scan.Order

/-
Indexes and the order in which directories list what is in them.

A scanner sees the same in file systems that differ in that order alone, so an index that is built
on one of them is built on the other, and of several resources with one name the same one is found.
-/

namespace ResourceFinder

open Scan

variable {fs fs' : FileSystem} {config : ScanConfig}

/-- A scanner is known by what it answers. -/
theorem Scanner.eq_of_apply {s s' : Scanner} (hscan : ∀ root, s.scan root = s'.scan root)
    (hresolve : ∀ root c, s.resolve root c = s'.resolve root c) : s = s' := by
  obtain ⟨scan, resolve⟩ := s
  obtain ⟨scan', resolve'⟩ := s'
  obtain rfl : scan = scan' := funext hscan
  obtain rfl : resolve = resolve' := funext fun root => funext (hresolve root)
  rfl

theorem Scanner.ofFileSystem_reordered (h : fs.Reordered fs') (htree : fs.root.isTree = true)
    {patterns : Ignore.Rules} (hpatterns : patternsOf config = .ok patterns) :
    ofFileSystem config patterns fs' = ofFileSystem config patterns fs := by
  have hscan : ∀ root, (ofFileSystem config patterns fs').scan root =
      (ofFileSystem config patterns fs).scan root := by
    rintro ⟨kind, path⟩
    cases kind with
    | directory => exact ofDirectory_reordered h htree hpatterns
    | archive => simp only [ofFileSystem, ofArchive, archiveEntries_eq h]
  have hresolve : ∀ root c, (ofFileSystem config patterns fs').resolve root c =
      (ofFileSystem config patterns fs).resolve root c := by
    rintro ⟨kind, path⟩ c
    cases kind with
    | directory => simp only [ofFileSystem, resolveFile, h.isFile_eq]
    | archive => rfl
  exact Scanner.eq_of_apply hscan hresolve

theorem Builder.build_reordered (h : fs.Reordered fs') (htree : fs.root.isTree = true)
    {patterns : Ignore.Rules} (hpatterns : Scanner.patternsOf config = .ok patterns) {b : Builder}
    (hscanner : b.scanner = Scanner.ofFileSystem config patterns) : b.build fs' = b.build fs := by
  simp only [build, hscanner, Scanner.ofFileSystem_reordered h htree hpatterns]

namespace Index

theorem addPaths_reordered (h : fs.Reordered fs') (htree : fs.root.isTree = true) (b : Builder)
    (paths : List Text) : addPaths fs' b paths = addPaths fs b paths := by
  induction paths generalizing b with
  | nil => rfl
  | cons path rest ih =>
    rw [addPaths, addPaths, Root.ofPath_eq h htree]
    cases Root.ofPath fs path with
    | error f => rfl
    | ok root => simp only [ih]

theorem ofPaths_reordered (h : fs.Reordered fs') (htree : fs.root.isTree = true)
    (paths : List Text) : ofPaths fs' config paths = ofPaths fs config paths := by
  unfold ofPaths Builder.ofConfig
  cases hpatterns : Scanner.patternsOf config with
  | error f => rfl
  | ok patterns =>
    simp only [bind, Except.bind, pure, Except.pure, addPaths_reordered h htree]
    cases hadded : (addPaths fs (.ofScanner (.ofFileSystem config patterns)) paths).result with
    | error f => rfl
    | ok b =>
      have hscanner : b.scanner = Scanner.ofFileSystem config patterns := (addPaths_eq_ok hadded).1
      simp only [Builder.build_reordered h htree hpatterns hscanner]

end Index

/-- A scan of a directory root yields, in every directory that it enters, first the files that count
and then what the directories below come to, both in ascending order of the code points of their
names, and no other scan is in this order.  File systems whose directories list the same entries in
any other order are scanned alike and give the same indexes. -/
theorem directory_scan_order (fs : FileSystem) (config : ScanConfig) (base : Path)
    (patterns : Ignore.Rules) (htree : fs.root.isTree = true)
    (hpatterns : Scanner.patternsOf config = .ok patterns) :
    let scan := (Scanner.ofFileSystem config patterns fs).scan ⟨.directory, base⟩
    (∀ e, Ignore.load fs (base.joinText config.ignoreFileName) = .error e →
      scan = .ofFault (.ofIgnoreFile e)) ∧
    (∀ rules, Ignore.load fs (base.joinText config.ignoreFileName) = .ok rules →
      (∀ place entries, fs.HasDirectory base [] place entries →
        ∀ s, Walked fs config base [] s ↔ s = scan) ∧
      ((∀ place entries, ¬ fs.HasDirectory base [] place entries) → scan = .ofCandidates [])) ∧
    ∀ fs', fs.Reordered fs' →
      (Scanner.ofFileSystem config patterns fs').scan ⟨.directory, base⟩ = scan ∧
      (∀ b : Builder, b.scanner = Scanner.ofFileSystem config patterns →
        b.build fs' = b.build fs) ∧
      ∀ paths, Index.ofPaths fs' config paths = Index.ofPaths fs config paths := by
  intro scan
  refine ⟨fun e htool => ?_, fun rules htool => ⟨fun place entries hhas s => ?_, fun hnone => ?_⟩,
    fun fs' h => ⟨?_, fun b => Builder.build_reordered h htree hpatterns,
      Index.ofPaths_reordered h htree⟩⟩
  · show ofDirectory fs config patterns base = _
    rw [ofDirectory, htool]
  · have hwalked : Walked fs config base [] scan := ofDirectory_walked htree hpatterns htool hhas
    exact ⟨fun hs => hs.unique hwalked, fun hs => hs ▸ hwalked⟩
  · exact ofDirectory_of_not_hasDirectory htree htool hnone
  · exact ofDirectory_reordered h htree hpatterns

/-! ## A tree listed in two orders -/

def sortedTree : FileSystem :=
  ⟨[("a", .directory [("x", .file []), ("y", .file [])]), ("b", .file [])], []⟩

def shuffledTree : FileSystem :=
  ⟨[("b", .file []), ("a", .directory [("y", .file []), ("x", .file [])])], []⟩

theorem reordered_shuffledTree : shuffledTree.Reordered sortedTree := by
  have hbelow : Node.Reordered (.directory [("y", .file []), ("x", .file [])])
      (.directory [("x", .file []), ("y", .file [])]) := .of_perm (by decide) (.swap _ _ _)
  refine ⟨.directory (by decide) fun name n n' hn hn' => ?_, rfl⟩
  rcases List.mem_pair.1 hn with heq | heq <;> obtain ⟨rfl, rfl⟩ := Prod.mk.inj heq <;>
    rcases List.mem_pair.1 hn' with heq' | heq' <;> obtain ⟨hname, rfl⟩ := Prod.mk.inj heq'
  · cases hname
  · exact .file []
  · exact hbelow
  · cases hname

theorem directory_scan_order_shuffledTree :
    shuffledTree.root.isTree = true ∧
    Scanner.patternsOf { exclude := some [] } = .ok [] ∧
    shuffledTree.Reordered sortedTree ∧
    ∃ s, Walked shuffledTree { exclude := some [] } ⟨.root, []⟩ [] s ∧
      s.candidates.map Candidate.name = [("b" : Text), "a/x", "a/y"] ∧
      (Scanner.ofFileSystem { exclude := some [] } [] sortedTree).scan
        ⟨.directory, ⟨.root, []⟩⟩ = s := by
  have htree : shuffledTree.root.isTree = true := by decide
  have htool : Ignore.load shuffledTree
      ((⟨.root, []⟩ : Path).joinText ({ exclude := some [] } : ScanConfig).ignoreFileName) =
        .ok none := by cbv
  obtain ⟨-, hordered, hshuffled⟩ :=
    directory_scan_order shuffledTree { exclude := some [] } ⟨.root, []⟩ [] htree rfl
  obtain ⟨hscan, -⟩ := hshuffled _ reordered_shuffledTree
  refine ⟨htree, rfl, reordered_shuffledTree, _, ?_, ?_, hscan⟩
  · exact ((hordered none htool).1 [] _ ⟨[], by cbv, rfl, rfl⟩ _).2 rfl
  · cbv

end ResourceFinder
