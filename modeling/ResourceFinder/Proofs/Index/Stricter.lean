import ResourceFinder.Proofs.Index.Origin
import ResourceFinder.Proofs.Index.Roots
import ResourceFinder.Proofs.Scan.Stricter

/-
Indexes of the same roots by configurations of which one leaves out more.

A resource that is left out no longer shadows others of its name, so what stands under a name may
change.  The names do not become more.
-/

namespace ResourceFinder
namespace Builder

/-- The names of an index of directories and archives are those of the candidates that resolve. -/
theorem mem_names_of_build {config : ScanConfig} {patterns : Ignore.Rules} {b : Builder}
    (hscanner : b.scanner = .ofFileSystem config patterns) {fs : FileSystem} {i : Index}
    (hbuild : (b.build fs).result = .ok i) {name : Text} :
    name ∈ i.names ↔ ∃ root ∈ b.roots, ∃ c ∈ ((b.scanner fs).scan root).candidates,
      c.name = name ∧ ∃ l, (b.scanner fs).resolve root c = .ok l := by
  have hne : b.roots ≠ [] := by
    intro hnone
    rw [build_of_no_roots hnone] at hbuild
    cases hbuild
  have hsound : ∀ root ∈ b.roots, (b.scanner fs).IsSound root := by
    intro root hroot
    refine ⟨ended_of_build hbuild root hroot, fun c _ f hf => ?_⟩
    rw [hscanner] at hf
    exact Scanner.resolve_ofFileSystem hf
  obtain rfl := Except.ok.inj ((build_eq hne hsound).symm.trans hbuild)
  exact mem_names_found

/-- For the same roots and the same files, the index by a stricter configuration has no name that the
index by the other one does not have. -/
theorem names_subset_of_stricter {config config' : ScanConfig} (h : config.Stricter config')
    {b b' : Builder} (hconfig : Builder.ofConfig config = .ok b)
    (hconfig' : Builder.ofConfig config' = .ok b') (roots : List Root) (fs : FileSystem)
    {i i' : Index} (hbuild : ((roots.foldl addRoot b).build fs).result = .ok i)
    (hbuild' : ((roots.foldl addRoot b').build fs).result = .ok i') :
    ∀ name ∈ i'.names, name ∈ i.names := by
  obtain ⟨patterns, hpatterns, rfl⟩ := map_eq_ok.1 hconfig
  obtain ⟨patterns', hpatterns', rfl⟩ := map_eq_ok.1 hconfig'
  have hscanner : (roots.foldl addRoot (.ofScanner (.ofFileSystem config patterns))).scanner =
      .ofFileSystem config patterns := scanner_foldl_addRoot _ roots
  have hscanner' : (roots.foldl addRoot (.ofScanner (.ofFileSystem config' patterns'))).scanner =
      .ofFileSystem config' patterns' := scanner_foldl_addRoot _ roots
  have hend := ended_of_build hbuild
  have hend' := ended_of_build hbuild'
  intro name hname
  obtain ⟨root, hroot, c, hc, hcname, l, hresolve⟩ := (mem_names_of_build hscanner' hbuild').1 hname
  rw [hscanner] at hend
  rw [hscanner'] at hend' hc hresolve
  rw [roots_foldl_addRoot] at hend hend' hroot
  have hsubset := Scanner.scan_subset h hpatterns hpatterns' (hend root hroot) (hend' root hroot)
  refine (mem_names_of_build hscanner hbuild).2 ⟨root, ?_, c, ?_, hcname, l, ?_⟩
  · rw [roots_foldl_addRoot]
    exact hroot
  · rw [hscanner]
    exact hsubset hc
  · -- Whether a candidate resolves does not depend on the configuration.
    rw [hscanner]
    exact hresolve

/-! ## A name that a large file shadows -/

def shadowedTree : FileSystem :=
  ⟨[("a", .directory [(".gitignore", .file [122]), ("x", .file [120, 121]), ("y", .file []),
      ("z", .file [])]),
    ("b", .directory [("x", .file [120])])], []⟩

def shadowedRoots : List Root := [⟨.directory, ⟨.root, ["a"]⟩⟩, ⟨.directory, ⟨.root, ["b"]⟩⟩]

def openConfig : ScanConfig := { exclude := some [], respectGitignore := false }

/-- A configuration that is stricter in all ways. -/
def closeConfig : ScanConfig := { exclude := some [], extendExclude := ["y"], filesMaxSize := 1 }

/-- The names in the index of the two directories, each with the segments of its root. -/
def shadowedNames (config : ScanConfig) : Except Fault (List (Text × List Text)) := do
  let b ← Builder.ofConfig config
  let i ← ((shadowedRoots.foldl addRoot b).build shadowedTree).result
  return i.resources.map fun r => (r.name, r.location.root.path.segments)

theorem exists_index_of_shadowedNames {config : ScanConfig} {names : List (Text × List Text)}
    (h : shadowedNames config = .ok names) : ∃ b i, Builder.ofConfig config = .ok b ∧
      ((shadowedRoots.foldl addRoot b).build shadowedTree).result = .ok i ∧
      i.resources.map (fun r => (r.name, r.location.root.path.segments)) = names := by
  unfold shadowedNames at h
  cases hb : Builder.ofConfig config with
  | error f =>
    rw [hb] at h
    cases h
  | ok b =>
    rw [hb] at h
    obtain ⟨i, hi, hnames⟩ := map_eq_ok.1 h
    exact ⟨b, i, rfl, hi, hnames⟩

/-- The names `y` and `z` are lost, and `x` stands for the file in the second directory then. -/
theorem names_subset_of_stricter_shadowed :
    openConfig.Stricter closeConfig ∧ ∃ b b' i i', Builder.ofConfig openConfig = .ok b ∧
      Builder.ofConfig closeConfig = .ok b' ∧
      ((shadowedRoots.foldl addRoot b).build shadowedTree).result = .ok i ∧
      ((shadowedRoots.foldl addRoot b').build shadowedTree).result = .ok i' ∧
      i.resources.map (fun r => (r.name, r.location.root.path.segments)) =
        [((".gitignore" : Text), [("a" : Text)]), ("x", ["a"]), ("y", ["a"]), ("z", ["a"])] ∧
      i'.resources.map (fun r => (r.name, r.location.root.path.segments)) =
        [((".gitignore" : Text), [("a" : Text)]), ("x", ["b"])] ∧
      ∀ name ∈ i'.names, name ∈ i.names := by
  have hstricter : openConfig.Stricter closeConfig :=
    ⟨rfl, rfl, ⟨["y"], rfl, by decide⟩, fun _ => rfl, .inr ⟨by decide, .inl rfl⟩⟩
  have hopen : shadowedNames openConfig =
      .ok [(".gitignore", ["a"]), ("x", ["a"]), ("y", ["a"]), ("z", ["a"])] := by cbv
  have hclose : shadowedNames closeConfig = .ok [(".gitignore", ["a"]), ("x", ["b"])] := by cbv
  obtain ⟨b, i, hconfig, hbuild, hnames⟩ := exists_index_of_shadowedNames hopen
  obtain ⟨b', i', hconfig', hbuild', hnames'⟩ := exists_index_of_shadowedNames hclose
  exact ⟨hstricter, b, b', i, i', hconfig, hconfig', hbuild, hbuild', hnames, hnames',
    names_subset_of_stricter hstricter hconfig hconfig' shadowedRoots shadowedTree hbuild hbuild'⟩

end Builder
end ResourceFinder
