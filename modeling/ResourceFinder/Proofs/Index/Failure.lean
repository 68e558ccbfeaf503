import ResourceFinder.Index.Building
import ResourceFinder.Proofs.Index.Building
import ResourceFinder.Proofs.Scan.Failure

/-
Why an index of paths cannot be made.

Three things are done one after the other: the patterns of the configuration are read, the paths are
added as roots, and the roots are scanned.  Each of them fails for reasons of its own, and resolving
what was found fails for none.
-/

namespace ResourceFinder

namespace Root

variable {fs : FileSystem} {path : Text} {r : Refusals} {f : Fault}

/-- Why something is not made a root: it is none, it is an archive that cannot be read though it is
one, or what is there is withheld. -/
inductive Hinders : Fault → Prop where
  | invalid (e : InvalidRoot) : Hinders (.invalidRoot e)
  | archive (a : Archive.Fault) : Hinders (.archive a)
  | path (e : PathError) : Hinders (.path e)

theorem hinders_of_test {kind : Node → Bool} {p : Path}
    (h : (fs.test r kind p).mapError Fault.path = .error f) : Hinders f := by
  obtain ⟨e, -, rfl⟩ := mapError_eq_error h
  exact .path e

theorem hinders_of_ofDirectory (h : ofDirectory fs path r = .error f) : Hinders f := by
  obtain htest | ⟨found, -, hfound⟩ := bind_eq_error.1 h
  · exact hinders_of_test htest
  · obtain ⟨-, hroot⟩ | ⟨-, hinvalid⟩ := ite_eq_iff.1 hfound
    · cases hroot
    · obtain rfl := Except.error.inj hinvalid
      exact .invalid _

theorem hinders_of_ofArchive (h : ofArchive fs path r = .error f) : Hinders f := by
  obtain htest | ⟨found, -, hfound⟩ := bind_eq_error.1 h
  · exact hinders_of_test htest
  · obtain ⟨-, hroot⟩ | ⟨-, hinvalid⟩ := ite_eq_iff.1 hfound
    · split at hroot
      case h_1 => cases hroot
      case h_4 => 
        obtain rfl := Except.error.inj hroot
        exact .archive _
      all_goals
        obtain rfl := Except.error.inj hroot
        exact .invalid _
    · obtain rfl := Except.error.inj hinvalid
      exact .invalid _

theorem hinders_of_ofPath (h : ofPath fs path r = .error f) : Hinders f := by
  obtain htest | ⟨found, -, hfound⟩ := bind_eq_error.1 h
  · exact hinders_of_test htest
  · obtain ⟨-, hdirectory⟩ | ⟨-, hother⟩ := ite_eq_iff.1 hfound
    · exact hinders_of_ofDirectory hdirectory
    · obtain htest | ⟨found, -, hfound⟩ := bind_eq_error.1 hother
      · exact hinders_of_test htest
      · obtain ⟨-, harchive⟩ | ⟨-, hinvalid⟩ := ite_eq_iff.1 hfound
        · exact hinders_of_ofArchive harchive
        · obtain rfl := Except.error.inj hinvalid
          exact .invalid _

end Root

theorem kind_of_archiveEntries {fs : FileSystem} {p : Path} {f : Fault}
    (h : archiveEntries fs p = .error f) : (∃ e, f = .path e) ∨ ∃ a, f = .archive a := by
  obtain hread | ⟨octets, -, hentries⟩ := bind_eq_error.1 h
  · obtain ⟨e, -, rfl⟩ := mapError_eq_error hread
    exact .inl ⟨e, rfl⟩
  · obtain hdirectory | ⟨_, -, hdone⟩ := bind_eq_error.1 hentries
    · obtain ⟨a, -, rfl⟩ := mapError_eq_error hdirectory
      exact .inr ⟨a, rfl⟩
    · cases hdone

namespace Builder

theorem failure_append {p q : Progress} {f : Fault} (h : (p.append q).failure = some f) :
    p.failure = some f ∨ q.failure = some f := by
  cases hp : p.failure with
  | none =>
    rw [(resources_append hp).2] at h
    exact .inr h
  | some f' =>
    rw [Progress.append, hp] at h
    exact .inl (hp.symm.trans h)

/-- Where candidates fail to resolve for themselves alone, a root fails with its scan. -/
theorem failure_scanRoot {s : Scanner} {root : Root} {f : Fault}
    (hresolve : ∀ c f, s.resolve root c = .error f → ∃ why, f = .unresolvable why)
    (h : (scanRoot s root).failure = some f) : (s.scan root).failure = some f := by
  obtain ⟨-, hnone⟩ : _ ∧ (resolveAll s root (s.scan root).candidates).failure = none :=
    resolveAll_eq fun c _ => hresolve c
  have hfailure : ((resolveAll s root (s.scan root).candidates).append
      ⟨[], [], (s.scan root).failure⟩).failure = some f := h
  rwa [(resources_append hnone).2] at hfailure

theorem failure_scanRoots {s : Scanner} {roots : List Root} {f : Fault}
    (h : (scanRoots s roots).failure = some f) :
    ∃ root ∈ roots, (scanRoot s root).failure = some f := by
  induction roots with
  | nil => cases h
  | cons root rest ih =>
    rcases failure_append h with hhere | hrest
    · exact ⟨root, List.mem_cons_self, hhere⟩
    · obtain ⟨root', hmem, hroot⟩ := ih hrest
      exact ⟨root', List.mem_cons_of_mem root hmem, hroot⟩

theorem failure_build {b : Builder} {fs : FileSystem} {f : Fault}
    (hresolve : ∀ root c f, (b.scanner fs).resolve root c = .error f → ∃ why, f = .unresolvable why)
    (h : (b.build fs).result = .error f) :
    b.roots = [] ∧ f = .noRoots ∨
      ∃ root ∈ b.roots, ((b.scanner fs).scan root).failure = some f := by
  unfold build at h
  split at h
  case isTrue hempty =>
    exact .inl ⟨List.isEmpty_iff.1 hempty, (Except.error.inj h).symm⟩
  case isFalse =>
    cases hfailure : (scanRoots (b.scanner fs) b.roots).failure with
    | none =>
      simp only [hfailure] at h
      cases h
    | some f' =>
      simp only [hfailure] at h
      obtain rfl := Except.error.inj h
      obtain ⟨root, hmem, hroot⟩ := failure_scanRoots hfailure
      exact .inr ⟨root, hmem, failure_scanRoot (hresolve root) hroot⟩

theorem scanner_addRoot (b : Builder) (root : Root) : (b.addRoot root).scanner = b.scanner := by
  unfold addRoot
  split <;> rfl

theorem scanner_foldl_addRoot (b : Builder) (roots : List Root) :
    (roots.foldl addRoot b).scanner = b.scanner := by
  induction roots generalizing b with
  | nil => rfl
  | cons root roots ih => rw [List.foldl_cons, ih, scanner_addRoot]

theorem mem_roots_addRoot {b : Builder} {root r : Root} :
    r ∈ (b.addRoot root).roots ↔ r ∈ b.roots ∨ r = root := by
  unfold addRoot
  split
  case isTrue hmem =>
    refine ⟨.inl, fun h => ?_⟩
    rcases h with h | rfl
    · exact h
    · exact hmem
  case isFalse => simp

end Builder

namespace Index

section

variable {fs : FileSystem} {b : Builder} {paths : List Text}

theorem addPaths_eq_ok {b' : Builder} (h : (addPaths fs b paths).result = .ok b') :
    b'.scanner = b.scanner ∧
      ∀ r, r ∈ b'.roots ↔ r ∈ b.roots ∨ ∃ path ∈ paths, Root.ofPath fs path = .ok r := by
  induction paths generalizing b with
  | nil =>
    obtain rfl := Except.ok.inj h
    simp
  | cons path rest ih =>
    rw [addPaths] at h
    cases hroot : Root.ofPath fs path with
    | error f =>
      simp only [hroot] at h
      cases h
    | ok root =>
      simp only [hroot] at h
      obtain ⟨hscanner, hroots⟩ := ih h
      refine ⟨hscanner.trans (b.scanner_addRoot root), fun r => ?_⟩
      rw [hroots, Builder.mem_roots_addRoot, List.exists_mem_cons_iff, hroot, Except.ok.injEq,
        or_assoc, eq_comm (a := r)]

theorem addPaths_eq_error {f : Fault} (h : (addPaths fs b paths).result = .error f) :
    ∃ path ∈ paths, Root.ofPath fs path = .error f := by
  induction paths generalizing b with
  | nil => cases h
  | cons path rest ih =>
    rw [addPaths] at h
    cases hroot : Root.ofPath fs path with
    | error f' =>
      simp only [hroot] at h
      obtain rfl := Except.error.inj h
      exact ⟨path, List.mem_cons_self, hroot⟩
    | ok root =>
      simp only [hroot] at h
      obtain ⟨path', hmem, hpath⟩ := ih h
      exact ⟨path', List.mem_cons_of_mem path hmem, hpath⟩

end

/-- The reasons for which there is no index of some paths. -/
inductive Refuses (fs : FileSystem) (config : ScanConfig) (paths : List Text) : Fault → Prop where
  | pattern {line : Text} {e : Ignore.LineError} (hline : line ∈ config.effectiveExclude)
      (h : Ignore.Rule.ofLine line = .error e) : Refuses fs config paths (.ofIgnoreLine e)
  | path {path : Text} {f : Fault} (hpath : path ∈ paths) (h : Root.ofPath fs path = .error f) :
      Refuses fs config paths f
  | noPaths (h : paths = []) : Refuses fs config paths .noRoots
  | ignoreFile {path : Text} {root : Root} {file : Path} {e : Ignore.FileError}
      (hpath : path ∈ paths) (hroot : Root.ofPath fs path = .ok root)
      (hkind : root.kind = .directory) (hfile : Scan.IsIgnoreFile config root.path file)
      (h : Ignore.load fs file = .error e) : Refuses fs config paths (.ofIgnoreFile e)
  | archive {path : Text} {root : Root} {f : Fault} (hpath : path ∈ paths)
      (hroot : Root.ofPath fs path = .ok root) (hkind : root.kind = .archive)
      (h : archiveEntries fs root.path = .error f) : Refuses fs config paths f

section

variable {fs : FileSystem} {config : ScanConfig} {paths : List Text} {f : Fault}

theorem refuses_of_patternsOf (h : Scanner.patternsOf config = .error f) :
    Refuses fs config paths f := by
  obtain ⟨e, hlines, rfl⟩ := mapError_eq_error h
  obtain hmap | ⟨_, -, hdone⟩ := bind_eq_error.1 hlines
  · obtain ⟨line, hline, hrule⟩ := mapM_eq_error hmap
    exact .pattern hline hrule
  · cases hdone

theorem refuses_of_scan {patterns : Ignore.Rules} {path : Text} {root : Root} (hpath : path ∈ paths)
    (hroot : Root.ofPath fs path = .ok root)
    (h : ((Scanner.ofFileSystem config patterns fs).scan root).failure = some f) :
    Refuses fs config paths f := by
  cases hkind : root.kind with
  | directory =>
    simp only [Scanner.ofFileSystem, hkind] at h
    obtain ⟨file, e, hfile, hload, rfl⟩ := Scan.failure_ofDirectory h
    exact .ignoreFile hpath hroot hkind hfile hload
  | archive =>
    simp only [Scanner.ofFileSystem, hkind] at h
    exact .archive hpath hroot hkind (Scan.failure_ofArchive h)

/-- Paths that are all added leave a builder without roots only where there is no path. -/
theorem eq_nil_of_addPaths {b b' : Builder} (h : (addPaths fs b paths).result = .ok b')
    (hempty : b'.roots = []) : paths = [] := by
  cases paths with
  | nil => rfl
  | cons path rest =>
    obtain ⟨-, hroots⟩ := addPaths_eq_ok h
    cases hroot : Root.ofPath fs path with
    | error f =>
      rw [addPaths, hroot] at h
      cases h
    | ok root =>
      have hmem : root ∈ b'.roots := (hroots root).2 (.inr ⟨path, List.mem_cons_self, hroot⟩)
      rw [hempty] at hmem
      cases hmem

theorem refuses_of_build {patterns : Ignore.Rules} {b : Builder}
    (hadded : (addPaths fs (.ofScanner (.ofFileSystem config patterns)) paths).result = .ok b)
    (h : (b.build fs).result = .error f) : Refuses fs config paths f := by
  obtain ⟨hscanner, hroots⟩ := addPaths_eq_ok hadded
  have hhere : b.scanner fs = .ofFileSystem config patterns fs := by rw [hscanner]; rfl
  have hresolve : ∀ root c f, (b.scanner fs).resolve root c = .error f →
      ∃ why, f = .unresolvable why := by
    intro root c f hf
    rw [hhere] at hf
    exact Scanner.resolve_ofFileSystem hf
  obtain ⟨hempty, rfl⟩ | ⟨root, hmem, hscan⟩ := Builder.failure_build hresolve h
  · exact .noPaths (eq_nil_of_addPaths hadded hempty)
  · obtain hnone | ⟨path, hpath, hroot⟩ := (hroots root).1 hmem
    · cases hnone
    · rw [hhere] at hscan
      exact refuses_of_scan hpath hroot hscan

/-- An index is refused for these reasons and no others. -/
theorem refuses_of_ofPaths (h : (ofPaths fs config paths).result = .error f) :
    Refuses fs config paths f := by
  have hconfig : Builder.ofConfig config = (Scanner.patternsOf config).map
      fun patterns => .ofScanner (.ofFileSystem config patterns) := by
    rw [Builder.ofConfig]
    cases Scanner.patternsOf config <;> rfl
  unfold ofPaths at h
  rw [hconfig] at h
  cases hpatterns : Scanner.patternsOf config with
  | error f' =>
    rw [hpatterns] at h
    obtain rfl := Except.error.inj h
    exact refuses_of_patternsOf hpatterns
  | ok patterns =>
    simp only [hpatterns, Except.map] at h
    cases hadded : (addPaths fs (.ofScanner (.ofFileSystem config patterns)) paths).result with
    | error f' =>
      simp only [hadded] at h
      obtain rfl := Except.error.inj h
      obtain ⟨path, hpath, hroot⟩ := addPaths_eq_error hadded
      exact .path hpath hroot
    | ok b =>
      simp only [hadded] at h
      exact refuses_of_build hadded h

/-- An index of paths is built of their roots by the scanner of file systems. -/
theorem ofPaths_eq_ok {index : Index} (h : (ofPaths fs config paths).result = .ok index) :
    ∃ (patterns : Ignore.Rules) (b : Builder), b.scanner = Scanner.ofFileSystem config patterns ∧
      (∀ root ∈ b.roots, ∃ path ∈ paths, Root.ofPath fs path = .ok root) ∧
      (b.build fs).result = .ok index := by
  unfold ofPaths Builder.ofConfig at h
  cases hpatterns : Scanner.patternsOf config with
  | error f =>
    rw [hpatterns] at h
    cases h
  | ok patterns =>
    simp only [hpatterns, bind, Except.bind, pure, Except.pure] at h
    cases hadded : (addPaths fs (.ofScanner (.ofFileSystem config patterns)) paths).result with
    | error f =>
      simp only [hadded] at h
      cases h
    | ok b =>
      simp only [hadded] at h
      obtain ⟨hscanner, hroots⟩ := addPaths_eq_ok hadded
      exact ⟨patterns, b, hscanner, fun root hroot => ((hroots root).1 hroot).resolve_left nofun, h⟩

end

end Index
end ResourceFinder
