import ResourceFinder.Index.Building
import ResourceFinder.Proofs.Index.Distinct

/-
What the index holds that is built from some roots.

A scan that meets no failure but unresolvable candidates gives the resources of all candidates that
resolve, in order.  Repeated names are dropped from the resources of all roots together and after
resolving, so a candidate that does not resolve hides nothing.
-/

namespace ResourceFinder

namespace Scanner

/-- The resource of a candidate that resolves. -/
def resource? (s : Scanner) (root : Root) (c : Candidate) : Option Resource :=
  match s.resolve root c with
  | .ok l => some ⟨c.name, l⟩
  | .error _ => none

/-- The resources of a root, with repeated names. -/
def resourcesOf (s : Scanner) (root : Root) : List Resource :=
  (s.scan root).candidates.filterMap (s.resource? root)

/-- No scan fails, and where a candidate has no location that concerns it alone. -/
structure IsSound (s : Scanner) (root : Root) : Prop where
  scan : (s.scan root).failure = none
  resolve : ∀ c ∈ (s.scan root).candidates, ∀ f, s.resolve root c = .error f →
    ∃ why, f = .unresolvable why

end Scanner

namespace Builder

/-- The resources of all roots, in the order of the roots and of their scans. -/
def found (b : Builder) (fs : FileSystem) : List Resource :=
  b.roots.flatMap (b.scanner fs).resourcesOf

theorem resources_append {p q : Progress} (h : p.failure = none) :
    (p.append q).resources = p.resources ++ q.resources ∧ (p.append q).failure = q.failure := by
  simp [Progress.append, h]

theorem resolveOne_eq {s : Scanner} {root : Root} {c : Candidate}
    (h : ∀ f, s.resolve root c = .error f → ∃ why, f = .unresolvable why) :
    (resolveOne s root c).resources = (s.resource? root c).toList ∧
      (resolveOne s root c).failure = none := by
  unfold resolveOne Scanner.resource?
  cases hc : s.resolve root c with
  | ok l => exact ⟨rfl, rfl⟩
  | error f =>
    obtain ⟨why, rfl⟩ := h f hc
    exact ⟨rfl, rfl⟩

theorem resolveAll_eq {s : Scanner} {root : Root} {candidates : List Candidate}
    (h : ∀ c ∈ candidates, ∀ f, s.resolve root c = .error f → ∃ why, f = .unresolvable why) :
    (resolveAll s root candidates).resources = candidates.filterMap (s.resource? root) ∧
      (resolveAll s root candidates).failure = none := by
  induction candidates with
  | nil => exact ⟨rfl, rfl⟩
  | cons c rest ih =>
    obtain ⟨hc, hrest⟩ := List.forall_mem_cons.1 h
    obtain ⟨hresource, hok⟩ := resolveOne_eq hc
    obtain ⟨hresources, hfailure⟩ := ih hrest
    obtain ⟨happend, hnone⟩ := resources_append (q := resolveAll s root rest) hok
    rw [resolveAll, happend, hnone, hresource, hresources]
    refine ⟨?_, hfailure⟩
    cases hr : s.resource? root c with
    | none => rw [List.filterMap_cons_none hr]; rfl
    | some r => rw [List.filterMap_cons_some hr]; rfl

theorem scanRoot_eq {s : Scanner} {root : Root} (h : s.IsSound root) :
    (scanRoot s root).resources = s.resourcesOf root ∧ (scanRoot s root).failure = none := by
  obtain ⟨hresources, hnone⟩ := resolveAll_eq h.resolve
  obtain ⟨happend, hfailure⟩ :=
    resources_append (q := ⟨[], [], (s.scan root).failure⟩) hnone
  refine ⟨?_, hfailure.trans h.scan⟩
  show (Progress.append _ _).resources = _
  rw [happend, hresources, List.append_nil]
  rfl

theorem scanRoots_eq {s : Scanner} {roots : List Root} (h : ∀ root ∈ roots, s.IsSound root) :
    (scanRoots s roots).resources = roots.flatMap s.resourcesOf ∧
      (scanRoots s roots).failure = none := by
  induction roots with
  | nil => exact ⟨rfl, rfl⟩
  | cons root rest ih =>
    obtain ⟨hroot, hrest⟩ := List.forall_mem_cons.1 h
    obtain ⟨hresources, hnone⟩ := scanRoot_eq hroot
    obtain ⟨hmore, hfailure⟩ := ih hrest
    obtain ⟨happend, hfailure'⟩ := resources_append (q := scanRoots s rest) hnone
    rw [scanRoots, happend, hresources, hmore, hfailure']
    exact ⟨rfl, hfailure⟩

/-- Building succeeds and keeps the first resource of each name. -/
theorem build_eq {b : Builder} {fs : FileSystem} (hne : b.roots ≠ [])
    (h : ∀ root ∈ b.roots, (b.scanner fs).IsSound root) :
    (b.build fs).result = .ok (Index.ofResources (b.found fs)) := by
  obtain ⟨hresources, hnone⟩ := scanRoots_eq h
  have hempty : b.roots.isEmpty = false := by simpa using hne
  simp only [build, hempty, hnone, hresources, Bool.false_eq_true, if_false]
  rfl

end Builder

namespace Index

theorem names_ofResources (resources : List Resource) :
    (ofResources resources).names = (resources.map Resource.name).eraseDups :=
  map_distinctBy Resource.name resources

theorem get?_ofResources (resources : List Resource) (name : Text) :
    (ofResources resources).get? name = resources.find? (·.name = name) :=
  find?_distinctBy resources name

theorem contains_eq_isSome (i : Index) (name : Text) : i.contains name = (i.get? name).isSome := by
  rw [Bool.eq_iff_iff, contains, List.contains_iff_mem, get?, List.find?_isSome]
  simp [names]

theorem ofResources_prefix (resources more : List Resource) :
    (ofResources resources).resources <+: (ofResources (resources ++ more)).resources :=
  distinctBy_prefix Resource.name resources more

end Index

namespace Builder

section

variable {b b' : Builder} {fs : FileSystem}

/-- The resources of the first roots are the first resources. -/
theorem found_take (hscanner : b'.scanner = b.scanner) {k : Nat}
    (hroots : b'.roots = b.roots.take k) :
    b.found fs = b'.found fs ++ (b.roots.drop k).flatMap (b.scanner fs).resourcesOf := by
  rw [found, found, hscanner, hroots, ← List.flatMap_append, List.take_append_drop]

theorem mem_names_of_perm (hscanner : b'.scanner = b.scanner) (hroots : b'.roots.Perm b.roots)
    (name : Text) : name ∈ (Index.ofResources (b'.found fs)).names ↔
      name ∈ (Index.ofResources (b.found fs)).names := by
  have hfound : ∀ r, r ∈ b'.found fs ↔ r ∈ b.found fs := by
    intro r
    rw [found, found, hscanner, List.mem_flatMap, List.mem_flatMap]
    simp only [hroots.mem_iff]
  rw [Index.names_ofResources, Index.names_ofResources, List.mem_eraseDups, List.mem_eraseDups]
  simp only [List.mem_map, hfound]

end

/-- Building from roots that can be scanned gives the index of what was found in them: its names
are the names found, without repetitions and in order, and under a name is the first resource found
of that name.  Further roots only add to the end of it, and the order of the roots does not count
for which names there are. -/
theorem build_spec {b : Builder} {fs : FileSystem} (hne : b.roots ≠ [])
    (hsound : ∀ root ∈ b.roots, (b.scanner fs).IsSound root) :
    ∃ index, (b.build fs).result = .ok index ∧
      index.names = ((b.found fs).map Resource.name).eraseDups ∧
      index.size = index.names.length ∧
      (∀ name, index.get? name = (b.found fs).find? (·.name = name)) ∧
      (∀ name, index.contains name = true ↔ name ∈ index.names) ∧
      (∀ name, index.contains name = (index.get? name).isSome) ∧
      (∀ b' : Builder, ∀ k, 0 < k → b'.scanner = b.scanner → b'.roots = b.roots.take k →
        ∃ index', (b'.build fs).result = .ok index' ∧ index'.resources <+: index.resources) ∧
      ∀ b' : Builder, b'.scanner = b.scanner → b'.roots.Perm b.roots →
        ∃ index', (b'.build fs).result = .ok index' ∧
          ∀ name, name ∈ index'.names ↔ name ∈ index.names := by
  refine ⟨Index.ofResources (b.found fs), build_eq hne hsound, Index.names_ofResources _, ?_,
    Index.get?_ofResources _, fun name => List.contains_iff_mem, Index.contains_eq_isSome _, ?_, ?_⟩
  · rw [Index.size, Index.names, List.length_map]
  · intro b' k hk hscanner hroots
    refine ⟨Index.ofResources (b'.found fs), build_eq ?_ ?_, ?_⟩
    · rw [hroots]
      intro htake
      rcases List.take_eq_nil_iff.1 htake with hzero | hnil
      · omega
      · exact hne hnil
    · intro root hroot
      rw [hscanner]
      rw [hroots] at hroot
      exact hsound root (List.mem_of_mem_take hroot)
    · rw [found_take hscanner hroots]
      exact Index.ofResources_prefix _ _
  · intro b' hscanner hroots
    refine ⟨Index.ofResources (b'.found fs), build_eq ?_ ?_, mem_names_of_perm hscanner hroots⟩
    · intro hnil
      rw [hnil] at hroots
      exact hne hroots.nil_eq.symm
    · intro root hroot
      rw [hscanner]
      exact hsound root (hroots.mem_iff.1 hroot)

/-- Two roots with the same two names, of which the first does not resolve one. -/
def twoRoots : Builder where
  scanner _ :=
    { scan := fun _ => .ofCandidates [⟨"x", "x"⟩, ⟨"y", "y"⟩]
      resolve := fun root c =>
        if c.name = "x" ∧ root.kind = .archive then
          .error (.unresolvable (.reported "gone"))
        else .ok ⟨root, c.name⟩ }
  roots := [⟨.archive, ⟨.root, ["a"]⟩⟩, ⟨.directory, ⟨.root, ["b"]⟩⟩]
  distinct := by decide

theorem build_spec_twoRoots : twoRoots.roots ≠ [] ∧
    (∀ root ∈ twoRoots.roots, (twoRoots.scanner ⟨[], []⟩).IsSound root) ∧
    ∃ index, (twoRoots.build ⟨[], []⟩).result = .ok index ∧ index.names = [("y" : Text), "x"] ∧
      index.get? "x" = some ⟨"x", ⟨⟨.directory, ⟨.root, ["b"]⟩⟩, "x"⟩⟩ ∧
      index.get? "y" = some ⟨"y", ⟨⟨.archive, ⟨.root, ["a"]⟩⟩, "y"⟩⟩ := by
  have hsound : ∀ root ∈ twoRoots.roots, (twoRoots.scanner ⟨[], []⟩).IsSound root := by
    intro root _
    refine ⟨rfl, fun c _ f hf => ?_⟩
    simp only [twoRoots] at hf
    split at hf
    · exact ⟨_, (Except.error.inj hf).symm⟩
    · cases hf
  obtain ⟨index, hbuild, hnames, -, hget, -⟩ := build_spec (by decide) hsound
  refine ⟨by decide, hsound, index, hbuild, ?_, ?_, ?_⟩
  · rw [hnames]
    rfl
  · rw [hget]
    rfl
  · rw [hget]
    rfl

end Builder
end ResourceFinder
