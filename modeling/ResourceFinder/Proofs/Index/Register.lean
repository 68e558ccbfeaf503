import ResourceFinder.Proofs.Dictionary.Update
import ResourceFinder.Proofs.Index.Building

/-
The index of some resources, as a sequence and as a register of names.

An index can be made in one pass that registers each resource under its name unless the name is
taken: the register then holds the resources in the order of the index, and what is looked up in the
index is what is looked up in the register.  Both are the first resources of each name, so an index
made of its own resources is the same, and of a list behind another one only new names are added.
-/

namespace ResourceFinder

namespace Dictionary

variable {α : Type}

theorem foldl_insertNew (name : α → Text) (items : List α) (d : Dictionary α) :
    items.foldl (fun d a => d.insertNew (name a) a) d =
      d ++ (distinctFrom name d.keys items).map fun a => (name a, a) := by
  induction items generalizing d with
  | nil => exact (List.append_nil d).symm
  | cons a rest ih =>
    rw [List.foldl_cons, ih, insertNew, distinctFrom]
    by_cases ha : d.keys.contains (name a) = true
    · rw [if_pos ha, if_pos ha]
    · have hkeys : ∀ n, n ∈ keys (d ++ [(name a, a)]) ↔ n ∈ name a :: d.keys := by
        intro n
        rw [keys, List.map_append, List.mem_append, List.mem_cons, or_comm]
        simp [keys]
      rw [if_neg ha, if_neg ha, distinctFrom_congr hkeys, List.map_cons, List.append_assoc,
        List.singleton_append]

/-- Items registered under their names are found by them. -/
theorem get?_map_name (name : α → Text) (items : List α) (key : Text) :
    get? key (items.map fun a => (name a, a)) = items.find? (name · = key) := by
  induction items with
  | nil => rfl
  | cons a rest ih =>
    rw [List.map_cons, get?_cons, ih]
    by_cases h : name a = key
    · rw [if_pos h.symm, List.find?_cons_of_pos (by simpa using h)]
    · rw [if_neg (Ne.symm h), List.find?_cons_of_neg (by simpa using h)]

end Dictionary

namespace Index

theorem register_eq (resources : List Resource) :
    Resource.register resources =
      (ofResources resources).resources.map fun r => (r.name, r) :=
  Dictionary.foldl_insertNew Resource.name resources []

theorem get?_register (resources : List Resource) (name : Text) :
    (Resource.register resources).get? name = (ofResources resources).get? name := by
  rw [register_eq, Dictionary.get?_map_name]
  rfl

theorem keys_register (resources : List Resource) :
    (Resource.register resources).keys = (ofResources resources).names := by
  rw [register_eq, Dictionary.keys, List.map_map]
  rfl

theorem get?_eq_some_iff {resources : List Resource} {name : Text} {r : Resource} :
    (ofResources resources).get? name = some r ↔
      r.name = name ∧ ∃ k, FirstAt Resource.name resources k r := by
  rw [get?_ofResources]
  constructor
  · intro h
    have hname : r.name = name := by simpa using List.find?_some h
    obtain ⟨k, first, hfirst, heq⟩ := exists_firstAt Resource.name (List.mem_of_find?_eq_some h)
    have hfind := hfirst.find?_eq
    rw [heq, hname, h] at hfind
    obtain rfl := Option.some.inj hfind
    exact ⟨hname, k, hfirst⟩
  · intro ⟨hname, k, hfirst⟩
    rw [← hname]
    exact hfirst.find?_eq

theorem ofResources_resources (i : Index) : ofResources i.resources = i := by
  obtain ⟨resources, hdistinct⟩ := i
  have hsame : distinctBy Resource.name resources = resources := distinctBy_of_nodup hdistinct
  simp only [ofResources, hsame]

/-- The index of some resources holds the first one of each name, in their order, and is the same as
the register of them: what is found under a name, which names there are, and how many.  An index made
of the resources of an index is that index.  The index of these and more resources is this index,
followed by what the index of the others has under new names. -/
theorem ofResources_first (resources : List Resource) :
    let i := ofResources resources
    let register := Resource.register resources
    (∃ places : List Nat, places.Pairwise (· < ·) ∧
      i.resources = places.filterMap (resources[·]?) ∧
      ∀ k, k ∈ places ↔ ∃ r, FirstAt Resource.name resources k r) ∧
    i.names.Nodup ∧ i.names = i.resources.map Resource.name ∧ i.size = i.resources.length ∧
    (∀ name r, i.get? name = some r ↔ r.name = name ∧ ∃ k, FirstAt Resource.name resources k r) ∧
    (∀ name, i.get? name = none ↔ name ∉ resources.map Resource.name) ∧
    (∀ name, i.contains name = true ↔ ∃ r ∈ i.resources, r.name = name) ∧
    (∀ r ∈ i.resources, i.get? r.name = some r) ∧
    (register = i.resources.map (fun r => (r.name, r)) ∧ i.names = register.keys ∧
      i.size = register.length ∧ (∀ name, i.get? name = register.get? name) ∧
      ∀ name, i.contains name = register.keys.contains name) ∧
    (∀ index : Index, ofResources index.resources = index) ∧
    ∀ more, (ofResources (resources ++ more)).resources =
      i.resources ++ (ofResources more).resources.filter (·.name ∉ resources.map Resource.name) := by
  intro i register
  have hregister : register = i.resources.map fun r => (r.name, r) := register_eq resources
  have hnone : ∀ name, i.get? name = none ↔ name ∉ resources.map Resource.name := by
    intro name
    rw [get?_ofResources, List.find?_eq_none, List.mem_map]
    simp
  have hkept : ∀ r ∈ i.resources, i.get? r.name = some r := by
    intro r hr
    obtain ⟨k, first, hfirst, hname⟩ := exists_firstAt Resource.name hr
    have hget : i.get? r.name = some first := hname ▸ hfirst.find?_eq
    have hfirst : first ∈ i.resources := List.mem_of_find?_eq_some hget
    rw [hget, List.inj_on_of_nodup_map i.distinct hfirst hr hname]
  have hplaces := exists_places Resource.name resources fun _ => true
  simp only [List.filter_true, and_true] at hplaces
  refine ⟨hplaces, i.distinct, rfl, rfl, fun name r => get?_eq_some_iff, hnone, fun name => ?_,
    hkept, ⟨hregister, (keys_register resources).symm, ?_,
      fun name => (get?_register resources name).symm, fun name => ?_⟩, ofResources_resources,
    distinctBy_append Resource.name resources⟩
  · rw [contains, List.contains_iff_mem, names, List.mem_map]
  · rw [hregister, List.length_map]
    rfl
  · rw [keys_register]
    rfl

end Index
end ResourceFinder
