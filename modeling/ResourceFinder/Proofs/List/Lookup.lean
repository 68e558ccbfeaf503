import Mathlib.Data.List.Nodup

/-
Looking a key up in a list of pairs.
-/

namespace ResourceFinder

variable {α β : Type} [BEq α] [LawfulBEq α]

theorem mem_of_lookup {l : List (α × β)} {a : α} {b : β} (h : l.lookup a = some b) :
    (a, b) ∈ l := by
  obtain ⟨l₁, l₂, rfl, -⟩ := List.lookup_eq_some_iff.1 h
  simp

theorem lookup_of_mem {l : List (α × β)} (hnodup : (l.map (·.1)).Nodup) {a : α} {b : β}
    (h : (a, b) ∈ l) : l.lookup a = some b := by
  induction l with
  | nil => cases h
  | cons x l ih =>
    rw [List.map_cons, List.nodup_cons] at hnodup
    rcases List.mem_cons.1 h with rfl | h
    · simp
    · have hne : a ≠ x.1 := by
        rintro rfl
        exact hnodup.1 (List.mem_map.2 ⟨_, h, rfl⟩)
      have hbeq : (a == x.1) = false := by simpa using hne
      rw [List.lookup_cons, hbeq]
      exact ih hnodup.2 h

/-- Where no key occurs twice, looking up among some of the values is looking up and then asking
about the value. -/
theorem lookup_filter (p : β → Bool) (l : List (α × β)) (a : α) (h : (l.map (·.1)).Nodup) :
    (l.filter (p ·.2)).lookup a = (l.lookup a).filter p := by
  induction l with
  | nil => rfl
  | cons x l ih =>
    obtain ⟨b, v⟩ := x
    rw [List.map_cons, List.nodup_cons] at h
    by_cases hab : a = b
    · subst hab
      have hnone : l.lookup a = none := by
        rw [List.lookup_eq_none_iff]
        intro y hy
        have hne : a ≠ y.1 := by
          intro heq
          exact h.1 (List.mem_map.2 ⟨y, hy, heq.symm⟩)
        simpa using hne
      cases hv : p v with
      | true => simp [hv, Option.filter]
      | false => simp [hv, Option.filter, ih h.2, hnone]
    · have hbeq : (a == b) = false := by simpa using hab
      cases hv : p v with
      | true => simp [hv, List.lookup_cons, hbeq, ih h.2]
      | false => simp [hv, List.lookup_cons, hbeq, ih h.2]

/-- Where no key occurs twice, pairs without a value are looked up as keys that are missing. -/
theorem lookup_filterMap {γ : Type} (l : List (α × Option γ)) (a : α)
    (h : (l.map (·.1)).Nodup) :
    (l.filterMap fun (b, v) => v.map (b, ·)).lookup a = (l.lookup a).join := by
  refine Option.ext fun v => ?_
  have hkeys : ((l.filterMap fun (b, v) => v.map (b, ·)).map (·.1)).Sublist (l.map (·.1)) := by
    clear h
    induction l with
    | nil => exact .slnil
    | cons x l ih =>
      obtain ⟨b, _ | v⟩ := x
      · exact ih.cons b
      · exact ih.cons_cons b
  have hmem : (a, v) ∈ (l.filterMap fun (b, v) => v.map (b, ·)) ↔ (a, some v) ∈ l := by
    simp [List.mem_filterMap, Option.map_eq_some_iff]
  rw [Option.join_eq_some_iff]
  constructor
  · intro hlookup
    exact lookup_of_mem h (hmem.1 (mem_of_lookup hlookup))
  · intro hlookup
    exact lookup_of_mem (h.sublist hkeys) (hmem.2 (mem_of_lookup hlookup))

end ResourceFinder
