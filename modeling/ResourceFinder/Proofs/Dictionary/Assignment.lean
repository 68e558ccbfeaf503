import Mathlib.Data.List.Induction
import ResourceFinder.Dictionary

/-
What a dictionary made by assignments holds: a key stands where it was first assigned, with the value
that it was last assigned.
-/

namespace ResourceFinder
namespace Dictionary

variable {α : Type}

theorem get?_cons (key k : Text) (v : α) (d : Dictionary α) :
    get? key ((k, v) :: d) = if key = k then some v else d.get? key := by
  simp only [get?, List.lookup_cons]
  by_cases h : key = k
  · simp [h]
  · simp [h, beq_eq_false_iff_ne.2 h]

theorem get?_insert (key key' : Text) (value : α) (d : Dictionary α) :
    (d.insert key value).get? key' = if key' = key then some value else d.get? key' := by
  induction d with
  | nil => rw [insert, get?_cons]
  | cons entry d ih =>
    obtain ⟨k, v⟩ := entry
    by_cases hk : k = key
    · rw [insert, if_pos hk, get?_cons, get?_cons, hk]
      by_cases h : key' = key <;> simp [h]
    · rw [insert, if_neg hk, get?_cons, get?_cons, ih]
      by_cases h : key' = k
      · simp [h, hk]
      · simp [h]

theorem ofPairs_concat (pairs : List (Text × α)) (key : Text) (value : α) :
    ofPairs (pairs ++ [(key, value)]) = (ofPairs pairs).insert key value := by
  simp [ofPairs]

theorem keys_ofPairs (pairs : List (Text × α)) :
    (ofPairs pairs).keys = (pairs.map (·.1)).eraseDups := by
  induction pairs using List.reverseRecOn with
  | nil => rfl
  | append_singleton pairs entry ih =>
    obtain ⟨key, value⟩ := entry
    have hmem : key ∈ (ofPairs pairs).keys ↔ key ∈ pairs.map (·.1) := by
      rw [ih, List.mem_eraseDups]
    rw [ofPairs_concat, keys_insert, List.map_append, List.eraseDups_append, ← ih]
    by_cases h : key ∈ pairs.map (·.1)
    · rw [if_pos (hmem.2 h)]
      simp [List.removeAll, h]
    · rw [if_neg (mt hmem.1 h)]
      simp [List.removeAll, List.eraseDups_cons, h]

theorem get?_ofPairs (pairs : List (Text × α)) (key : Text) :
    (ofPairs pairs).get? key = get? key pairs.reverse := by
  induction pairs using List.reverseRecOn with
  | nil => rfl
  | append_singleton pairs entry ih =>
    obtain ⟨k, v⟩ := entry
    rw [ofPairs_concat, get?_insert, ih, List.reverse_concat, get?_cons]

theorem mem_keys_ofPairs {pairs : List (Text × α)} {key : Text} :
    key ∈ (ofPairs pairs).keys ↔ key ∈ pairs.map (·.1) := by
  rw [keys_ofPairs, List.mem_eraseDups]

/-! ## Other keys and values -/

section

variable {β : Type} {f : Text → Text} {g : α → β}

theorem insert_map (key : Text) (value : α) {d : Dictionary α}
    (hf : ∀ k ∈ d.keys, f k = f key → k = key) :
    insert (f key) (g value) (d.map fun entry => (f entry.1, g entry.2)) =
      (d.insert key value).map fun entry => (f entry.1, g entry.2) := by
  induction d with
  | nil => rfl
  | cons entry d ih =>
    obtain ⟨k, v⟩ := entry
    obtain ⟨hk, hd⟩ := List.forall_mem_cons.1 hf
    by_cases heq : k = key
    · rw [List.map_cons, insert, insert, if_pos heq, if_pos (congrArg f heq), List.map_cons]
    · rw [List.map_cons, insert, insert, if_neg heq, if_neg (mt hk heq), List.map_cons, ih hd]

/-- Keys that stay apart are assigned alike under other names. -/
theorem ofPairs_map (pairs : List (Text × α))
    (hf : ∀ k ∈ pairs.map (·.1), ∀ k' ∈ pairs.map (·.1), f k = f k' → k = k') :
    ofPairs (pairs.map fun entry => (f entry.1, g entry.2)) =
      (ofPairs pairs).map fun entry => (f entry.1, g entry.2) := by
  induction pairs using List.reverseRecOn with
  | nil => rfl
  | append_singleton pairs entry ih =>
    obtain ⟨key, value⟩ := entry
    rw [List.map_append] at hf
    have hearlier : ∀ k ∈ pairs.map (·.1), ∀ k' ∈ pairs.map (·.1), f k = f k' → k = k' :=
      fun k hk k' hk' => hf k (List.mem_append_left _ hk) k' (List.mem_append_left _ hk')
    have hkey : ∀ k ∈ (ofPairs pairs).keys, f k = f key → k = key := by
      intro k hk
      exact hf k (List.mem_append_left _ (mem_keys_ofPairs.1 hk)) key
        (List.mem_append_right _ (List.mem_singleton_self key))
    rw [List.map_append, List.map_singleton, ofPairs_concat, ofPairs_concat, ih hearlier,
      insert_map key value hkey]

end

end Dictionary
end ResourceFinder
