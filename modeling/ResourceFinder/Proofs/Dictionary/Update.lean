import Mathlib.Data.List.Nodup
import ResourceFinder.Proofs.Dictionary.Assignment

/-
A dictionary brought up to date with another one.

The pairs of the second are assigned in their order: a key that is in both keeps its place in the
first and has the value of the second, and what only the second has comes after the first.  Pairs
that are assigned one after the other can be gathered in a dictionary first, from any place on.
-/

namespace ResourceFinder
namespace Dictionary

variable {α : Type} {d d' : Dictionary α}

theorem update_cons (d : Dictionary α) (key : Text) (value : α) (d' : Dictionary α) :
    d.update ((key, value) :: d') = (d.insert key value).update d' := rfl

/-! ## Keys and values -/

theorem keys_cons (key : Text) (value : α) (d : Dictionary α) :
    keys ((key, value) :: d) = key :: d.keys := rfl

theorem mem_keys_insert {key key' : Text} {value : α} :
    key' ∈ (d.insert key value).keys ↔ key' ∈ d.keys ∨ key' = key := by
  rw [keys_insert]
  by_cases h : key ∈ d.keys
  · rw [if_pos h]
    refine ⟨.inl, fun hmem => hmem.elim id ?_⟩
    rintro rfl
    exact h
  · rw [if_neg h, List.mem_append, List.mem_singleton]

theorem get?_eq_none {key : Text} (h : key ∉ d.keys) : d.get? key = none := by
  induction d with
  | nil => rfl
  | cons entry d ih =>
    obtain ⟨k, v⟩ := entry
    rw [keys_cons, List.mem_cons, not_or] at h
    rw [get?_cons, if_neg h.1, ih h.2]

/-- The keys of the first keep their places, and new ones follow in the order of the second. -/
theorem keys_update (d : Dictionary α) (h : (keys d').Nodup) :
    (d.update d').keys = d.keys ++ (keys d').filter (· ∉ d.keys) := by
  induction d' generalizing d with
  | nil => exact (List.append_nil _).symm
  | cons entry d' ih =>
    obtain ⟨k, v⟩ := entry
    rw [keys_cons, List.nodup_cons] at h
    rw [update_cons, ih _ h.2, keys_insert, keys_cons]
    by_cases hk : k ∈ d.keys
    · rw [if_pos hk, List.filter_cons_of_neg (by simpa using hk)]
    · have hothers : (keys d').filter (· ∉ d.keys ++ [k]) = (keys d').filter (· ∉ d.keys) := by
        refine List.filter_congr fun key hkey => ?_
        have hne : key ≠ k := fun heq => h.1 (heq ▸ hkey)
        simp [hne]
      rw [if_neg hk, hothers, List.filter_cons_of_pos (by simpa using hk), List.append_assoc]
      rfl

/-- The values of the second come before those of the first. -/
theorem get?_update (d : Dictionary α) (h : (keys d').Nodup) (key : Text) :
    (d.update d').get? key = (d'.get? key).or (d.get? key) := by
  induction d' generalizing d with
  | nil => rfl
  | cons entry d' ih =>
    obtain ⟨k, v⟩ := entry
    rw [keys_cons, List.nodup_cons] at h
    rw [update_cons, ih _ h.2, get?_insert, get?_cons]
    by_cases hkey : key = k
    · rw [if_pos hkey, if_pos hkey, get?_eq_none (hkey ▸ h.1)]
      rfl
    · rw [if_neg hkey, if_neg hkey]

/-! ## One assignment after the other -/

theorem insert_insert_self (key : Text) (value value' : α) (d : Dictionary α) :
    (d.insert key value').insert key value = d.insert key value := by
  induction d with
  | nil => simp [insert]
  | cons entry d ih =>
    obtain ⟨k, v⟩ := entry
    by_cases hk : k = key
    · simp [insert, hk]
    · simp [insert, hk, ih]

/-- The assignment to a key that is there already can be made before that to another key. -/
theorem insert_comm {key key' : Text} (hkey : key ∈ d.keys) (hne : key ≠ key') (value value' : α) :
    (d.insert key' value').insert key value = (d.insert key value).insert key' value' := by
  induction d with
  | nil => cases hkey
  | cons entry d ih =>
    obtain ⟨k, v⟩ := entry
    by_cases hk : k = key
    · have hk' : k ≠ key' := hk ▸ hne
      simp only [insert, if_pos hk, if_neg hk']
    · have hmem : key ∈ keys d := (List.mem_cons.1 hkey).resolve_left (Ne.symm hk)
      by_cases hk' : k = key'
      · simp only [insert, if_neg hk, if_pos hk']
      · simp only [insert, if_neg hk, if_neg hk', ih hmem]

/-- A key that is there already can be assigned before the pairs of a dictionary without it. -/
theorem insert_update {key : Text} (hkey : key ∈ d.keys) (hnew : key ∉ keys d') (value : α) :
    (d.update d').insert key value = (d.insert key value).update d' := by
  induction d' generalizing d with
  | nil => rfl
  | cons entry d' ih =>
    obtain ⟨k, v⟩ := entry
    rw [keys_cons, List.mem_cons, not_or] at hnew
    rw [update_cons, update_cons, ih (mem_keys_insert.2 (.inl hkey)) hnew.2,
      insert_comm hkey hnew.1]

/-- An assignment in the second dictionary is one after all others. -/
theorem update_insert (d : Dictionary α) (h : (keys d').Nodup) (key : Text) (value : α) :
    d.update (d'.insert key value) = (d.update d').insert key value := by
  induction d' generalizing d with
  | nil => rfl
  | cons entry d' ih =>
    obtain ⟨k, v⟩ := entry
    rw [keys_cons, List.nodup_cons] at h
    by_cases hk : k = key
    · subst hk
      rw [insert, if_pos rfl, update_cons, update_cons,
        insert_update (mem_keys_insert.2 (.inr rfl)) h.1, insert_insert_self]
    · rw [insert, if_neg hk, update_cons, update_cons, ih _ h.2]

theorem nodup_keys_ofPairs (pairs : List (Text × α)) : (ofPairs pairs).keys.Nodup := by
  induction pairs using List.reverseRecOn with
  | nil => exact List.nodup_nil
  | append_singleton pairs entry ih =>
    obtain ⟨k, v⟩ := entry
    rw [ofPairs_concat]
    exact nodup_keys_insert ih k v

theorem ofPairs_append (pairs pairs' : List (Text × α)) :
    ofPairs (pairs ++ pairs') = (ofPairs pairs).update (ofPairs pairs') := by
  induction pairs' using List.reverseRecOn with
  | nil => rw [List.append_nil]; rfl
  | append_singleton pairs' entry ih =>
    rw [← List.append_assoc, ofPairs_concat, ih, ofPairs_concat,
      update_insert _ (nodup_keys_ofPairs pairs')]

/-! ## Other values under the same keys -/

/-- Assigning to a key that is there changes one value. -/
theorem insert_eq_map (h : d.keys.Nodup) {key : Text} (hkey : key ∈ d.keys) (value : α) :
    d.insert key value = d.map fun e => (e.1, if e.1 = key then value else e.2) := by
  induction d with
  | nil => cases hkey
  | cons entry d ih =>
    obtain ⟨k, v⟩ := entry
    obtain ⟨hk, hd⟩ := List.nodup_cons.1 h
    by_cases heq : k = key
    · have hrest : ∀ e ∈ d, (e.1, if e.1 = key then value else e.2) = e := by
        intro e he
        have hne : e.1 ≠ key := fun h => hk (List.mem_map.2 ⟨e, he, h.trans heq.symm⟩)
        rw [if_neg hne]
      rw [insert, if_pos heq, List.map_cons, if_pos heq, List.map_congr_left hrest, List.map_id']
    · have hmem : key ∈ keys d := (List.mem_cons.1 hkey).resolve_left (Ne.symm heq)
      rw [insert, if_neg heq, ih hd hmem, List.map_cons, if_neg heq]

theorem get?_map_values {β : Type} (f : Text → α → β) (key : Text) (d : Dictionary α) :
    get? key (d.map fun e => (e.1, f e.1 e.2)) = (d.get? key).map (f key) := by
  induction d with
  | nil => rfl
  | cons entry d ih =>
    obtain ⟨k, v⟩ := entry
    rw [List.map_cons, get?_cons, get?_cons, ih]
    by_cases h : key = k
    · rw [if_pos h, if_pos h, h]
      rfl
    · rw [if_neg h, if_neg h]

end Dictionary
end ResourceFinder
