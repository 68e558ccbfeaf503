import ResourceFinder.Text.Basic

/-
Texts in units of sixteen bits.

A code point above the range of a unit is written as two surrogates.  Texts of scalar values can be
told apart by their units, since no scalar value is a surrogate.
-/

namespace ResourceFinder
namespace CodePoint

/-- The units of a code point: its number, or those of two surrogates. -/
def units (c : CodePoint) : List Nat :=
  if c.code < 0x10000 then [c.code]
  else [0xD800 + (c.code - 0x10000) / 0x400, 0xDC00 + (c.code - 0x10000) % 0x400]

/-- Each unit as a code point of its own. -/
def inUnits (c : CodePoint) : Text := c.units.filterMap ofNat?

theorem code_lt (c : CodePoint) : c.code < 0x110000 := by
  cases c with
  | char ch =>
    have hvalid : ch.toNat < 0xD800 ∨ 0xDFFF < ch.toNat ∧ ch.toNat < 0x110000 := ch.valid
    show ch.toNat < 0x110000
    omega
  | surrogate i =>
    have hi := i.isLt
    show 0xD800 + i.val < 0x110000
    omega

theorem ofNat?_eq_some_iff {n : Nat} {p : CodePoint} : ofNat? n = some p ↔ p.code = n := by
  constructor
  · intro h
    by_cases hvalid : n.isValidChar
    · rw [ofNat?, dif_pos hvalid] at h
      rw [← Option.some.inj h]
      rfl
    · rw [ofNat?, dif_neg hvalid] at h
      split at h
      case isTrue hsurrogate =>
        rw [← Option.some.inj h]
        exact Nat.add_sub_cancel' hsurrogate.1
      case isFalse => cases h
  · intro h
    cases p with
    | char c =>
      have hvalid : n.isValidChar := h ▸ c.valid
      rw [ofNat?, dif_pos hvalid]
      exact congrArg some (code_inj h.symm)
    | surrogate i =>
      have hn : 0xD800 + i.val = n := h
      have hi := i.isLt
      have hvalid : ¬n.isValidChar := by
        intro hvalid
        have hscalar : n < 0xD800 ∨ 0xDFFF < n ∧ n < 0x110000 := hvalid
        omega
      have hrange : 0xD800 ≤ n ∧ n < 0xE000 := by omega
      have hcode : 0xD800 + (n - 0xD800) = 0xD800 + i.val := by omega
      rw [ofNat?, dif_neg hvalid, dif_pos hrange]
      exact congrArg some (code_inj hcode)

theorem exists_ofNat? {n : Nat} (h : n < 0x110000) : ∃ p, ofNat? n = some p := by
  by_cases hvalid : n.isValidChar
  · exact ⟨_, dif_pos hvalid⟩
  · have hrange : ¬(n < 0xD800 ∨ 0xDFFF < n ∧ n < 0x110000) := hvalid
    have hsurrogate : 0xD800 ≤ n ∧ n < 0xE000 := by omega
    exact ⟨_, (dif_neg hvalid).trans (dif_pos hsurrogate)⟩

theorem units_lt {c : CodePoint} {n : Nat} (h : n ∈ c.units) : n < 0x10000 := by
  have hc := c.code_lt
  unfold units at h
  split at h
  case isTrue hsmall =>
    rw [List.mem_singleton.1 h]
    exact hsmall
  case isFalse =>
    simp only [List.mem_cons, List.not_mem_nil, or_false] at h
    omega

theorem inUnits_of_lt {c : CodePoint} (h : c.code < 0x10000) : c.inUnits = [c] := by
  have hc : ofNat? c.code = some c := ofNat?_eq_some_iff.2 rfl
  rw [inUnits, units, if_pos h, List.filterMap_cons, hc]
  rfl

theorem map_code_inUnits (c : CodePoint) : c.inUnits.map code = c.units := by
  have hall {ns : List Nat} (h : ∀ n ∈ ns, n < 0x10000) : (ns.filterMap ofNat?).map code = ns := by
    induction ns with
    | nil => rfl
    | cons n ns ih =>
      obtain ⟨hn, hns⟩ := List.forall_mem_cons.1 h
      obtain ⟨p, hp⟩ := exists_ofNat? (n := n) (by omega)
      rw [List.filterMap_cons, hp]
      show p.code :: (ns.filterMap ofNat?).map code = n :: ns
      rw [ofNat?_eq_some_iff.1 hp, ih hns]
  exact hall fun n => units_lt

theorem length_inUnits (c : CodePoint) : c.inUnits.length = c.units.length := by
  rw [← map_code_inUnits, List.length_map]

theorem one_le_length_inUnits (c : CodePoint) : 1 ≤ c.inUnits.length := by
  rw [length_inUnits, units]
  split <;> simp

theorem length_inUnits_eq_one {c : CodePoint} (h : c.inUnits.length = 1) : c.code < 0x10000 := by
  rw [length_inUnits, units] at h
  split at h
  case isTrue hsmall => exact hsmall
  case isFalse => cases h

/-- The units of a scalar value tell where they end. -/
theorem units_append_inj {c d : Char} {us vs : List Nat}
    (h : (char c).units ++ us = (char d).units ++ vs) : c = d ∧ us = vs := by
  have hscalar (c : Char) : c.toNat < 0xD800 ∨ 0xDFFF < c.toNat ∧ c.toNat < 0x110000 := c.valid
  have hc := hscalar c
  have hd := hscalar d
  have hcode : (char c).code = c.toNat := rfl
  have hcode' : (char d).code = d.toNat := rfl
  unfold units at h
  rw [hcode, hcode'] at h
  suffices hnat : c.toNat = d.toNat ∧ us = vs from ⟨Char.toNat_inj.1 hnat.1, hnat.2⟩
  by_cases hsmall : c.toNat < 0x10000
  · by_cases hsmall' : d.toNat < 0x10000
    · rw [if_pos hsmall, if_pos hsmall'] at h
      exact List.cons.inj h
    · rw [if_pos hsmall, if_neg hsmall'] at h
      have hhead := (List.cons.inj h).1
      omega
  · by_cases hsmall' : d.toNat < 0x10000
    · rw [if_neg hsmall, if_pos hsmall'] at h
      have hhead := (List.cons.inj h).1
      omega
    · rw [if_neg hsmall, if_neg hsmall'] at h
      obtain ⟨hhigh, hrest⟩ := List.cons.inj h
      obtain ⟨hlow, htail⟩ := List.cons.inj hrest
      exact ⟨by omega, htail⟩

end CodePoint

namespace Text

/-- The text with each unit as a code point of its own. -/
def inUnits (t : Text) : Text := t.flatMap CodePoint.inUnits

theorem inUnits_cons (c : CodePoint) (t : Text) : inUnits (c :: t) = c.inUnits ++ inUnits t := rfl

theorem map_code_inUnits (t : Text) :
    t.inUnits.map CodePoint.code = t.flatMap CodePoint.units := by
  induction t with
  | nil => rfl
  | cons c t ih =>
    rw [inUnits_cons, List.map_append, ih, CodePoint.map_code_inUnits]
    rfl

theorem flatMap_units_inj {s s' : List Char}
    (h : (s.map CodePoint.char).flatMap CodePoint.units =
      (s'.map CodePoint.char).flatMap CodePoint.units) : s = s' := by
  have hne (c : Char) (us : List Nat) : (CodePoint.char c).units ++ us ≠ [] := by
    unfold CodePoint.units
    split <;> simp
  induction s generalizing s' with
  | nil =>
    cases s' with
    | nil => rfl
    | cons c' s' => exact absurd h.symm (hne c' _)
  | cons c s ih =>
    cases s' with
    | nil => exact absurd h (hne c _)
    | cons c' s' =>
      obtain ⟨hc, hrest⟩ := CodePoint.units_append_inj h
      rw [hc, ih hrest]

/-- Texts of scalar values are told apart by their units. -/
theorem inUnits_inj {s s' : List Char}
    (h : inUnits (s.map .char) = inUnits (s'.map .char)) : s = s' := by
  apply flatMap_units_inj
  rw [← map_code_inUnits, ← map_code_inUnits, h]

theorem length_le_inUnits (t : Text) : t.length ≤ t.inUnits.length := by
  induction t with
  | nil => exact Nat.le_refl 0
  | cons c t ih =>
    have hc := c.one_le_length_inUnits
    rw [inUnits_cons, List.length_append, List.length_cons]
    omega

/-- A text is left as it is just if it has no code point above the range of a unit. -/
theorem inUnits_eq_self_iff {t : Text} : t.inUnits = t ↔ ∀ c ∈ t, c.code < 0x10000 := by
  induction t with
  | nil => simp [inUnits]
  | cons c t ih =>
    rw [List.forall_mem_cons, inUnits_cons]
    constructor
    · intro h
      -- The first code point can have no second unit, or the whole would be too long.
      have hlength := congrArg List.length h
      rw [List.length_append, List.length_cons] at hlength
      have hc := c.one_le_length_inUnits
      have ht := length_le_inUnits t
      have hsmall : c.code < 0x10000 := c.length_inUnits_eq_one (by omega)
      rw [CodePoint.inUnits_of_lt hsmall] at h
      exact ⟨hsmall, ih.1 (List.cons.inj h).2⟩
    · intro ⟨hsmall, hall⟩
      rw [CodePoint.inUnits_of_lt hsmall, ih.2 hall]
      rfl

end Text
end ResourceFinder
