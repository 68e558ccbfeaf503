import ResourceFinder.Proofs.Properties.Reading
import ResourceFinder.Proofs.Text.Trim

/-
How a line is divided into its key and its value.

The parts are said by the line alone.  A character is escaped by the backslash before it, unless that
backslash is escaped itself.  The key is the longest start of the line in which every separator and
blank is escaped; behind it one separator and the blanks around it are left out.  A line has one
division of this kind, and it is the one that splitting the line finds.
-/

namespace ResourceFinder
namespace Properties

/-! ## Escaped characters -/

/-- A line is made of units: a backslash with the character after it, and any other character. -/
@[elab_as_elim]
theorem unitInduction {motive : Text → Prop} (empty : motive []) (last : motive [.char '\\'])
    (pair : ∀ c t, motive t → motive (.char '\\' :: c :: t))
    (alone : ∀ c t, c ≠ .char '\\' → motive t → motive (c :: t)) : ∀ t, motive t
  | [] => empty
  | [c] => by
    by_cases hc : c = .char '\\'
    · rw [hc]
      exact last
    · exact alone c [] hc empty
  | c :: d :: t => by
    by_cases hc : c = .char '\\'
    · rw [hc]
      exact pair d t (unitInduction empty last pair alone t)
    · exact alone c (d :: t) hc (unitInduction empty last pair alone (d :: t))

/-- Whether the character at a place is escaped: before it is a backslash that is not escaped. -/
def escapedAt (t : Text) : Nat → Bool
  | 0 => false
  | i + 1 => t[i]? = some (.char '\\') && !escapedAt t i

/-- Behind a place that is not escaped, what is escaped does not depend on what is before it. -/
theorem escapedAt_append {before t : Text} (h : escapedAt (before ++ t) before.length = false)
    (i : Nat) : escapedAt (before ++ t) (before.length + i) = escapedAt t i := by
  induction i with
  | zero => exact h
  | succ i ih =>
    have hchar : (before ++ t)[before.length + i]? = t[i]? := by
      rw [List.getElem?_append_right (Nat.le_add_right _ i), Nat.add_sub_cancel_left]
    rw [← Nat.add_assoc, escapedAt, ih, hchar, escapedAt]

theorem escapedAt_pair (c : CodePoint) (t : Text) (i : Nat) :
    escapedAt (.char '\\' :: c :: t) (i + 2) = escapedAt t i := by
  have hclosed : escapedAt ([.char '\\', c] ++ t) [.char '\\', c].length = false := by
    simp [escapedAt]
  rw [Nat.add_comm]
  exact escapedAt_append hclosed i

theorem escapedAt_alone {c : CodePoint} (h : c ≠ .char '\\') (t : Text) (i : Nat) :
    escapedAt (c :: t) (i + 1) = escapedAt t i := by
  have hclosed : escapedAt ([c] ++ t) [c].length = false := by simp [escapedAt, h]
  rw [Nat.add_comm]
  exact escapedAt_append hclosed i

/-! ## Keys -/

/-- Every separator and blank of the text is escaped. -/
def IsGuarded (t : Text) : Prop := ∀ i c, t[i]? = some c → endsKey c = true → escapedAt t i = true

theorem isGuarded_nil : IsGuarded [] := by
  intro i c hc
  cases hc

theorem isGuarded_pair {c : CodePoint} {t : Text} :
    IsGuarded (.char '\\' :: c :: t) ↔ IsGuarded t := by
  constructor
  · intro h i d hd hends
    rw [← escapedAt_pair c t i]
    exact h (i + 2) d hd hends
  · intro h i d hd hends
    match i with
    | 0 =>
      have hback : .char '\\' = d := Option.some.inj hd
      rw [← hback] at hends
      exact absurd hends (by decide)
    | 1 => rfl
    | i + 2 =>
      rw [escapedAt_pair]
      exact h i d hd hends

theorem isGuarded_alone {c : CodePoint} (hback : c ≠ .char '\\') {t : Text} :
    IsGuarded (c :: t) ↔ endsKey c = false ∧ IsGuarded t := by
  constructor
  · intro h
    constructor
    · rw [← Bool.not_eq_true]
      intro hends
      exact absurd (h 0 c rfl hends) (by simp [escapedAt])
    · intro i d hd hends
      rw [← escapedAt_alone hback t i]
      exact h (i + 1) d hd hends
  · intro h i d hd hends
    match i with
    | 0 =>
      have hc : c = d := Option.some.inj hd
      rw [← hc, h.1] at hends
      cases hends
    | i + 1 =>
      rw [escapedAt_alone hback]
      exact h.2 i d hd hends

theorem splitKey_append (line : Text) : (splitKey line).1 ++ (splitKey line).2 = line := by
  induction line using unitInduction with
  | empty => rfl
  | last => rfl
  | pair c t ih => simp [splitKey_pair, ih]
  | alone c t hback ih =>
    by_cases hends : endsKey c = true
    · rw [splitKey_end hends, List.nil_append]
    · obtain ⟨hseparator, hfiller⟩ := endsKey_eq_false.1 (Bool.eq_false_iff.2 hends)
      simp [splitKey_alone hback hseparator hfiller, ih]

theorem isGuarded_splitKey (line : Text) : IsGuarded (splitKey line).1 := by
  induction line using unitInduction with
  | empty => exact isGuarded_nil
  | last =>
    show IsGuarded [.char '\\']
    intro i c hc hends
    match i with
    | 0 =>
      have hback : .char '\\' = c := Option.some.inj hc
      rw [← hback] at hends
      exact absurd hends (by decide)
    | i + 1 => cases hc
  | pair c t ih =>
    rw [splitKey_pair]
    exact isGuarded_pair.2 ih
  | alone c t hback ih =>
    by_cases hends : endsKey c = true
    · rw [splitKey_end hends]
      exact isGuarded_nil
    · have hends : endsKey c = false := Bool.eq_false_iff.2 hends
      obtain ⟨hseparator, hfiller⟩ := endsKey_eq_false.1 hends
      rw [splitKey_alone hback hseparator hfiller]
      exact (isGuarded_alone hback).2 ⟨hends, ih⟩

/-- No start of a line with everything escaped reaches beyond the key. -/
theorem length_le_splitKey {line start : Text} (hstart : start <+: line) (h : IsGuarded start) :
    start.length ≤ (splitKey line).1.length := by
  induction line using unitInduction generalizing start with
  | empty => exact hstart.length_le
  | last => exact hstart.length_le
  | pair c t ih =>
    rw [splitKey_pair]
    match start with
    | [] => exact Nat.zero_le _
    | [d] => simp
    | d :: d' :: start =>
      have hd : d = .char '\\' ∧ d' = c ∧ start <+: t := by
        simpa [List.cons_prefix_cons] using hstart
      rw [hd.1] at h
      have hlength := ih hd.2.2 (isGuarded_pair.1 h)
      simp only [List.length_cons]
      omega
  | alone c t hback ih =>
    match start with
    | [] => exact Nat.zero_le _
    | d :: start =>
      have hd : d = c ∧ start <+: t := by simpa [List.cons_prefix_cons] using hstart
      rw [hd.1] at h
      obtain ⟨hends, hguarded⟩ := (isGuarded_alone hback).1 h
      obtain ⟨hseparator, hfiller⟩ := endsKey_eq_false.1 hends
      rw [splitKey_alone hback hseparator hfiller]
      exact Nat.succ_le_succ (ih hd.2 hguarded)

/-! ## Values -/

/-- What is left out before a value: blanks, a separator at most, and blanks after it. -/
structure IsGap (before separator after value : Text) : Prop where
  blankBefore : ∀ c ∈ before, isFiller c = true
  atMostOne : separator = [] ∨ ∃ c, isSeparator c = true ∧ separator = [c]
  blankAfter : ∀ c ∈ after, isFiller c = true
  begins : ∀ c ∈ value.head?, isFiller c = false
  bare : separator = [] → after = [] ∧ ∀ c ∈ value.head?, isSeparator c = false

theorem isFiller_of_isSeparator {c : CodePoint} (h : isSeparator c = true) :
    isFiller c = false := by
  cases c with
  | surrogate => cases h
  | char ch =>
    have hch : ch = '=' ∨ ch = ':' := by simpa [isSeparator, CodePoint.isOneOf] using h
    rcases hch with rfl | rfl <;> decide

theorem dropSeparator_of_isGap {before separator after value : Text}
    (h : IsGap before separator after value) :
    dropSeparator (before ++ separator ++ after ++ value) = value := by
  rcases h.atMostOne with hnone | hone
  · obtain ⟨hafter, hvalue⟩ := h.bare hnone
    rw [hnone, hafter, List.append_nil, List.append_nil, dropSeparator,
      Text.dropWhile_append_of_head? h.blankBefore h.begins]
    cases value with
    | nil => rfl
    | cons c value => exact if_neg (by simp [hvalue c rfl])
  · obtain ⟨c, hc, hone⟩ := hone
    have hdrop : (before ++ c :: (after ++ value)).dropWhile isFiller = c :: (after ++ value) := by
      apply Text.dropWhile_append_of_head? h.blankBefore
      intro d hd
      rw [← Option.some.inj hd]
      exact isFiller_of_isSeparator hc
    rw [hone, List.append_assoc, List.append_assoc, List.singleton_append, dropSeparator, hdrop]
    simp only [hc, if_true]
    exact Text.dropWhile_append_of_head? h.blankAfter h.begins

theorem exists_isGap (rest : Text) : ∃ before separator after,
    rest = before ++ separator ++ after ++ dropSeparator rest ∧
      IsGap before separator after (dropSeparator rest) := by
  have hblanks (t : Text) : ∀ c ∈ t.takeWhile isFiller, isFiller c = true := by
    intro c hc
    exact List.mem_takeWhile_imp hc
  have hrest : rest.takeWhile isFiller ++ rest.dropWhile isFiller = rest :=
    List.takeWhile_append_dropWhile
  cases hdrop : rest.dropWhile isFiller with
  | nil =>
    have hvalue : dropSeparator rest = [] := by rw [dropSeparator, hdrop]
    refine ⟨rest.takeWhile isFiller, [], [], ?_, hblanks rest, .inl rfl, by simp, ?_, ?_⟩
    · rw [hdrop, List.append_nil] at hrest
      simp only [hvalue, List.append_nil]
      exact hrest.symm
    · simp [hvalue]
    · simp [hvalue]
  | cons c t =>
    by_cases hc : isSeparator c = true
    · have hvalue : dropSeparator rest = t.dropWhile isFiller := by
        rw [dropSeparator, hdrop]
        exact if_pos hc
      refine ⟨rest.takeWhile isFiller, [c], t.takeWhile isFiller, ?_, hblanks rest,
        .inr ⟨c, hc, rfl⟩, hblanks t, ?_, by simp⟩
      · rw [hvalue, List.append_assoc, List.takeWhile_append_dropWhile, List.append_assoc,
          List.singleton_append, ← hdrop, hrest]
      · rw [hvalue]
        exact Text.head?_dropWhile isFiller t
    · have hvalue : dropSeparator rest = c :: t := by
        rw [dropSeparator, hdrop]
        exact if_neg hc
      refine ⟨rest.takeWhile isFiller, [], [], ?_, hblanks rest, .inl rfl, by simp, ?_, ?_⟩
      · rw [hvalue, ← hdrop, List.append_nil, List.append_nil, hrest]
      · rw [hvalue, ← hdrop]
        exact Text.head?_dropWhile isFiller rest
      · intro _
        refine ⟨rfl, fun d hd => ?_⟩
        rw [hvalue] at hd
        rw [← Option.some.inj hd]
        simpa using hc

/-! ## Lines -/

/-- A division of a line, no character lost. -/
structure IsDivided (line key before separator after value : Text) : Prop
    extends IsGap before separator after value where
  line_eq : line = key ++ before ++ separator ++ after ++ value
  guarded : IsGuarded key
  longest : ∀ start, start <+: line → IsGuarded start → start.length ≤ key.length

theorem IsDivided.key_eq {line key before separator after value : Text}
    (h : IsDivided line key before separator after value) : key = (splitKey line).1 := by
  have hkey : key <+: line := by
    rw [h.line_eq, List.append_assoc, List.append_assoc, List.append_assoc]
    exact List.prefix_append key _
  have hfound : (splitKey line).1 <+: line := ⟨(splitKey line).2, splitKey_append line⟩
  have hle : key.length ≤ (splitKey line).1.length := length_le_splitKey hkey h.guarded
  have hge : (splitKey line).1.length ≤ key.length :=
    h.longest _ hfound (isGuarded_splitKey line)
  exact (List.prefix_of_prefix_length_le hkey hfound hle).eq_of_length (Nat.le_antisymm hle hge)

/-- A line is split into the key and the value of its only division. -/
theorem splitEntry_eq_iff (line key value : Text) :
    splitEntry line = (key, value) ↔
      ∃ before separator after, IsDivided line key before separator after value := by
  have hsplit : splitEntry line = ((splitKey line).1, dropSeparator (splitKey line).2) := rfl
  constructor
  · intro h
    rw [hsplit] at h
    obtain ⟨hkey, hvalue⟩ := Prod.mk.inj h
    obtain ⟨before, separator, after, hrest, hgap⟩ := exists_isGap (splitKey line).2
    have hline := splitKey_append line
    rw [hrest, hvalue] at hline
    rw [hvalue] at hgap
    refine ⟨before, separator, after, hgap, ?_, ?_, ?_⟩
    · rw [← hline, hkey]
      simp only [List.append_assoc]
    · rw [← hkey]
      exact isGuarded_splitKey line
    · intro start hstart hguarded
      rw [← hkey]
      exact length_le_splitKey hstart hguarded
  · intro ⟨before, separator, after, h⟩
    have hkey : key = (splitKey line).1 := h.key_eq
    have hrest : (splitKey line).2 = before ++ separator ++ after ++ value := by
      have hboth : key ++ (splitKey line).2 = key ++ (before ++ separator ++ after ++ value) := by
        rw [hkey, splitKey_append, ← hkey, h.line_eq]
        simp only [List.append_assoc]
      exact List.append_cancel_left hboth
    rw [hsplit, hrest, ← hkey, dropSeparator_of_isGap h.toIsGap]

/-- Blanks alone separate, a separator among them is left out with them, and a second one begins the
value. -/
example : splitEntry "a\\:\\\\\t= :b " =
    (Text.ofString "a\\:\\\\", Text.ofString ":b ") := by decide

end Properties
end ResourceFinder
