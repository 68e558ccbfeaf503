import Mathlib.Data.List.Induction
import Mathlib.Tactic.IntervalCases
import ResourceFinder.Proofs.Except.Failure
import ResourceFinder.Proofs.Number.Numeral
import ResourceFinder.Proofs.Properties.Division
import ResourceFinder.Proofs.Text.Units

/-
Escapes by number.

An unescaped backslash before a `u` makes the four characters after it a number.  The format has four
hexadecimal digits there, but they are read as any numeral is: blanks, a sign, the mark of the base,
low lines and digits of other scripts are let through.  So a text is refused for the escapes in it
that are no numerals, and for none other.
-/

namespace ResourceFinder

namespace Properties

/-! ## Numbers in four characters -/

/-- Four hexadecimal digits. -/
def IsHex (digits : Text) : Prop := digits.length = 4 ∧ ∀ c ∈ digits, c.hexValue?.isSome = true

/-- The number that hexadecimal digits write. -/
def hexNumber (digits : Text) : Nat := digits.foldl (fun n c => n * 16 + c.hexValue?.getD 0) 0

/-- Four characters that are taken for the number of a character: a numeral that is not negative. -/
def IsCode (digits : Text) : Prop :=
  digits.length = 4 ∧ ∃ n : Nat, Numeral.IsNumeral 16 digits n

theorem digits_hexNumber {digits : Text} (hne : digits ≠ [])
    (h : ∀ c ∈ digits, c.hexValue?.isSome = true) :
    Numeral.Digits 16 digits (hexNumber digits) := by
  induction digits using List.reverseRecOn with
  | nil => exact absurd rfl hne
  | append_singleton digits c ih =>
    obtain ⟨d, hd⟩ := Option.isSome_iff_exists.1 (h c (by simp))
    have hnumber : hexNumber (digits ++ [c]) = hexNumber digits * 16 + d := by
      simp [hexNumber, hd]
    rw [hnumber]
    by_cases hnil : digits = []
    · subst hnil
      have hzero : hexNumber [] * 16 + d = d := by simp [hexNumber]
      rw [hzero]
      exact .one (Numeral.digitValue?_of_hexValue? hd)
    · have hfirst := ih hnil fun c hc => h c (List.mem_append_left _ hc)
      exact .next hfirst (Numeral.digitValue?_of_hexValue? hd)

theorem isNumeral_hexNumber {digits : Text} (h : IsHex digits) :
    Numeral.IsNumeral 16 digits (hexNumber digits) := by
  have hne : digits ≠ [] := List.ne_nil_of_length_eq_add_one h.1
  have hnumeral : Numeral.IsNumeral 16 ([] ++ ([] ++ ([] ++ digits) ++ [])) (hexNumber digits) :=
    .mk (List.forall_mem_nil _) .none .none (digits_hexNumber hne h.2) (List.forall_mem_nil _)
  simpa using hnumeral

theorem IsHex.isCode {digits : Text} (h : IsHex digits) : IsCode digits :=
  ⟨h.1, hexNumber digits, isNumeral_hexNumber h⟩

theorem numberedChar?_eq_some_iff {digits : Text} {p : CodePoint} :
    numberedChar? digits = some p ↔ Numeral.IsNumeral 16 digits p.code := by
  rw [← Numeral.integer?_eq_some_iff]
  unfold numberedChar?
  split
  case h_1 n hn =>
    rw [CodePoint.ofNat?_eq_some_iff, hn, Option.some.injEq, eq_comm]
    exact Int.ofNat_inj.symm
  case h_2 hnot =>
    constructor
    · intro h
      cases h
    · intro h
      exact absurd h (hnot p.code)

theorem numberedChar?_eq_none_iff {digits : Text} (hlength : digits.length = 4) :
    numberedChar? digits = none ↔ ¬IsCode digits := by
  constructor
  · intro h hcode
    obtain ⟨-, n, hn⟩ := hcode
    have hlt := hn.lt_pow (by decide)
    rw [hlength] at hlt
    obtain ⟨p, hp⟩ := CodePoint.exists_ofNat? (n := n) (by omega)
    rw [← CodePoint.ofNat?_eq_some_iff.1 hp, ← numberedChar?_eq_some_iff, h] at hn
    cases hn
  · intro h
    cases hp : numberedChar? digits with
    | none => rfl
    | some p => exact absurd ⟨hlength, p.code, numberedChar?_eq_some_iff.1 hp⟩ h

/-! ## Where the escapes are -/

/-- At a place of a text an escape by number begins. -/
structure NumberAt (t : Text) (i : Nat) : Prop where
  backslash : t[i]? = some (.char '\\')
  unescaped : escapedAt t i = false
  letter : t[i + 1]? = some (.char 'u')

/-- The four characters of the escape at a place, fewer at the end of the text. -/
def digitsAt (t : Text) (i : Nat) : Text := (t.drop (i + 2)).take 4

/-- An escape by number is in a text, with what stands for its digits. -/
def HasNumber (t digits : Text) : Prop := ∃ i, NumberAt t i ∧ digitsAt t i = digits

theorem numberAt_append {before t : Text} (h : escapedAt (before ++ t) before.length = false)
    (i : Nat) : NumberAt (before ++ t) (before.length + i) ↔ NumberAt t i := by
  have hchar (k : Nat) : (before ++ t)[before.length + k]? = t[k]? := by
    rw [List.getElem?_append_right (Nat.le_add_right _ k), Nat.add_sub_cancel_left]
  have hescaped := escapedAt_append h i
  constructor
  · intro hfound
    obtain ⟨hback, hnot, hletter⟩ := hfound
    exact ⟨hchar i ▸ hback, hescaped ▸ hnot, hchar (i + 1) ▸ hletter⟩
  · intro hfound
    obtain ⟨hback, hnot, hletter⟩ := hfound
    exact ⟨(hchar i).trans hback, hescaped.trans hnot, (hchar (i + 1)).trans hletter⟩

theorem digitsAt_append (before t : Text) (i : Nat) :
    digitsAt (before ++ t) (before.length + i) = digitsAt t i := by
  rw [digitsAt, Nat.add_assoc, List.drop_length_add_append, digitsAt]

/-- An escape is among the first characters or behind them, if these are whole units. -/
theorem hasNumber_append {before t digits : Text}
    (h : escapedAt (before ++ t) before.length = false) :
    HasNumber (before ++ t) digits ↔
      (∃ i < before.length, NumberAt (before ++ t) i ∧ digitsAt (before ++ t) i = digits) ∨
        HasNumber t digits := by
  constructor
  · intro hfound
    obtain ⟨i, hat, hdigits⟩ := hfound
    by_cases hi : i < before.length
    · exact .inl ⟨i, hi, hat, hdigits⟩
    · obtain ⟨k, rfl⟩ := Nat.exists_eq_add_of_le (Nat.le_of_not_lt hi)
      rw [numberAt_append h] at hat
      rw [digitsAt_append] at hdigits
      exact .inr ⟨k, hat, hdigits⟩
  · intro hcases
    rcases hcases with ⟨i, -, hfound⟩ | ⟨i, hat, hdigits⟩
    · exact ⟨i, hfound⟩
    · exact ⟨before.length + i, (numberAt_append h i).2 hat,
        (digitsAt_append before t i).trans hdigits⟩

section

variable {t digits : Text}

theorem not_hasNumber_nil : ¬HasNumber [] digits := by
  intro hfound
  obtain ⟨i, hat, _⟩ := hfound
  cases hat.backslash

theorem not_hasNumber_last : ¬HasNumber [.char '\\'] digits := by
  intro hfound
  obtain ⟨i, hat, _⟩ := hfound
  have hletter := hat.letter
  cases i with
  | zero => cases hletter
  | succ i => cases hletter

theorem hasNumber_alone {c : CodePoint} (h : c ≠ .char '\\') :
    HasNumber (c :: t) digits ↔ HasNumber t digits := by
  have hclosed : escapedAt ([c] ++ t) [c].length = false := by simp [escapedAt, h]
  refine (hasNumber_append hclosed).trans (or_iff_right ?_)
  intro hfound
  obtain ⟨i, hi, hat, _⟩ := hfound
  obtain rfl : i = 0 := Nat.lt_one_iff.1 hi
  exact h (Option.some.inj hat.backslash)

theorem hasNumber_pair {c : CodePoint} (h : c ≠ .char 'u') :
    HasNumber (.char '\\' :: c :: t) digits ↔ HasNumber t digits := by
  have hclosed : escapedAt ([.char '\\', c] ++ t) [.char '\\', c].length = false := by
    simp [escapedAt]
  refine (hasNumber_append hclosed).trans (or_iff_right ?_)
  intro hfound
  obtain ⟨i, hi, hat, _⟩ := hfound
  have hi : i < 2 := hi
  interval_cases i
  · exact h (Option.some.inj hat.letter)
  · cases hat.unescaped

theorem hasNumber_head (t : Text) : HasNumber (.char '\\' :: .char 'u' :: t) (t.take 4) :=
  ⟨0, ⟨rfl, rfl, rfl⟩, rfl⟩

theorem hasNumber_code {number : Text} (hlength : number.length = 4)
    (hback : CodePoint.char '\\' ∉ number) :
    HasNumber (.char '\\' :: .char 'u' :: (number ++ t)) digits ↔
      digits = number ∨ HasNumber t digits := by
  obtain ⟨a, b, c, d, rfl⟩ := List.length_eq_four.1 hlength
  simp only [List.mem_cons, List.not_mem_nil, or_false, not_or] at hback
  obtain ⟨ha, hb, hc, hd⟩ := hback
  have hclosed : escapedAt ([.char '\\', .char 'u', a, b, c, d] ++ t) 6 = false := by
    simp [escapedAt, Ne.symm hd]
  refine (hasNumber_append hclosed).trans (or_congr_left ?_)
  constructor
  · intro hfound
    obtain ⟨i, hi, hat, hdigits⟩ := hfound
    have hi : i < 6 := hi
    interval_cases i
    · exact hdigits.symm
    · cases hat.unescaped
    · exact absurd (Option.some.inj hat.backslash) (Ne.symm ha)
    · exact absurd (Option.some.inj hat.backslash) (Ne.symm hb)
    · exact absurd (Option.some.inj hat.backslash) (Ne.symm hc)
    · exact absurd (Option.some.inj hat.backslash) (Ne.symm hd)
  · intro hdigits
    exact ⟨0, by simp, ⟨rfl, rfl, rfl⟩, hdigits.symm⟩

end

/-! ## What is refused, and what stands for what -/

theorem unescape_eq_error_iff (t : Text) :
    (∃ e, unescape t = .error e) ↔ ∃ digits, HasNumber t digits ∧ ¬IsCode digits := by
  have hmap {t : Text} {c : CodePoint} :
      (∃ e, (unescape t).map (c :: ·) = .error e) ↔ ∃ e, unescape t = .error e := by
    simp only [map_eq_error]
  induction t using unescape.induct with
  | case1 =>
    constructor
    · intro hfound
      obtain ⟨e, he⟩ := hfound
      cases he
    · intro hfound
      obtain ⟨digits, hnumber, _⟩ := hfound
      exact absurd hnumber not_hasNumber_nil
  | case2 a b c d t p hp ih =>
    have hcode : IsCode [a, b, c, d] := ⟨rfl, p.code, numberedChar?_eq_some_iff.1 hp⟩
    obtain ⟨hlength, n, hn⟩ := hcode
    have hnumber {digits : Text} :
        HasNumber (.char '\\' :: .char 'u' :: a :: b :: c :: d :: t) digits ↔
          digits = [a, b, c, d] ∨ HasNumber t digits :=
      hasNumber_code hlength hn.backslash_not_mem
    rw [unescape, hp]
    refine hmap.trans (ih.trans ?_)
    constructor
    · intro hfound
      obtain ⟨digits, hhas, hnot⟩ := hfound
      exact ⟨digits, hnumber.2 (.inr hhas), hnot⟩
    · intro hfound
      obtain ⟨digits, hhas, hnot⟩ := hfound
      rcases hnumber.1 hhas with heq | hhas
      · exact absurd ⟨hlength, n, hn⟩ (heq ▸ hnot)
      · exact ⟨digits, hhas, hnot⟩
  | case3 a b c d t hnone =>
    rw [unescape, hnone]
    refine iff_of_true ⟨_, rfl⟩ ⟨[a, b, c, d], hasNumber_head (a :: b :: c :: d :: t), ?_⟩
    exact (numberedChar?_eq_none_iff rfl).1 hnone
  | case4 t hshort =>
    rw [unescape.eq_3 t hshort]
    refine iff_of_true ⟨_, rfl⟩ ⟨t.take 4, hasNumber_head t, ?_⟩
    intro hcode
    obtain ⟨a, b, c, d, hfour⟩ := List.length_eq_four.1 hcode.1
    have ht := List.take_append_drop 4 t
    rw [hfour] at ht
    exact hshort a b c d (t.drop 4) ht.symm
  | case5 c t _ hletter ih =>
    rw [unescape_pair hletter]
    refine hmap.trans (ih.trans ?_)
    simp only [hasNumber_pair hletter]
  | case6 c t _ _ hpair ih =>
    by_cases hback : c = .char '\\'
    · cases t with
      | nil =>
        subst hback
        refine iff_of_false ?_ ?_
        · intro hfound
          obtain ⟨e, he⟩ := hfound
          cases he
        · intro hfound
          obtain ⟨digits, hnumber, _⟩ := hfound
          exact not_hasNumber_last hnumber
      | cons d t => exact absurd rfl (hpair d t hback)
    · rw [unescape_alone hback]
      refine hmap.trans (ih.trans ?_)
      simp only [hasNumber_alone hback]

/-- What a text with escapes stands for.  An escape by number stands for the one character with that
number, whether it has hexadecimal digits or some other numeral. -/
inductive Stands : Text → Text → Prop where
  | nil : Stands [] []
  | last : Stands [.char '\\'] [.char '\\']
  | alone {c : CodePoint} {t u : Text} (hc : c ≠ .char '\\') (ht : Stands t u) :
      Stands (c :: t) (c :: u)
  | pair {c : CodePoint} {t u : Text} (hc : c ≠ .char 'u') (ht : Stands t u) :
      Stands (.char '\\' :: c :: t) (escapedChar c :: u)
  | hex {digits t u : Text} {p : CodePoint} (hdigits : IsHex digits)
      (hp : p.code = hexNumber digits) (ht : Stands t u) :
      Stands (.char '\\' :: .char 'u' :: (digits ++ t)) (p :: u)
  | numeral {digits t u : Text} {p : CodePoint} (hlength : digits.length = 4)
      (hdigits : ¬IsHex digits) (hp : Numeral.IsNumeral 16 digits p.code) (ht : Stands t u) :
      Stands (.char '\\' :: .char 'u' :: (digits ++ t)) (p :: u)

theorem Stands.number {digits t u : Text} {p : CodePoint} (hlength : digits.length = 4)
    (hp : Numeral.IsNumeral 16 digits p.code) (ht : Stands t u) :
    Stands (.char '\\' :: .char 'u' :: (digits ++ t)) (p :: u) := by
  by_cases hdigits : IsHex digits
  · refine .hex hdigits ?_ ht
    have hnumber := isNumeral_hexNumber hdigits
    rw [← Numeral.integer?_eq_some_iff] at hp hnumber
    exact Int.ofNat_inj.1 (Option.some.inj (hp.symm.trans hnumber))
  · exact .numeral hlength hdigits hp ht

theorem unescape_number {digits : Text} (hlength : digits.length = 4) {p : CodePoint}
    (hp : Numeral.IsNumeral 16 digits p.code) (t : Text) :
    unescape (.char '\\' :: .char 'u' :: (digits ++ t)) = (unescape t).map (p :: ·) := by
  obtain ⟨a, b, c, d, rfl⟩ := List.length_eq_four.1 hlength
  have hchar := numberedChar?_eq_some_iff.2 hp
  show unescape (.char '\\' :: .char 'u' :: a :: b :: c :: d :: t) = _
  rw [unescape, hchar]

theorem unescape_eq_ok_iff {t u : Text} : unescape t = .ok u ↔ Stands t u := by
  constructor
  · intro h
    induction t using unescape.induct generalizing u with
    | case1 =>
      rw [← Except.ok.inj h]
      exact .nil
    | case2 a b c d t p hp ih =>
      rw [unescape, hp] at h
      obtain ⟨v, hv, hu⟩ := map_eq_ok.1 h
      rw [← hu]
      exact .number rfl (numberedChar?_eq_some_iff.1 hp) (ih hv)
    | case3 a b c d t hnone =>
      rw [unescape, hnone] at h
      cases h
    | case4 t hshort =>
      rw [unescape.eq_3 t hshort] at h
      cases h
    | case5 c t _ hletter ih =>
      rw [unescape_pair hletter] at h
      obtain ⟨v, hv, hu⟩ := map_eq_ok.1 h
      rw [← hu]
      exact .pair hletter (ih hv)
    | case6 c t _ _ hpair ih =>
      by_cases hback : c = .char '\\'
      · cases t with
        | nil =>
          subst hback
          rw [← Except.ok.inj h]
          exact .last
        | cons d t => exact absurd rfl (hpair d t hback)
      · rw [unescape_alone hback] at h
        obtain ⟨v, hv, hu⟩ := map_eq_ok.1 h
        rw [← hu]
        exact .alone hback (ih hv)
  · intro h
    induction h with
    | nil => rfl
    | last => rfl
    | alone hc _ ih =>
      rw [unescape_alone hc, ih]
      rfl
    | pair hc _ ih =>
      rw [unescape_pair hc, ih]
      rfl
    | hex hdigits hp _ ih =>
      rw [unescape_number hdigits.1 (hp ▸ isNumeral_hexNumber hdigits), ih]
      rfl
    | numeral hlength _ hp _ ih =>
      rw [unescape_number hlength hp, ih]
      rfl

/-! ## Texts -/

/-- An escape by number is in the key or the value of a line of a text. -/
def HasNumberIn (t digits : Text) : Prop :=
  ∃ line ∈ logicalLines t,
    HasNumber (splitEntry line).1 digits ∨ HasNumber (splitEntry line).2 digits

/-- What the key and the value of a line stand for. -/
def EntryStands (line : Text) (entry : Text × Text) : Prop :=
  Stands (splitEntry line).1 entry.1 ∧ Stands (splitEntry line).2 entry.2

theorem parseEntry_eq (line : Text) :
    parseEntry line = (unescape (splitEntry line).2).bind fun value =>
      (unescape (splitEntry line).1).map fun key => (key, value) := rfl

theorem parse_eq (t : Text) :
    parse t = ((logicalLines t).mapM parseEntry).map Dictionary.ofPairs := rfl

theorem parseEntry_eq_error_iff (line : Text) :
    (∃ e, parseEntry line = .error e) ↔
      ∃ digits, (HasNumber (splitEntry line).1 digits ∨ HasNumber (splitEntry line).2 digits) ∧
        ¬IsCode digits := by
  have hfails : (∃ e, parseEntry line = .error e) ↔
      (∃ e, unescape (splitEntry line).1 = .error e) ∨
        ∃ e, unescape (splitEntry line).2 = .error e := by
    rw [parseEntry_eq]
    cases unescape (splitEntry line).2 with
    | error e => simp [Except.bind]
    | ok value => cases unescape (splitEntry line).1 <;> simp [Except.bind, Except.map]
  rw [hfails, unescape_eq_error_iff, unescape_eq_error_iff, ← exists_or]
  simp only [or_and_right]

theorem parseEntry_eq_ok_iff {line : Text} {entry : Text × Text} :
    parseEntry line = .ok entry ↔ EntryStands line entry := by
  obtain ⟨key, value⟩ := entry
  rw [EntryStands, ← unescape_eq_ok_iff, ← unescape_eq_ok_iff, parseEntry_eq]
  cases unescape (splitEntry line).2 with
  | error e => simp [Except.bind]
  | ok value =>
    cases unescape (splitEntry line).1 with
    | error e => simp [Except.bind, Except.map]
    | ok key => simp [Except.bind, Except.map]

theorem parse_eq_error_iff (t : Text) :
    (∃ e, parse t = .error e) ↔ ∃ digits, HasNumberIn t digits ∧ ¬IsCode digits := by
  simp only [parse_eq, map_eq_error]
  rw [exists_mapM_eq_error_iff]
  simp only [parseEntry_eq_error_iff]
  constructor
  · intro hfound
    obtain ⟨line, hline, digits, hnumber, hcode⟩ := hfound
    exact ⟨digits, ⟨line, hline, hnumber⟩, hcode⟩
  · intro hfound
    obtain ⟨digits, ⟨line, hline, hnumber⟩, hcode⟩ := hfound
    exact ⟨line, hline, digits, hnumber, hcode⟩

theorem parse_eq_ok_iff {t : Text} {d : Properties} :
    parse t = .ok d ↔ ∃ entries, List.Forall₂ EntryStands (logicalLines t) entries ∧
      Dictionary.ofPairs entries = d := by
  rw [parse_eq, map_eq_ok]
  simp only [mapM_eq_ok_iff, parseEntry_eq_ok_iff]

/-- The escapes by number in a text decide whether it is read.  It is refused exactly if one of them
is no numeral of four characters, and otherwise each stands for the character with its number.  So
four hexadecimal digits are always let through, and what they are required to be decides but for
texts where something else takes their place and all of it is numerals. -/
theorem parse_decided_by_numbers (t : Text) :
    ((∃ e, parse t = .error e) ↔ ∃ digits, HasNumberIn t digits ∧ ¬IsCode digits) ∧
    (∀ d, parse t = .ok d ↔ ∃ entries, List.Forall₂ EntryStands (logicalLines t) entries ∧
      Dictionary.ofPairs entries = d) ∧
    (((∃ e, parse t = .error e) ↔ ∃ digits, HasNumberIn t digits ∧ ¬IsHex digits) ↔
      ¬((∃ digits, HasNumberIn t digits ∧ ¬IsHex digits) ∧
        ∀ digits, HasNumberIn t digits → IsCode digits)) := by
  have hfails := parse_eq_error_iff t
  refine ⟨hfails, fun d => parse_eq_ok_iff, ?_⟩
  have hhex : (∃ digits, HasNumberIn t digits ∧ ¬IsCode digits) →
      ∃ digits, HasNumberIn t digits ∧ ¬IsHex digits := by
    intro hfound
    obtain ⟨digits, hnumber, hcode⟩ := hfound
    exact ⟨digits, hnumber, fun h => hcode h.isCode⟩
  have hall : (∀ digits, HasNumberIn t digits → IsCode digits) ↔
      ¬∃ digits, HasNumberIn t digits ∧ ¬IsCode digits := by
    simp only [not_exists, not_and, not_not]
  rw [hfails, hall]
  constructor
  · intro hiff hboth
    exact hboth.2 (hiff.2 hboth.1)
  · intro hnot
    refine ⟨hhex, fun h => ?_⟩
    by_contra hcode
    exact hnot ⟨h, hcode⟩

/-- A sign takes the place of a digit, and the text is read all the same. -/
theorem parse_signed_number :
    ¬((∃ e, parse "a=\\u+041" = .error e) ↔
        ∃ digits, HasNumberIn "a=\\u+041" digits ∧ ¬IsHex digits) ∧
      parse "a=\\u+041" = .ok [("a", "A")] := by
  have hline : logicalLines "a=\\u+041" = ["a=\\u+041"] := by decide
  have hparse : parse "a=\\u+041" = .ok [("a", "A")] := by decide
  have hnumber : HasNumberIn "a=\\u+041" "+041" := by
    refine ⟨"a=\\u+041", ?_, .inr ⟨0, ⟨by decide, by decide, by decide⟩, by decide⟩⟩
    rw [hline]
    exact List.mem_singleton_self _
  have hhex : ¬IsHex "+041" := by
    intro h
    exact absurd (h.2 (.char '+') (by decide)) (by decide)
  refine ⟨?_, hparse⟩
  intro hiff
  obtain ⟨e, he⟩ := hiff.2 ⟨"+041", hnumber, hhex⟩
  rw [hparse] at he
  cases he

end Properties
end ResourceFinder
