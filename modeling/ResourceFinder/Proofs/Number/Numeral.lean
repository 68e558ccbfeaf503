import Mathlib.Algebra.Group.Nat.Defs
import ResourceFinder.Number.Numeral
import ResourceFinder.Proofs.Text.Trim

/-
What a numeral is.

Reading a numeral takes it apart from its ends inwards: blanks, a sign, the mark of the base, digits.
None of these parts can begin or end like the one around it, so every text made of such parts is
taken apart in just this way.
-/

namespace ResourceFinder
namespace Numeral

/-! ## Digits -/

/-- Digits of a base, with a low line between any two of them or not, and their value. -/
inductive Digits (base : Nat) : Text → Nat → Prop where
  | one {c : CodePoint} {d : Nat} (h : digitValue? base c = some d) : Digits base [c] d
  | next {t : Text} {n : Nat} {c : CodePoint} {d : Nat} (ht : Digits base t n)
      (h : digitValue? base c = some d) : Digits base (t ++ [c]) (n * base + d)
  | spaced {t : Text} {n : Nat} {c : CodePoint} {d : Nat} (ht : Digits base t n)
      (h : digitValue? base c = some d) : Digits base (t ++ [.char '_', c]) (n * base + d)

section

variable {base : Nat} {c : CodePoint} {d : Nat}

theorem digitValue?_lowLine (base : Nat) : digitValue? base (.char '_') = none := rfl

theorem digitValue?_lt (h : digitValue? base c = some d) : d < base := by
  have hd := (Option.filter_eq_some_iff.1 h).2
  simpa using hd

theorem ne_lowLine (h : digitValue? base c = some d) : c ≠ .char '_' := by
  intro hc
  rw [hc, digitValue?_lowLine] at h
  cases h

theorem digitsFrom?_cons (h : digitValue? base c = some d) (value : Nat) (t : Text) :
    digitsFrom? base value (c :: t) = digitsFrom? base (value * base + d) t := by
  rw [digitsFrom?.eq_3 base value c t fun _ _ hc _ => ne_lowLine h hc, h]
  rfl

theorem digitsFrom?_lowLine (h : digitValue? base c = some d) (value : Nat) (t : Text) :
    digitsFrom? base value (.char '_' :: c :: t) = digitsFrom? base (value * base + d) t := by
  rw [digitsFrom?, h]
  rfl

/-- Digits go on where the ones before them end. -/
theorem digitsFrom?_append {value n : Nat} {t : Text} (h : digitsFrom? base value t = some n)
    (u : Text) : digitsFrom? base value (t ++ u) = digitsFrom? base n u := by
  induction value, t using digitsFrom?.induct base with
  | case1 value =>
    rw [← Option.some.inj h]
    rfl
  | case2 value c t ih =>
    rw [digitsFrom?] at h
    obtain ⟨d, hd, h⟩ := Option.bind_eq_some_iff.1 h
    rw [List.cons_append, List.cons_append, digitsFrom?_lowLine hd, ih d h]
  | case3 value c t hlow ih =>
    rw [digitsFrom?.eq_3 base value c t hlow] at h
    obtain ⟨d, hd, h⟩ := Option.bind_eq_some_iff.1 h
    rw [List.cons_append, digitsFrom?_cons hd, ih d h]

theorem digits_of_digitsFrom? {value n : Nat} {t u : Text} (ht : Digits base t value)
    (h : digitsFrom? base value u = some n) : Digits base (t ++ u) n := by
  induction value, u using digitsFrom?.induct base generalizing t with
  | case1 value =>
    rw [← Option.some.inj h, List.append_nil]
    exact ht
  | case2 value c u ih =>
    rw [digitsFrom?] at h
    obtain ⟨d, hd, h⟩ := Option.bind_eq_some_iff.1 h
    have hmore := ih d (.spaced ht hd) h
    simpa using hmore
  | case3 value c u hlow ih =>
    rw [digitsFrom?.eq_3 base value c u hlow] at h
    obtain ⟨d, hd, h⟩ := Option.bind_eq_some_iff.1 h
    have hmore := ih d (.next ht hd) h
    simpa using hmore

theorem digits?_eq_some_iff {t : Text} {n : Nat} : digits? base t = some n ↔ Digits base t n := by
  constructor
  · intro h
    cases t with
    | nil => cases h
    | cons c t =>
      obtain ⟨d, hd, h⟩ := Option.bind_eq_some_iff.1 h
      exact digits_of_digitsFrom? (.one hd) h
  · intro h
    induction h with
    | one h =>
      rw [digits?, h]
      rfl
    | @next t n c d ht h ih =>
      cases t with
      | nil => cases ih
      | cons c' t =>
        obtain ⟨d', hd', hfrom⟩ := Option.bind_eq_some_iff.1 ih
        rw [List.cons_append, digits?, hd']
        show digitsFrom? base d' (t ++ [c]) = some (n * base + d)
        rw [digitsFrom?_append hfrom, digitsFrom?_cons h, digitsFrom?]
    | @spaced t n c d ht h ih =>
      cases t with
      | nil => cases ih
      | cons c' t =>
        obtain ⟨d', hd', hfrom⟩ := Option.bind_eq_some_iff.1 ih
        rw [List.cons_append, digits?, hd']
        show digitsFrom? base d' (t ++ [.char '_', c]) = some (n * base + d)
        rw [digitsFrom?_append hfrom, digitsFrom?_lowLine h, digitsFrom?]

theorem Digits.lt_pow {t : Text} {n : Nat} (h : Digits base t n) : n < base ^ t.length := by
  have hstep {n d bound : Nat} (hn : n < bound) (hd : d < base) : n * base + d < bound * base := by
    calc n * base + d < n * base + base := Nat.add_lt_add_left hd _
      _ = (n + 1) * base := (Nat.succ_mul n base).symm
      _ ≤ bound * base := Nat.mul_le_mul_right base hn
  induction h with
  | one h => simpa using digitValue?_lt h
  | @next t n c d ht h ih =>
    rw [List.length_append, List.length_singleton, Nat.pow_succ]
    exact hstep ih (digitValue?_lt h)
  | @spaced t n c d ht h ih =>
    have hd := digitValue?_lt h
    have hpos : 1 ≤ base := Nat.succ_le_of_lt (Nat.zero_lt_of_lt hd)
    have hmore : base ^ t.length * base ≤ base ^ t.length * base * base :=
      Nat.le_mul_of_pos_right _ hpos
    rw [List.length_append, List.length_cons, List.length_singleton, Nat.pow_add, Nat.pow_two,
      ← Nat.mul_assoc]
    exact Nat.lt_of_lt_of_le (hstep ih hd) hmore

theorem Digits.head {t : Text} {n : Nat} (h : Digits base t n) :
    ∃ c d rest, t = c :: rest ∧ digitValue? base c = some d := by
  have hread := digits?_eq_some_iff.2 h
  cases t with
  | nil => cases hread
  | cons c t =>
    obtain ⟨d, hd, -⟩ := Option.bind_eq_some_iff.1 hread
    exact ⟨c, d, t, rfl, hd⟩

theorem Digits.last {t : Text} {n : Nat} (h : Digits base t n) :
    ∃ c d, t.getLast? = some c ∧ digitValue? base c = some d := by
  cases h with
  | one h => exact ⟨_, _, rfl, h⟩
  | next ht h => exact ⟨_, _, by simp, h⟩
  | spaced ht h => exact ⟨_, _, by simp, h⟩

theorem Digits.mem {t : Text} {n : Nat} (h : Digits base t n) :
    ∀ c ∈ t, c = .char '_' ∨ ∃ d, digitValue? base c = some d := by
  induction h with
  | one h =>
    intro c hc
    rw [List.mem_singleton.1 hc]
    exact .inr ⟨_, h⟩
  | next ht h ih =>
    intro c hc
    rcases List.mem_append.1 hc with hc | hc
    · exact ih c hc
    · rw [List.mem_singleton.1 hc]
      exact .inr ⟨_, h⟩
  | spaced ht h ih =>
    intro c hc
    rcases List.mem_append.1 hc with hc | hc
    · exact ih c hc
    · rcases List.mem_cons.1 hc with hc | hc
      · exact .inl hc
      · rw [List.mem_singleton.1 hc]
        exact .inr ⟨_, h⟩

/-! ## Blanks around a numeral -/

theorem isBlank_of_decimalValue? {d : Nat} (h : c.decimalValue? = some d) : c.isBlank = false := by
  have htable : ∀ first ∈ CodePoint.decimalZeros, ∀ k < 10,
      CodePoint.blankSet.contains (first + k) = false := by decide +kernel
  obtain ⟨first, hfirst, -⟩ := Option.map_eq_some_iff.1 h
  have hrange := List.find?_some hfirst
  have hbounds : first ≤ c.code ∧ c.code < first + 10 := by simpa using hrange
  have hcode := htable first (List.mem_of_find?_eq_some hfirst) (c.code - first) (by omega)
  rw [Nat.add_sub_cancel' hbounds.1] at hcode
  exact hcode

theorem toNat_of_hexValue? {ch : Char} {d : Nat} (h : (CodePoint.char ch).hexValue? = some d) :
    0x30 ≤ ch.toNat ∧ ch.toNat < 0x67 := by
  have hle {a b : Char} (h : a ≤ b) : a.toNat ≤ b.toNat := h
  by_cases hdigit : '0' ≤ ch ∧ ch ≤ '9'
  · exact ⟨hle hdigit.1, Nat.lt_of_le_of_lt (hle hdigit.2) (by decide)⟩
  by_cases hlower : 'a' ≤ ch ∧ ch ≤ 'f'
  · exact ⟨Nat.le_trans (by decide) (hle hlower.1), Nat.lt_succ_of_le (hle hlower.2)⟩
  by_cases hupper : 'A' ≤ ch ∧ ch ≤ 'F'
  · exact ⟨Nat.le_trans (by decide) (hle hupper.1), Nat.lt_of_le_of_lt (hle hupper.2) (by decide)⟩
  · simp only [CodePoint.hexValue?, if_neg hdigit, if_neg hlower, if_neg hupper] at h
    cases h

theorem isBlank_of_hexValue? {d : Nat} (h : c.hexValue? = some d) : c.isBlank = false := by
  have htable : ∀ k < 0x37, CodePoint.blankSet.contains (0x30 + k) = false := by decide
  cases c with
  | surrogate => cases h
  | char ch =>
    obtain ⟨hlow, hhigh⟩ := toNat_of_hexValue? h
    have hcode := htable (ch.toNat - 0x30) (by omega)
    rw [Nat.add_sub_cancel' hlow] at hcode
    exact hcode

/-- An ASCII letter or digit has the same value as a digit of any script. -/
theorem digitValue?_of_hexValue? {d : Nat} (h : c.hexValue? = some d) :
    digitValue? 16 c = some d := by
  have htable : ∀ n < 0x67, (CodePoint.char (Char.ofNat n)).hexValue? = none ∨
      digitValue? 16 (.char (Char.ofNat n)) = (CodePoint.char (Char.ofNat n)).hexValue? := by
    decide +kernel
  cases c with
  | surrogate => cases h
  | char ch =>
    have hch := htable ch.toNat (toNat_of_hexValue? h).2
    rw [Char.ofNat_toNat, h] at hch
    exact hch.resolve_left (Option.some_ne_none d)

theorem isMargin_of_digitValue? (h : digitValue? base c = some d) : isMargin c = false := by
  have hvalue := (Option.filter_eq_some_iff.1 h).1
  have hblank : c.isBlank = false := by
    rcases Option.or_eq_some_iff.1 hvalue with hdecimal | ⟨-, hhex⟩
    · exact isBlank_of_decimalValue? hdecimal
    · exact isBlank_of_hexValue? hhex
  rw [isMargin, hblank, Bool.false_and]

/-! ## Numerals -/

/-- A sign or none, and whether it is a minus. -/
inductive IsSign : Text → Bool → Prop where
  | none : IsSign [] false
  | plus : IsSign [.char '+'] false
  | minus : IsSign [.char '-'] true

/-- The mark of the base sixteen, or none. -/
inductive IsMark (base : Nat) : Text → Prop where
  | none : IsMark base []
  | letter {zero : CodePoint} {x : Char} (hbase : base = 16) (hzero : zero.decimalValue? = some 0)
      (hx : x = 'x' ∨ x = 'X') : IsMark base [zero, .char x]
  | spaced {zero : CodePoint} {x : Char} (hbase : base = 16) (hzero : zero.decimalValue? = some 0)
      (hx : x = 'x' ∨ x = 'X') : IsMark base [zero, .char x, .char '_']

/-- A numeral, and the integer that it stands for. -/
inductive IsNumeral (base : Nat) : Text → Int → Prop where
  | mk {before sign mark digits after : Text} {negative : Bool} {n : Nat}
      (hbefore : ∀ c ∈ before, isMargin c = true) (hsign : IsSign sign negative)
      (hmark : IsMark base mark) (hdigits : Digits base digits n)
      (hafter : ∀ c ∈ after, isMargin c = true) :
      IsNumeral base (before ++ (sign ++ (mark ++ digits) ++ after)) (if negative then -n else n)

theorem exists_isSign (t : Text) : ∃ s, IsSign s (sign t).1 ∧ t = s ++ (sign t).2 := by
  unfold sign
  split
  · exact ⟨_, .minus, rfl⟩
  · exact ⟨_, .plus, rfl⟩
  · exact ⟨_, .none, rfl⟩

theorem sign_append {s t : Text} {negative : Bool} (hs : IsSign s negative)
    (ht : ∀ c ∈ t.head?, c ≠ .char '-' ∧ c ≠ .char '+') : sign (s ++ t) = (negative, t) := by
  cases hs with
  | none =>
    rw [List.nil_append]
    unfold sign
    split
    · exact absurd rfl (ht _ rfl).1
    · exact absurd rfl (ht _ rfl).2
    · rfl
  | plus => rfl
  | minus => rfl

theorem exists_isMark (base : Nat) (t : Text) :
    ∃ m, IsMark base m ∧ t = m ++ dropBaseMark base t := by
  unfold dropBaseMark
  split
  case h_1 first mark rest =>
    split
    case isTrue hmark =>
      have hparts : (base = 16 ∧ first.decimalValue? = some 0) ∧ (mark = 'x' ∨ mark = 'X') := by
        simpa using hmark
      split
      · exact ⟨_, .spaced hparts.1.1 hparts.1.2 hparts.2, rfl⟩
      · exact ⟨_, .letter hparts.1.1 hparts.1.2 hparts.2, rfl⟩
    case isFalse => exact ⟨_, .none, rfl⟩
  case h_2 => exact ⟨_, .none, rfl⟩

/-- No digit is the letter of a mark, so a mark is where it seems to be. -/
theorem dropBaseMark_append {m t : Text} {n : Nat} (hm : IsMark base m) (ht : Digits base t n) :
    dropBaseMark base (m ++ t) = t := by
  obtain ⟨c, d, rest, hhead, hc⟩ := ht.head
  cases hm with
  | none =>
    rw [List.nil_append]
    unfold dropBaseMark
    split
    case h_1 first mark rest =>
      have hmark : mark ≠ 'x' ∧ mark ≠ 'X' := by
        have hletter {x : Char} (hx : digitValue? base (.char x) = none) (hlow : x ≠ '_') :
            mark ≠ x := by
          intro heq
          rcases ht.mem (.char mark) (by simp) with hlowLine | ⟨d, hd⟩
          · rw [heq] at hlowLine
            exact hlow (CodePoint.char.inj hlowLine)
          · rw [heq, hx] at hd
            cases hd
        exact ⟨hletter rfl (by decide), hletter rfl (by decide)⟩
      simp [hmark.1, hmark.2]
    case h_2 => rfl
  | @letter zero x hbase hzero hx =>
    have hcondition :
        (base = 16 && zero.decimalValue? = some 0 && (x = 'x' || x = 'X')) = true := by
      simpa [hbase, hzero] using hx
    show dropBaseMark base (zero :: .char x :: t) = t
    unfold dropBaseMark
    simp only [hcondition, if_true]
    split
    case h_1 rest' =>
      rw [(List.cons.inj hhead).1.symm, digitValue?_lowLine] at hc
      cases hc
    case h_2 => rfl
  | @spaced zero x hbase hzero hx =>
    have hcondition :
        (base = 16 && zero.decimalValue? = some 0 && (x = 'x' || x = 'X')) = true := by
      simpa [hbase, hzero] using hx
    show dropBaseMark base (zero :: .char x :: .char '_' :: t) = t
    unfold dropBaseMark
    simp only [hcondition, if_true]

/-- What a numeral begins with behind its sign. -/
theorem head_mark_append {m t : Text} {n : Nat} (hm : IsMark base m) (ht : Digits base t n) :
    ∀ c ∈ (m ++ t).head?, isMargin c = false ∧ c ≠ .char '-' ∧ c ≠ .char '+' := by
  have hdecimal {c : CodePoint} (h : c.decimalValue? = some 0) :
      isMargin c = false ∧ c ≠ .char '-' ∧ c ≠ .char '+' := by
    refine ⟨by rw [isMargin, isBlank_of_decimalValue? h, Bool.false_and], ?_, ?_⟩
    · intro hc
      rw [hc] at h
      cases h
    · intro hc
      rw [hc] at h
      cases h
  intro c hc
  cases hm with
  | none =>
    obtain ⟨c', d, rest, hhead, hd⟩ := ht.head
    rw [List.nil_append, hhead] at hc
    rw [← Option.some.inj hc]
    refine ⟨isMargin_of_digitValue? hd, ?_, ?_⟩
    · intro hc
      rw [hc] at hd
      cases hd
    · intro hc
      rw [hc] at hd
      cases hd
  | letter hbase hzero hx =>
    rw [← Option.some.inj hc]
    exact hdecimal hzero
  | spaced hbase hzero hx =>
    rw [← Option.some.inj hc]
    exact hdecimal hzero

/-- A numeral is read if it is one, and for what it stands for. -/
theorem integer?_eq_some_iff {t : Text} {z : Int} :
    integer? base t = some z ↔ IsNumeral base t z := by
  constructor
  · intro h
    obtain ⟨after, hafter, hblank⟩ :=
      Text.exists_append_dropEndWhile isMargin (t.dropWhile isMargin)
    have ht : t = t.takeWhile isMargin ++ t.dropWhile isMargin :=
      List.takeWhile_append_dropWhile.symm
    have hbefore : ∀ c ∈ t.takeWhile isMargin, isMargin c = true := fun c hc =>
      List.mem_takeWhile_imp hc
    obtain ⟨n, hn, hz⟩ := Option.bind_eq_some_iff.1 h
    obtain ⟨s, hs, hsign⟩ := exists_isSign (Text.dropEndWhile isMargin (t.dropWhile isMargin))
    obtain ⟨m, hm, hmark⟩ := exists_isMark base
      (sign (Text.dropEndWhile isMargin (t.dropWhile isMargin))).2
    rw [ht, hafter, hsign, hmark, ← Option.some.inj hz]
    exact .mk hbefore hs hm (digits?_eq_some_iff.1 hn) hblank
  · intro h
    cases h with
    | @mk before s m digits after negative n hbefore hsign hmark hdigits hafter =>
      have hhead := head_mark_append hmark hdigits
      have hfirst : ∀ c ∈ (s ++ (m ++ digits)).head?, isMargin c = false := by
        cases hsign with
        | none => exact fun c hc => (hhead c hc).1
        | plus => exact fun c hc => Option.some.inj hc ▸ rfl
        | minus => exact fun c hc => Option.some.inj hc ▸ rfl
      obtain ⟨c, d, hlast, hc⟩ := hdigits.last
      have hlast : (s ++ (m ++ digits)).getLast? = some c := by
        rw [List.getLast?_append, List.getLast?_append, hlast]
        rfl
      have hne : s ++ (m ++ digits) ≠ [] := by
        intro hnil
        rw [hnil] at hlast
        cases hlast
      have hdrop : (before ++ (s ++ (m ++ digits) ++ after)).dropWhile isMargin =
          s ++ (m ++ digits) ++ after := by
        apply Text.dropWhile_append_of_head? hbefore
        obtain ⟨c', rest, hcons⟩ := List.exists_cons_of_ne_nil hne
        rw [hcons] at hfirst ⊢
        exact hfirst
      have hdropEnd : Text.dropEndWhile isMargin (s ++ (m ++ digits) ++ after) =
          s ++ (m ++ digits) := by
        apply Text.dropEndWhile_append_of_getLast? hafter
        intro c' hc'
        rw [hlast] at hc'
        rw [← Option.some.inj hc']
        exact isMargin_of_digitValue? hc
      rw [integer?, hdrop, hdropEnd, sign_append hsign fun c hc => (hhead c hc).2]
      show (digits? base (dropBaseMark base (m ++ digits))).bind _ = _
      rw [dropBaseMark_append hmark hdigits, digits?_eq_some_iff.2 hdigits]
      rfl

theorem IsNumeral.lt_pow {t : Text} {n : Nat} (hbase : 0 < base) (h : IsNumeral base t n) :
    n < base ^ t.length := by
  generalize hz : (n : Int) = z at h
  cases h with
  | @mk before s m digits after negative n' hbefore hsign hmark hdigits hafter =>
    have hle : n ≤ n' := by
      cases negative <;> simp at hz <;> omega
    have hlength : digits.length ≤ (before ++ (s ++ (m ++ digits) ++ after)).length := by
      simp only [List.length_append]
      omega
    calc n ≤ n' := hle
      _ < base ^ digits.length := hdigits.lt_pow
      _ ≤ base ^ (before ++ (s ++ (m ++ digits) ++ after)).length :=
        Nat.pow_le_pow_right hbase hlength

theorem IsMark.backslash_not_mem {m : Text} (h : IsMark base m) : CodePoint.char '\\' ∉ m := by
  have hzero {zero : CodePoint} (hzero : zero.decimalValue? = some 0) :
      CodePoint.char '\\' ≠ zero := by
    intro heq
    rw [← heq] at hzero
    cases hzero
  cases h with
  | none => exact List.not_mem_nil
  | letter _ hdigit hx => rcases hx with rfl | rfl <;> simp [hzero hdigit]
  | spaced _ hdigit hx => rcases hx with rfl | rfl <;> simp [hzero hdigit]

theorem IsNumeral.backslash_not_mem {t : Text} {z : Int} (h : IsNumeral base t z) :
    CodePoint.char '\\' ∉ t := by
  intro hmem
  cases h with
  | mk hbefore hsign hmark hdigits hafter =>
    simp only [List.mem_append] at hmem
    rcases hmem with hmem | ((hmem | hmem | hmem) | hmem)
    · exact absurd (hbefore _ hmem) (by decide)
    · cases hsign <;> simp at hmem
    · exact hmark.backslash_not_mem hmem
    · rcases hdigits.mem _ hmem with hlow | ⟨d, hd⟩
      · exact absurd hlow (by decide)
      · cases hd
    · exact absurd (hafter _ hmem) (by decide)

end

end Numeral
end ResourceFinder
