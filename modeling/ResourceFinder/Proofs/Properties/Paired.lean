import Mathlib.Algebra.Group.Nat.Even
import Mathlib.Logic.Relation
import ResourceFinder.Proofs.Properties.Numbered

/-
No escape is cut in two.

A backslash and the character after it are a pair, the pairs of a text read from its left end.  A text
ends unpaired if its last backslash finds no character.  Backslashes at the end of a text come behind
a character that is none, or at its start, and so pair among themselves: a text ends unpaired exactly
if they are odd in number.  Joining natural lines takes such a backslash away before it puts anything
behind it, so no logical line ends unpaired; dividing the line into its key and its value cuts it
where no character is escaped, so neither part does.
-/

namespace ResourceFinder
namespace Properties

/-! ## Pairs -/

/-- A pair begins at a place: a backslash that is not escaped itself. -/
structure PairAt (t : Text) (i : Nat) : Prop where
  backslash : t[i]? = some (.char '\\')
  unescaped : escapedAt t i = false

/-- Whether the last character is a backslash without a character to pair with: it would escape one
behind the end. -/
def endsUnpaired (t : Text) : Bool := escapedAt t t.length

def finalBackslashes (t : Text) : Nat := (t.reverse.takeWhile (· = .char '\\')).length

section

variable {before t : Text}

theorem escapedAt_append_left (t u : Text) {i : Nat} (h : i ≤ t.length) :
    escapedAt (t ++ u) i = escapedAt t i := by
  induction i with
  | zero => rfl
  | succ i ih =>
    rw [escapedAt, ih (Nat.le_of_succ_le h), List.getElem?_append_left h, escapedAt]

theorem escapedAt_length_append (t u : Text) :
    escapedAt (t ++ u) t.length = endsUnpaired t :=
  escapedAt_append_left t u (Nat.le_refl _)

/-- Behind a text of whole pairs the pairing starts anew. -/
theorem endsUnpaired_append (h : endsUnpaired before = false) (t : Text) :
    endsUnpaired (before ++ t) = endsUnpaired t := by
  rw [endsUnpaired, List.length_append]
  exact escapedAt_append ((escapedAt_length_append before t).trans h) t.length

theorem endsUnpaired_concat (t : Text) (c : CodePoint) :
    endsUnpaired (t ++ [c]) = (decide (c = .char '\\') && !endsUnpaired t) := by
  rw [endsUnpaired, List.length_append, List.length_singleton, escapedAt, escapedAt_length_append,
    List.getElem?_concat_length]
  simp

/-- Pairs are read from the left and backslashes are counted from the right, which comes to the
same: one more character changes both alike. -/
theorem endsUnpaired_eq_isContinued (t : Text) : endsUnpaired t = isContinued t := by
  induction t using List.reverseRecOn with
  | nil => rfl
  | append_singleton t c ih => rw [endsUnpaired_concat, isContinued_concat_eq, ih]

theorem even_finalBackslashes_iff (t : Text) :
    Even (finalBackslashes t) ↔ endsUnpaired t = false := by
  have hodd : isContinued t = decide (finalBackslashes t % 2 = 1) := rfl
  rw [endsUnpaired_eq_isContinued, hodd, decide_eq_false_iff_not, Nat.even_iff]
  omega

theorem PairAt.succ_lt {i n : Nat} (h : PairAt t i) (hn : escapedAt t n = false) (hi : i < n) :
    i + 1 < n := by
  have hnext : escapedAt t (i + 1) = true := by
    rw [escapedAt, h.backslash, h.unescaped]
    rfl
  have hne : i + 1 ≠ n := by
    intro heq
    rw [heq, hn] at hnext
    cases hnext
  omega

end

/-! ## Logical lines -/

theorem endsUnpaired_dropLast {t : Text} (h : endsUnpaired t = true) :
    endsUnpaired t.dropLast = false := by
  cases t using List.reverseRecOn with
  | nil => cases h
  | append_singleton t c =>
    rw [endsUnpaired_concat, Bool.and_eq_true, Bool.not_eq_true'] at h
    rw [List.dropLast_concat]
    exact h.2

/-- However many lines are joined, the open line is of whole pairs before each of them. -/
theorem endsUnpaired_of_mem_joinLines {lines : List Text} {pending : Option Text}
    (hpending : endsUnpaired (pending.getD []) = false) {line : Text}
    (hline : line ∈ joinLines pending lines) : endsUnpaired line = false := by
  induction lines generalizing pending with
  | nil =>
    rw [joinLines, Option.mem_toList] at hline
    rw [hline] at hpending
    exact hpending
  | cons raw lines ih =>
    by_cases hout : IsLeftOut pending raw
    · rw [joinLines_leftOut hout] at hline
      exact ih rfl hline
    · cases hcontinued : isContinued (raw.dropWhile isFiller) with
      | true =>
        -- The backslashes of this line alone decide, whatever the open line ends in.
        rw [joinLines_continued hout hcontinued] at hline
        refine ih ?_ hline
        rw [Option.getD_some, endsUnpaired_append hpending]
        exact endsUnpaired_dropLast ((endsUnpaired_eq_isContinued _).trans hcontinued)
      | false =>
        rw [joinLines_ended hout hcontinued, List.mem_cons] at hline
        rcases hline with rfl | hline
        · rw [endsUnpaired_append hpending, endsUnpaired_eq_isContinued, hcontinued]
        · exact ih rfl hline

theorem endsUnpaired_of_mem_logicalLines {t line : Text} (h : line ∈ logicalLines t) :
    endsUnpaired line = false :=
  endsUnpaired_of_mem_joinLines rfl h

/-! ## The search for the end of a key -/

/-- The place after one in the search for the end of a key: a backslash is passed together with what
it escapes, if there is anything.  Where the search ends there is none. -/
def nextPlace? (t : Text) (i : Nat) : Option Nat :=
  match t[i]? with
  | none => none
  | some c => if c = .char '\\' then some (i + 2) else if endsKey c then none else some (i + 1)

/-- The places that the search comes to. -/
def Visits (t : Text) (i : Nat) : Prop :=
  Relation.ReflTransGen (fun i j => nextPlace? t i = some j) 0 i

section

variable {line : Text} {i j : Nat}

theorem nextPlace?_append (before t : Text) (i : Nat) :
    nextPlace? (before ++ t) (before.length + i) = (nextPlace? t i).map (before.length + ·) := by
  have hchar : (before ++ t)[before.length + i]? = t[i]? := by
    rw [List.getElem?_append_right (Nat.le_add_right _ i), Nat.add_sub_cancel_left]
  unfold nextPlace?
  rw [hchar]
  cases t[i]? with
  | none => rfl
  | some c =>
    by_cases hback : c = .char '\\'
    · simp [hback, Nat.add_assoc]
    · by_cases hends : endsKey c = true
      · simp [hback, hends]
      · simp [hback, hends, Nat.add_assoc]

/-- A search that passes the first characters goes on as it does without them. -/
theorem visits_append {before t : Text} (hbefore : Visits (before ++ t) before.length)
    (h : Visits t i) : Visits (before ++ t) (before.length + i) := by
  induction h with
  | refl => exact hbefore
  | tail _ hstep ih =>
    refine ih.tail ?_
    rw [nextPlace?_append, hstep]
    rfl

/-- The search ends where a key does, in any line. -/
theorem exists_visits_splitKey (line : Text) : ∃ i, Visits line i ∧ nextPlace? line i = none ∧
    splitKey line = (line.take i, line.drop i) := by
  -- A search behind a first unit is the search in the rest, moved by the unit's length.
  have hbehind (before : Text) {t : Text} (hbefore : Visits (before ++ t) before.length)
      (ih : ∃ i, Visits t i ∧ nextPlace? t i = none ∧ splitKey t = (t.take i, t.drop i))
      (hsplit : splitKey (before ++ t) = (before ++ (splitKey t).1, (splitKey t).2)) :
      ∃ i, Visits (before ++ t) i ∧ nextPlace? (before ++ t) i = none ∧
        splitKey (before ++ t) = ((before ++ t).take i, (before ++ t).drop i) := by
    obtain ⟨i, hvisits, hends, hkey⟩ := ih
    refine ⟨before.length + i, visits_append hbefore hvisits, ?_, ?_⟩
    · rw [nextPlace?_append, hends]
      rfl
    · rw [hsplit, hkey, List.take_length_add_append, List.drop_length_add_append]
  induction line using unitInduction with
  | empty => exact ⟨0, .refl, rfl, rfl⟩
  | last => exact ⟨2, .single rfl, rfl, rfl⟩
  | pair c t ih => exact hbehind [.char '\\', c] (.single rfl) ih (splitKey_pair c t)
  | alone c t hback ih =>
    by_cases hends : endsKey c = true
    · refine ⟨0, .refl, ?_, splitKey_end hends t⟩
      simp [nextPlace?, hback, hends]
    · obtain ⟨hseparator, hfiller⟩ := endsKey_eq_false.1 (Bool.eq_false_iff.2 hends)
      have hstep : nextPlace? (c :: t) 0 = some 1 := by simp [nextPlace?, hback, hends]
      exact hbehind [c] (.single hstep) ih (splitKey_alone hback hseparator hfiller t)

theorem nextPlace?_within (hline : endsUnpaired line = false) (hi : escapedAt line i = false)
    (hstep : nextPlace? line i = some j) : j ≤ line.length ∧ escapedAt line j = false := by
  unfold nextPlace? at hstep
  cases hchar : (line : Text)[i]? with
  | none => simp [hchar] at hstep
  | some c =>
    have hlt : i < line.length := (List.getElem?_eq_some_iff.1 hchar).1
    by_cases hback : c = .char '\\'
    · obtain rfl : i + 2 = j := by simpa [hchar, hback] using hstep
      have hpair : PairAt line i := ⟨hchar.trans (congrArg some hback), hi⟩
      refine ⟨hpair.succ_lt hline hlt, ?_⟩
      simp [escapedAt, hchar, hback, hi]
    · have hj : endsKey c = false ∧ i + 1 = j := by simpa [hchar, hback] using hstep
      obtain ⟨-, rfl⟩ := hj
      refine ⟨hlt, ?_⟩
      simp [escapedAt, hchar, hback]

/-- The whole search stays in the line, and it stops at whole pairs only. -/
theorem Visits.within (hline : endsUnpaired line = false) (h : Visits line i) :
    i ≤ line.length ∧ escapedAt line i = false := by
  induction h with
  | refl => exact ⟨Nat.zero_le _, rfl⟩
  | tail _ hstep ih => exact nextPlace?_within hline ih.2 hstep

/-- In a text that ends unpaired the search runs past the end. -/
example : nextPlace? "\\" 0 = some 2 := by decide

end

/-! ## Keys and values -/

section

variable {line key gap value : Text}

theorem exists_splitEntry_eq (line : Text) : ∃ gap, .char '\\' ∉ gap ∧
    line = (splitEntry line).1 ++ gap ++ (splitEntry line).2 := by
  obtain ⟨before, separator, after, h⟩ :=
    (splitEntry_eq_iff line (splitEntry line).1 (splitEntry line).2).1 rfl
  refine ⟨before ++ separator ++ after, ?_, ?_⟩
  · have hseparator : .char '\\' ∉ separator := by
      intro hmem
      rcases h.atMostOne with rfl | ⟨c, hc, rfl⟩
      · cases hmem
      · rw [← List.mem_singleton.1 hmem] at hc
        exact absurd hc (by decide)
    have hblank {blanks : Text} (hblanks : ∀ c ∈ blanks, isFiller c = true) :
        .char '\\' ∉ blanks := fun hmem => absurd (hblanks _ hmem) (by decide)
    simp [hblank h.blankBefore, hblank h.blankAfter, hseparator]
  · exact h.line_eq.trans (by simp only [List.append_assoc])

theorem endsUnpaired_splitEntry (hline : endsUnpaired line = false) :
    endsUnpaired (splitEntry line).1 = false := by
  obtain ⟨i, hvisits, -, hsplit⟩ := exists_visits_splitKey line
  obtain ⟨hle, hescaped⟩ := hvisits.within hline
  have hkey : (splitEntry line).1 = line.take i := congrArg Prod.fst hsplit
  have hlength : (line.take i).length = i := List.length_take_of_le hle
  have htake := escapedAt_length_append (line.take i) (line.drop i)
  rw [List.take_append_drop, hlength, hescaped] at htake
  rw [hkey]
  exact htake.symm

/-- A text without a backslash at its end is of whole pairs, whatever is before it. -/
theorem endsUnpaired_append_of_not_mem (hkey : endsUnpaired key = false)
    (hgap : .char '\\' ∉ gap) : endsUnpaired (key ++ gap) = false := by
  rw [endsUnpaired_append hkey]
  cases gap using List.reverseRecOn with
  | nil => rfl
  | append_singleton gap c =>
    have hc : c ≠ .char '\\' := by
      rintro rfl
      simp at hgap
    rw [endsUnpaired_concat, decide_eq_false hc, Bool.false_and]

/-- Of the parts of a line a pair is in the first or in the last, and there as a whole. -/
theorem PairAt.in_part {i : Nat} (h : PairAt line i) (hline : endsUnpaired line = false)
    (hkey : endsUnpaired key = false) (hgap : .char '\\' ∉ gap)
    (hparts : line = key ++ gap ++ value) :
    i + 1 < key.length ∨ key.length + gap.length ≤ i ∧ i + 1 < line.length := by
  have hlt : i < line.length := (List.getElem?_eq_some_iff.1 h.backslash).1
  by_cases hfirst : i < key.length
  · left
    refine h.succ_lt ?_ hfirst
    rw [hparts, List.append_assoc, escapedAt_length_append, hkey]
  · right
    refine ⟨?_, h.succ_lt hline hlt⟩
    by_contra hbetween
    have hchar := h.backslash
    rw [hparts, List.append_assoc, List.getElem?_append_right (Nat.le_of_not_lt hfirst),
      List.getElem?_append_left (by omega)] at hchar
    exact hgap (List.mem_of_getElem? hchar)

end

/-! ## Escapes -/

/-- A text with its escapes resolved, where a backslash that is left over at the end comes to
`leftOver`. -/
def unescapeWith (leftOver : Except EscapeError Text) : Text → Except EscapeError Text
  | [] => .ok []
  | .char '\\' :: .char 'u' :: a :: b :: c :: d :: t =>
    match numberedChar? [a, b, c, d] with
    | some p => (unescapeWith leftOver t).map (p :: ·)
    | none => .error (.notANumber [a, b, c, d])
  | .char '\\' :: .char 'u' :: t => .error (.short (.char '\\' :: .char 'u' :: t))
  | .char '\\' :: c :: t => (unescapeWith leftOver t).map (escapedChar c :: ·)
  | [.char '\\'] => leftOver
  | c :: t => (unescapeWith leftOver t).map (c :: ·)

section

variable {leftOver : Except EscapeError Text}

theorem unescapeWith_pair {c : CodePoint} (h : c ≠ .char 'u') (t : Text) :
    unescapeWith leftOver (.char '\\' :: c :: t) =
      (unescapeWith leftOver t).map (escapedChar c :: ·) :=
  unescapeWith.eq_4 leftOver c t (fun _ _ _ _ _ e _ => h e) h

theorem unescapeWith_alone {c : CodePoint} (h : c ≠ .char '\\') (t : Text) :
    unescapeWith leftOver (c :: t) = (unescapeWith leftOver t).map (c :: ·) :=
  unescapeWith.eq_6 leftOver c t (fun _ _ _ _ _ e _ => h e) (fun _ e _ => h e) (fun _ _ e _ => h e)
    (fun e _ => h e)

/-- Resolving escapes copies a backslash that is left over, and in a text of whole pairs none is: the
characters of an escape by number are no backslashes. -/
theorem unescapeWith_eq {t : Text} (h : endsUnpaired t = true → leftOver = .ok [.char '\\']) :
    unescapeWith leftOver t = unescape t := by
  have hbehind {before t : Text} (hbefore : endsUnpaired before = false)
      (h : endsUnpaired (before ++ t) = true → leftOver = .ok [.char '\\']) :
      endsUnpaired t = true → leftOver = .ok [.char '\\'] := by
    rwa [endsUnpaired_append hbefore] at h
  induction t using unescape.induct with
  | case1 => rfl
  | case2 a b c d t p hp ih =>
    have hd : d ≠ .char '\\' := by
      rintro rfl
      exact (numberedChar?_eq_some_iff.1 hp).backslash_not_mem (by simp)
    have hbefore : endsUnpaired [.char '\\', .char 'u', a, b, c, d] = false := by
      simp [endsUnpaired, escapedAt, hd]
    rw [unescapeWith, unescape, hp, ih (hbehind hbefore h)]
  | case3 a b c d t hnone => rw [unescapeWith, unescape, hnone]
  | case4 t hshort => rw [unescapeWith.eq_3 _ t hshort, unescape.eq_3 t hshort]
  | case5 c t _ hletter ih =>
    have hbefore : endsUnpaired [.char '\\', c] = false := by simp [endsUnpaired, escapedAt]
    rw [unescapeWith_pair hletter, unescape_pair hletter, ih (hbehind hbefore h)]
  | case6 c t _ _ hpair ih =>
    by_cases hback : c = .char '\\'
    · cases t with
      | nil =>
        rw [hback] at h ⊢
        exact h rfl
      | cons d t => exact absurd rfl (hpair d t hback)
    · have hbefore : endsUnpaired [c] = false := by simp [endsUnpaired, escapedAt, hback]
      rw [unescapeWith_alone hback, unescape_alone hback, ih (hbehind hbefore h)]

end

/-! ## Texts -/

/-- Every logical line is of whole pairs: its backslashes at the end are even in number however many
lines are joined in it.  The search for the end of its key stays in the line.  Each pair is in the
key or in the value as a whole, and both are of whole pairs, so it makes no difference to them what
a backslash that is left over would come to. -/
theorem logicalLines_keep_pairs {t line key value : Text} (hline : line ∈ logicalLines t)
    (hsplit : splitEntry line = (key, value)) :
    Even (finalBackslashes line) ∧
    (∀ i, Visits line i → i ≤ line.length) ∧
    (∃ i, Visits line i ∧ nextPlace? line i = none ∧
      key = line.take i ∧ value = dropSeparator (line.drop i)) ∧
    (∃ gap, line = key ++ gap ++ value ∧
      ∀ i, PairAt line i →
        i + 1 < key.length ∨ key.length + gap.length ≤ i ∧ i + 1 < line.length) ∧
    ∀ part ∈ [key, value], endsUnpaired part = false ∧
      ∀ leftOver, unescapeWith leftOver part = unescape part := by
  have hwhole : endsUnpaired line = false := endsUnpaired_of_mem_logicalLines hline
  obtain ⟨i, hvisits, hends, hfound⟩ := exists_visits_splitKey line
  obtain ⟨gap, hgap, hparts⟩ := exists_splitEntry_eq line
  have hkey : endsUnpaired key = false := by
    have h := endsUnpaired_splitEntry hwhole
    rwa [hsplit] at h
  have hvalue : endsUnpaired value = false := by
    rw [hsplit] at hparts
    rw [← endsUnpaired_append (endsUnpaired_append_of_not_mem hkey hgap), ← hparts, hwhole]
  rw [hsplit] at hparts
  refine ⟨(even_finalBackslashes_iff line).2 hwhole, fun i hi => (hi.within hwhole).1, ?_,
    ⟨gap, hparts, fun i hi => hi.in_part hwhole hkey hgap hparts⟩, ?_⟩
  · have hboth : (key, value) = (line.take i, dropSeparator (line.drop i)) := by
      rw [← hsplit, splitEntry, hfound]
    exact ⟨i, hvisits, hends, congrArg Prod.fst hboth, congrArg Prod.snd hboth⟩
  · have hpart {part : Text} (h : endsUnpaired part = false) : endsUnpaired part = false ∧
        ∀ leftOver, unescapeWith leftOver part = unescape part :=
      ⟨h, fun leftOver => unescapeWith_eq (by simp [h])⟩
    exact List.forall_mem_cons.2 ⟨hpart hkey, List.forall_mem_singleton.2 (hpart hvalue)⟩

/-- Three natural lines that end in three, three and two backslashes, the second of them of nothing
else, are one line of two pairs more in its key, and what is left over has no part in its value. -/
theorem logicalLines_keep_pairs_joined :
    let line : Text := "k\\:\\\\\\\\= \\u0041\\\\"
    line ∈ logicalLines "k\\:\\\\\\\n\\\\\\\n = \\u0041\\\\" ∧
      splitEntry line = (("k\\:\\\\\\\\" : Text), ("\\u0041\\\\" : Text)) ∧
      Even (finalBackslashes line) ∧ (∀ i, Visits line i → i ≤ 17) ∧
      ∀ leftOver, unescapeWith leftOver "\\u0041\\\\" = .ok "A\\" := by
  intro line
  have hline : line ∈ logicalLines "k\\:\\\\\\\n\\\\\\\n = \\u0041\\\\" := by decide
  have hsplit : splitEntry line = (("k\\:\\\\\\\\" : Text), ("\\u0041\\\\" : Text)) := by decide
  obtain ⟨heven, hvisits, -, -, hparts⟩ := logicalLines_keep_pairs hline hsplit
  have hvalue := hparts "\\u0041\\\\" (by simp)
  exact ⟨hline, hsplit, heven, hvisits, fun leftOver => (hvalue.2 leftOver).trans (by decide)⟩

end Properties
end ResourceFinder
