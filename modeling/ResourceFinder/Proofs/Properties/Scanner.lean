import ResourceFinder.Proofs.Properties.Reading

/-
The logical lines of a text in one pass over its characters.

The scanner looks at one character at a time and never ahead or back.  Of the line that it is in it
keeps the place, and of the logical line what there is of it and whether the backslashes at its end
are odd in number.  The proof says what the scanner holds behind some characters of a natural line as
a function of these characters (`within`); one more character changes both alike, and at the end of
the line the scanner does what joining natural lines does there.
-/

namespace ResourceFinder
namespace Properties

/-- Where in a natural line the scanner is: before all but blanks, in a comment, or behind a
character of the logical line. -/
inductive Place where
  | start
  | comment
  | inside
  deriving DecidableEq

/-- What the scanner keeps of the lines before and of the one that it is in. -/
structure Scanner where
  /-- The logical lines that are complete. -/
  emitted : List Text
  /-- The logical line that is open. -/
  opened : Option Text
  /-- The open line ends in an odd number of backslashes. -/
  odd : Bool
  place : Place

namespace Scanner

def atStart (emitted : List Text) (opened : Option Text) : Scanner :=
  ⟨emitted, opened, false, .start⟩

def put (s : Scanner) (c : CodePoint) : Scanner :=
  { s with
    opened := some (s.opened.getD [] ++ [c])
    odd := c = .char '\\' && !s.odd
    place := .inside }

def take (s : Scanner) (c : CodePoint) : Scanner :=
  match s.place with
  | .start =>
    if isFiller c then s
    else if s.opened.isNone && c.isOneOf ['#', '!'] then { s with place := .comment }
    else s.put c
  | .comment => s
  | .inside => s.put c

def endLine (s : Scanner) : Scanner :=
  match s.opened with
  | none => atStart s.emitted none
  | some line =>
    if s.odd then atStart s.emitted (some line.dropLast) else atStart (s.emitted ++ [line]) none

/-- Any character, and whether the one before it was a carriage return: a line feed is then part of
the line end that this was. -/
def step : Scanner × Bool → CodePoint → Scanner × Bool
  | (s, afterReturn), c =>
    if c = .char '\n' then (if afterReturn then s else s.endLine, false)
    else if c = .char '\r' then (s.endLine, true)
    else (s.take c, false)

def finish (s : Scanner) : List Text :=
  match s.opened with
  | none => s.emitted
  | some line => s.emitted ++ [if s.odd then line.dropLast else line]

end Scanner

/-- The logical lines that the scanner finds. -/
def scan (t : Text) : List Text := (t.foldl Scanner.step (.atStart [] none, false)).1.finish

namespace Scanner

/-! ## Line ends -/

section

variable {s : Scanner}

theorem step_lineFeed : step (s, false) (.char '\n') = (s.endLine, false) := rfl

theorem step_carriageReturn (afterReturn : Bool) :
    step (s, afterReturn) (.char '\r') = (s.endLine, true) := rfl

theorem step_of_ne {c : CodePoint} (hfeed : c ≠ .char '\n') (hreturn : c ≠ .char '\r')
    (afterReturn : Bool) : step (s, afterReturn) c = (s.take c, false) := by
  rw [step, if_neg hfeed, if_neg hreturn]

/-- A carriage return shows in nothing but a line feed right after it. -/
theorem foldl_step_afterReturn {t : Text} (h : t.head? ≠ some (.char '\n')) :
    (t.foldl step (s, true)).1 = (t.foldl step (s, false)).1 := by
  cases t with
  | nil => rfl
  | cons c t =>
    have hc : c ≠ .char '\n' := fun hc => h (congrArg some hc)
    have hstep : step (s, true) c = step (s, false) c := by
      rw [step, step, if_neg hc, if_neg hc]
    rw [List.foldl_cons, List.foldl_cons, hstep]

/-- Every line end counts as one line feed. -/
theorem foldl_step_unifyLineEnds (t : Text) :
    (t.foldl step (s, false)).1 = (t.unifyLineEnds.foldl step (s, false)).1 := by
  induction t using Text.unifyLineEnds.induct generalizing s with
  | case1 t ih =>
    rw [Text.unifyLineEnds, List.foldl_cons, List.foldl_cons, List.foldl_cons, step_lineFeed]
    exact ih
  | case2 t hne ih =>
    have hhead : t.head? ≠ some (.char '\n') := by
      intro hhead
      obtain ⟨t', rfl⟩ := List.head?_eq_some_iff.1 hhead
      exact hne t' rfl
    rw [Text.unifyLineEnds.eq_2 t hne, List.foldl_cons, List.foldl_cons, step_carriageReturn,
      step_lineFeed, foldl_step_afterReturn hhead]
    exact ih
  | case3 c t hpair hreturn ih =>
    obtain ⟨s', hs'⟩ : ∃ s', step (s, false) c = (s', false) := by
      by_cases hfeed : c = .char '\n'
      · exact ⟨s.endLine, hfeed ▸ step_lineFeed⟩
      · exact ⟨s.take c, step_of_ne hfeed hreturn false⟩
    rw [Text.unifyLineEnds.eq_3 c t hpair hreturn, List.foldl_cons, List.foldl_cons, hs']
    exact ih
  | case4 => rfl

end

/-! ## Natural lines -/

/-- What the scanner holds behind the first characters of a natural line, said by these alone and
by what it held before the line. -/
def within (emitted : List Text) (opened : Option Text) (before : Text) : Scanner :=
  let line := before.dropWhile isFiller
  if line = [] then atStart emitted opened
  else if opened = none ∧ isComment line = true then ⟨emitted, none, false, .comment⟩
  else ⟨emitted, some (opened.getD [] ++ line), isContinued line, .inside⟩

section

variable {emitted : List Text} {opened : Option Text} {before : Text}

theorem within_blank (h : before.dropWhile isFiller = []) :
    within emitted opened before = atStart emitted opened := by
  rw [within, if_pos h]

theorem atStart_eq_within (emitted : List Text) (opened : Option Text) :
    atStart emitted opened = within emitted opened [] := rfl

theorem within_comment (hne : before.dropWhile isFiller ≠ [])
    (h : opened = none ∧ isComment (before.dropWhile isFiller) = true) :
    within emitted opened before = ⟨emitted, none, false, .comment⟩ := by
  rw [within, if_neg hne, if_pos h]

theorem within_inside (hne : before.dropWhile isFiller ≠ [])
    (h : ¬(opened = none ∧ isComment (before.dropWhile isFiller) = true)) :
    within emitted opened before =
      ⟨emitted, some (opened.getD [] ++ before.dropWhile isFiller),
        isContinued (before.dropWhile isFiller), .inside⟩ := by
  rw [within, if_neg hne, if_neg h]

theorem take_within_blank (hblank : before.dropWhile isFiller = []) (c : CodePoint) :
    (within emitted opened before).take c = within emitted opened (before ++ [c]) := by
  have hone : (before ++ [c]).dropWhile isFiller = [c].dropWhile isFiller := by
    rw [List.dropWhile_append, hblank]
    rfl
  rw [within_blank hblank]
  cases hfiller : isFiller c with
  | true =>
    rw [within_blank (hone.trans (List.dropWhile_cons_of_pos hfiller))]
    simp [atStart, take, hfiller]
  | false =>
    have hc : (before ++ [c]).dropWhile isFiller = [c] :=
      hone.trans (List.dropWhile_cons_of_neg (by simp [hfiller]))
    have hne : (before ++ [c]).dropWhile isFiller ≠ [] := by simp [hc]
    have hsign : isComment [c] = c.isOneOf ['#', '!'] := rfl
    by_cases hcomment : opened = none ∧ isComment [c] = true
    · rw [within_comment hne (by rwa [hc])]
      obtain ⟨rfl, hsign'⟩ := hcomment
      simp [atStart, take, hfiller, hsign ▸ hsign']
    · rw [within_inside hne (by rwa [hc]), hc, ← List.nil_append [c], isContinued_concat_eq]
      have hput : (opened.isNone && c.isOneOf ['#', '!']) = false := by
        rw [← hsign, Bool.eq_false_iff]
        simpa using hcomment
      simp [atStart, take, put, hfiller, hput, isContinued]

theorem take_within_of_ne (hne : before.dropWhile isFiller ≠ []) (c : CodePoint) :
    (within emitted opened before).take c = within emitted opened (before ++ [c]) := by
  have hmore : (before ++ [c]).dropWhile isFiller = before.dropWhile isFiller ++ [c] := by
    rw [List.dropWhile_append, if_neg (by simpa using hne)]
  have hne' : (before ++ [c]).dropWhile isFiller ≠ [] := by simp [hmore]
  have hsign : isComment ((before ++ [c]).dropWhile isFiller) =
      isComment (before.dropWhile isFiller) := by
    obtain ⟨d, line, hline⟩ := List.exists_cons_of_ne_nil hne
    rw [hmore, hline]
    rfl
  by_cases hcomment : opened = none ∧ isComment (before.dropWhile isFiller) = true
  · rw [within_comment hne hcomment, within_comment hne' (by rwa [hsign])]
    rfl
  · rw [within_inside hne hcomment, within_inside hne' (by rwa [hsign]), hmore,
      isContinued_concat_eq, ← List.append_assoc]
    rfl

theorem take_within (emitted : List Text) (opened : Option Text) (before : Text) (c : CodePoint) :
    (within emitted opened before).take c = within emitted opened (before ++ [c]) := by
  by_cases h : before.dropWhile isFiller = []
  · exact take_within_blank h c
  · exact take_within_of_ne h c

theorem emitted_within (emitted : List Text) (opened : Option Text) (before : Text) :
    (within emitted opened before).emitted = emitted := by
  rw [within]
  split
  · rfl
  · split <;> rfl

theorem opened_within_leftOut (h : IsLeftOut opened before) :
    (within emitted opened before).opened = none := by
  obtain ⟨rfl, hline⟩ := h
  by_cases hblank : before.dropWhile isFiller = []
  · rw [within_blank hblank]
    rfl
  · rw [within_comment hblank ⟨rfl, hline.resolve_left hblank⟩]

theorem opened_within (emitted : List Text) (h : ¬IsLeftOut opened before) :
    (within emitted opened before).opened = some (opened.getD [] ++ before.dropWhile isFiller) ∧
      (within emitted opened before).odd = isContinued (before.dropWhile isFiller) := by
  by_cases hblank : before.dropWhile isFiller = []
  · rw [within_blank hblank, hblank]
    cases opened with
    | none => exact absurd ⟨rfl, .inl hblank⟩ h
    | some line => simp [atStart, isContinued]
  · rw [within_inside hblank fun hcomment => h ⟨hcomment.1, .inr hcomment.2⟩]
    exact ⟨rfl, rfl⟩

/-- At the end of a natural line the scanner does what joining natural lines does with it. -/
theorem joinLines_cons (emitted : List Text) (opened : Option Text) (line : Text)
    (lines : List Text) :
    ∃ emitted' opened', (within emitted opened line).endLine = atStart emitted' opened' ∧
      emitted ++ joinLines opened (line :: lines) = emitted' ++ joinLines opened' lines := by
  have hemitted := emitted_within emitted opened line
  by_cases hout : IsLeftOut opened line
  · refine ⟨emitted, none, ?_, by rw [joinLines_leftOut hout]⟩
    rw [endLine, opened_within_leftOut hout, hemitted]
  · obtain ⟨hopened, hodd⟩ := opened_within emitted hout
    cases hcontinued : isContinued (line.dropWhile isFiller) with
    | true =>
      have hne : line.dropWhile isFiller ≠ [] := by
        intro hblank
        simp [hblank, isContinued] at hcontinued
      refine ⟨emitted, some (opened.getD [] ++ (line.dropWhile isFiller).dropLast), ?_, ?_⟩
      · simp only [endLine, hopened, hodd, hcontinued, hemitted, if_true,
          List.dropLast_append_of_ne_nil hne]
      · rw [joinLines_continued hout hcontinued]
    | false =>
      refine ⟨emitted ++ [opened.getD [] ++ line.dropWhile isFiller], none, ?_, ?_⟩
      · simp [endLine, hopened, hodd, hcontinued, hemitted]
      · rw [joinLines_ended hout hcontinued, List.append_assoc, List.singleton_append]

theorem finish_eq (s : Scanner) : s.finish = s.endLine.emitted ++ s.endLine.opened.toList := by
  simp only [finish, endLine]
  cases s.opened with
  | none => simp [atStart]
  | some line => cases s.odd <;> simp [atStart]

theorem finish_foldl (hbefore : .char '\n' ∉ before) {t : Text} (ht : .char '\r' ∉ t) :
    (t.foldl step (within emitted opened before, false)).1.finish =
      emitted ++ joinLines opened (Text.splitAt '\n' (before ++ t)) := by
  -- The induction is on what is still to come; what the line has so far is carried in `before`.
  induction t generalizing emitted opened before with
  | nil =>
    obtain ⟨emitted', opened', hend, hjoin⟩ := joinLines_cons emitted opened before []
    rw [List.append_nil, Text.splitAt_of_not_mem hbefore, hjoin, List.foldl_nil, finish_eq, hend]
    rfl
  | cons c t ih =>
    rw [List.mem_cons, not_or] at ht
    by_cases hc : c = .char '\n'
    · subst hc
      obtain ⟨emitted', opened', hend, hjoin⟩ :=
        joinLines_cons emitted opened before (Text.splitAt '\n' t)
      rw [Text.splitAt_append hbefore, hjoin, List.foldl_cons, step_lineFeed, hend,
        atStart_eq_within]
      exact ih List.not_mem_nil ht.2
    · have hmem : .char '\n' ∉ before ++ [c] := by
        simpa [hbefore] using Ne.symm hc
      rw [List.foldl_cons, step_of_ne hc (Ne.symm ht.1), take_within,
        ih hmem ht.2, List.append_assoc, List.singleton_append]

end

end Scanner

/-- The logical lines of a text are those that the scanner finds. -/
theorem logicalLines_eq_scan (t : Text) : logicalLines t = scan t := by
  rw [scan, Scanner.foldl_step_unifyLineEnds, Scanner.atStart_eq_within,
    Scanner.finish_foldl List.not_mem_nil (Text.not_mem_unifyLineEnds t)]
  rfl

/-- A backslash alone on its line opens an empty line, so what looks like a comment behind it is
none; the end of the text takes the last backslash away. -/
example : scan "\\\r\n  #a\n\n! b\\\nc\\" = ([("#a" : Text), "c"]) := by decide

end Properties
end ResourceFinder
