import ResourceFinder.Proofs.Dictionary.Update
import ResourceFinder.Proofs.Except.Failure
import ResourceFinder.Proofs.Properties.Reading

/-
One properties text after another.

Reading natural lines carries one thing from a line to the next: the logical line that is open.
Where a text leaves none open, the lines of a text written behind it are read as if they were all
there is, and so the one dictionary is the other brought up to date.
-/

namespace ResourceFinder
namespace Properties

/-- Whether a logical line is open after a natural line: the line ends in an odd number of
backslashes and is no comment.  Where a logical line was open before, it is never one. -/
def goesOn (opened : Bool) (raw : Text) : Bool :=
  let line := raw.dropWhile isFiller
  isContinued line && (opened || !isComment line)

/-- Whether the last natural line of a text leaves a logical line open. -/
def leavesOpen (t : Text) : Bool := (Text.naturalLines t).foldl goesOn false

section

variable {pending : Option Text} {raw : Text}

theorem goesOn_leftOut (h : IsLeftOut pending raw) : goesOn pending.isSome raw = false := by
  obtain ⟨rfl, hblank | hcomment⟩ := h
  · simp [goesOn, hblank, isContinued]
  · simp [goesOn, hcomment]

theorem goesOn_eq (h : ¬IsLeftOut pending raw) :
    goesOn pending.isSome raw = isContinued (raw.dropWhile isFiller) := by
  cases pending with
  | some line => simp [goesOn]
  | none =>
    have hcomment : isComment (raw.dropWhile isFiller) = false :=
      Bool.eq_false_iff.2 fun hcomment => h ⟨rfl, .inr hcomment⟩
    simp [goesOn, hcomment]

theorem joinLines_append {lines : List Text} (h : lines.foldl goesOn pending.isSome = false)
    (lines' : List Text) :
    joinLines pending (lines ++ lines') = joinLines pending lines ++ joinLines none lines' := by
  induction lines generalizing pending with
  | nil =>
    obtain rfl : pending = none := Option.not_isSome_iff_eq_none.1 (by simpa using h)
    rfl
  | cons raw lines ih =>
    rw [List.foldl_cons] at h
    rw [List.cons_append]
    by_cases hout : IsLeftOut pending raw
    · have hnone : lines.foldl goesOn (none : Option Text).isSome = false := by
        rwa [goesOn_leftOut hout] at h
      rw [joinLines_leftOut hout, joinLines_leftOut hout, ih hnone]
    · rw [goesOn_eq hout] at h
      cases hcontinued : isContinued (raw.dropWhile isFiller) with
      | true =>
        rw [joinLines_continued hout hcontinued, joinLines_continued hout hcontinued]
        exact ih (by rwa [hcontinued] at h)
      | false =>
        rw [joinLines_ended hout hcontinued, joinLines_ended hout hcontinued, List.cons_append]
        exact congrArg _ (ih (by rwa [hcontinued] at h))

end

theorem logicalLines_append {t : Text} (hreturn : t.getLast? ≠ some (.char '\r'))
    (hopen : leavesOpen t = false) (u : Text) :
    logicalLines (t ++ .char '\n' :: u) = logicalLines t ++ logicalLines u := by
  have hlines : (Text.naturalLines t).foldl goesOn (none : Option Text).isSome = false := hopen
  rw [logicalLines, Text.naturalLines_append hreturn, joinLines_append hlines]
  rfl

theorem nodup_keys_of_parse {t : Text} {d : Properties} (h : parse t = .ok d) :
    (Dictionary.keys d).Nodup := by
  obtain ⟨pairs, -, rfl⟩ := map_eq_ok.1 h
  exact Dictionary.nodup_keys_ofPairs pairs

/-- The dictionary of both texts, or what is wrong first. -/
theorem parse_append_eq {t : Text} (hreturn : t.getLast? ≠ some (.char '\r'))
    (hopen : leavesOpen t = false) (u : Text) :
    parse (t ++ .char '\n' :: u) = (do
      let d ← parse t
      let d' ← parse u
      return d.update d') := by
  simp only [parse, logicalLines_append hreturn hopen, List.mapM_append]
  cases (logicalLines t).mapM parseEntry with
  | error e => rfl
  | ok pairs =>
    cases (logicalLines u).mapM parseEntry with
    | error e => rfl
    | ok pairs' => exact congrArg Except.ok (Dictionary.ofPairs_append pairs pairs')

/-- Text behind a line feed adds to what the text before it gives: values of the second one override,
keys of the first one keep their places, and new keys follow in their order.  Both have to be without
faults, and a fault of the first one is the one that is told. -/
theorem parse_append_lineFeed {t : Text} (hreturn : t.getLast? ≠ some (.char '\r'))
    (hopen : leavesOpen t = false) (u : Text) :
    ((∃ e, parse (t ++ .char '\n' :: u) = .error e) ↔
      (∃ e, parse t = .error e) ∨ ∃ e, parse u = .error e) ∧
    (∀ e, parse t = .error e → parse (t ++ .char '\n' :: u) = .error e) ∧
    ∀ d, parse t = .ok d →
      (∀ e, parse u = .error e → parse (t ++ .char '\n' :: u) = .error e) ∧
      ∀ d', parse u = .ok d' →
        parse (t ++ .char '\n' :: u) = .ok (Dictionary.update d d') ∧
        (Dictionary.update d d').keys = Dictionary.keys d ++
          (Dictionary.keys d').filter (· ∉ Dictionary.keys d) ∧
        ∀ key, (Dictionary.update d d').get? key =
          (Dictionary.get? key d').or (Dictionary.get? key d) := by
  rw [parse_append_eq hreturn hopen]
  refine ⟨?_, ?_, ?_⟩
  · cases parse t with
    | error e => simp [bind, Except.bind]
    | ok d => cases parse u <;> simp [bind, Except.bind, pure, Except.pure]
  · intro e he
    rw [he]
    rfl
  · intro d hd
    refine ⟨?_, ?_⟩
    · intro e he
      rw [hd, he]
      rfl
    · intro d' hd'
      rw [hd, hd']
      have hnodup : (Dictionary.keys d').Nodup := nodup_keys_of_parse hd'
      exact ⟨rfl, Dictionary.keys_update d hnodup, Dictionary.get?_update d hnodup⟩

/-- Behind a comment that ends in a backslash, a key that is there already and one that is not. -/
theorem parse_append_lineFeed_comment :
    parse "b = 1\na = 2\n#\\" = .ok [("b", "1"), ("a", "2")] ∧
    parse "c\na : 3" = .ok [("c", ""), ("a", "3")] ∧
    parse "b = 1\na = 2\n#\\\nc\na : 3" = .ok [("b", "1"), ("a", "3"), ("c", "")] := by
  have ht : parse "b = 1\na = 2\n#\\" = .ok [("b", "1"), ("a", "2")] := by decide
  have hu : parse "c\na : 3" = .ok [("c", ""), ("a", "3")] := by decide
  have happend :=
    parse_append_lineFeed (t := "b = 1\na = 2\n#\\") (by decide) (by decide) "c\na : 3"
  exact ⟨ht, hu, ((happend.2.2 _ ht).2 _ hu).1⟩

/-- A line that goes on takes the first line of the text behind it along. -/
example : parse ("a = 1\\" ++ "\n" ++ "b = 2") = .ok [("a", "1b = 2")] := by decide

end Properties
end ResourceFinder
