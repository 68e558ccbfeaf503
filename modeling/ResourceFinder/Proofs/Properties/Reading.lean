import ResourceFinder.Proofs.Text.Lines
import ResourceFinder.Properties.Parser

/-
What each pass over a properties text does with one more character.

A backslash and the character after it are one unit to all passes that look inside a line, so the
lemmas come in pairs: one for such a unit, one for a character that stands alone.
-/

namespace ResourceFinder
namespace Properties

/-! ## Logical lines -/

theorem isContinued_concat {c : CodePoint} (h : c ≠ .char '\\') (t : Text) :
    isContinued (t ++ [c]) = false := by
  simp [isContinued, h]

theorem isContinued_append_pair (t : Text) :
    isContinued (t ++ [.char '\\', .char '\\']) = isContinued t := by
  simp only [isContinued, List.reverse_append, List.reverse_cons, List.reverse_nil, List.nil_append,
    List.cons_append, List.takeWhile_cons, decide_true, if_true, List.length_cons]
  rw [decide_eq_decide]
  omega

/-- One more backslash at the end turns a line that goes on into one that does not, and back. -/
theorem isContinued_concat_backslash (t : Text) :
    isContinued (t ++ [.char '\\']) = !isContinued t := by
  simp only [isContinued, List.reverse_append, List.reverse_cons, List.reverse_nil, List.nil_append,
    List.cons_append, List.takeWhile_cons, decide_true, if_true, List.length_cons]
  rw [← decide_not, decide_eq_decide]
  omega

theorem isContinued_concat_eq (t : Text) (c : CodePoint) :
    isContinued (t ++ [c]) = (decide (c = .char '\\') && !isContinued t) := by
  by_cases h : c = .char '\\'
  · rw [h, isContinued_concat_backslash]
    rfl
  · rw [isContinued_concat h, decide_eq_false h]
    rfl

/-- A blank line or a comment, where no line is open: a natural line that is left out. -/
def IsLeftOut (pending : Option Text) (raw : Text) : Prop :=
  pending = none ∧ (raw.dropWhile isFiller = [] ∨ isComment (raw.dropWhile isFiller) = true)

section

variable {pending : Option Text} {raw : Text}

theorem skips_iff : (pending.isNone && ((raw.dropWhile isFiller).isEmpty ||
    isComment (raw.dropWhile isFiller))) = true ↔ IsLeftOut pending raw := by
  simp [IsLeftOut]

theorem joinLines_leftOut (h : IsLeftOut pending raw) (lines : List Text) :
    joinLines pending (raw :: lines) = joinLines none lines := by
  simp only [joinLines]
  rw [if_pos (skips_iff.2 h)]

/-- A line that goes on. -/
theorem joinLines_continued (h : ¬IsLeftOut pending raw)
    (hcontinued : isContinued (raw.dropWhile isFiller) = true) (lines : List Text) :
    joinLines pending (raw :: lines) =
      joinLines (some (pending.getD [] ++ (raw.dropWhile isFiller).dropLast)) lines := by
  simp only [joinLines]
  rw [if_neg (mt skips_iff.1 h), if_pos hcontinued]

/-- A line that ends a logical line. -/
theorem joinLines_ended (h : ¬IsLeftOut pending raw)
    (hended : isContinued (raw.dropWhile isFiller) = false) (lines : List Text) :
    joinLines pending (raw :: lines) =
      (pending.getD [] ++ raw.dropWhile isFiller) :: joinLines none lines := by
  simp only [joinLines]
  rw [if_neg (mt skips_iff.1 h), if_neg (by simp [hended])]

end

/-- A natural line that is a logical line as it stands, whatever is before and after it. -/
structure IsEntire (line : Text) : Prop where
  starts : ∀ c ∈ line.head?, isFiller c = false ∧ c.isOneOf ['#', '!'] = false
  notEmpty : line ≠ []
  ends : isContinued line = false

theorem joinLines_entire_append {lines : List Text} (h : ∀ line ∈ lines, IsEntire line)
    (rest : List Text) : joinLines none (lines ++ rest) = lines ++ joinLines none rest := by
  induction lines with
  | nil => rfl
  | cons line lines ih =>
    obtain ⟨hline, hlines⟩ := List.forall_mem_cons.1 h
    obtain ⟨c, t, rfl⟩ := List.exists_cons_of_ne_nil hline.notEmpty
    obtain ⟨hfiller, hcomment⟩ := hline.starts c rfl
    have hdrop : (c :: t).dropWhile isFiller = c :: t :=
      List.dropWhile_cons_of_neg (by simp [hfiller])
    simp [joinLines, hdrop, isComment, hcomment, hline.ends, ih hlines]

theorem joinLines_of_isEntire {lines : List Text} (h : ∀ line ∈ lines, IsEntire line) :
    joinLines none lines = lines := by
  have happend := joinLines_entire_append h []
  rwa [joinLines, Option.toList_none, List.append_nil] at happend

/-! ## Keys -/

theorem splitKey_pair (c : CodePoint) (t : Text) :
    splitKey (.char '\\' :: c :: t) = (.char '\\' :: c :: (splitKey t).1, (splitKey t).2) := by
  rw [splitKey]

theorem splitKey_alone {c : CodePoint} (hback : c ≠ .char '\\') (hseparator : isSeparator c = false)
    (hfiller : isFiller c = false) (t : Text) :
    splitKey (c :: t) = (c :: (splitKey t).1, (splitKey t).2) := by
  cases t with
  | nil => simp [splitKey, hseparator, hfiller]
  | cons d t =>
    rw [splitKey.eq_4 c (d :: t) (by simp) (fun _ _ e _ => hback e)]
    simp [hseparator, hfiller]

/-- Whether a character ends the key before it, unless it is escaped. -/
def endsKey (c : CodePoint) : Bool := isSeparator c || isFiller c

theorem endsKey_eq_false {c : CodePoint} :
    endsKey c = false ↔ isSeparator c = false ∧ isFiller c = false := Bool.or_eq_false_iff

theorem splitKey_end {c : CodePoint} (h : endsKey c = true) (t : Text) :
    splitKey (c :: t) = ([], c :: t) := by
  have hends : (isSeparator c || isFiller c) = true := h
  have hback : c ≠ .char '\\' := by
    rintro rfl
    exact absurd h (by decide)
  cases t with
  | nil => simp only [splitKey, hends, if_true]
  | cons d t =>
    rw [splitKey.eq_4 c (d :: t) (by simp) (fun _ _ e _ => hback e)]
    simp only [hends, if_true]

theorem splitKey_separator {c : CodePoint} (h : isSeparator c = true) (t : Text) :
    splitKey (c :: t) = ([], c :: t) := by
  apply splitKey_end
  rw [endsKey, h, Bool.true_or]

/-! ## Escapes -/

theorem unescape_pair {c : CodePoint} (h : c ≠ .char 'u') (t : Text) :
    unescape (.char '\\' :: c :: t) = (unescape t).map (escapedChar c :: ·) :=
  unescape.eq_4 c t (fun _ _ _ _ _ e _ => h e) h

theorem unescape_alone {c : CodePoint} (h : c ≠ .char '\\') (t : Text) :
    unescape (c :: t) = (unescape t).map (c :: ·) :=
  unescape.eq_5 c t (fun _ _ _ _ _ e _ => h e) (fun _ e _ => h e) (fun _ _ e _ => h e)

end Properties
end ResourceFinder
