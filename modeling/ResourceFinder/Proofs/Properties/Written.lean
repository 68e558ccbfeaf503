import ResourceFinder.Proofs.Dictionary.Assignment
import ResourceFinder.Proofs.Properties.Reading
import ResourceFinder.Proofs.Text.Trim

/-
Writing pairs as a properties text, and that reading undoes it.

A character that some pass would take for more than itself is written with a backslash before it, so
a written key has no separator, no blank and no line end of its own, and a written line begins with
no blank and no mark of a comment.  Backslashes are written in pairs, and the line of a pair has a
separator in the middle, so no written line goes on in the next one.
-/

namespace ResourceFinder
namespace Properties

/-- The characters that are written as themselves after a backslash. -/
def guarded : List Char := ['\\', ' ', '=', ':', '#', '!']

def escapeChar (c : CodePoint) : Text :=
  match c with
  | .char '\t' => [.char '\\', .char 't']
  | .char '\n' => [.char '\\', .char 'n']
  | .char '\r' => [.char '\\', .char 'r']
  | .char '\x0c' => [.char '\\', .char 'f']
  | c => if c.isOneOf guarded then [.char '\\', c] else [c]

def escape (t : Text) : Text := t.flatMap escapeChar

def writeEntry (entry : Text × Text) : Text := escape entry.1 ++ .char '=' :: escape entry.2

/-- Pairs as a properties text, a line for each of them. -/
def write (pairs : List (Text × Text)) : Text := Text.join [.char '\n'] (pairs.map writeEntry)

/-! ## One character -/

/-- The characters that are not written as they are. -/
def special : List Char := guarded ++ ['\t', '\n', '\r', '\x0c']

/-- A character is written as a pair that stands for it, or alone where it is not special. -/
theorem escapeChar_cases (c : CodePoint) :
    (∃ d, escapeChar c = [.char '\\', d] ∧ escapedChar d = c ∧
        d ≠ .char 'u' ∧ d ≠ .char '\n' ∧ d ≠ .char '\r') ∨
      escapeChar c = [c] ∧ c.isOneOf special = false := by
  unfold escapeChar
  split
  case h_5 htab hfeed hreturn hpage =>
    cases hguarded : c.isOneOf guarded with
    | true =>
      cases c with
      | surrogate => cases hguarded
      | char ch =>
        refine .inl ⟨.char ch, by simp, ?_⟩
        simp only [CodePoint.isOneOf, guarded, List.contains_eq_mem, decide_eq_true_eq,
          List.mem_cons, List.not_mem_nil, or_false] at hguarded
        rcases hguarded with rfl | rfl | rfl | rfl | rfl | rfl <;> decide
    | false =>
      refine .inr ⟨by simp, ?_⟩
      cases c with
      | surrogate => rfl
      | char ch =>
        simp only [CodePoint.isOneOf, special, List.contains_eq_mem, decide_eq_false_iff_not,
          List.mem_append] at hguarded ⊢
        rintro (h | h)
        · exact hguarded h
        · simp only [List.mem_cons, List.not_mem_nil, or_false] at h
          rcases h with rfl | rfl | rfl | rfl <;> contradiction
  all_goals exact .inl ⟨_, rfl, by decide⟩

theorem not_mem_special {c : CodePoint} (h : c.isOneOf special = false) {d : Char}
    (hd : d ∈ special) : c ≠ .char d := by
  rintro rfl
  simp [CodePoint.isOneOf, hd] at h

theorem isOneOf_eq_false_of_special {c : CodePoint} (h : c.isOneOf special = false)
    {chars : List Char} (hsub : chars ⊆ special) : c.isOneOf chars = false := by
  cases c with
  | surrogate => rfl
  | char ch =>
    simp only [CodePoint.isOneOf, List.contains_eq_mem, decide_eq_false_iff_not] at h ⊢
    exact fun hmem => h (hsub hmem)

/-! ## Shielded texts -/

/-- Every special character has a backslash before it, except that blanks may be let stand. -/
inductive Shielded (blanks : Bool) : Text → Prop where
  | nil : Shielded blanks []
  | alone {c : CodePoint} {t : Text}
      (hc : c.isOneOf special = false ∨ blanks = true ∧ c = .char ' ') (ht : Shielded blanks t) :
      Shielded blanks (c :: t)
  | pair {d : CodePoint} {t : Text} (hfeed : d ≠ .char '\n') (hreturn : d ≠ .char '\r')
      (ht : Shielded blanks t) : Shielded blanks (.char '\\' :: d :: t)

namespace Shielded

variable {blanks : Bool} {t u : Text}

theorem append (ht : Shielded blanks t) (hu : Shielded blanks u) : Shielded blanks (t ++ u) := by
  induction ht with
  | nil => exact hu
  | alone hc _ ih => exact .alone hc ih
  | pair hfeed hreturn _ ih => exact .pair hfeed hreturn ih

theorem of_false (h : Shielded false t) : Shielded blanks t := by
  induction h with
  | nil => exact .nil
  | alone hc _ ih => exact .alone (.inl (hc.resolve_right fun h => Bool.false_ne_true h.1)) ih
  | pair hfeed hreturn _ ih => exact .pair hfeed hreturn ih

theorem ne_of_alone {c : CodePoint} (hc : c.isOneOf special = false ∨ blanks = true ∧ c = .char ' ')
    {d : Char} (hd : d ∈ special) (hblank : d ≠ ' ') : c ≠ .char d := by
  rcases hc with hc | ⟨-, hc⟩
  · exact not_mem_special hc hd
  · intro heq
    rw [hc] at heq
    exact hblank (CodePoint.char.inj heq).symm

theorem lineEnd_not_mem (h : Shielded blanks t) : .char '\n' ∉ t ∧ .char '\r' ∉ t := by
  induction h with
  | nil => exact ⟨List.not_mem_nil, List.not_mem_nil⟩
  | alone hc _ ih =>
    have hfeed := ne_of_alone hc (d := '\n') (by decide) (by decide)
    have hreturn := ne_of_alone hc (d := '\r') (by decide) (by decide)
    simp [ih, hfeed.symm, hreturn.symm]
  | pair hfeed hreturn _ ih => simp [ih, hfeed.symm, hreturn.symm]

/-- A shielded text opens with a backslash or with a character that is not special. -/
theorem head? (h : Shielded false t) {c : CodePoint} (hc : t.head? = some c) :
    isFiller c = false ∧ c.isOneOf ['#', '!'] = false := by
  cases h with
  | nil => cases hc
  | alone hspecial _ =>
    rw [← Option.some.inj hc]
    have hspecial := hspecial.resolve_right fun h => Bool.false_ne_true h.1
    exact ⟨isOneOf_eq_false_of_special hspecial (by decide),
      isOneOf_eq_false_of_special hspecial (by decide)⟩
  | pair _ _ _ =>
    rw [← Option.some.inj hc]
    decide

/-- Behind a line that does not go on, a shielded text makes no line that does. -/
theorem isContinued_append (h : Shielded blanks t) {line : Text}
    (hline : isContinued line = false) : isContinued (line ++ t) = false := by
  induction h generalizing line with
  | nil => rwa [List.append_nil]
  | @alone c t hc _ ih =>
    have hback := ne_of_alone hc (d := '\\') (by decide) (by decide)
    rw [← List.singleton_append, ← List.append_assoc]
    exact ih (isContinued_concat hback line)
  | @pair d t _ _ _ ih =>
    have hpair : isContinued (line ++ [.char '\\', d]) = false := by
      by_cases hback : d = .char '\\'
      · rw [hback, isContinued_append_pair, hline]
      · rw [← List.singleton_append, ← List.append_assoc]
        exact isContinued_concat hback _
    have happend := ih hpair
    rwa [List.append_assoc] at happend

theorem splitKey_append (h : Shielded false t) (rest : Text) :
    splitKey (t ++ .char '=' :: rest) = (t, .char '=' :: rest) := by
  induction h with
  | nil => exact splitKey_separator (by decide) rest
  | alone hc _ ih =>
    have hspecial := hc.resolve_right fun h => Bool.false_ne_true h.1
    have hback := not_mem_special hspecial (d := '\\') (by decide)
    have hseparator : isSeparator _ = false := isOneOf_eq_false_of_special hspecial (by decide)
    have hfiller : isFiller _ = false := isOneOf_eq_false_of_special hspecial (by decide)
    rw [List.cons_append, splitKey_alone hback hseparator hfiller, ih]
  | pair _ _ _ ih => rw [List.cons_append, List.cons_append, splitKey_pair, ih]

/-! ### The line of a key and a value -/

variable {key value : Text}

theorem isEntire_line (hkey : Shielded false key) (hvalue : Shielded blanks value) :
    IsEntire (key ++ .char '=' :: value) where
  starts c hc := by
    cases key with
    | nil =>
      rw [← Option.some.inj hc]
      decide
    | cons a key => exact hkey.head? hc
  notEmpty := by simp
  ends := by
    rw [← List.singleton_append, ← List.append_assoc]
    exact hvalue.isContinued_append (isContinued_concat (by decide) key)

theorem lineEnd_not_mem_line (hkey : Shielded false key) (hvalue : Shielded blanks value) :
    .char '\n' ∉ key ++ .char '=' :: value ∧ .char '\r' ∉ key ++ .char '=' :: value := by
  obtain ⟨hfeed, hreturn⟩ := hkey.lineEnd_not_mem
  obtain ⟨hfeed', hreturn'⟩ := hvalue.lineEnd_not_mem
  simp [hfeed, hreturn, hfeed', hreturn']

theorem splitEntry_line (hkey : Shielded false key)
    (hvalue : ∀ c ∈ value.head?, isFiller c = false) :
    splitEntry (key ++ .char '=' :: value) = (key, value) := by
  have hseparator : isSeparator (.char '=') = true := by decide
  have hdrop : (.char '=' :: value).dropWhile isFiller = .char '=' :: value :=
    List.dropWhile_cons_of_neg (by decide)
  have hvalue : value.dropWhile isFiller = value :=
    Text.dropWhile_append_of_head? (List.forall_mem_nil _) hvalue
  simp [splitEntry, hkey.splitKey_append, dropSeparator, hdrop, hseparator, hvalue]

end Shielded

/-! ## What is written in a line -/

theorem escape_cons (c : CodePoint) (t : Text) : escape (c :: t) = escapeChar c ++ escape t := rfl

theorem shielded_escapeChar (c : CodePoint) : Shielded false (escapeChar c) := by
  obtain ⟨d, hd, -, -, hfeed, hreturn⟩ | ⟨hc, hspecial⟩ := escapeChar_cases c
  · rw [hd]
    exact .pair hfeed hreturn .nil
  · rw [hc]
    exact .alone (.inl hspecial) .nil

theorem shielded_escape (t : Text) : Shielded false (escape t) := by
  induction t with
  | nil => exact .nil
  | cons c t ih => exact (shielded_escapeChar c).append ih

theorem isEntire_writeEntry (entry : Text × Text) : IsEntire (writeEntry entry) :=
  (shielded_escape entry.1).isEntire_line (shielded_escape entry.2)

theorem logicalLines_write (pairs : List (Text × Text)) :
    logicalLines (write pairs) = pairs.map writeEntry := by
  by_cases hne : pairs = []
  · subst hne
    rfl
  · have hends : ∀ line ∈ pairs.map writeEntry, .char '\n' ∉ line ∧ .char '\r' ∉ line := by
      intro line hline
      obtain ⟨entry, -, rfl⟩ := List.mem_map.1 hline
      exact (shielded_escape entry.1).lineEnd_not_mem_line (shielded_escape entry.2)
    have hentire : ∀ line ∈ pairs.map writeEntry, IsEntire line := by
      intro line hline
      obtain ⟨entry, -, rfl⟩ := List.mem_map.1 hline
      exact isEntire_writeEntry entry
    rw [logicalLines, write, Text.naturalLines_join (by simpa using hne) hends,
      joinLines_of_isEntire hentire]

/-! ## Reading a written line -/

theorem splitEntry_writeEntry (entry : Text × Text) :
    splitEntry (writeEntry entry) = (escape entry.1, escape entry.2) :=
  (shielded_escape entry.1).splitEntry_line fun _ hc => ((shielded_escape entry.2).head? hc).1

theorem unescape_escape (t : Text) : unescape (escape t) = .ok t := by
  induction t with
  | nil => rfl
  | cons c t ih =>
    rw [escape_cons]
    obtain ⟨d, hd, hstands, hnumber, -⟩ | ⟨hc, hspecial⟩ := escapeChar_cases c
    · rw [hd, List.cons_append, List.singleton_append, unescape_pair hnumber, ih, hstands]
      rfl
    · rw [hc, List.singleton_append, unescape_alone (not_mem_special hspecial (by decide)), ih]
      rfl

theorem parseEntry_writeEntry (entry : Text × Text) :
    parseEntry (writeEntry entry) = .ok entry := by
  simp only [parseEntry, splitEntry_writeEntry, unescape_escape]
  rfl

/-- Reading what was written gives the dictionary made by assigning the pairs in order: its keys
stand where they were first assigned, each with the value it was last assigned. -/
theorem parse_write (pairs : List (Text × Text)) :
    parse (write pairs) = .ok (Dictionary.ofPairs pairs) ∧
      (Dictionary.ofPairs pairs).keys = (pairs.map (·.1)).eraseDups ∧
      ∀ key, (Dictionary.ofPairs pairs).get? key = Dictionary.get? key pairs.reverse := by
  have hentries : (pairs.map writeEntry).mapM parseEntry = .ok pairs := by
    induction pairs with
    | nil => rfl
    | cons entry pairs ih =>
      rw [List.map_cons, List.mapM_cons, parseEntry_writeEntry, ih]
      rfl
  refine ⟨?_, Dictionary.keys_ofPairs pairs, Dictionary.get?_ofPairs pairs⟩
  rw [parse, logicalLines_write, hentries]
  rfl

/-- A key that ends in a backslash, a value that begins with a separator, and a key assigned
twice. -/
example : parse (write [("a\\", "= b"), ("#", "\\u0041"), ("a\\", "")]) =
    .ok [("a\\", ""), ("#", "\\u0041")] := by decide

end Properties
end ResourceFinder
