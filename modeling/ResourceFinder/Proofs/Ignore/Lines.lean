import ResourceFinder.Ignore.File
import ResourceFinder.Proofs.Except.Failure
import ResourceFinder.Proofs.Text.Lines
import ResourceFinder.Proofs.Text.Trim
import ResourceFinder.Scan.FileSystem

/-
Which lines of an ignore file are used as patterns.

A text is cut into lines at its natural line ends, and each line again at eight further separators of
lines and pages, though nobody ends a line with these.  A pattern with such a character in it is used
as several patterns, and so is what follows one in a comment.  A file is read as its lines describe
just if no line with a pattern has such a character, and no comment has a pattern behind one.
-/

namespace ResourceFinder
namespace Text

/-- A separator of lines or pages that is no natural line end. -/
def isSeparator (c : CodePoint) : Bool := c.isOneOf lineSeparators

theorem not_isSeparator_lineFeed : isSeparator (.char '\n') = false := by decide

/-- With line feeds for separators, the lines are the pieces of the lines before. -/
theorem splitAt_map_separator (t : Text) :
    splitAt '\n' (t.map fun c => if isSeparator c then .char '\n' else c) =
      (splitAt '\n' t).flatMap (·.splitOnP isSeparator) := by
  induction t with
  | nil => rfl
  | cons c t ih =>
    obtain ⟨line, lines, hlines⟩ := List.exists_cons_of_ne_nil (splitAt_ne_nil '\n' t)
    obtain ⟨piece, pieces, hpieces⟩ :=
      List.exists_cons_of_ne_nil (List.splitOnP_ne_nil isSeparator line)
    have htail : splitAt '\n' (t.map fun c => if isSeparator c then .char '\n' else c) =
        piece :: (pieces ++ lines.flatMap (·.splitOnP isSeparator)) := by
      rw [ih, hlines, List.flatMap_cons, hpieces, List.cons_append]
    rw [List.map_cons]
    by_cases hfeed : c = .char '\n'
    · rw [hfeed, not_isSeparator_lineFeed]
      simp [splitAt, ih]
    · by_cases hseparator : isSeparator c = true
      · simp [splitAt, hfeed, hseparator, htail, hlines, hpieces,
          List.splitOnP_cons_eq_if_modifyHead]
      · simp [splitAt, hfeed, hseparator, htail, hlines, hpieces,
          List.splitOnP_cons_eq_if_modifyHead]

/-- But for an empty one at the end, the separated lines of a text lie between its separators. -/
theorem separatedLines_cases (t : Text) :
    let ended := t.unifyLineEnds.map fun c => if isSeparator c then .char '\n' else c
    ended = [] ∧ t.separatedLines = [] ∨
      (∃ init, ended = init ++ [.char '\n'] ∧ t.separatedLines = splitAt '\n' init) ∨
        t.separatedLines = splitAt '\n' ended := by
  intro ended
  simp only [separatedLines]
  split
  case h_1 hlast => exact .inl ⟨List.getLast?_eq_none_iff.1 hlast, rfl⟩
  case h_2 hlast => exact .inr (.inl ⟨_, (List.dropLast_append_getLast? _ hlast).symm, rfl⟩)
  case h_3 => exact .inr (.inr rfl)

/-- But for empty ones, the separated lines of a text are the pieces of its natural lines. -/
theorem filter_separatedLines {p : Text → Bool} (hp : p [] = false) (t : Text) :
    t.separatedLines.filter p =
      ((naturalLines t).flatMap (·.splitOnP isSeparator)).filter p := by
  rw [naturalLines, ← splitAt_map_separator]
  obtain ⟨hended, hlines⟩ | ⟨init, hended, hlines⟩ | hlines := separatedLines_cases t
  · rw [hlines, hended]
    simp [splitAt, hp]
  · rw [hlines, hended, splitAt_append_separator, List.filter_append]
    simp [splitAt, hp]
  · rw [hlines]

theorem isSeparator_of_mem_splitOnP {t piece : Text} (h : piece ∈ t.splitOnP isSeparator) :
    ∀ c ∈ piece, isSeparator c = false := by
  induction t generalizing piece with
  | nil =>
    obtain rfl : piece = [] := by simpa using h
    exact fun c hc => by cases hc
  | cons c t ih =>
    obtain ⟨first, rest, hpieces⟩ :=
      List.exists_cons_of_ne_nil (List.splitOnP_ne_nil isSeparator t)
    rw [List.splitOnP_cons_eq_if_modifyHead] at h
    by_cases hc : isSeparator c = true
    · rw [if_pos hc] at h
      rcases List.mem_cons.1 h with hnil | hmem
      · rw [hnil]
        exact fun c hc => by cases hc
      · exact ih hmem
    · rw [if_neg hc, hpieces, List.modifyHead_cons] at h
      rcases List.mem_cons.1 h with hfirst | hmem
      · rw [hfirst]
        exact List.forall_mem_cons.2 ⟨by simpa using hc, ih (hpieces ▸ List.mem_cons_self)⟩
      · exact ih (hpieces ▸ List.mem_cons_of_mem _ hmem)

end Text

namespace Ignore

/-- Whether a line has a pattern on it: it is not blank, and its first character that is no white
space does not begin a comment. -/
def holdsPattern (line : Text) : Bool :=
  match line.find? (!·.isBlank) with
  | none => false
  | some c => c != .char '#'

theorem isComment_cons (c : CodePoint) (t : Text) : isComment (c :: t) = (c == .char '#') := by
  unfold isComment
  split
  case h_1 heq =>
    rw [(List.cons.inj heq).1]
    rfl
  case h_2 hne =>
    have hc : c ≠ .char '#' := fun heq => hne t (by rw [heq])
    exact (beq_eq_false_iff_ne.2 hc).symm

/-- The lines that are used are those with a pattern. -/
theorem holdsPattern_eq (line : Text) :
    (!line.trim.isEmpty && !isComment line.trim) = holdsPattern line := by
  rw [holdsPattern, List.find?_not_eq_head?_dropWhile, Text.trim]
  have hhead := Text.head?_dropWhile CodePoint.isBlank line
  generalize line.dropWhile CodePoint.isBlank = rest at hhead
  cases rest with
  | nil => rfl
  | cons c rest =>
    -- The first character that is no white space is still there after trimming the end.
    obtain ⟨run, happend, hrun⟩ := Text.exists_append_dropEndWhile CodePoint.isBlank (c :: rest)
    rw [Text.trimEnd]
    cases htrim : Text.dropEndWhile CodePoint.isBlank (c :: rest) with
    | nil =>
      rw [htrim, List.nil_append] at happend
      have hblank := hrun c (happend ▸ List.mem_cons_self)
      rw [hhead c rfl] at hblank
      cases hblank
    | cons c' rest' =>
      rw [htrim, List.cons_append] at happend
      obtain ⟨rfl, -⟩ := List.cons.inj happend
      rw [isComment_cons]
      rfl

theorem patternLines_eq (t : Text) : patternLines t =
    ((Text.naturalLines t).flatMap (·.splitOnP Text.isSeparator)).filter holdsPattern := by
  have htest : (fun line : Text => !line.trim.isEmpty && !isComment line.trim) = holdsPattern :=
    funext holdsPattern_eq
  rw [patternLines, htest, Text.filter_separatedLines rfl]

/-! ## Lines that are used as they are -/

section

variable {p : Text → Bool} {cut : Text → List Text}

theorem filter_sublist_filter_flatMap {lines : List Text}
    (hwhole : ∀ line ∈ lines, p line = true → cut line = [line]) :
    (lines.filter p).Sublist ((lines.flatMap cut).filter p) := by
  induction lines with
  | nil => exact .slnil
  | cons line lines ih =>
    obtain ⟨hline, hlines⟩ := List.forall_mem_cons.1 hwhole
    rw [List.flatMap_cons, List.filter_append]
    cases hp : p line with
    | true =>
      rw [hline hp, List.filter_cons_of_pos hp, List.filter_cons_of_pos hp]
      exact (ih hlines).cons_cons line
    | false =>
      rw [List.filter_cons_of_neg (by simp [hp])]
      exact (ih hlines).trans (List.sublist_append_right _ _)

/-- Where the lines that pass a test are left whole, the pieces that pass it are these lines just if
no other line has one. -/
theorem filter_flatMap_eq_iff_of_whole {lines : List Text}
    (hwhole : ∀ line ∈ lines, p line = true → cut line = [line]) :
    (lines.flatMap cut).filter p = lines.filter p ↔
      ∀ line ∈ lines, p line = false → ∀ piece ∈ cut line, p piece = false := by
  induction lines with
  | nil => exact iff_of_true rfl fun line hline => by cases hline
  | cons line lines ih =>
    obtain ⟨hline, hlines⟩ := List.forall_mem_cons.1 hwhole
    rw [List.flatMap_cons, List.filter_append, List.forall_mem_cons, ← ih hlines]
    cases hp : p line with
    | true =>
      rw [hline hp, List.filter_cons_of_pos hp, List.filter_cons_of_pos hp, List.filter_nil,
        List.singleton_append, List.cons_inj_right]
      simp
    | false =>
      rw [List.filter_cons_of_neg (by simp [hp])]
      constructor
      · intro heq
        -- What the other lines give is too long already for this one to add to it.
        have hshorter := (filter_sublist_filter_flatMap hlines).length_le
        have hlength := congrArg List.length heq
        rw [List.length_append] at hlength
        have hnone : (cut line).filter p = [] := List.length_eq_zero_iff.1 (by omega)
        rw [hnone, List.nil_append] at heq
        exact ⟨fun _ piece hpiece => by simpa using List.filter_eq_nil_iff.1 hnone piece hpiece, heq⟩
      · intro ⟨hnone, heq⟩
        have hnil : (cut line).filter p = [] :=
          List.filter_eq_nil_iff.2 fun piece hpiece => by simp [hnone rfl piece hpiece]
        rw [hnil, List.nil_append, heq]

/-- Cutting lines makes no difference for those that pass a test just if every line that passes it
is left whole and no other line has a piece that does. -/
theorem filter_flatMap_eq_iff (hpieces : ∀ line, ∀ piece ∈ cut line, cut piece = [piece])
    (lines : List Text) :
    (lines.flatMap cut).filter p = lines.filter p ↔
      (∀ line ∈ lines, p line = true → cut line = [line]) ∧
        ∀ line ∈ lines, p line = false → ∀ piece ∈ cut line, p piece = false := by
  constructor
  · intro heq
    have hwhole : ∀ line ∈ lines, p line = true → cut line = [line] := by
      intro line hline hp
      have hmem : line ∈ (lines.flatMap cut).filter p := heq ▸ List.mem_filter.2 ⟨hline, hp⟩
      obtain ⟨source, -, hpiece⟩ := List.mem_flatMap.1 (List.mem_filter.1 hmem).1
      exact hpieces source line hpiece
    exact ⟨hwhole, (filter_flatMap_eq_iff_of_whole hwhole).1 heq⟩
  · intro ⟨hwhole, hnone⟩
    exact (filter_flatMap_eq_iff_of_whole hwhole).2 hnone

end

/-! ## Files -/

/-- The rules of some lines with patterns, if there are any lines. -/
def rulesOf (lines : List Text) : Except FileError (Option Rules) :=
  if lines.isEmpty then .ok none else ((Rules.ofLines lines).mapError .line).map some

section

variable {fs : FileSystem} {p : Path} {octets : Bytes} {t : Text}

theorem load_eq_rulesOf (hfile : fs.isFile p = true) (htext : fs.readText p = .ok t) :
    load fs p = rulesOf (patternLines t) := by
  unfold load rulesOf
  rw [hfile, htext]
  simp only [Bool.not_true, Bool.false_eq_true, if_false, Except.mapError, bind, Except.bind]
  cases patternLines t with
  | nil => rfl
  | cons line lines =>
    simp only [List.isEmpty_cons, Bool.false_eq_true, if_false]
    cases Rules.ofLines (line :: lines) <;> rfl

theorem naturalLines_unifyLineEnds (t : Text) :
    Text.naturalLines t.unifyLineEnds = Text.naturalLines t := by
  rw [Text.naturalLines, Text.unifyLineEnds_of_not_mem (Text.not_mem_unifyLineEnds t)]
  rfl

theorem splitOnP_eq_singleton_iff {line : Text} :
    line.splitOnP Text.isSeparator = [line] ↔ ∀ c ∈ line, Text.isSeparator c = false := by
  constructor
  · intro heq
    exact Text.isSeparator_of_mem_splitOnP (heq ▸ List.mem_singleton_self line)
  · exact List.splitOnP_eq_singleton

/-- An ignore file is used by the pieces of its lines.  The lines with patterns are those that its
text has between natural line ends, each cut at every further separator in it, without the blank ones
and the comments, so no line that is used has a separator.  They are the lines with patterns as the
text has them just if none of these has a separator, and nothing that follows one in a blank line or
a comment is a line with a pattern. -/
theorem load_uses_pieces (hfile : fs.isFile p = true) (hread : fs.read p = .ok octets)
    (hdecode : Utf8.decode octets = .ok t) :
    let lines := Text.naturalLines t
    let described := lines.filter holdsPattern
    let used := (lines.flatMap (·.splitOnP Text.isSeparator)).filter holdsPattern
    load fs p = rulesOf used ∧
    (∀ line ∈ used, ∀ c ∈ line, Text.isSeparator c = false) ∧
    (used = described ↔
      (∀ line ∈ lines, holdsPattern line = true → ∀ c ∈ line, Text.isSeparator c = false) ∧
        ∀ line ∈ lines, holdsPattern line = false →
          ∀ piece ∈ line.splitOnP Text.isSeparator, holdsPattern piece = false) ∧
    ((∀ line ∈ lines, ∀ c ∈ line, Text.isSeparator c = false) →
      load fs p = rulesOf described) := by
  intro lines described used
  have htext : fs.readText p = .ok t.unifyLineEnds := by
    rw [FileSystem.readText, hread]
    show ((Utf8.decode octets).mapError TextFileError.encoding >>= _) = _
    rw [hdecode]
    rfl
  have hload : load fs p = rulesOf used := by
    rw [load_eq_rulesOf hfile htext, patternLines_eq, naturalLines_unifyLineEnds]
  have hsame : used = described ↔
      (∀ line ∈ lines, holdsPattern line = true → ∀ c ∈ line, Text.isSeparator c = false) ∧
        ∀ line ∈ lines, holdsPattern line = false →
          ∀ piece ∈ line.splitOnP Text.isSeparator, holdsPattern piece = false := by
    simp only [← splitOnP_eq_singleton_iff]
    exact filter_flatMap_eq_iff (fun line piece hpiece =>
      splitOnP_eq_singleton_iff.2 (Text.isSeparator_of_mem_splitOnP hpiece)) lines
  refine ⟨hload, fun line hline => ?_, hsame, fun hnone => ?_⟩
  · obtain ⟨source, -, hpiece⟩ := List.mem_flatMap.1 (List.mem_filter.1 hline).1
    exact Text.isSeparator_of_mem_splitOnP hpiece
  · rw [hload, hsame.2 ⟨fun line hline _ => hnone line hline, fun line hline hp piece hpiece => ?_⟩]
    rw [splitOnP_eq_singleton_iff.2 (hnone line hline), List.mem_singleton] at hpiece
    rw [hpiece, hp]

end

/-! ### A pattern with a vertical tab in it -/

/-- One line, `a` and `x` with a vertical tab between them, beside a file `x`. -/
def tabbedTree : FileSystem := ⟨[(".gitignore", .file [97, 11, 120]), ("x", .file [])], []⟩

theorem lines_tabbedTree :
    (Text.naturalLines "a\x0bx").filter holdsPattern = [("a\x0bx" : Text)] ∧
      ((Text.naturalLines "a\x0bx").flatMap (·.splitOnP Text.isSeparator)).filter holdsPattern =
        [("a" : Text), "x"] := by
  constructor <;> cbv

/-- The one line of the file does not exclude `x`, and yet a scan leaves it out. -/
theorem tabbed_line_cut :
    (Text.naturalLines "a\x0bx").filter holdsPattern = [("a\x0bx" : Text)] ∧
    Utf8.decode [97, 11, 120] = .ok "a\x0bx" ∧ patternLines "a\x0bx" = [("a" : Text), "x"] ∧
    (Rules.ofLines ["a\x0bx"]).map (·.excludes "x") = .ok false ∧
    (Scanner.ofFileSystem { exclude := some [] } [] tabbedTree).scan ⟨.directory, ⟨.root, []⟩⟩ =
      .ofCandidates [⟨".gitignore", "/.gitignore"⟩] := by
  refine ⟨lines_tabbedTree.1, by cbv, ?_, by cbv, by cbv⟩
  rw [patternLines_eq]
  exact lines_tabbedTree.2

theorem load_uses_pieces_tabbedTree :
    tabbedTree.isFile ⟨.root, [".gitignore"]⟩ = true ∧
    tabbedTree.read ⟨.root, [".gitignore"]⟩ = .ok [97, 11, 120] ∧
    Utf8.decode [97, 11, 120] = .ok "a\x0bx" ∧
    load tabbedTree ⟨.root, [".gitignore"]⟩ = rulesOf ["a", "x"] ∧
    ¬∀ line ∈ Text.naturalLines "a\x0bx", holdsPattern line = true →
      ∀ c ∈ line, Text.isSeparator c = false := by
  have hfile : tabbedTree.isFile ⟨.root, [".gitignore"]⟩ = true := by cbv
  have hread : tabbedTree.read ⟨.root, [".gitignore"]⟩ = .ok [97, 11, 120] := by cbv
  have hdecode : Utf8.decode [97, 11, 120] = .ok "a\x0bx" := by cbv
  obtain ⟨hload, -, hsame, -⟩ := load_uses_pieces hfile hread hdecode
  rw [lines_tabbedTree.1, lines_tabbedTree.2] at hsame
  rw [lines_tabbedTree.2] at hload
  refine ⟨hfile, hread, hdecode, hload, fun hwhole => ?_⟩
  have hlines : Text.naturalLines "a\x0bx" = [("a\x0bx" : Text)] := by cbv
  have hsingle : [("a" : Text), "x"] = [("a\x0bx" : Text)] := by
    refine hsame.2 ⟨hwhole, fun line hline hp => ?_⟩
    rw [hlines, List.mem_singleton] at hline
    rw [hline] at hp
    cases hp
  cases hsingle

end Ignore
end ResourceFinder
