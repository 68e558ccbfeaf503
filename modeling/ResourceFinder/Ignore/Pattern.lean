import ResourceFinder.Regex.Escape
import ResourceFinder.Text.Character

/-
The patterns of ignore files.

A pattern is a path of segments.  It holds from the top when a slash stands at its head or in its
middle, and at any depth otherwise; a slash at its end asks for a directory.  Reading a pattern
makes both explicit by segments that stand for any number of names.
-/

namespace ResourceFinder
namespace Ignore

/-- A part of a segment: a character that denotes itself, any one character, any run of them, or a
set of characters in the spelling of a regular expression. -/
inductive Piece where
  | literal (c : CodePoint)
  | anyChar
  | anyRun
  | set (negated : Bool) (members : Text)
  deriving DecidableEq

/-- A segment: any number of names, any single name, or a name of the given pieces. -/
inductive Segment where
  | anyDepth
  | anyName
  | pieces (ps : List Piece)
  deriving DecidableEq

/-- A pattern: whether it takes back what others exclude, whether it was written with a slash at its
end, and its segments. -/
structure Pattern where
  negated : Bool
  forDirectory : Bool
  segments : List Segment
  deriving DecidableEq

def splitAtBracket? : Text → Option (Text × Text)
  | [] => none
  | .char ']' :: rest => some ([], rest)
  | c :: rest => (splitAtBracket? rest).map fun (members, after) => (c :: members, after)

theorem length_lt_of_splitAtBracket? {t members after : Text}
    (h : splitAtBracket? t = some (members, after)) : after.length < t.length := by
  fun_induction splitAtBracket? t generalizing members with
  | case1 => simp at h
  | case2 rest =>
    simp only [Option.some.injEq, Prod.mk.injEq] at h
    simp [← h.2]
  | case3 c rest _ ih =>
    obtain ⟨⟨m, a⟩, hs, he⟩ := Option.map_eq_some_iff.1 h
    simp only [Prod.mk.injEq] at he
    have := ih (hs.trans (by rw [he.2]))
    simp only [List.length_cons]
    omega

/-- The members of a set, up to the bracket that closes it, and what follows it.  A bracket at the
head is a member. -/
def setMembers? : Text → Option (Text × Text)
  | .char ']' :: rest =>
    (splitAtBracket? rest).map fun (members, after) => (.char ']' :: members, after)
  | t => splitAtBracket? t

theorem length_lt_of_setMembers? {t members after : Text}
    (h : setMembers? t = some (members, after)) : after.length < t.length := by
  unfold setMembers? at h
  split at h
  · obtain ⟨⟨m, a⟩, hs, he⟩ := Option.map_eq_some_iff.1 h
    simp only [Prod.mk.injEq] at he
    have := length_lt_of_splitAtBracket? (hs.trans (by rw [he.2]))
    simp only [List.length_cons]
    omega
  · exact length_lt_of_splitAtBracket? h

def negation : Text → Bool × Text
  | .char '!' :: t => (true, t)
  | .char '^' :: t => (true, t)
  | t => (false, t)

theorem length_negation_le (t : Text) : (negation t).2.length ≤ t.length := by
  unfold negation
  split <;> simp

/-- The pieces of a segment; a backslash at its end has nothing to make literal. -/
def piecesOf? (t : Text) : Option (List Piece) :=
  match t with
  | [] => some []
  | [.char '\\'] => none
  | .char '\\' :: c :: rest => (piecesOf? rest).map (.literal c :: ·)
  | .char '*' :: rest => (piecesOf? rest).map (.anyRun :: ·)
  | .char '?' :: rest => (piecesOf? rest).map (.anyChar :: ·)
  | .char '[' :: rest =>
    match _h : setMembers? (negation rest).2 with
    | some (members, after) =>
      (piecesOf? after).map (.set (negation rest).1 members :: ·)
    | none => (piecesOf? rest).map (.literal (.char '[') :: ·)
  | c :: rest => (piecesOf? rest).map (.literal c :: ·)
termination_by t.length
decreasing_by
  all_goals simp only [List.length_cons]
  all_goals try omega
  have := length_lt_of_setMembers? _h
  have := length_negation_le rest
  omega

def anyDepthText : Text := "**"

def segmentOf? (t : Text) : Option Segment :=
  if t = anyDepthText then some .anyDepth
  else if t = "*" then some .anyName
  else (piecesOf? t).map .pieces

/-- The segments as written, with those added that a missing slash at the head, or a slash at the
end, stands for. -/
def completeSegments (segments : List Text) : List Text :=
  let segments := match segments with
    | [] :: rest => rest
    | [s] => if s = anyDepthText then [s] else [anyDepthText, s]
    | [s, []] => if s = anyDepthText then [s, []] else [anyDepthText, s, []]
    | segments => segments
  match segments.getLast? with
  | some [] => segments.dropLast ++ [anyDepthText]
  | _ => segments

/-- Of several segments in a row that stand for any number of names, one says the same. -/
def mergeDepths : List Segment → List Segment
  | .anyDepth :: .anyDepth :: rest => mergeDepths (.anyDepth :: rest)
  | s :: rest => s :: mergeDepths rest
  | [] => []

/-- The line without white space at its end, unless a backslash keeps a blank there. -/
def trimLine (line : Text) : Text :=
  if ("\\ " : Text).isSuffixOf line then line else line.trimEnd

structure InvalidLine where
  line : Text
  deriving DecidableEq

namespace InvalidLine

def message (e : InvalidLine) : Text := ("Invalid git pattern: " : Text) ++ Text.quoted e.line

end InvalidLine

/-- The pattern of a line; blank lines and comments hold none. -/
def Pattern.ofLine (line : Text) : Except InvalidLine (Option Pattern) :=
  match trimLine line with
  | [] => .ok none
  | .char '#' :: _ => .ok none
  | t =>
    let (negated, t) := match t with
      | .char '!' :: rest => (true, rest)
      | t => (false, t)
    let forDirectory := t != "/" && (t.isEmpty || t.getLast? = some (.char '/'))
    match (completeSegments (Text.splitAt '/' t)).mapM segmentOf? with
    | none | some [] => .error ⟨line⟩
    | some segments => .ok (some ⟨negated, forDirectory, mergeDepths segments⟩)

end Ignore
end ResourceFinder
