import ResourceFinder.Text.Basic

/-
Ways of cutting a text into lines.

`naturalLines` knows three line ends: a carriage return, a line feed, and the pair of them counted
once.  `separatedLines` also ends a line at the other separators of lines and pages, and has no
empty line after the last separator.  A text file is read with every natural line end as a line
feed.
-/

namespace ResourceFinder
namespace Text

def unifyLineEnds : Text → Text
  | .char '\r' :: .char '\n' :: t => .char '\n' :: unifyLineEnds t
  | .char '\r' :: t => .char '\n' :: unifyLineEnds t
  | c :: t => c :: unifyLineEnds t
  | [] => []

/-- The lines between the natural line ends, one more than there are ends. -/
def naturalLines (t : Text) : List Text := splitAt '\n' (unifyLineEnds t)

/-- The scalar values that end a separated line, next to the natural line ends. -/
def lineSeparators : List Char :=
  ['\x0b', '\x0c', '\x1c', '\x1d', '\x1e', '\x85', '\u2028', '\u2029']

/-- The lines of a text, each ended by a separator or by the end of a text that is not empty
there. -/
def separatedLines (t : Text) : List Text :=
  let ended : Text := (unifyLineEnds t).map fun c =>
    if c.isOneOf lineSeparators then .char '\n' else c
  match ended.getLast? with
  | none => []
  | some (.char '\n') => splitAt '\n' ended.dropLast
  | some _ => splitAt '\n' ended

def lineAndColumn (t : Text) (position : Nat) : Nat × Nat :=
  let before := t.take position
  (before.count (.char '\n') + 1, (before.reverse.takeWhile (· != .char '\n')).length + 1)

/-- Carriage returns with a line feed after them dropped, other carriage returns kept. -/
def joinCrLf : Text → Text
  | .char '\r' :: .char '\n' :: t => .char '\n' :: joinCrLf t
  | c :: t => c :: joinCrLf t
  | [] => []

end Text
end ResourceFinder
