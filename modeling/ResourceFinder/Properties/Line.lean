import ResourceFinder.Text.Lines

/-
The logical lines of a properties text.

A natural line that ends in an odd number of backslashes goes on in the next one; the last backslash
and the blanks at the start of the next line are left out.  Comments and blank lines are left out
where no line goes on.
-/

namespace ResourceFinder
namespace Properties

def isFiller (c : CodePoint) : Bool := c.isOneOf [' ', '\t', '\x0c']

def isComment : Text → Bool
  | c :: _ => c.isOneOf ['#', '!']
  | [] => false

/-- Whether a line goes on: an odd number of backslashes ends it. -/
def isContinued (line : Text) : Bool :=
  (line.reverse.takeWhile (· = .char '\\')).length % 2 = 1

/-- Joins natural lines to the logical line that is still open. -/
def joinLines (pending : Option Text) : List Text → List Text
  | [] => pending.toList
  | raw :: rest =>
    let line := raw.dropWhile isFiller
    if pending.isNone && (line.isEmpty || isComment line) then joinLines none rest
    else if isContinued line then joinLines (some (pending.getD [] ++ line.dropLast)) rest
    else (pending.getD [] ++ line) :: joinLines none rest

def logicalLines (t : Text) : List Text := joinLines none (Text.naturalLines t)

end Properties
end ResourceFinder
