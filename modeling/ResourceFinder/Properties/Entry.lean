import ResourceFinder.Number.Numeral
import ResourceFinder.Properties.Line
import ResourceFinder.Text.Quoted

/-
The key and the value of a logical line, and the escapes in both.
-/

namespace ResourceFinder
namespace Properties

def isSeparator (c : CodePoint) : Bool := c.isOneOf ['=', ':']

/-- The longest start of a line in which every separator and blank has a backslash before it, and
what follows it. -/
def splitKey : Text → Text × Text
  | [] => ([], [])
  | [c] => if isSeparator c || isFiller c then ([], [c]) else ([c], [])
  | .char '\\' :: c :: t =>
    let (key, rest) := splitKey t
    (.char '\\' :: c :: key, rest)
  | c :: t =>
    if isSeparator c || isFiller c then ([], c :: t)
    else
      let (key, rest) := splitKey t
      (c :: key, rest)

def dropSeparator (t : Text) : Text :=
  match t.dropWhile isFiller with
  | c :: rest => if isSeparator c then rest.dropWhile isFiller else c :: rest
  | [] => []

def splitEntry (line : Text) : Text × Text :=
  let (key, rest) := splitKey line
  (key, dropSeparator rest)

/-- An escape by number that gives no character: too few characters follow, or they are no
number. -/
inductive EscapeError where
  | short (rest : Text)
  | notANumber (digits : Text)
  deriving DecidableEq

namespace EscapeError

def message : EscapeError → Text
  | short t => ("Malformed \\uXXXX escape: " : Text) ++ Text.quoted t
  | notANumber digits => ("Malformed \\uXXXX escape: \\u" : Text) ++ digits

end EscapeError

def escapedChar (c : CodePoint) : CodePoint :=
  match c with
  | .char 't' => .char '\t'
  | .char 'n' => .char '\n'
  | .char 'r' => .char '\r'
  | .char 'f' => .char '\x0c'
  | c => c

def numberedChar? (digits : Text) : Option CodePoint :=
  match Numeral.integer? 16 digits with
  | some (.ofNat n) => CodePoint.ofNat? n
  | _ => none

def unescape : Text → Except EscapeError Text
  | [] => .ok []
  | .char '\\' :: .char 'u' :: a :: b :: c :: d :: t =>
    match numberedChar? [a, b, c, d] with
    | some p => (unescape t).map (p :: ·)
    | none => .error (.notANumber [a, b, c, d])
  | .char '\\' :: .char 'u' :: t => .error (.short (.char '\\' :: .char 'u' :: t))
  | .char '\\' :: c :: t => (unescape t).map (escapedChar c :: ·)
  | c :: t => (unescape t).map (c :: ·)

end Properties
end ResourceFinder
