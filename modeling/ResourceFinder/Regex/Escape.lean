import ResourceFinder.Regex.Basic
import ResourceFinder.Regex.Source

/-
Escapes: what a backslash and the sign after it stand for, inside a character set and outside one,
and how any text is written so that it stands for itself.
-/

namespace ResourceFinder
namespace Regex

/-- The scalar values that have a meaning of their own somewhere in an expression. -/
def specialChars : List Char :=
  ['(', ')', '[', ']', '\x7b', '\x7d', '?', '*', '+', '-', '|', '^', '$', '\\', '.', '&', '~', '#',
    ' ', '\t', '\n', '\r', '\x0b', '\x0c']

def escapeChar (c : CodePoint) : Text :=
  if c.isOneOf specialChars then [.char '\\', c] else [c]

namespace Escape

def controlCode? : Char → Option Nat
  | 'a' => some 7
  | 'f' => some 12
  | 'n' => some 10
  | 'r' => some 13
  | 't' => some 9
  | 'v' => some 11
  | '\\' => some 92
  | _ => none

def category? : Char → Option Member
  | 'd' => some (.category .digit false)
  | 'D' => some (.category .digit true)
  | 's' => some (.category .blank false)
  | 'S' => some (.category .blank true)
  | 'w' => some (.category .word false)
  | 'W' => some (.category .word true)
  | _ => none

def place? : Char → Option Place
  | 'A' => some .textStart
  | 'b' => some (.wordEdge false)
  | 'B' => some (.wordEdge true)
  | 'Z' => some .textEnd
  | _ => none

def isOctal (c : CodePoint) : Bool := c.isOneOf ['0', '1', '2', '3', '4', '5', '6', '7']

def isHex (c : CodePoint) : Bool := c.hexValue?.isSome

def value (base : Nat) (digits : Text) : Nat :=
  digits.foldl (fun n c => n * base + c.hexValue?.getD 0) 0

def hexCode (letter : Char) (count : Nat) (s : Source) : Reading (Nat × Source) := do
  let (digits, s) ← s.takeWhile isHex count
  let escape : Text := .char '\\' :: .char letter :: digits
  if digits.length ≠ count then fail (s.position - escape.length) (.incompleteEscape escape)
  else if value 16 digits > 0x10FFFF then fail (s.position - escape.length) (.badEscape escape)
  else return (value 16 digits, s)

/-- A character by its name; no name is known. -/
def namedCode (s : Source) : Reading (Nat × Source) := do
  let (opened, s) ← s.pass '\x7b'
  if !opened then fail s.position .missingBrace
  else
    let (name, s) ← s.name "character name" '\x7d'
    fail (s.position - (name.length + 4)) (.unknownCharacterName name)

def octalCode (first : CodePoint) (s : Source) : Reading (Nat × Source) := do
  let (digits, s) ← s.takeWhile isOctal 2
  let escape : Text := .char '\\' :: first :: digits
  let n := value 8 (first :: digits)
  if n > 0xFF then fail (s.position - escape.length) (.largeOctal escape)
  else return (n, s)

def code (c : CodePoint) (s : Source) : Reading (Nat × Source) :=
  match c with
  | .char 'x' => hexCode 'x' 2 s
  | .char 'u' => hexCode 'u' 4 s
  | .char 'U' => hexCode 'U' 8 s
  | .char 'N' => namedCode s
  | c =>
    if c.isLetter || c.isDigit then fail (s.position - 2) (.badEscape [.char '\\', c])
    else .ok (c.code, s)

def member (c : CodePoint) (s : Source) : Reading (Member × Source) :=
  match c with
  | .char 'b' => .ok (.single 8, s)
  | c =>
    match c.toChar?.bind controlCode?, c.toChar?.bind category? with
    | some n, _ => .ok (.single n, s)
    | none, some m => .ok (m, s)
    | none, none => do
      let (n, s) ← if isOctal c then octalCode c s else code c s
      return (.single n, s)

end Escape
end Regex
end ResourceFinder
