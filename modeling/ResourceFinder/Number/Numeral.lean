import ResourceFinder.Text.Character

/-
Integers as people write them: blanks around, a sign, low lines between digits, digits of any
script, and in base sixteen the mark `0x`.
-/

namespace ResourceFinder
namespace Numeral

/-- White space around a numeral, which the information separators are not. -/
def isMargin (c : CodePoint) : Bool :=
  c.isBlank && !c.isOneOf ['\x1c', '\x1d', '\x1e', '\x1f']

/-- The value of a digit of the base: a decimal digit of any script, or an ASCII letter. -/
def digitValue? (base : Nat) (c : CodePoint) : Option Nat :=
  (c.decimalValue?.or c.hexValue?).filter (· < base)

/-- The value of digits with a single low line between any two of them at most, after digits of the
given value. -/
def digitsFrom? (base value : Nat) : Text → Option Nat
  | [] => some value
  | .char '_' :: c :: t => do digitsFrom? base (value * base + (← digitValue? base c)) t
  | c :: t => do digitsFrom? base (value * base + (← digitValue? base c)) t

def digits? (base : Nat) : Text → Option Nat
  | [] => none
  | c :: t => do digitsFrom? base (← digitValue? base c) t

/-- The sign at the head of a numeral, whether it is a minus, and what follows it. -/
def sign : Text → Bool × Text
  | .char '-' :: t => (true, t)
  | .char '+' :: t => (false, t)
  | t => (false, t)

def dropBaseMark (base : Nat) (t : Text) : Text :=
  match t with
  | first :: .char mark :: rest =>
    if base = 16 && first.decimalValue? = some 0 && (mark = 'x' || mark = 'X') then
      match rest with
      | .char '_' :: rest => rest
      | rest => rest
    else t
  | t => t

def integer? (base : Nat) (t : Text) : Option Int := do
  let (negative, t) := sign (Text.dropEndWhile isMargin (t.dropWhile isMargin))
  let n ← digits? base (dropBaseMark base t)
  return if negative then -n else n

/-- How many digits a decimal numeral may have where an untrusted document holds it. -/
def digitLimit : Nat := 4300

def limitedInteger? (t : Text) : Option Int :=
  if t.countP (·.decimalValue?.isSome) > digitLimit then none else integer? 10 t

def longMessage (digits : Nat) : Text :=
  ("Exceeds the limit (" : Text) ++ Text.ofNat digitLimit ++
    " digits) for integer string conversion: value has " ++ Text.ofNat digits ++
    " digits; use sys.set_int_max_str_digits() to increase the limit"

end Numeral
end ResourceFinder
