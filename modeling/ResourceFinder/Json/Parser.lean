import ResourceFinder.Dictionary
import ResourceFinder.Json.Basic
import ResourceFinder.Text.Encoding
import ResourceFinder.Text.Input

/-
Reading a JSON document.

Not a number and the infinities have names of their own, and an escape may leave an unpaired
surrogate.  Of several members with one name the last one counts.
-/

namespace ResourceFinder
namespace Json

abbrev Reading (α : Type) := Except (Stop Problem) α

def skipSpace (s : Input) : Input := s.skipWhile (·.isOneOf [' ', '\t', '\n', '\r'])

def fourDigits? : Text → Option Nat
  | [a, b, c, d] => do
    let a ← a.hexValue?
    let b ← b.hexValue?
    let c ← c.hexValue?
    let d ← d.hexValue?
    return ((a * 16 + b) * 16 + c) * 16 + d
  | _ => none

/-- The number of an escape after its `u`; at least one more character has to follow the digits. -/
def numberEscape (s : Input) : Reading (Nat × Input) :=
  match fourDigits? (s.rest.take 4) with
  | some n => if s.rest.length ≤ 4 then fail else .ok (n, s.skip 4)
  | none => fail
where
  fail := .error (.problem .badNumberEscape (s.position - 1))

/-- The code point of an escape by number after its `u`; a high surrogate takes the escape of a low
one with it. -/
def escapedNumber (s : Input) : Reading (CodePoint × Input) := do
  let (n, after) ← numberEscape s
  let alone := ((CodePoint.ofNat? n).getD default, after)
  if 0xD800 ≤ n && n < 0xDC00 && after.rest.length > 6 && ("\\u" : Text).isPrefixOf after.rest then
    let (m, afterLow) ← numberEscape (after.skip 2)
    if 0xDC00 ≤ m && m < 0xE000 then
      return (.char (Char.ofNat (0x10000 + (n - 0xD800) * 0x400 + (m - 0xDC00))), afterLow)
    else return alone
  else return alone

def escapedChar? : CodePoint → Option CodePoint
  | .char '"' => some (.char '"')
  | .char '\\' => some (.char '\\')
  | .char '/' => some (.char '/')
  | .char 'b' => some (.char '\x08')
  | .char 'f' => some (.char '\x0c')
  | .char 'n' => some (.char '\n')
  | .char 'r' => some (.char '\r')
  | .char 't' => some (.char '\t')
  | _ => none

def string (start : Nat) : (fuel : Nat) → Input → Reading (Text × Input)
  | 0, _ => .error (.problem .unterminatedString start)
  | fuel + 1, s =>
    match s.rest with
    | [] => .error (.problem .unterminatedString start)
    | .char '"' :: _ => .ok ([], s.skip 1)
    | [.char '\\'] => .error (.problem .unterminatedString start)
    | .char '\\' :: .char 'u' :: _ => do
      let (c, s) ← escapedNumber (s.skip 2)
      let (t, s) ← string start fuel s
      return (c :: t, s)
    | .char '\\' :: c :: _ =>
      match escapedChar? c with
      | none => s.fail .badEscape
      | some c => do
        let (t, s) ← string start fuel (s.skip 2)
        return (c :: t, s)
    | c :: _ =>
      if c.code < 0x20 then s.fail .controlCharacter
      else do
        let (t, s) ← string start fuel (s.skip 1)
        return (c :: t, s)

def digitsOf (t : Text) : Text := t.takeWhile CodePoint.isDigit

def decimal (digits : Text) : Nat := digits.foldl (fun n c => n * 10 + (c.hexValue?.getD 0)) 0

def fractionOf (t : Text) : Text :=
  match t with
  | .char '.' :: t => digitsOf t
  | _ => []

def exponentOf (t : Text) : Option (Int × Nat) :=
  match t with
  | c :: t =>
    if c.isOneOf ['e', 'E'] then
      let (negative, signLength, t) := match t with
        | .char '-' :: t => (true, 1, t)
        | .char '+' :: t => (false, 1, t)
        | t => (false, 0, t)
      let digits := digitsOf t
      if digits.isEmpty then none
      else
        let n : Int := decimal digits
        some (if negative then -n else n, 1 + signLength + digits.length)
    else none
  | [] => none

/-- A number.  A zero at its head is all of its integer part. -/
def number (s : Input) : Reading (Value × Input) :=
  let (negative, unsigned) := match s.rest with
    | .char '-' :: t => (true, t)
    | t => (false, t)
  let whole : Text := match unsigned with
    | .char '0' :: _ => "0"
    | t => digitsOf t
  if whole.isEmpty then s.fail .expectingValue
  else
    let signLength := if negative then 1 else 0
    let afterWhole := unsigned.drop whole.length
    let fraction := fractionOf afterWhole
    let fractionLength := if fraction.isEmpty then 0 else fraction.length + 1
    let exponent := exponentOf (afterWhole.drop fractionLength)
    let next := s.skip
      (signLength + whole.length + fractionLength + ((exponent.map (·.2)).getD 0))
    if fraction.isEmpty && exponent.isNone then
      if whole.length > Numeral.digitLimit then .error (.longInteger whole.length)
      else
        let n : Int := decimal whole
        .ok (.integer (if negative then -n else n), next)
    else
      let power := ((exponent.map (·.1)).getD 0) - fraction.length
      .ok (.number (Binary64.ofDecimal negative (decimal (whole ++ fraction)) power), next)

def named : List (Text × Value) := [
  ("null", .null), ("true", .bool true), ("false", .bool false), ("NaN", .number .nan),
  ("Infinity", .number (.infinite false)), ("-Infinity", .number (.infinite true))]

def simple (s : Input) : Reading (Value × Input) :=
  match named.find? fun (name, _) => name.isPrefixOf s.rest with
  | some (name, v) => .ok (v, s.skip name.length)
  | none => number s

mutual

/-- A value.  Every part of one takes a character at least, and two steps, which bounds the
depth. -/
def value : (fuel : Nat) → Input → Reading (Value × Input)
  | 0, s => s.fail .expectingValue
  | fuel + 1, s =>
    match s.rest with
    | .char '"' :: _ => do
      let (t, s) ← string s.position (s.rest.length + 1) (s.skip 1)
      return (.text t, s)
    | .char '[' :: _ =>
      let s := skipSpace (s.skip 1)
      if s.nextIs ']' then .ok (.list [], s.skip 1)
      else do
        let (items, s) ← items fuel s
        return (.list items, s)
    | .char '\x7b' :: _ =>
      let s := skipSpace (s.skip 1)
      if s.nextIs '\x7d' then .ok (.object [], s.skip 1)
      else do
        let (members, s) ← members fuel s
        return (.object (Dictionary.ofPairs members), s)
    | _ => simple s

def items : (fuel : Nat) → Input → Reading (List Value × Input)
  | 0, s => s.fail .expectingValue
  | fuel + 1, s => do
    let (v, s) ← value fuel s
    let s := skipSpace s
    if s.nextIs ']' then return ([v], s.skip 1)
    else
      let s ← s.expect ',' .expectingComma
      let (rest, s) ← items fuel (skipSpace s)
      return (v :: rest, s)

def members : (fuel : Nat) → Input → Reading (List (Text × Value) × Input)
  | 0, s => s.fail .expectingValue
  | fuel + 1, s => do
    let inside ← s.expect '"' .expectingName
    let (name, s) ← string s.position (s.rest.length + 1) inside
    let s ← (skipSpace s).expect ':' .expectingColon
    let (v, s) ← value fuel (skipSpace s)
    let s := skipSpace s
    if s.nextIs '\x7d' then return ([(name, v)], s.skip 1)
    else
      let s ← s.expect ',' .expectingComma
      let (rest, s) ← members fuel (skipSpace s)
      return ((name, v) :: rest, s)

end

def parseText (t : Text) : Except Fault Value :=
  let outcome : Reading Value := do
    let (v, s) ← value (2 * t.length + 2) (skipSpace (.ofText t))
    let s := skipSpace s
    if s.rest.isEmpty then return v else s.fail .extraData
  outcome.mapError fun
    | .problem p position =>
      let (line, column) := t.lineAndColumn position
      .grammar p position line column
    | .longInteger digits => .longInteger digits

/-- The encoding that a mark at the head or the zeros among the first octets show. -/
def encodingOf (octets : Bytes) : Encoding :=
  if (WideUnits.mark32? octets).isSome then .utf32 none
  else if (WideUnits.mark16? octets).isSome then .utf16 none
  else match octets with
    | 0xEF :: 0xBB :: 0xBF :: _ => .utf8Marked
    | 0 :: 0 :: _ :: _ :: _ => .utf32 (some .big)
    | 0 :: _ :: _ :: _ :: _ => .utf16 (some .big)
    | _ :: 0 :: 0 :: 0 :: _ => .utf32 (some .little)
    | _ :: 0 :: _ :: _ :: _ => .utf16 (some .little)
    | [0, _] => .utf16 (some .big)
    | [_, 0] => .utf16 (some .little)
    | _ => .utf8

def parse (octets : Bytes) : Except Fault Value := do
  parseText (← ((encodingOf octets).decodeWith true octets).mapError .encoding)

end Json
end ResourceFinder
