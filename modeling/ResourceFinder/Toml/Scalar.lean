import ResourceFinder.Text.Input
import ResourceFinder.Toml.Basic

/-
The parts of a TOML document without inner structure: keys, strings, numbers, dates and times.
-/

namespace ResourceFinder
namespace Toml

abbrev Reading (α : Type) := Except (Stop Problem) α

def isSpace (c : CodePoint) : Bool := c.isOneOf [' ', '\t']

def isSpaceOrLineEnd (c : CodePoint) : Bool := c.isOneOf [' ', '\t', '\n']

def isKeyChar (c : CodePoint) : Bool := c.isLetter || c.isDigit || c.isOneOf ['-', '_']

def startsKey (c : CodePoint) : Bool := isKeyChar c || c.isOneOf ['"', '\'']

/-- The control characters that no line holds: all but the tab. -/
def isControl (c : CodePoint) : Bool :=
  (c.code < 0x20 && c != .char '\t') || c.code = 0x7F

def isControlInLines (c : CodePoint) : Bool := isControl c && c != .char '\n'

def skipSpace (s : Input) : Input := s.skipWhile isSpace

def skipSpaceAndLineEnds (s : Input) : Input := s.skipWhile isSpaceOrLineEnd

/-- Passes over a text up to its end, if no sign that is out of place comes before. -/
def skipCheckedText (illegal : CodePoint → Bool) (t : Text) (s : Input) : Reading Input :=
  match t.dropWhile (!illegal ·) with
  | [] => .ok (s.skip t.length)
  | c :: _ => (s.skipWhile (!illegal ·)).fail (.foundCharacter c)

def skipComment (s : Input) : Reading Input :=
  if s.nextIs '#' then
    let s := s.skip 1
    skipCheckedText isControl (s.rest.takeWhile (· != .char '\n')) s
  else .ok s

def before? (delimiter : Text) : Text → Option Text
  | [] => if delimiter.isEmpty then some [] else none
  | c :: t =>
    if delimiter.isPrefixOf (c :: t) then some [] else (before? delimiter t).map (c :: ·)

def literal (delimiter : Text) (illegal : CodePoint → Bool) (s : Input) : Reading (Text × Input) :=
  match before? delimiter s.rest with
  | none => (s.skip s.rest.length).fail (.noClosing delimiter)
  | some t => do
    let s ← skipCheckedText illegal t s
    return (t, s.skip delimiter.length)

def escapedChar? : CodePoint → Option CodePoint
  | .char 'b' => some (.char '\x08')
  | .char 't' => some (.char '\t')
  | .char 'n' => some (.char '\n')
  | .char 'f' => some (.char '\x0c')
  | .char 'r' => some (.char '\r')
  | .char '"' => some (.char '"')
  | .char '\\' => some (.char '\\')
  | _ => none

/-- The number that digits of a base make up; other signs between them count for nothing. -/
def numberIn (base : Nat) (digits : Text) : Nat :=
  (digits.filterMap CodePoint.hexValue?).foldl (fun n d => n * base + d) 0

def escapedNumber (width : Nat) (s : Input) : Reading (CodePoint × Input) :=
  let digits := s.rest.take width
  if digits.length = width && digits.all (·.hexValue?.isSome) then
    let after := s.skip width
    let n := numberIn 16 digits
    if h : n.isValidChar then .ok (.char (Char.ofNatAux n h), after)
    else after.fail .noScalarValue
  else s.fail .hexDigits

/-- A line end after a backslash, with the blanks around it, which are no part of the text. -/
def skipFoldedLine (s : Input) : Reading Input :=
  let s := skipSpace s
  match s.rest with
  | [] => .ok s
  | c :: _ =>
    if c = .char '\n' then .ok (skipSpaceAndLineEnds (s.skip 1)) else s.fail .strayBackslash

def escape (inLines : Bool) (s : Input) : Reading (Text × Input) :=
  match s.rest with
  | [] => s.fail .strayBackslash
  | c :: _ =>
    if inLines && isSpaceOrLineEnd c then do return ([], ← skipFoldedLine s)
    else if c = .char 'u' then do
      let (c, s) ← escapedNumber 4 (s.skip 1)
      return ([c], s)
    else if c = .char 'U' then do
      let (c, s) ← escapedNumber 8 (s.skip 1)
      return ([c], s)
    else match escapedChar? c with
      | some c => .ok ([c], s.skip 1)
      | none => (s.skip 1).fail .strayBackslash

def basic (inLines : Bool) : (fuel : Nat) → Input → Reading (Text × Input)
  | 0, s => s.fail .openString
  | fuel + 1, s =>
    match s.rest with
    | [] => s.fail .openString
    | c :: _ =>
      if c = .char '"' && (!inLines || s.startsWith "\"\"\"") then
        .ok ([], s.skip (if inLines then 3 else 1))
      else if c = .char '\\' then do
        let (t, s) ← escape inLines (s.skip 1)
        let (rest, s) ← basic inLines fuel s
        return (t ++ rest, s)
      else if c != .char '"' && (if inLines then isControlInLines c else isControl c) then
        s.fail (.illegalCharacter c)
      else do
        let (rest, s) ← basic inLines fuel (s.skip 1)
        return (c :: rest, s)

/-- Up to two more delimiters after a text of several lines, which belong to the text. -/
def finalDelimiters (delimiter : Char) (t : Text) (s : Input) : Text × Input :=
  let extra := ((s.rest.take 2).takeWhile (· = .char delimiter)).length
  (t ++ List.replicate extra (.char delimiter), s.skip extra)

/-- A text between three delimiters; a line end right after them is left out. -/
def textOfLines (isLiteral : Bool) (s : Input) : Reading (Text × Input) := do
  let s := s.skip 3
  let s := if s.nextIs '\n' then s.skip 1 else s
  if isLiteral then
    let (t, s) ← literal "'''" isControlInLines s
    return finalDelimiters '\'' t s
  else
    let (t, s) ← basic true (s.rest.length + 1) s
    return finalDelimiters '"' t s

def textOfOneLine (isLiteral : Bool) (s : Input) : Reading (Text × Input) :=
  let s := s.skip 1
  if isLiteral then literal "'" isControl s else basic false (s.rest.length + 1) s

def keyPart (s : Input) : Reading (Text × Input) :=
  match s.rest with
  | [] => s.fail .keyStart
  | c :: _ =>
    if isKeyChar c then .ok (s.rest.takeWhile isKeyChar, s.skipWhile isKeyChar)
    else if c = .char '\'' then textOfOneLine true s
    else if c = .char '"' then textOfOneLine false s
    else s.fail .keyStart

def keyFrom : (fuel : Nat) → Input → Reading (Key × Input)
  | 0, s => s.fail .keyStart
  | fuel + 1, s => do
    let (part, s) ← keyPart s
    let s := skipSpace s
    if s.nextIs '.' then
      let (rest, s) ← keyFrom fuel (skipSpace (s.skip 1))
      return (part :: rest, s)
    else return ([part], s)

def key (s : Input) : Reading (Key × Input) := keyFrom (s.rest.length + 1) s

def boundedNumber? (width low high : Nat) (t : Text) : Option (Nat × Text) :=
  let digits := t.take width
  let n := numberIn 10 digits
  if digits.length = width && digits.all CodePoint.isDigit && low ≤ n && n ≤ high then
    some (n, t.drop width)
  else none

def sign? (c : Char) : Text → Option Text
  | d :: t => if d = CodePoint.char c then some t else none
  | [] => none

/-- A fraction of a second in millionths; further digits are dropped. -/
def fraction (t : Text) : Nat × Text :=
  match t with
  | .char '.' :: rest =>
    let digits := rest.takeWhile CodePoint.isDigit
    if digits.isEmpty then (0, t)
    else
      let six := (digits ++ List.replicate 6 (CodePoint.char '0')).take 6
      (numberIn 10 six, rest.drop digits.length)
  | t => (0, t)

def timeOfDay? (t : Text) : Option (TimeOfDay × Text) := do
  let (hour, t) ← boundedNumber? 2 0 23 t
  let (minute, t) ← boundedNumber? 2 0 59 (← sign? ':' t)
  let (second, t) ← boundedNumber? 2 0 59 (← sign? ':' t)
  let (micros, t) := fraction t
  return (⟨hour, minute, second, micros⟩, t)

def date? (t : Text) : Option (Date × Text) := do
  let (year, t) ← boundedNumber? 4 0 9999 t
  let (month, t) ← boundedNumber? 2 1 12 (← sign? '-' t)
  let (day, t) ← boundedNumber? 2 1 31 (← sign? '-' t)
  return (⟨year, month, day⟩, t)

def offset? (t : Text) : Option (Int × Text) :=
  match t with
  | c :: rest =>
    if c.isOneOf ['Z', 'z'] then some (0, rest)
    else if c.isOneOf ['+', '-'] then do
      let (hours, rest) ← boundedNumber? 2 0 23 rest
      let (minutes, rest) ← boundedNumber? 2 0 59 (← sign? ':' rest)
      let n : Int := hours * 60 + minutes
      return (if c = .char '-' then -n else n, rest)
    else none
  | [] => none

/-- A date, with the time after it if one follows; the date need not exist. -/
def dateOrDateTime? (t : Text) : Option (Value × Date × Text) := do
  let (date, t) ← date? t
  let time? : Option (TimeOfDay × Text) := match t with
    | c :: rest => if c.isOneOf ['T', 't', ' '] then timeOfDay? rest else none
    | [] => none
  match time? with
  | none => return (.date date, date, t)
  | some (time, t) =>
    match offset? t with
    | some (offset, t) => return (.dateTime ⟨date, time, some offset⟩, date, t)
    | none => return (.dateTime ⟨date, time, none⟩, date, t)

/-- The longest run of digits at the head of a text, with a single low line between any two of them
at most. -/
def digitRun (isDigit : CodePoint → Bool) : Text → Text
  | [] => []
  | c :: t => if isDigit c then c :: more t else []
where
  more : Text → Text
    | .char '_' :: c :: t => if isDigit c then .char '_' :: c :: more t else []
    | c :: t => if isDigit c then c :: more t else []
    | [] => []

def basedInteger? (t : Text) : Option (Int × Nat) :=
  match t with
  | .char '0' :: .char letter :: rest =>
    let base? : Option Nat := match letter with
      | 'x' => some 16
      | 'o' => some 8
      | 'b' => some 2
      | _ => none
    base?.bind fun base =>
      let run := digitRun (fun c => c.hexValue?.any (· < base)) rest
      if run.isEmpty then none else some (numberIn base run, run.length + 2)
  | _ => none

def fractionRun (t : Text) : Text :=
  match t with
  | .char '.' :: t => digitRun CodePoint.isDigit t
  | _ => []

def exponentRun? (t : Text) : Option (Int × Nat) :=
  match t with
  | c :: t =>
    if c.isOneOf ['e', 'E'] then
      let (negative, signLength, t) := match t with
        | .char '-' :: t => (true, 1, t)
        | .char '+' :: t => (false, 1, t)
        | t => (false, 0, t)
      let run := digitRun CodePoint.isDigit t
      if run.isEmpty then none
      else
        let n : Int := numberIn 10 run
        some (if negative then -n else n, 1 + signLength + run.length)
    else none
  | [] => none

/-- A number in base ten and its length.  An integer part that starts with a zero is just that
zero. -/
def decimal? (t : Text) : Option (Except Nat Value × Nat) :=
  let (negative, signLength, unsigned) := match t with
    | .char '-' :: t => (true, 1, t)
    | .char '+' :: t => (false, 1, t)
    | t => (false, 0, t)
  let whole : Text := match unsigned with
    | .char '0' :: _ => "0"
    | t => digitRun CodePoint.isDigit t
  if whole.isEmpty then none
  else
    let afterWhole := unsigned.drop whole.length
    let fraction := fractionRun afterWhole
    let fractionLength := if fraction.isEmpty then 0 else fraction.length + 1
    let exponent := exponentRun? (afterWhole.drop fractionLength)
    let length :=
      signLength + whole.length + fractionLength + ((exponent.map (·.2)).getD 0)
    if fraction.isEmpty && exponent.isNone then
      let digits := whole.countP CodePoint.isDigit
      let n : Int := numberIn 10 whole
      some (if digits > Numeral.digitLimit then .error digits
        else .ok (.integer (if negative then -n else n)), length)
    else
      let power := ((exponent.map (·.1)).getD 0) - fraction.countP CodePoint.isDigit
      let x := Binary64.ofDecimal negative (numberIn 10 (whole ++ fraction)) power
      some (.ok (.number x), length)

def named : List (Text × Binary64) := [
  ("inf", .infinite false), ("nan", .nan), ("-inf", .infinite true), ("+inf", .infinite false),
  ("-nan", .nan), ("+nan", .nan)]

def quantity (s : Input) : Reading (Value × Input) :=
  let upTo (rest : Text) : Input := s.skip (s.rest.length - rest.length)
  match dateOrDateTime? s.rest with
  | some (v, date, rest) => if date.isValid then .ok (v, upTo rest) else s.fail .noSuchTime
  | none =>
    match timeOfDay? s.rest with
    | some (time, rest) => .ok (.time time, upTo rest)
    | none =>
      match basedInteger? s.rest with
      | some (n, length) => .ok (.integer n, s.skip length)
      | none =>
        match decimal? s.rest with
        | some (.ok v, length) => .ok (v, s.skip length)
        | some (.error digits, _) => .error (.longInteger digits)
        | none =>
          match named.find? fun (name, _) => s.startsWith name with
          | some (name, x) => .ok (.number x, s.skip name.length)
          | none => s.fail .value

end Toml
end ResourceFinder
