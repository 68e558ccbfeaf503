import ResourceFinder.Text.Basic

/-
Dates and times as documents write them.
-/

namespace ResourceFinder

/-- A day of the calendar that runs without a gap in both directions, in the years from 1 to
9999. -/
structure Date where
  year : Nat
  month : Nat
  day : Nat
  deriving DecidableEq

structure TimeOfDay where
  hour : Nat
  minute : Nat
  second : Nat
  micros : Nat
  deriving DecidableEq

/-- A date with a time, and the minutes by which it is ahead of universal time where that is
known. -/
structure DateTime where
  date : Date
  time : TimeOfDay
  offset : Option Int
  deriving DecidableEq

namespace Date

def isLeapYear (year : Nat) : Bool := year % 4 = 0 && (year % 100 ≠ 0 || year % 400 = 0)

def daysInMonth (year month : Nat) : Nat :=
  if month = 2 then (if isLeapYear year then 29 else 28)
  else if [4, 6, 9, 11].contains month then 30
  else 31

def isValid (d : Date) : Bool :=
  1 ≤ d.year && 1 ≤ d.month && d.month ≤ 12 && 1 ≤ d.day && d.day ≤ daysInMonth d.year d.month

def text (d : Date) : Text :=
  Text.padZeros 4 (Text.ofNat d.year) ++ "-" ++ Text.padZeros 2 (Text.ofNat d.month) ++ "-" ++
    Text.padZeros 2 (Text.ofNat d.day)

end Date

namespace TimeOfDay

/-- The time with seconds, and with six more digits if it does not fall on a second. -/
def text (t : TimeOfDay) : Text :=
  Text.padZeros 2 (Text.ofNat t.hour) ++ ":" ++ Text.padZeros 2 (Text.ofNat t.minute) ++ ":" ++
    Text.padZeros 2 (Text.ofNat t.second) ++
    if t.micros = 0 then [] else .char '.' :: Text.padZeros 6 (Text.ofNat t.micros)

end TimeOfDay

namespace DateTime

def offsetText (minutes : Int) : Text :=
  let n := minutes.natAbs
  .char (if minutes < 0 then '-' else '+') :: Text.padZeros 2 (Text.ofNat (n / 60)) ++ ":" ++
    Text.padZeros 2 (Text.ofNat (n % 60))

def text (d : DateTime) : Text :=
  d.date.text ++ "T" ++ d.time.text ++
    match d.offset with
    | none => []
    | some minutes => offsetText minutes

end DateTime
end ResourceFinder
