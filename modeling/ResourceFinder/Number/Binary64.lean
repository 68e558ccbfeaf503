import ResourceFinder.Text.Basic

/-
Binary floating-point numbers of 64 bits, in exact arithmetic.

A decimal is read as the nearest such number, and a number is written with the fewest digits that
are read back as it.  Both compare rationals by cross multiplication, so no rounding of the host is
involved.
-/

namespace ResourceFinder

/-- A number `mantissa * 2 ^ exponent` with a mantissa below `2 ^ 53` and an exponent of `-1074` at
least, an infinity, or no number.  A mantissa below `2 ^ 52` goes with the least exponent. -/
inductive Binary64 where
  | finite (negative : Bool) (mantissa : Nat) (exponent : Int)
  | infinite (negative : Bool)
  | nan
  deriving DecidableEq

namespace Binary64

def mantissaLimit : Nat := 0x20000000000000

def leastNormal : Nat := 0x10000000000000

/-- The quotient rounded to the nearest natural number, a tie to the even one. -/
def roundQuotient (num den : Nat) : Nat :=
  let floor := num / den
  let twice := 2 * (num % den)
  if twice > den || (twice = den && floor % 2 = 1) then floor + 1 else floor

def scaled (n base : Nat) (exponent : Int) : Nat × Nat :=
  if exponent ≥ 0 then (n * base.pow exponent.toNat, 1) else (n, base.pow (-exponent).toNat)

def decimalLength (n : Nat) : Nat := (Nat.toDigits 10 n).length

/-- The number nearest to `num / den`, a tie going to the even mantissa. -/
def ofFraction (negative : Bool) (num den : Nat) : Binary64 :=
  let guess : Int := (num.log2 : Int) - den.log2 - 52
  let below : Bool :=
    let (a, b) := scaled den 2 (guess + 52)
    num * b < a
  let exponent := max (if below then guess - 1 else guess) (-1074)
  let (a, b) := scaled den 2 exponent
  let mantissa := roundQuotient (num * b) a
  let (mantissa, exponent) :=
    if mantissa = mantissaLimit then (leastNormal, exponent + 1) else (mantissa, exponent)
  if exponent > 971 then infinite negative else finite negative mantissa exponent

/-- The number nearest to `digits * 10 ^ exponent`.  Decimals far out of range are settled by their
length, before any power is taken. -/
def ofDecimal (negative : Bool) (digits : Nat) (exponent : Int) : Binary64 :=
  if digits = 0 then finite negative 0 (-1074)
  else
    let magnitude := (decimalLength digits : Int) + exponent
    if magnitude > 310 then infinite negative
    else if magnitude < -330 then finite negative 0 (-1074)
    else
      let (num, den) := scaled digits 10 exponent
      ofFraction negative num den

/-- Whether `digits * 10 ^ exponent` is read back as `mantissa * 2 ^ binary`: it lies between the
halfway points to the neighbours, which count when the mantissa is even. -/
def readsBack (mantissa : Nat) (binary : Int) (digits : Nat) (exponent : Int) : Bool :=
  let (num, den) := scaled digits 10 exponent
  let narrow := mantissa = leastNormal && binary > -1074
  let (low, lowDen) := scaled (4 * mantissa - if narrow then 1 else 2) 2 (binary - 2)
  let (high, highDen) := scaled (4 * mantissa + 2) 2 (binary - 2)
  if mantissa % 2 = 0 then low * den ≤ num * lowDen && num * highDen ≤ high * den
  else low * den < num * lowDen && num * highDen < high * den

def magnitudeFrom (num den : Nat) : (fuel : Nat) → Int → Int
  | 0, k => k
  | fuel + 1, k =>
    let (a, b) := scaled den 10 k
    if num * b < a then k else magnitudeFrom num den fuel (k + 1)

/-- The number without its trailing zeros, which count in the exponent. -/
def stripZeros : (fuel : Nat) → Nat → Int → Nat × Int
  | 0, digits, exponent => (digits, exponent)
  | fuel + 1, digits, exponent =>
    if digits ≠ 0 && digits % 10 = 0 then stripZeros fuel (digits / 10) (exponent + 1)
    else (digits, exponent)

/-- The decimal with one digit more than tried before that is read back, the nearer one of two. -/
def shortestFrom (mantissa : Nat) (binary : Int) (magnitude : Int) : (left tried : Nat) → Nat × Int
  | 0, tried =>
    let exponent := magnitude - tried
    let (num, den) := scaled mantissa 2 binary
    let (a, b) := scaled den 10 exponent
    (roundQuotient (num * b) a, exponent)
  | left + 1, tried =>
    let exponent := magnitude - (tried + 1 : Nat)
    let (num, den) := scaled mantissa 2 binary
    let (a, b) := scaled den 10 exponent
    let floor := num * b / a
    let nearest := roundQuotient (num * b) a
    let other := if nearest = floor then floor + 1 else floor
    if readsBack mantissa binary nearest exponent then (nearest, exponent)
    else if readsBack mantissa binary other exponent then (other, exponent)
    else shortestFrom mantissa binary magnitude left (tried + 1)

/-- The digits, and the power of ten of the last one, of the shortest decimal that is read back as
`mantissa * 2 ^ exponent`. -/
def shortest (mantissa : Nat) (exponent : Int) : Nat × Int :=
  let (num, den) := scaled mantissa 2 exponent
  let magnitude := magnitudeFrom num den 700 (-330)
  let (digits, last) := shortestFrom mantissa exponent magnitude 17 0
  stripZeros 20 digits last

/-- A decimal as a document shows it: positional where the point falls within the sixteen first
places and not more than four zeros after it come first, with at least one digit after the point;
otherwise with a signed exponent of two digits at least. -/
def layout (digits : Nat) (last : Int) : Text :=
  let numeral := Text.ofNat digits
  let point := (numeral.length : Int) + last
  if point ≤ -4 || point > 16 then
    let exponent := point - 1
    let fraction : Text := match numeral.drop 1 with
      | [] => []
      | rest => .char '.' :: rest
    numeral.take 1 ++ fraction ++ [.char 'e', .char (if exponent < 0 then '-' else '+')] ++
      Text.padZeros 2 (Text.ofNat exponent.natAbs)
  else if point ≤ 0 then
    ("0." : Text) ++ List.replicate (-point).toNat (.char '0') ++ numeral
  else if last ≥ 0 then
    numeral ++ List.replicate last.toNat (.char '0') ++ (".0" : Text)
  else
    numeral.take point.toNat ++ .char '.' :: numeral.drop point.toNat

def render : Binary64 → Text
  | nan => "nan"
  | infinite negative => if negative then "-inf" else "inf"
  | finite negative mantissa exponent =>
    let body : Text := if mantissa = 0 then "0.0" else
      let (digits, last) := shortest mantissa exponent
      layout digits last
    if negative then .char '-' :: body else body

end Binary64
end ResourceFinder
