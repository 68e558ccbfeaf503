import ResourceFinder.Text.DecodeError

/-
Encodings in units of two and of four octets, in either order of the octets.
-/

namespace ResourceFinder
namespace WideUnits

inductive Endian where
  | little
  | big
  deriving DecidableEq

namespace Endian

def value (order : Endian) (unit : Bytes) : Nat :=
  let inOrder := match order with
    | little => unit.reverse
    | big => unit
  inOrder.foldl (fun n b => n * 256 + b.toNat) 0

def name16 : Endian → Text
  | little => "utf-16-le"
  | big => "utf-16-be"

def name32 : Endian → Text
  | little => "utf-32-le"
  | big => "utf-32-be"

end Endian

def isHigh (n : Nat) : Bool := 0xD800 ≤ n && n < 0xDC00

def isLow (n : Nat) : Bool := 0xDC00 ≤ n && n < 0xE000

/-- Text from units of two octets.  A high and a low surrogate together are one scalar value; a
lenient reader keeps a surrogate that stands alone. -/
def decode16 (order : Endian) (lenient : Bool) (position : Nat) :
    Bytes → Except DecodeError Text
  | [] => .ok []
  | [a] => .error ⟨order.name16, position, [a], .truncated⟩
  | a :: b :: rest =>
    let n := order.value [a, b]
    let alone : Unit → DecodeError → Except DecodeError Text := fun _ e =>
      if lenient then
        (decode16 order lenient (position + 2) rest).map ((CodePoint.ofNat? n).toList ++ ·)
      else .error e
    if isLow n then alone () ⟨order.name16, position, [a, b], .illegalEncoding⟩
    else if isHigh n then
      match rest with
      | c :: d :: after =>
        let m := order.value [c, d]
        if isLow m then
          (decode16 order lenient (position + 4) after).map
            (.char (Char.ofNat (0x10000 + (n - 0xD800) * 0x400 + (m - 0xDC00))) :: ·)
        else alone () ⟨order.name16, position, [a, b], .illegalPair⟩
      | short => alone () ⟨order.name16, position, a :: b :: short, .unexpectedEnd⟩
    else (decode16 order lenient (position + 2) rest).map ((CodePoint.ofNat? n).toList ++ ·)
termination_by octets => octets.length
decreasing_by all_goals simp only [List.length_cons]; omega

/-- Text from units of four octets; a lenient reader keeps surrogates. -/
def decode32 (order : Endian) (lenient : Bool) (position : Nat) :
    Bytes → Except DecodeError Text
  | [] => .ok []
  | a :: b :: c :: d :: rest =>
    let n := order.value [a, b, c, d]
    if !lenient && (isHigh n || isLow n) then
      .error ⟨order.name32, position, [a, b, c, d], .surrogate⟩
    else match CodePoint.ofNat? n with
      | none => .error ⟨order.name32, position, [a, b, c, d], .outOfRange⟩
      | some p => (decode32 order lenient (position + 4) rest).map (p :: ·)
  | short => .error ⟨order.name32, position, short, .truncated⟩

/-- The order that a mark at the head of two-octet units announces, and the octets after the
mark. -/
def mark16? : Bytes → Option (Endian × Bytes)
  | 0xFF :: 0xFE :: rest => some (.little, rest)
  | 0xFE :: 0xFF :: rest => some (.big, rest)
  | _ => none

/-- The order that a mark at the head of four-octet units announces, and the octets after the
mark. -/
def mark32? : Bytes → Option (Endian × Bytes)
  | 0xFF :: 0xFE :: 0 :: 0 :: rest => some (.little, rest)
  | 0 :: 0 :: 0xFE :: 0xFF :: rest => some (.big, rest)
  | _ => none

end WideUnits
end ResourceFinder
