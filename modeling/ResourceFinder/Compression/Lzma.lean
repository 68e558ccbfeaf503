import ResourceFinder.Compression.PrefixCode
import Std.Data.HashMap

/-
Decompression of streams of range-coded symbols.

A symbol is an octet, or a copy of what came before.  It is coded in bits, each of which takes the
share of a range that its chance gives it, and the chance depends on what the bit is for and follows
the bits before.
-/

namespace ResourceFinder
namespace Lzma

open Compression

inductive Problem where
  | options
  | data
  deriving DecidableEq

def Problem.message : Problem → Text
  | options => "Invalid or unsupported options"
  | data => "Corrupt input data"

/-! ## Bits -/

inductive Subject where
  | isCopy (state place : Nat)
  | isRepeated (state : Nat)
  | isEarlier (rank state : Nat)
  | isLong (state place : Nat)
  | literal (context : Nat)
  | likeLiteral (context : Nat) (expected : Bool)
  | lengthRange (repeated : Bool) (rank : Nat)
  | length (repeated : Bool) (rank place : Nat)
  | slot (lengthClass : Nat)
  | distance (slot : Nat)
  | alignment
  deriving DecidableEq, Hashable

/-- What the chance of a bit depends on: what it is for, and the bits before it of the same number,
after a leading one. -/
structure Context where
  subject : Subject
  before : Nat := 1
  deriving DecidableEq, Hashable

/-- A range, how far into it the stream points, what follows of the stream, and in how many of 2048
cases a bit is not set. -/
structure Range where
  width : UInt32
  offset : UInt32
  rest : Bytes
  chances : Std.HashMap Context UInt32

abbrev Reader := StateT Range (Except Stop)

namespace Reader

/-- Takes an octet where the range is too narrow for one more bit. -/
def widen : Reader Unit := do
  let r ← get
  if r.width < 0x1000000 then
    match r.rest with
    | [] => throw .short
    | b :: rest =>
      set { r with width := r.width <<< 8, offset := r.offset <<< 8 ||| b.toUInt32, rest }

def bit (c : Context) : Reader Bool := do
  widen
  let r ← get
  let chance := r.chances.getD c 1024
  let share := (r.width >>> 11) * chance
  if r.offset < share then
    set { r with width := share, chances := r.chances.insert c (chance + (2048 - chance) >>> 5) }
    return false
  else
    set { r with
      width := r.width - share, offset := r.offset - share,
      chances := r.chances.insert c (chance - chance >>> 5) }
    return true

def numberFrom (s : Subject) : (width before : Nat) → Reader Nat
  | 0, before => return before
  | width + 1, before => do
    numberFrom s width (2 * before + (← bit ⟨s, before⟩).toNat)

def number (s : Subject) (width : Nat) : Reader Nat := do
  return (← numberFrom s width 1) - 1 <<< width

def reversedFrom (s : Subject) : (width before : Nat) → Reader Nat
  | 0, _ => return 0
  | width + 1, before => do
    let b := (← bit ⟨s, before⟩).toNat
    return b + 2 * (← reversedFrom s width (2 * before + b))

def reversed (s : Subject) (width : Nat) : Reader Nat := reversedFrom s width 1

def evenBit : Reader Bool := do
  widen
  let r ← get
  let half := r.width >>> 1
  if (r.offset - half) >>> 31 = 1 then
    set { r with width := half }
    return false
  else
    set { r with width := half, offset := r.offset - half }
    return true

def evenNumber (width : Nat) : Reader Nat :=
  (List.range width).foldlM (fun n _ => do return 2 * n + (← evenBit).toNat) 0

end Reader

/-! ## Symbols -/

/-- How many high bits of the octet before count for an octet, how many low bits of its place count
for it, and how many of them for a symbol; and how far back a copy may start. -/
structure Properties where
  octetBits : Nat
  octetPlaceBits : Nat
  placeBits : Nat
  window : Nat

/-- Properties in octets.  The window is made up to a multiple of sixteen octets. -/
def Properties.ofOctets? : Bytes → Option Properties
  | [a, b, c, d, e] =>
    let n := a.toNat
    let size := b.toNat + 256 * (c.toNat + 256 * (d.toNat + 256 * e.toNat))
    if n ≥ 225 || n % 9 + n / 9 % 5 > 4 then none
    else some ⟨n % 9, n / 9 % 5, n / 45, (max 4096 size + 15) / 16 * 16⟩
  | _ => none

/-- The text so far, a number that tells of which kinds the last symbols were, and the last four
distances, the last one first. -/
structure History where
  text : Array UInt8
  state : Nat
  distances : List Nat

namespace History

def start : History := ⟨#[], 0, [0, 0, 0, 0]⟩

/-- The octet some distance back, where the last one has distance 0. -/
def back (h : History) (distance : Nat) : UInt8 := h.text.getD (h.text.size - 1 - distance) 0

def place (p : Properties) (h : History) : Nat := h.text.size % 1 <<< p.placeBits

def followsOctet (h : History) : Bool := h.state < 7

def reaches (p : Properties) (h : History) (distance : Nat) : Bool :=
  distance < min h.text.size p.window

def write (h : History) (b : UInt8) : History :=
  { h with
    text := h.text.push b
    state := if h.state < 4 then 0 else if h.state < 10 then h.state - 3 else h.state - 6 }

/-- Copies octets one by one, so that a copy may overlap what it makes. -/
def copyText (distance : Nat) : (length : Nat) → Array UInt8 → Array UInt8
  | 0, text => text
  | length + 1, text =>
    copyText distance length (text.push (text.getD (text.size - 1 - distance) 0))

/-- A copy from the last distance, after which the state is one of two, the first after an octet. -/
def copy (h : History) (length : Nat) (states : Nat × Nat) : History :=
  { h with
    text := copyText (h.distances.headD 0) length h.text
    state := if h.followsOctet then states.1 else states.2 }

end History

/-- An octet.  After a copy, its bits are expected to be those of the octet that would have been
copied next, up to the first one that is not. -/
def readOctet (p : Properties) (h : History) : Reader UInt8 := do
  let low := h.text.size % 1 <<< p.octetPlaceBits
  let context := low <<< p.octetBits + (h.back 0).toNat >>> (8 - p.octetBits)
  if h.followsOctet then return UInt8.ofNat (← Reader.number (.literal context) 8)
  else
    let expected := (h.back (h.distances.headD 0)).toNat
    let rec go : (width before : Nat) → Reader Nat
      | 0, before => return before
      | width + 1, before => do
        let next := expected.testBit width
        let b ← Reader.bit ⟨.likeLiteral context next, before⟩
        let before := 2 * before + b.toNat
        if b = next then go width before
        else Reader.numberFrom (.literal context) width before
    return UInt8.ofNat (← go 8 1)

def readLength (repeated : Bool) (place : Nat) : Reader Nat := do
  if !(← Reader.bit ⟨.lengthRange repeated 0, 1⟩) then
    return 2 + (← Reader.number (.length repeated 0 place) 3)
  else if !(← Reader.bit ⟨.lengthRange repeated 1, 1⟩) then
    return 10 + (← Reader.number (.length repeated 1 place) 3)
  else return 18 + (← Reader.number (.length repeated 2 0) 8)

/-- A distance, the high bits first; how many there are and the first two of them are in one
number. -/
def readDistance (length : Nat) : Reader Nat := do
  let slot ← Reader.number (.slot (min (length - 2) 3)) 6
  if slot < 4 then return slot
  else
    let width := slot / 2 - 1
    let high := 2 + slot % 2
    if slot < 14 then return high <<< width + (← Reader.reversed (.distance slot) width)
    else
      let middle ← Reader.evenNumber (width - 4)
      return (high <<< (width - 4) + middle) <<< 4 + (← Reader.reversed .alignment 4)

def lastDistance : Nat := 0xFFFFFFFF

/-- The end of a stream, where the range has to be used up. -/
def readEnd : Reader Unit := do
  Reader.widen
  if (← get).offset ≠ 0 then throw .damaged

def readNewCopy (p : Properties) (h : History) : Reader (Option History) := do
  let length ← readLength false (h.place p)
  let distance ← readDistance length
  if distance = lastDistance then
    readEnd
    return none
  else if h.reaches p distance then
    return some ({ h with distances := distance :: h.distances.take 3 }.copy length (7, 10))
  else throw .damaged

/-- Which of the distances before the last one a copy repeats, counted from one. -/
def readRank (h : History) : Reader Nat := do
  if !(← Reader.bit ⟨.isEarlier 1 h.state, 1⟩) then return 1
  else if !(← Reader.bit ⟨.isEarlier 2 h.state, 1⟩) then return 2
  else return 3

def readRepeatedCopy (p : Properties) (h : History) : Reader History := do
  if h.text.isEmpty then throw .damaged
  if !(← Reader.bit ⟨.isEarlier 0 h.state, 1⟩) then
    if ← Reader.bit ⟨.isLong h.state (h.place p), 1⟩ then
      return h.copy (← readLength true (h.place p)) (8, 11)
    else return h.copy 1 (9, 11)
  else
    let rank ← readRank h
    let distances := h.distances.getD rank 0 :: h.distances.eraseIdx rank
    return { h with distances }.copy (← readLength true (h.place p)) (8, 11)

def readSymbol (p : Properties) (h : History) : Reader (Option History) := do
  if !(← Reader.bit ⟨.isCopy h.state (h.place p), 1⟩) then return h.write (← readOctet p h)
  else if ← Reader.bit ⟨.isRepeated h.state, 1⟩ then readRepeatedCopy p h
  else readNewCopy p h

/-! ## Streams -/

/-- Symbols up to the end.  Each takes a bit at least, which narrows the range or takes an octet. -/
def readSymbols (p : Properties) : (fuel : Nat) → History → Range → Except Problem (Bytes × Bool)
  | 0, h, _ => .ok (h.text.toList, false)
  | fuel + 1, h, r =>
    match (readSymbol p h).run r with
    | .error .short => .ok (h.text.toList, false)
    | .error .damaged => .error .data
    | .ok (none, _) => .ok (h.text.toList, true)
    | .ok (some h, r) => readSymbols p fuel h r

/-- What a stream holds, and whether it is complete. -/
def decompressWith (p : Properties) : Bytes → Except Problem (Bytes × Bool)
  | 0 :: a :: b :: c :: d :: rest =>
    let offset : UInt32 := [a, b, c, d].foldl (fun n b => n <<< 8 ||| b.toUInt32) 0
    readSymbols p (0x100000000 * (rest.length + 1)) .start ⟨0xFFFFFFFF, offset, rest, ∅⟩
  | 0 :: _ | [] => .ok ([], false)
  | _ => .error .data

/-- What a stream holds that has its properties in front of it, after a version and how many octets
they are. -/
def decompress (octets : Bytes) : Except Problem (Bytes × Bool) :=
  match octets with
  | _ :: _ :: low :: high :: rest =>
    let size := low.toNat + 256 * high.toNat
    if rest.length ≤ size then .ok ([], false)
    else
      match Properties.ofOctets? (rest.take size) with
      | none => .error .options
      | some p => decompressWith p (rest.drop size)
  | _ => .ok ([], false)

end Lzma
end ResourceFinder
