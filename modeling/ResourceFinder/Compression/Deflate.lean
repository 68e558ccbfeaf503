import ResourceFinder.Compression.PrefixCode

/-
Decompression of deflated streams.

A stream is a sequence of blocks: octets as they are, or symbols in a prefix code, which stand for
octets and for copies of what came before.  A stream that ends too early gives what could be read of
it.
-/

namespace ResourceFinder
namespace Deflate

open Compression

inductive Problem where
  | blockType
  | storedLengths
  | tooManySymbols
  | codeLengthSet
  | lengthRepeat
  | noEndOfBlock
  | literalSet
  | distanceSet
  | literalWord
  | distanceWord
  | distanceTooFar
  deriving DecidableEq

namespace Problem

def message : Problem → Text
  | blockType => "invalid block type"
  | storedLengths => "invalid stored block lengths"
  | tooManySymbols => "too many length or distance symbols"
  | codeLengthSet => "invalid code lengths set"
  | lengthRepeat => "invalid bit length repeat"
  | noEndOfBlock => "invalid code -- missing end-of-block"
  | literalSet => "invalid literal/lengths set"
  | distanceSet => "invalid distances set"
  | literalWord => "invalid literal/length code"
  | distanceWord => "invalid distance code"
  | distanceTooFar => "invalid distance too far back"

end Problem

/-- A part of a stream as read: a value and what follows it, an early end, or a problem. -/
inductive Reading (α : Type) where
  | value (a : α) (rest : Bits)
  | short
  | bad (p : Problem)

/-- A block as read: all output so far, last octet first, and what follows; all that an early end
leaves; or a problem. -/
inductive Block where
  | finished (out : Bytes) (rest : Bits)
  | short (out : Bytes)
  | bad (p : Problem)

/-- The least length that a symbol from 257 on stands for, and how many bits add to it. -/
def lengthTable : List (Nat × Nat) := [
  (3, 0), (4, 0), (5, 0), (6, 0), (7, 0), (8, 0), (9, 0), (10, 0), (11, 1), (13, 1), (15, 1),
  (17, 1),
  (19, 2), (23, 2), (27, 2), (31, 2), (35, 3), (43, 3), (51, 3), (59, 3), (67, 4), (83, 4), (99, 4),
  (115, 4), (131, 5), (163, 5), (195, 5), (227, 5), (258, 0)]

/-- The least distance that a symbol stands for, and how many bits add to it. -/
def distanceTable : List (Nat × Nat) := [
  (1, 0), (2, 0), (3, 0), (4, 0), (5, 1), (7, 1), (9, 2), (13, 2), (17, 3), (25, 3), (33, 4),
  (49, 4), (65, 5), (97, 5), (129, 6), (193, 6), (257, 7), (385, 7), (513, 8), (769, 8), (1025, 9),
  (1537, 9),
  (2049, 10), (3073, 10), (4097, 11), (6145, 11), (8193, 12), (12289, 12), (16385, 13), (24577, 13)]

def lengthOrder : List Nat := [16, 17, 18, 0, 8, 7, 9, 6, 10, 5, 11, 4, 12, 3, 13, 2, 14, 1, 15]

def fixedLiteralLengths : List Nat :=
  List.replicate 144 8 ++ List.replicate 112 9 ++ List.replicate 24 7 ++ List.replicate 8 8

def fixedDistanceLengths : List Nat := List.replicate 32 5

def takeFrom (table : List (Nat × Nat)) (symbol : Nat) (problem : Problem) (bits : Bits) :
    Reading Nat :=
  match table[symbol]? with
  | none => .bad problem
  | some (least, width) =>
    match takeNumber? width bits with
    | none => .short
    | some (n, rest) => .value (least + n) rest

def takeCopy (distances : PrefixCode) (symbol : Nat) (bits : Bits) : Reading (Nat × Nat) :=
  match takeFrom lengthTable (symbol - 257) .literalWord bits with
  | .bad p => .bad p
  | .short => .short
  | .value length bits =>
    match distances.decode bits with
    | .short => .short
    | .invalid _ => .bad .distanceWord
    | .symbol s bits =>
      match takeFrom distanceTable s .distanceWord bits with
      | .bad p => .bad p
      | .short => .short
      | .value distance rest => .value (length, distance) rest

/-- Adds octets from some distance back, one by one, so that a copy may overlap what it makes. -/
def copyBack (distance : Nat) : Nat → Bytes → Bytes
  | 0, out => out
  | n + 1, out => copyBack distance n (out.getD (distance - 1) 0 :: out)

/-- Symbols up to the one that ends the block.  Each takes a bit at least. -/
def symbols (literals distances : PrefixCode) : (fuel : Nat) → Bytes → Bits → Block
  | 0, out, _ => .short out
  | fuel + 1, out, bits =>
    match literals.decode bits with
    | .short => .short out
    | .invalid _ => .bad .literalWord
    | .symbol s rest =>
      if s < 256 then symbols literals distances fuel (UInt8.ofNat s :: out) rest
      else if s = 256 then .finished out rest
      else
        match takeCopy distances s rest with
        | .bad p => .bad p
        | .short => .short out
        | .value (length, distance) rest =>
          if out.length < distance then .bad .distanceTooFar
          else symbols literals distances fuel (copyBack distance length out) rest

def stored (out : Bytes) (bits : Bits) : Block :=
  match takeNumber? 16 (alignOctet bits) with
  | none => .short out
  | some (length, rest) =>
    match takeNumber? 16 rest with
    | none => .short out
    | some (complement, rest) =>
      if length + complement ≠ 0xFFFF then .bad .storedLengths
      else
        let rec copy : Nat → Bytes → Bits → Block
          | 0, out, bits => .finished out bits
          | n + 1, out, bits =>
            match takeNumber? 8 bits with
            | none => .short out
            | some (b, rest) => copy n (UInt8.ofNat b :: out) rest
        copy length out rest

/-- The lengths of the words for lengths, in the order of the lengths. -/
def takeLengthLengths (count : Nat) (bits : Bits) : Option (List Nat × Bits) :=
  let rec go : List Nat → Bits → Option (List (Nat × Nat) × Bits)
    | [], bits => some ([], bits)
    | s :: rest, bits => do
      let (n, bits) ← takeNumber? 3 bits
      let (more, bits) ← go rest bits
      return ((s, n) :: more, bits)
  (go (lengthOrder.take count) bits).map fun (pairs, rest) =>
    ((List.range 19).map fun s => (pairs.lookup s).getD 0, rest)

/-- The lengths of words, the last one first, up to the wanted number of them.  A word of no code
stands for no length, which a code without words has. -/
def takeLengths (code : PrefixCode) (wanted : Nat) :
    (fuel : Nat) → List Nat → Bits → Reading (List Nat)
  | 0, _, _ => .short
  | fuel + 1, lengths, bits =>
    let again (value width least : Nat) (rest : Bits) : Reading (List Nat) :=
      match takeNumber? width rest with
      | none => .short
      | some (n, rest) =>
        if lengths.length + least + n > wanted then .bad .lengthRepeat
        else takeLengths code wanted fuel (List.replicate (least + n) value ++ lengths) rest
    if lengths.length ≥ wanted then .value lengths bits
    else
      match code.decode bits with
      | .short => .short
      | .invalid rest => takeLengths code wanted fuel (0 :: lengths) rest
      | .symbol 16 rest =>
        match lengths, takeNumber? 2 rest with
        | _, none => .short
        | [], some _ => .bad .lengthRepeat
        | last :: _, some _ => again last 2 3 rest
      | .symbol 17 rest => again 0 3 3 rest
      | .symbol 18 rest => again 0 7 11 rest
      | .symbol s rest => takeLengths code wanted fuel (s :: lengths) rest

/-- Whether a code may be used: it has no words, or all of them, or a single one of one bit. -/
def isUsable (lengths : List Nat) : Bool :=
  match PrefixCode.filling lengths with
  | .none | .exact | .part 1 => true
  | _ => false

def takeCodes (bits : Bits) : Reading (PrefixCode × PrefixCode) :=
  match takeNumber? 14 bits with
  | none => .short
  | some (n, rest) =>
    let literals := n % 32 + 257
    let distances := n / 32 % 32 + 1
    if literals > 286 || distances > 30 then .bad .tooManySymbols
    else
      match takeLengthLengths (n / 1024 + 4) rest with
      | none => .short
      | some (lengthLengths, rest) =>
        match PrefixCode.filling lengthLengths with
        | .crowded | .part _ => .bad .codeLengthSet
        | _ =>
          let wanted := literals + distances
          match takeLengths (.ofLengths lengthLengths) wanted (wanted + 1) [] rest with
          | .bad p => .bad p
          | .short => .short
          | .value reversed rest =>
            let lengths := reversed.reverse
            let literalLengths := lengths.take literals
            let distanceLengths := lengths.drop literals
            if literalLengths.getD 256 0 = 0 then .bad .noEndOfBlock
            else if !isUsable literalLengths then .bad .literalSet
            else if !isUsable distanceLengths then .bad .distanceSet
            else .value (.ofLengths literalLengths, .ofLengths distanceLengths) rest

def block (out : Bytes) (bits : Bits) : Block :=
  match takeNumber? 2 bits with
  | none => .short out
  | some (0, rest) => stored out rest
  | some (1, rest) =>
    symbols (.ofLengths fixedLiteralLengths) (.ofLengths fixedDistanceLengths) rest.length out rest
  | some (2, rest) =>
    match takeCodes rest with
    | .bad p => .bad p
    | .short => .short out
    | .value (literals, distances) rest => symbols literals distances rest.length out rest
  | some _ => .bad .blockType

/-- Blocks up to the one marked as the last.  Each takes a bit at least. -/
def blocks : (fuel : Nat) → Bytes → Bits → Except Problem (Bytes × Bool)
  | 0, out, _ => .ok (out, false)
  | fuel + 1, out, bits =>
    match bits with
    | a :: b :: c :: rest =>
      match block out (b :: c :: rest) with
      | .bad p => .error p
      | .short out => .ok (out, false)
      | .finished out rest => if a then .ok (out, true) else blocks fuel out rest
    | _ => .ok (out, false)

def inflate (octets : Bytes) : Except Problem (Bytes × Bool) :=
  let bits := bitsOf octets
  (blocks bits.length [] bits).map fun (out, complete) => (out.reverse, complete)

end Deflate
end ResourceFinder
