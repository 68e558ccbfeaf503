import ResourceFinder.Text.Basic

/-
What compressed streams are made of: bits, and canonical prefix codes.

The lengths of the code words determine the code: shorter words come first, words of one length are
successive numbers in the order of their symbols, and the first word of a length follows the last
one of the length before.
-/

namespace ResourceFinder
namespace Compression

inductive Stop where
  | short
  | damaged

abbrev Bits := List Bool

def bitsOfOctet (b : UInt8) : Bits := (List.range 8).map (b.toNat.testBit ·)

def bitsOf (octets : Bytes) : Bits := octets.flatMap bitsOfOctet

def valueOf : Bits → Nat
  | [] => 0
  | b :: rest => b.toNat + 2 * valueOf rest

/-- The number in the next bits, if there are enough of them, and what follows. -/
def takeNumber? (width : Nat) (bits : Bits) : Option (Nat × Bits) :=
  if bits.length < width then none else some (valueOf (bits.take width), bits.drop width)

/-- The bits from the next whole octet on. -/
def alignOctet (bits : Bits) : Bits := bits.drop (bits.length % 8)

def maxWordLength : Nat := 15

/-- For each length from one on, the symbols with words of that length, in order. -/
structure PrefixCode where
  symbols : List (List Nat)

namespace PrefixCode

def symbolsOfLength (lengths : List Nat) (n : Nat) : List Nat :=
  (List.range lengths.length).filter fun s => lengths.getD s 0 = n

def ofLengths (lengths : List Nat) : PrefixCode :=
  let longest := lengths.foldl max 0
  ⟨(List.range (max 1 longest)).map fun n => symbolsOfLength lengths (n + 1)⟩

/-- How the lengths of the words fill the space of words: not at all, beyond it, exactly, or in
part, with the length of the longest word. -/
inductive Filling where
  | none
  | crowded
  | exact
  | part (longest : Nat)
  deriving DecidableEq

/-- How many words of each length are left after the given numbers of words, or none if they are too
many. -/
def wordsLeft? (left : Nat) : List Nat → Option Nat
  | [] => some left
  | count :: rest => if 2 * left < count then none else wordsLeft? (2 * left - count) rest

def filling (lengths : List Nat) : Filling :=
  let longest := lengths.foldl max 0
  if longest = 0 then .none
  else
    match wordsLeft? 1 ((List.range maxWordLength).map fun n => lengths.count (n + 1)) with
    | none => .crowded
    | some 0 => .exact
    | some _ => .part longest

/-- The result of reading one word: its symbol and what follows, a word that is none of the code's
with what follows it, or too few bits. -/
inductive Word where
  | symbol (s : Nat) (rest : Bits)
  | invalid (rest : Bits)
  | short

/-- Reads a word bit by bit; `code` is the number so far and `first` the first word of its
length. -/
def decodeFrom (code first : Nat) : List (List Nat) → Bits → Word
  | [], rest => .invalid rest
  | _ :: _, [] => .short
  | symbols :: longer, b :: rest =>
    let code := 2 * code + b.toNat
    let first := 2 * first
    match symbols[code - first]? with
    | some s => .symbol s rest
    | none => decodeFrom code (first + symbols.length) longer rest

def decode (c : PrefixCode) (bits : Bits) : Word := decodeFrom 0 0 c.symbols bits

end PrefixCode

end Compression
end ResourceFinder
