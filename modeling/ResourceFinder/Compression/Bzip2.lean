import ResourceFinder.Compression.PrefixCode

/-
Decompression of streams that sort the rotations of their text.

A block has been through a code for runs, a sorting of its rotations of which the last column is
kept, a list of the octets in the order of their last use, a code for runs of the first of them, and
prefix codes that change every fifty symbols.  Numbers have the high bit first.
-/

namespace ResourceFinder
namespace Bzip2

open Compression

abbrev Reader := StateT Bits (Except Stop)

namespace Reader

def bit : Reader Bool := do
  match ← get with
  | [] => throw .short
  | b :: rest =>
    set rest
    return b

def number (width : Nat) : Reader Nat :=
  (List.range width).foldlM (fun n _ => do return 2 * n + (← bit).toNat) 0

def marks (count : Nat) : Reader (List Nat) := (List.range count).filterM fun _ => bit

def expect (octets : Bytes) : Reader Unit :=
  octets.forM fun b => do
    if (← number 8) ≠ b.toNat then throw .damaged

def unary : (limit : Nat) → Reader Nat
  | 0 => throw .damaged
  | limit + 1 => do
    if ← bit then return (← unary limit) + 1 else return 0

def symbol (code : PrefixCode) : Reader Nat := do
  match code.decode (← get) with
  | .short => throw .short
  | .invalid _ => throw .damaged
  | .symbol s rest =>
    set rest
    return s

end Reader

/-! ## The parts of a block -/

/-- The octets that a block has: which rows of sixteen, and which in each of these. -/
def usedOctets : Reader Bytes := do
  let rows ← Reader.marks 16
  let used ← rows.mapM fun row => do return (← Reader.marks 16).map fun n => UInt8.ofNat (16 * row + n)
  if used.flatten.isEmpty then throw .damaged
  return used.flatten

/-- What places in a list stand for if each thing that is used moves to the front. -/
def byRecency {α : Type} : List α → List Nat → List α
  | _, [] => []
  | recent, n :: rest =>
    match recent[n]? with
    | none => byRecency recent rest
    | some a => a :: byRecency (a :: recent.eraseIdx n) rest

def groupLimit : Nat := 18002

def selectors (codes : Nat) : Reader (List Nat) := do
  let count ← Reader.number 15
  if count = 0 then throw .damaged
  let places ← (List.range count).mapM fun _ => Reader.unary codes
  return byRecency (List.range codes) (places.take groupLimit)

def maxWordLength : Nat := 20

def wordLength : (fuel : Nat) → (length : Nat) → Reader Nat
  | 0, _ => throw .short
  | fuel + 1, length => do
    if length < 1 || length > maxWordLength then throw .damaged
    if ← Reader.bit then wordLength fuel (if ← Reader.bit then length - 1 else length + 1)
    else return length

def wordLengths : (count length : Nat) → Reader (List Nat)
  | 0, _ => return []
  | count + 1, length => do
    let length ← wordLength ((← get).length + 1) length
    return length :: (← wordLengths count length)

/-- A code whose words need not fill the space of words.  What begins none of them is told from what
ends early only after the longest possible word and one more bit. -/
def prefixCode (lengths : List Nat) : PrefixCode :=
  ⟨(List.range (maxWordLength + 1)).map fun n => PrefixCode.symbolsOfLength lengths (n + 1)⟩

/-- What is left of the symbols: those of the group at hand, and the codes of all groups from it
on. -/
structure Groups where
  left : Nat
  codes : List PrefixCode

def groupSize : Nat := 50

def Groups.next (g : Groups) : Reader (Nat × Groups) :=
  match g.codes, g.left with
  | [], _ => throw .damaged
  | code :: later, 1 => do return (← Reader.symbol code, ⟨groupSize, later⟩)
  | code :: later, left => do return (← Reader.symbol code, ⟨left - 1, code :: later⟩)

/-- The last column of a block as far as it is read: its octets, all octets by their last use, and a
run of the first of these that may go on, with what the next digit of its length is worth. -/
structure Column where
  octets : Array UInt8
  recent : Bytes
  run : Nat
  worth : Nat

/-- No run of a block is so long that a digit of its length is worth this. -/
def worthLimit : Nat := 2097152

namespace Column

def digit (c : Column) (n : Nat) : Reader Column := do
  if worthLimit ≤ c.worth then throw .damaged
  return { c with run := c.run + n * c.worth, worth := 2 * c.worth }

def endRun (limit : Nat) (c : Column) : Reader Column := do
  let octets := c.octets.size + c.run
  if limit < octets then throw .damaged
  return { c with
    octets := c.octets ++ Array.replicate c.run (c.recent.headD 0), run := 0, worth := 1 }

def use (limit : Nat) (c : Column) (n : Nat) : Reader Column := do
  match c.recent[n]? with
  | none => throw .damaged
  | some b =>
    if limit ≤ c.octets.size then throw .damaged
    return { c with octets := c.octets.push b, recent := b :: c.recent.eraseIdx n }

/-- The rest of a column.  The symbols 0 and 1 are digits of the length of a run, the low one first,
and worth one more than they are; `last` is the symbol at the end. -/
def readRest (limit last : Nat) : (fuel : Nat) → Groups → Column → Reader Column
  | 0, _, _ => throw .short
  | fuel + 1, groups, c => do
    let (s, groups) ← groups.next
    if s < 2 then readRest limit last fuel groups (← c.digit (s + 1))
    else
      let c ← c.endRun limit
      if s = last then return c
      else readRest limit last fuel groups (← c.use limit (s - 1))

end Column

/-- The text whose sorted rotations have this last column, from a place in it on, and one octet more:
what comes next after a place is where the octet of that rank stands. -/
def unsort (column : Array UInt8) (start : Nat) : Bytes :=
  let places := (List.range column.size).mergeSort fun i j => column.getD i 0 ≤ column.getD j 0
  let order := places.toArray
  let step : Nat × Array UInt8 → Nat → Nat × Array UInt8 := fun (place, text) _ =>
    (order.getD place 0, text.push (column.getD place 0))
  ((List.range (column.size + 1)).foldl step (order.getD start 0, #[])).2.toList

/-- The distances of the octets that differ by one in a block that has been scrambled. -/
def scrambleTable : List Nat := [
  619, 720, 127, 481, 931, 816, 813, 233, 566, 247, 985, 724, 205, 454, 863, 491, 741, 242, 949,
  214, 733, 859, 335, 708, 621, 574, 73, 654, 730, 472, 419, 436, 278, 496, 867, 210, 399, 680,
  480, 51, 878, 465, 811, 169, 869, 675, 611, 697, 867, 561, 862, 687, 507, 283, 482, 129, 807,
  591, 733, 623, 150, 238, 59, 379, 684, 877, 625, 169, 643, 105, 170, 607, 520, 932, 727, 476,
  693, 425, 174, 647, 73, 122, 335, 530, 442, 853, 695, 249, 445, 515, 909, 545, 703, 919, 874,
  474, 882, 500, 594, 612, 641, 801, 220, 162, 819, 984, 589, 513, 495, 799, 161, 604, 958, 533,
  221, 400, 386, 867, 600, 782, 382, 596, 414, 171, 516, 375, 682, 485, 911, 276, 98, 553, 163,
  354, 666, 933, 424, 341, 533, 870, 227, 730, 475, 186, 263, 647, 537, 686, 600, 224, 469, 68,
  770, 919, 190, 373, 294, 822, 808, 206, 184, 943, 795, 384, 383, 461, 404, 758, 839, 887, 715,
  67, 618, 276, 204, 918, 873, 777, 604, 560, 951, 160, 578, 722, 79, 804, 96, 409, 713, 940, 652,
  934, 970, 447, 318, 353, 859, 672, 112, 785, 645, 863, 803, 350, 139, 93, 354, 99, 820, 908, 609,
  772, 154, 274, 580, 184, 79, 626, 630, 742, 653, 282, 762, 623, 680, 81, 927, 626, 789, 125, 411,
  521, 938, 300, 821, 78, 343, 175, 128, 250, 170, 774, 972, 275, 999, 639, 495, 78, 352, 126, 857,
  956, 358, 619, 580, 124, 737, 594, 701, 612, 669, 112, 134, 694, 363, 992, 809, 743, 168, 974,
  944, 375, 748, 52, 600, 747, 642, 182, 862, 81, 344, 805, 988, 739, 511, 655, 814, 334, 249, 515,
  897, 955, 664, 981, 649, 113, 974, 459, 893, 228, 433, 837, 553, 268, 926, 240, 102, 654, 459,
  51, 686, 754, 806, 760, 493, 403, 415, 394, 687, 700, 946, 670, 656, 610, 738, 392, 760, 799,
  887, 653, 978, 321, 576, 617, 626, 502, 894, 679, 243, 440, 680, 879, 194, 572, 640, 724, 926,
  56, 204, 700, 707, 151, 457, 449, 797, 195, 791, 558, 945, 679, 297, 59, 87, 824, 713, 663, 412,
  693, 342, 606, 134, 108, 571, 364, 631, 212, 174, 643, 304, 329, 343, 97, 430, 751, 497, 314,
  983, 374, 822, 928, 140, 206, 73, 263, 980, 736, 876, 478, 430, 305, 170, 514, 364, 692, 829, 82,
  855, 953, 676, 246, 369, 970, 294, 750, 807, 827, 150, 790, 288, 923, 804, 378, 215, 828, 592,
  281, 565, 555, 710, 82, 896, 831, 547, 261, 524, 462, 293, 465, 502, 56, 661, 821, 976, 991, 658,
  869, 905, 758, 745, 193, 768, 550, 608, 933, 378, 286, 215, 979, 792, 961, 61, 688, 793, 644,
  986, 403, 106, 366, 905, 644, 372, 567, 466, 434, 645, 210, 389, 550, 919, 135, 780, 773, 635,
  389, 707, 100, 626, 958, 165, 504, 920, 176, 193, 713, 857, 265, 203, 50, 668, 108, 645, 990,
  626, 197, 510, 357, 358, 850, 858, 364, 936, 638]

def unscramble (octets : Bytes) : Bytes :=
  let period := scrambleTable.flatMap fun n => List.replicate (n - 2) 0 ++ [1, 0]
  let periods := octets.length / period.length + 1
  octets.zipWith (· ^^^ ·) (List.replicate periods period).flatten

/-- Adds octets but the last one to a text, last octet first, and tells whether that is all.  Four
equal ones are followed by the number of more of them, for which the last one is taken if there is no
other; `count` is how many there have been. -/
def writeRuns : (count : Nat) → Bytes → Bytes → Bytes × Bool
  | 4, out, [b] => (List.replicate b.toNat (out.headD 0) ++ out, false)
  | _, out, [] | _, out, [_] => (out, true)
  | 4, out, b :: rest => writeRuns 0 (List.replicate b.toNat (out.headD 0) ++ out) rest
  | count, out, b :: rest =>
    writeRuns (if count ≠ 0 && out.head? = some b then count + 1 else 1) (b :: out) rest

/-! ## Checksums -/

def polynomial : UInt32 := 0x04C11DB7

def shift (c : UInt32) : UInt32 :=
  if c >>> 31 = 1 then (c <<< 1) ^^^ polynomial else c <<< 1

def checksumStep (c : UInt32) (b : UInt8) : UInt32 :=
  Nat.repeat shift 8 (c ^^^ (b.toUInt32 <<< 24))

def checksum (octets : Bytes) : UInt32 := octets.foldl checksumStep 0xFFFFFFFF ^^^ 0xFFFFFFFF

def combine (c block : UInt32) : UInt32 := (c <<< 1 ||| c >>> 31) ^^^ block

/-! ## Streams -/

/-- What comes next in a stream: a block with its checksum, whose runs are not written out and which
one more octet follows, or the end with the checksum of all. -/
inductive Part where
  | block (checksum : Nat) (octets : Bytes)
  | last (checksum : Nat)

def block (limit : Nat) : Reader Part := do
  let checksum ← Reader.number 32
  let scrambled ← Reader.bit
  let start ← Reader.number 24
  if start > limit + 10 then throw .damaged
  let used ← usedOctets
  let codes ← Reader.number 3
  if codes < 2 || codes > 6 then throw .damaged
  let selectors ← selectors codes
  let codes ← (List.range codes).mapM fun _ => do
    return prefixCode (← wordLengths (used.length + 2) (← Reader.number 5))
  let groups : Groups := ⟨groupSize, selectors.map fun n => codes.getD n ⟨[]⟩⟩
  let fuel := (← get).length + 1
  let column ← Column.readRest limit (used.length + 1) fuel groups ⟨#[], used, 0, 1⟩
  if start ≥ column.octets.size then throw .damaged
  let octets := unsort column.octets start
  return .block checksum (if scrambled then unscramble octets else octets)

def part (limit : Nat) : Reader Part := do
  match ← Reader.number 8 with
  | 0x31 =>
    Reader.expect [0x41, 0x59, 0x26, 0x53, 0x59]
    block limit
  | 0x17 =>
    Reader.expect [0x72, 0x45, 0x38, 0x50, 0x90]
    return .last (← Reader.number 32)
  | _ => throw .damaged

/-- By how many octets the room for text grows each time that it is full, from the second time on. -/
def roomSteps : List Nat :=
  [64, 256, 1024, 4096, 8192, 16384, 16384, 32768, 32768, 32768, 32768, 65536, 65536, 131072,
    131072].map (1024 * ·)

def roomFrom (room : Nat) : List Nat → (written : Nat) → Nat
  | [], written => room + (written - room + 0xFFFFFFF) / 0x10000000 * 0x10000000
  | step :: later, written =>
    if written ≤ room then room else roomFrom (room + step) later written

def room (written : Nat) : Nat := roomFrom 32768 roomSteps written

/-- Parts up to the last one.  Each takes an octet at least.  With no octet left no more room is made,
and what has no room is neither written nor checked. -/
def parts (limit : Nat) : (fuel : Nat) → UInt32 → Bytes → Bits → Option (Bytes × Bool)
  | 0, _, out, _ => some (out, false)
  | fuel + 1, combined, out, bits =>
    match (part limit).run bits with
    | .error .short => some (out, false)
    | .error .damaged => none
    | .ok (.last declared, _) => if combined.toNat = declared then some (out, true) else none
    | .ok (.block declared octets, rest) =>
      let (reversed, whole) := writeRuns 0 [] octets
      let text := reversed.reverse
      if rest.length < 8 && room out.length < out.length + text.length then
        some ((out ++ text).take (room out.length), false)
      else if whole && (checksum text).toNat = declared then
        parts limit fuel (combine combined (checksum text)) (out ++ text) rest
      else none

/-- The greatest size of a block, in units of a hundred thousand octets. -/
def header : Reader Nat := do
  Reader.expect [0x42, 0x5A, 0x68]
  let level ← Reader.number 8
  if level < 0x31 || level > 0x39 then throw .damaged
  return level - 0x30

/-- What a stream holds, and whether it is complete, unless it is damaged. -/
def decompress (octets : Bytes) : Option (Bytes × Bool) :=
  let bits := octets.flatMap fun b => (bitsOfOctet b).reverse
  match header.run bits with
  | .error .short => some ([], false)
  | .error .damaged => none
  | .ok (level, rest) => parts (100000 * level) rest.length 0 [] rest

end Bzip2
end ResourceFinder
