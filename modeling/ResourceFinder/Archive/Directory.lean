import ResourceFinder.Archive.Fault
import ResourceFinder.Text.CodePage437
import ResourceFinder.Text.Utf8

/-
The directory of an archive, which stands at its end.

The end record tells how long the directory is and where it should be.  Where it really is follows
from the place of the end record; if that differs, something was put in front of the archive, and
every place in the directory moves by as much.
-/

namespace ResourceFinder
namespace Archive

def numberOf (octets : Bytes) : Nat := octets.foldr (fun b n => b.toNat + 256 * n) 0

def field (record : Bytes) (place width : Nat) : Nat := numberOf ((record.drop place).take width)

def endSignature : Bytes := [0x50, 0x4B, 5, 6]
def wideLocatorSignature : Bytes := [0x50, 0x4B, 6, 7]
def wideEndSignature : Bytes := [0x50, 0x4B, 6, 6]
def directorySignature : Bytes := [0x50, 0x4B, 1, 2]

def endLength : Nat := 22
def wideLocatorLength : Nat := 20
def wideEndLength : Nat := 56
def directoryLength : Nat := 46

/-- The longest comment after the end record, and one octet more. -/
def commentLimit : Nat := 65536

def lastPlace? (part : Bytes) : Bytes → Option Nat
  | [] => none
  | b :: rest =>
    match lastPlace? part rest with
    | some n => some (n + 1)
    | none => if part.isPrefixOf (b :: rest) then some 0 else none

/-- The place of the end record: at the very end, or before a comment. -/
def endPlace? (octets : Bytes) : Option Nat :=
  let n := octets.length
  if n < endLength then none
  else
    let last := octets.drop (n - endLength)
    if endSignature.isPrefixOf last && last.drop 20 == [0, 0] then some (n - endLength)
    else do
      let start := n - (commentLimit + endLength)
      let place := start + (← lastPlace? endSignature (octets.drop start))
      if place + endLength ≤ n then some place else none

/-- The length of the directory, where it should begin, and where it ends. -/
structure Extent where
  length : Nat
  start : Nat
  stop : Nat

def extent (octets : Bytes) : Except Malformation Extent :=
  match endPlace? octets with
  | none => .error .noEndRecord
  | some place =>
    let record := octets.drop place
    let plain : Extent := ⟨field record 12 4, field record 16 4, place⟩
    let locator := octets.drop (place - wideLocatorLength)
    if place < wideLocatorLength || !wideLocatorSignature.isPrefixOf locator then .ok plain
    else if field locator 4 4 ≠ 0 || field locator 16 4 > 1 then .error .severalDisks
    else
      let before := wideLocatorLength + wideEndLength
      if place < before then .error .noEndRecord
      else
        let wide := octets.drop (place - before)
        if !wideEndSignature.isPrefixOf wide then .ok plain
        else .ok ⟨field wide 40 8, field wide 48 8, place - before⟩

/-- What stands in a field of four octets for a number in an additional field. -/
def narrowMark : Nat := 0xFFFFFFFF

/-- What stands in a field of eight octets for a number elsewhere. -/
def wideMark : Nat := 0xFFFFFFFFFFFFFFFF

/-- A number as the record has it, or, where that is a mark, from the additional octets. -/
def widened (marks : List Nat) (number : WideNumber) (n : Nat) (octets : Bytes) :
    Except Malformation (Nat × Bytes) :=
  if !marks.contains n then .ok (n, octets)
  else if octets.length < 8 then .error (.missingWideNumber number)
  else .ok (numberOf (octets.take 8), octets.drop 8)

def withExtraFields (e : Entry) (extra : Bytes) : Except Malformation Entry :=
  if extra.length < 4 then .ok e
  else
    let tag := field extra 0 2
    let size := field extra 2 2
    if size + 4 > extra.length then .error (.extraField tag size)
    else if tag ≠ 1 then withExtraFields e (extra.drop (size + 4))
    else do
      let octets := (extra.drop 4).take size
      let (fileSize, octets) ← widened [narrowMark, wideMark] .size e.size octets
      let (storedSize, octets) ← widened [narrowMark] .storedSize e.storedSize octets
      let (place, _) ← widened [narrowMark] .headerPlace e.headerPlace.toNat octets
      withExtraFields { e with size := fileSize, storedSize, headerPlace := place }
        (extra.drop (size + 4))
termination_by extra.length
decreasing_by
  all_goals simp only [List.length_drop]; omega

def decodeName (flags : Nat) (octets : Bytes) : Except DecodeError Text :=
  if flags.testBit 11 then Utf8.decode octets else .ok (CodePage437.decode octets)

/-- The newest version of the format that this library reads. -/
def versionLimit : Nat := 63

def entryOf (record : Bytes) : Except Fault (Entry × Nat) := do
  if record.length < directoryLength then .error (.malformed .shortDirectory)
  else if !directorySignature.isPrefixOf record then .error (.malformed .directorySignature)
  else
    let flags := field record 8 2
    let nameLength := field record 28 2
    let extraLength := field record 30 2
    let rest := record.drop directoryLength
    let name ← (decodeName flags (rest.take nameLength)).mapError .name
    if field record 6 1 > versionLimit then
      .error (.unsupported (.version (field record 6 1)))
    else
      let e : Entry := {
        writtenName := name, flags, method := field record 10 2, checksum := field record 16 4,
        storedSize := field record 20 4, size := field record 24 4,
        attributes := field record 38 4, headerPlace := field record 42 4 }
      let e ← (withExtraFields e ((rest.drop nameLength).take extraLength)).mapError .malformed
      return (e, directoryLength + nameLength + extraLength + field record 32 2)

def entriesOf : (fuel : Nat) → Bytes → Except Fault (List Entry)
  | 0, _ => .ok []
  | fuel + 1, records =>
    if records.isEmpty then .ok []
    else do
      let (e, length) ← entryOf records
      return e :: (← entriesOf fuel (records.drop length))

/-- Whether entries may share octets of an archive.  Older releases of the zip reader, 3.11.2 among
them, allow it; newer ones refuse an entry that reaches into what follows it. -/
inductive Overlap where
  | allowed
  | refused
  deriving DecidableEq

/-- Where what follows an entry begins: at the least greater place of a header, or else at the
directory, which begins at `start`.  Of entries at one place the first is followed by the others. -/
def nextPlace (start : Int) (earlier all : List Entry) (e : Entry) : Int :=
  if earlier.any (·.headerPlace = e.headerPlace) then e.headerPlace
  else (((all.map (·.headerPlace)).filter (e.headerPlace < ·)).min?).getD start

/-- The entries with what follows them, where that is looked at. -/
def placed (overlap : Overlap) (start : Int) (all : List Entry) : List Entry :=
  match overlap with
  | .allowed => all
  | .refused => all.mapIdx fun n e => { e with nextPlace := nextPlace start (all.take n) all e }

def entries (octets : Bytes) (overlap : Overlap := .allowed) : Except Fault (List Entry) := do
  let extent ← (extent octets).mapError .malformed
  if extent.stop < extent.length then .error (.malformed .directoryPlace)
  else
    let start := extent.stop - extent.length
    let shift : Int := start - extent.start
    let records := (octets.drop start).take extent.length
    let es ← entriesOf records.length records
    return placed overlap start (es.map fun e => { e with headerPlace := e.headerPlace + shift })

end Archive
end ResourceFinder
