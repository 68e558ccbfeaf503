import ResourceFinder.Archive.Directory
import ResourceFinder.Compression.Bzip2

/-
The content of an entry.

The header in front of the content has to agree with the directory, and the content with its
checksum, a cyclic redundancy check of 32 bits.  No more is read than the size that the directory
declares.  An entry is unpacked in one piece, as one of less than 2^30 octets is.
-/

namespace ResourceFinder
namespace Archive

namespace Checksum

/-- The generator polynomial, the highest power in the lowest bit and the leading one left out. -/
def polynomial : UInt32 := 0xEDB88320

def shift (c : UInt32) : UInt32 :=
  if c &&& 1 = 1 then (c >>> 1) ^^^ polynomial else c >>> 1

def step (c : UInt32) (b : UInt8) : UInt32 := Nat.repeat shift 8 (c ^^^ b.toUInt32)

def ofBytes (octets : Bytes) : Nat := (octets.foldl step 0xFFFFFFFF ^^^ 0xFFFFFFFF).toNat

end Checksum

def headerSignature : Bytes := [0x50, 0x4B, 3, 4]

def headerLength : Nat := 30

/-- Files have no places from this one on. -/
def placeLimit : Nat := 0x8000000000000000

def octetsFrom (octets : Bytes) : Int → Except Fault Bytes
  | .ofNat n => if n < placeLimit then .ok (octets.drop n) else .error .placeTooFar
  | .negSucc _ => .error .placeBeforeStart

/-- What follows the header of an entry, if the header is one for this entry. -/
def afterHeader (octets : Bytes) (e : Entry) : Except Fault Bytes := do
  let header ← octetsFrom octets e.headerPlace
  if header.length < headerLength then .error (.malformed .shortHeader)
  else if !headerSignature.isPrefixOf header then .error (.malformed .headerSignature)
  else if e.isPatch then .error (.unsupported .patch)
  else if e.isStronglyEncrypted then .error (.unsupported .strongEncryption)
  else
    let nameLength := field header 26 2
    let extraLength := field header 28 2
    let rest := header.drop headerLength
    let name ← (decodeName (field header 6 2) (rest.take nameLength)).mapError .name
    let stop := e.headerPlace + headerLength + nameLength + extraLength + e.storedSize
    if name ≠ e.writtenName then
      .error (.malformed (.otherName e.writtenName (rest.take nameLength)))
    else if e.nextPlace.any (· < stop) then .error (.malformed (.overlap e.writtenName))
    else return rest.drop (nameLength + extraLength)

/-- What octets give by a method of compression, and whether they tell where they end, if the method
is known. -/
def unpacked? (octets : Bytes) : (method : Nat) → Option (Except Fault (Bytes × Bool))
  | 0 => some (.ok (octets, false))
  | 8 => some ((Deflate.inflate octets).mapError .deflate)
  | 12 =>
    match Bzip2.decompress octets with
    | none => some (.error .bzip2)
    | some unpacked => some (.ok unpacked)
  | 14 => some ((Lzma.decompress octets).mapError .lzma)
  | _ => none

def checked (e : Entry) (content : Bytes) : Except Fault Bytes :=
  let content := content.take e.size
  if Checksum.ofBytes content = e.checksum then .ok content
  else .error (.malformed (.checksum e.name))

/-- The content of an entry of the archive.  The archive ends too early where octets are missing and
those that are there do not make up the content. -/
def content (octets : Bytes) (e : Entry) : Except Fault Bytes := do
  let rest ← afterHeader octets e
  if e.isEncrypted then .error (.encrypted e)
  else
    match unpacked? (rest.take e.storedSize) e.method with
    | none => .error (.unsupported .method)
    | some outcome => do
      let (unpacked, ended) ← outcome
      let unmade := rest = [] || !ended && unpacked.length < e.size
      if rest.length < e.storedSize && unmade then .error .endOfFile else checked e unpacked

def find? (entries : List Entry) (name : Text) : Option Entry := entries.find? (·.name = name)

end Archive
end ResourceFinder
