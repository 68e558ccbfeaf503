import ResourceFinder.Archive.Content

/-
Archives written out from what is in them, nothing compressed.
-/

namespace ResourceFinder
namespace Archive

/-- A number in some octets, the low one first. -/
def octetsOf : (width n : Nat) → Bytes
  | 0, _ => []
  | width + 1, n => .ofNat n :: octetsOf width (n / 256)

/-- What is packed under a name. -/
structure Packed where
  name : Bytes
  flags : Nat := 0
  content : Bytes

namespace Packed

/-- The fields that the header of an entry and its record in the directory share. -/
def fields (x : Packed) : Bytes :=
  octetsOf 2 20 ++ octetsOf 2 x.flags ++ octetsOf 2 0 ++ octetsOf 4 0 ++
    octetsOf 4 (Checksum.ofBytes x.content) ++ octetsOf 4 x.content.length ++
    octetsOf 4 x.content.length ++ octetsOf 2 x.name.length ++ octetsOf 2 0

def header (x : Packed) : Bytes := headerSignature ++ x.fields ++ x.name ++ x.content

def record (place : Nat) (x : Packed) : Bytes :=
  directorySignature ++ octetsOf 2 20 ++ x.fields ++ octetsOf 10 0 ++ octetsOf 4 place ++ x.name

end Packed

/-- The headers from a place on, and the records that point to them. -/
def packFrom (place : Nat) : List Packed → Bytes × Bytes
  | [] => ([], [])
  | x :: rest =>
    let (headers, records) := packFrom (place + x.header.length) rest
    (x.header ++ headers, x.record place ++ records)

/-- The archive of some content, in its order. -/
def pack (xs : List Packed) : Bytes :=
  let (headers, records) := packFrom 0 xs
  headers ++ records ++ endSignature ++ octetsOf 8 0 ++ octetsOf 4 records.length ++
    octetsOf 4 headers.length ++ octetsOf 2 0

end Archive
end ResourceFinder
