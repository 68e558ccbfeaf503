import ResourceFinder.Archive.Entry
import ResourceFinder.Compression.Deflate
import ResourceFinder.Compression.Lzma
import ResourceFinder.Text.DecodeError

/-
What can be wrong with an archive.
-/

namespace ResourceFinder
namespace Archive

/-- The numbers that may stand in an additional field instead of in the record itself. -/
inductive WideNumber where
  | size
  | storedSize
  | headerPlace
  deriving DecidableEq

inductive Malformation where
  | noEndRecord
  | severalDisks
  | directoryPlace
  | shortDirectory
  | directorySignature
  | extraField (tag size : Nat)
  | missingWideNumber (number : WideNumber)
  | shortHeader
  | headerSignature
  | otherName (inDirectory : Text) (inHeader : Bytes)
  | overlap (writtenName : Text)
  | checksum (name : Text)
  deriving DecidableEq

namespace Malformation

def message : Malformation → Text
  | noEndRecord => "File is not a zip file"
  | severalDisks => "zipfiles that span multiple disks are not supported"
  | directoryPlace => "Bad offset for central directory"
  | shortDirectory => "Truncated central directory"
  | directorySignature => "Bad magic number for central directory"
  | extraField tag size =>
    ("Corrupt extra field " : Text) ++ Text.hexDigits 4 tag ++ " (size=" ++ Text.ofNat size ++ ")"
  | missingWideNumber number =>
    let name : Text := match number with
      | .size => "File size"
      | .storedSize => "Compress size"
      | .headerPlace => "Header offset"
    ("Corrupt zip64 extra field. " : Text) ++ name ++ " not found."
  | shortHeader => "Truncated file header"
  | headerSignature => "Bad magic number for file header"
  | otherName inDirectory inHeader =>
    ("File name in directory " : Text) ++ Text.quoted inDirectory ++ " and header " ++
      Text.quotedBytes inHeader ++ " differ."
  | overlap name =>
    ("Overlapped entries: " : Text) ++ Text.quoted name ++ " (possible zip bomb)"
  | checksum name => ("Bad CRC-32 for file " : Text) ++ Text.quoted name

end Malformation

inductive Unsupported where
  | version (tenths : Nat)
  | patch
  | strongEncryption
  | method
  deriving DecidableEq

namespace Unsupported

def message : Unsupported → Text
  | version tenths =>
    ("zip file version " : Text) ++ Text.ofNat (tenths / 10) ++ "." ++ Text.ofNat (tenths % 10)
  | patch => "compressed patched data (flag bit 5)"
  | strongEncryption => "strong encryption (flag bit 6)"
  | method => "That compression method is not supported"

end Unsupported

inductive Fault where
  | malformed (m : Malformation)
  | unsupported (u : Unsupported)
  | encrypted (e : Entry)
  | name (e : DecodeError)
  | deflate (p : Deflate.Problem)
  | bzip2
  | lzma (p : Lzma.Problem)
  | placeBeforeStart
  | placeTooFar
  | endOfFile
  deriving DecidableEq

namespace Fault

def message : Fault → Text
  | malformed m => m.message
  | unsupported u => u.message
  | encrypted e =>
    ("File " : Text) ++ e.description ++ " is encrypted, password required for extraction"
  | name e => e.message
  | deflate p => ("Error -3 while decompressing data: " : Text) ++ p.message
  | bzip2 => "Invalid data stream"
  | lzma p => p.message
  | placeBeforeStart => "[Errno 22] Invalid argument"
  | placeTooFar => "cannot fit 'int' into an offset-sized integer"
  | endOfFile => []

end Fault
end Archive
end ResourceFinder
