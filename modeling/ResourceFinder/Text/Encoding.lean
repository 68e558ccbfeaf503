import ResourceFinder.Text.CodePage437
import ResourceFinder.Text.Utf8
import ResourceFinder.Text.WideUnits

/-
The encodings a text can be read in, and their names.
-/

namespace ResourceFinder

/-- An encoding of texts.  The encodings in wide units without a fixed order of octets read it from
a mark at the head, which is dropped, and take the low octet first without one. -/
inductive Encoding where
  | ascii
  | latin1
  | codePage437
  | utf8
  | utf8Marked
  | utf16 (order : Option WideUnits.Endian)
  | utf32 (order : Option WideUnits.Endian)
  deriving DecidableEq

namespace Encoding

/-- Letter case counts for nothing in a name, and every run of other signs is one low line. -/
def canonicalName (name : Text) : Text :=
  let rec go (gap : Bool) : Text → Text
    | [] => []
    | .char c :: t =>
      if c.isAlphanum || c = '.' then
        (if gap then [.char '_'] else []) ++ .char c.toLower :: go false t
      else go true t
    | .surrogate _ :: t => go true t
  match go false name with
  | .char '_' :: t => t
  | t => t

/-- The names of each encoding, in canonical form. -/
def names : List (Encoding × List Text) := [
  (.ascii, ["ascii", "646", "ansi_x3.4_1968", "ansi_x3_4_1968", "ansi_x3.4_1986", "cp367",
    "csascii", "ibm367", "iso646_us", "iso_646.irv_1991", "iso_ir_6", "us", "us_ascii"]),
  (.latin1, ["latin_1", "8859", "cp819", "csisolatin1", "ibm819", "iso8859", "iso8859_1",
    "iso_8859_1", "iso_8859_1_1987", "iso_ir_100", "l1", "latin", "latin1"]),
  (.codePage437, ["cp437", "437", "cspc8codepage437", "ibm437"]),
  (.utf8, ["utf_8", "u8", "utf", "utf8", "utf8_ucs2", "utf8_ucs4", "cp65001"]),
  (.utf8Marked, ["utf_8_sig"]),
  (.utf16 none, ["utf_16", "u16", "utf16"]),
  (.utf16 (some .little), ["utf_16_le", "unicodelittleunmarked", "utf_16le"]),
  (.utf16 (some .big), ["utf_16_be", "unicodebigunmarked", "utf_16be"]),
  (.utf32 none, ["utf_32", "u32", "utf32"]),
  (.utf32 (some .little), ["utf_32_le", "utf_32le"]),
  (.utf32 (some .big), ["utf_32_be", "utf_32be"])]

def ofName? (name : Text) : Option Encoding :=
  (names.find? fun (_, known) => known.contains (canonicalName name)).map (·.1)

def decodeAscii (position : Nat) : Bytes → Except DecodeError Text
  | [] => .ok []
  | b :: rest =>
    if b < 0x80 then (decodeAscii (position + 1) rest).map (.char (Char.ofNat b.toNat) :: ·)
    else .error ⟨"ascii", position, [b], .notAscii⟩

def dropMark8 : Bytes → Bytes
  | 0xEF :: 0xBB :: 0xBF :: rest => rest
  | octets => octets

/-- The text of octets.  A lenient reader accepts surrogates that stand alone, where the encoding
can hold them. -/
def decodeWith (lenient : Bool) (encoding : Encoding) (octets : Bytes) :
    Except DecodeError Text :=
  match encoding with
  | ascii => decodeAscii 0 octets
  | latin1 => .ok (octets.map fun b => .char (Char.ofNat b.toNat))
  | codePage437 => .ok (CodePage437.decode octets)
  | utf8 => Utf8.decodeFrom lenient 0 octets
  | utf8Marked => Utf8.decodeFrom lenient 0 (dropMark8 octets)
  | utf16 (some order) => WideUnits.decode16 order lenient 0 octets
  | utf16 none =>
    match WideUnits.mark16? octets with
    | some (order, rest) => WideUnits.decode16 order lenient 2 rest
    | none => WideUnits.decode16 .little lenient 0 octets
  | utf32 (some order) => WideUnits.decode32 order lenient 0 octets
  | utf32 none =>
    match WideUnits.mark32? octets with
    | some (order, rest) => WideUnits.decode32 order lenient 4 rest
    | none => WideUnits.decode32 .little lenient 0 octets

def decode (encoding : Encoding) (octets : Bytes) : Except DecodeError Text :=
  decodeWith false encoding octets

end Encoding
end ResourceFinder
