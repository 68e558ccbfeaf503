import ResourceFinder.Text.Quoted

/-
The entries of an archive, as its directory describes them.
-/

namespace ResourceFinder
namespace Archive

/-- An entry: its name as written, its flags, how its content is stored, the checksum and the two
sizes that the directory declares, the attributes, where its header is, and where what follows it
begins, if that is looked at. -/
structure Entry where
  writtenName : Text
  flags : Nat
  method : Nat
  checksum : Nat
  storedSize : Nat
  size : Nat
  attributes : Nat
  headerPlace : Int
  nextPlace : Option Int := none
  deriving DecidableEq

namespace Entry

def name (e : Entry) : Text := e.writtenName.takeWhile (· != .char '\x00')

def isDirectory (e : Entry) : Bool := e.name.getLast? = some (.char '/')

def isEncrypted (e : Entry) : Bool := e.flags.testBit 0

def isPatch (e : Entry) : Bool := e.flags.testBit 5

def isStronglyEncrypted (e : Entry) : Bool := e.flags.testBit 6

def methodName (method : Nat) : Text :=
  let named : List (Nat × Text) := [
    (0, "store"), (1, "shrink"), (2, "reduce"), (3, "reduce"), (4, "reduce"), (5, "reduce"),
    (6, "implode"), (7, "tokenize"), (8, "deflate"), (9, "deflate64"), (10, "implode"),
    (12, "bzip2"), (14, "lzma"), (18, "terse"), (19, "lz77"), (97, "wavpack"), (98, "ppmd")]
  (named.lookup method).getD (Text.ofNat method)

def kindLetter (mode : Nat) : Char :=
  match mode / 0x1000 with
  | 0x8 => '-'
  | 0x4 => 'd'
  | 0xA => 'l'
  | 0x6 => 'b'
  | 0x2 => 'c'
  | 0x1 => 'p'
  | 0xC => 's'
  | _ => '?'

/-- The letters for three permissions; a further bit of the mode shows in the last one. -/
def permissionLetters (bits : Nat) (further : Bool) (letter : Char) : List Char :=
  [if bits.testBit 2 then 'r' else '-', if bits.testBit 1 then 'w' else '-',
    match bits.testBit 0, further with
    | true, true => letter
    | true, false => 'x'
    | false, true => letter.toUpper
    | false, false => '-']

def modeLetters (mode : Nat) : Text :=
  Text.ofString <| String.ofList <| kindLetter mode ::
    permissionLetters (mode / 64 % 8) (mode.testBit 11) 's' ++
    permissionLetters (mode / 8 % 8) (mode.testBit 10) 's' ++
    permissionLetters (mode % 8) (mode.testBit 9) 't'

/-- The entry in a few words: the name and what is not as in a plain uncompressed file. -/
def description (e : Entry) : Text :=
  let mode := e.attributes / 0x10000
  let lowAttributes := e.attributes % 0x10000
  ("<ZipInfo filename=" : Text) ++ Text.quoted e.name ++
    (if e.method ≠ 0 then (" compress_type=" : Text) ++ methodName e.method else []) ++
    (if mode ≠ 0 then (" filemode=" : Text) ++ Text.quoted (modeLetters mode) else []) ++
    (if lowAttributes ≠ 0 then
      (" external_attr=0x" : Text) ++ Text.hexDigits 1 lowAttributes else []) ++
    (if !e.isDirectory || e.size ≠ 0 then (" file_size=" : Text) ++ Text.ofNat e.size else []) ++
    (if (!e.isDirectory || e.storedSize ≠ 0) && (e.method ≠ 0 || e.size ≠ e.storedSize) then
      (" compress_size=" : Text) ++ Text.ofNat e.storedSize else []) ++ ">"

end Entry
end Archive
end ResourceFinder
