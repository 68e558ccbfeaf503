import ResourceFinder.Path.Basic
import ResourceFinder.Text.Utf8

/-
The URIs of paths.

Every octet of a path that a URI reserves or does not know is written as a percent sign and two
hexadecimal digits.
-/

namespace ResourceFinder
namespace Uri

/-- The ASCII characters that stand for themselves in the URI of a path. -/
def isPlain (b : UInt8) : Bool :=
  let c := Char.ofNat b.toNat
  b < 0x80 && (c.isAlphanum || ['_', '.', '-', '~', '/'].contains c)

def hexDigit (n : Nat) : CodePoint :=
  .char (if n < 10 then Char.ofNat (48 + n) else Char.ofNat (55 + n))

def escapeOctet (b : UInt8) : Text :=
  if isPlain b then [.char (Char.ofNat b.toNat)]
  else [.char '%', hexDigit (b.toNat / 16), hexDigit (b.toNat % 16)]

/-- The octets of the text of a path that starts at the given position.  An octet that is no UTF-8
stands in a path as a surrogate from U+DC80 on, and no other surrogate can be in one. -/
def octetsFrom (position : Nat) : Text → Except EncodeError Bytes
  | [] => .ok []
  | .char c :: t => (octetsFrom (position + 1) t).map (Utf8.encodeChar c ++ ·)
  | .surrogate offset :: t =>
    if 0x480 ≤ offset.val ∧ offset.val < 0x500 then
      (octetsFrom (position + 1) t).map (UInt8.ofNat (offset.val - 0x400) :: ·)
    else .error ⟨position, .surrogate offset :: t.takeWhile fun c => c.toChar?.isNone⟩

def escape (t : Text) : Except EncodeError Text :=
  (octetsFrom 0 t).map (·.flatMap escapeOctet)

inductive Problem where
  | relative
  | surrogates (e : EncodeError)
  deriving DecidableEq

/-- The URI of a path, which only an absolute path has. -/
def ofPath (p : Path) : Except Problem Text :=
  if p.isAbsolute then ((escape p.text).mapError .surrogates).map (("file://" : Text) ++ ·)
  else .error .relative

end Uri
end ResourceFinder
