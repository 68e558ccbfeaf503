import ResourceFinder.Text.Quoted

/-
Octets that an encoding does not accept.
-/

namespace ResourceFinder

inductive DecodeReason where
  | invalidStart
  | invalidContinuation
  | unexpectedEnd
  | truncated
  | illegalEncoding
  | illegalPair
  | surrogate
  | outOfRange
  | notAscii
  deriving DecidableEq

namespace DecodeReason

def message : DecodeReason → Text
  | invalidStart => "invalid start byte"
  | invalidContinuation => "invalid continuation byte"
  | unexpectedEnd => "unexpected end of data"
  | truncated => "truncated data"
  | illegalEncoding => "illegal encoding"
  | illegalPair => "illegal UTF-16 surrogate"
  | surrogate => "code point in surrogate code point range(0xd800, 0xe000)"
  | outOfRange => "code point not in range(0x110000)"
  | notAscii => "ordinal not in range(128)"

end DecodeReason

/-- The first run of octets that an encoding does not accept: where it starts, and its octets. -/
structure DecodeError where
  encoding : Text
  position : Nat
  octets : Bytes
  reason : DecodeReason
  deriving DecidableEq

namespace DecodeError

/-- A single octet is shown; of a longer run, the first and the last position. -/
def message (e : DecodeError) : Text :=
  let place : Text := match e.octets with
    | [b] =>
      ("byte 0x" : Text) ++ Text.hexDigits 2 b.toNat ++ " in position " ++ Text.ofNat e.position
    | octets => ("bytes in position " : Text) ++ Text.ofNat e.position ++ "-" ++
        Text.ofNat (e.position + octets.length - 1)
  ("'" : Text) ++ e.encoding ++ "' codec can't decode " ++ place ++ ": " ++ e.reason.message

end DecodeError

/-- The first run of surrogates in a text, which no octets stand for. -/
structure EncodeError where
  position : Nat
  run : Text
  deriving DecidableEq

namespace EncodeError

/-- A single surrogate is shown; of a longer run, the first and the last position. -/
def message (e : EncodeError) : Text :=
  let place : Text := match e.run with
    | [c] => ("character '" : Text) ++ Text.numberEscape c.code ++ "' in position " ++
        Text.ofNat e.position
    | run => ("characters in position " : Text) ++ Text.ofNat e.position ++ "-" ++
        Text.ofNat (e.position + run.length - 1)
  ("'utf-8' codec can't encode " : Text) ++ place ++ ": surrogates not allowed"

end EncodeError
end ResourceFinder
