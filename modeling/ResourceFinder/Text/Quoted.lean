import ResourceFinder.Text.Printable

/-
Quoted texts, as messages show a name or a pattern: in single quotes, or in double quotes where that
saves escaping a single quote, with everything unprintable written as an escape.
-/

namespace ResourceFinder
namespace Text

def hexDigits (width n : Nat) : Text :=
  padZeros width ((Nat.toDigits 16 n).map .char)

/-- A code point by its number: `\xNN`, `\uNNNN` or `\UNNNNNNNN`, the shortest that holds it. -/
def numberEscape (n : Nat) : Text :=
  if n < 0x100 then ("\\x" : Text) ++ hexDigits 2 n
  else if n < 0x10000 then ("\\u" : Text) ++ hexDigits 4 n
  else ("\\U" : Text) ++ hexDigits 8 n

/-- The quote around a text: double quotes for a text that holds single quotes and no double
ones. -/
def quoteFor (t : Text) : Char :=
  if t.contains (.char '\'') && !t.contains (.char '"') then '"' else '\''

def escapeIn (quote : Char) (c : CodePoint) : Text :=
  if c = .char quote || c = .char '\\' then [.char '\\', c]
  else if c = .char '\t' then "\\t"
  else if c = .char '\n' then "\\n"
  else if c = .char '\r' then "\\r"
  else if c.isPrintable then [c]
  else numberEscape c.code

def quoted (t : Text) : Text :=
  let quote := quoteFor t
  .char quote :: t.flatMap (escapeIn quote) ++ [.char quote]

/-- Octets as messages quote them: like a text, but only ASCII is printable and there is a `b`
before the quote. -/
def quotedBytes (octets : Bytes) : Text :=
  let t : Text := octets.map fun b => .char (Char.ofNat b.toNat)
  let quote := quoteFor t
  let escape (c : CodePoint) : Text :=
    if c.code < 0x7F then escapeIn quote c else numberEscape c.code
  .char 'b' :: .char quote :: t.flatMap escape ++ [.char quote]

end Text
end ResourceFinder
