import ResourceFinder.Number.Binary64
import ResourceFinder.Number.Numeral
import ResourceFinder.Text.DecodeError
import ResourceFinder.Text.Lines

/-
JSON documents as values, and what can be wrong with one.
-/

namespace ResourceFinder
namespace Json

inductive Value where
  | null
  | bool (b : Bool)
  | integer (n : Int)
  | number (x : Binary64)
  | text (t : Text)
  | list (items : List Value)
  | object (members : List (Text × Value))

inductive Problem where
  | expectingValue
  | extraData
  | expectingComma
  | expectingColon
  | expectingName
  | unterminatedString
  | controlCharacter
  | badEscape
  | badNumberEscape
  deriving DecidableEq

namespace Problem

def message : Problem → Text
  | expectingValue => "Expecting value"
  | extraData => "Extra data"
  | expectingComma => "Expecting ',' delimiter"
  | expectingColon => "Expecting ':' delimiter"
  | expectingName => "Expecting property name enclosed in double quotes"
  | unterminatedString => "Unterminated string starting at"
  | controlCharacter => "Invalid control character at"
  | badEscape => "Invalid \\escape"
  | badNumberEscape => "Invalid \\uXXXX escape"

end Problem

/-- Why octets give no value: they are no text, the text is no document, or an integer in it is
longer than is accepted from a document. -/
inductive Fault where
  | encoding (e : DecodeError)
  | grammar (problem : Problem) (position line column : Nat)
  | longInteger (digits : Nat)
  deriving DecidableEq

namespace Fault

def message : Fault → Text
  | encoding e => e.message
  | grammar problem position line column =>
    problem.message ++ ": line " ++ Text.ofNat line ++ " column " ++ Text.ofNat column ++
      " (char " ++ Text.ofNat position ++ ")"
  | longInteger digits => Numeral.longMessage digits

end Fault
end Json
end ResourceFinder
