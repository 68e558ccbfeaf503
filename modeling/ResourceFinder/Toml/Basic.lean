import ResourceFinder.Calendar
import ResourceFinder.Dictionary
import ResourceFinder.Number.Binary64
import ResourceFinder.Number.Numeral
import ResourceFinder.Text.Lines
import ResourceFinder.Text.Quoted

/-
TOML documents as values, and what can be wrong with one.
-/

namespace ResourceFinder
namespace Toml

inductive Value where
  | bool (b : Bool)
  | integer (n : Int)
  | number (x : Binary64)
  | text (t : Text)
  | date (d : Date)
  | time (t : TimeOfDay)
  | dateTime (d : DateTime)
  | list (items : List Value)
  | table (members : List (Text × Value))

abbrev Table := Dictionary Value

/-- The name of a table or a value: the names that lead to it from the top. -/
abbrev Key := List Text

inductive Problem where
  | statement
  | value
  | keyStart
  | noEquals
  | noLineEnd
  | noTableEnd
  | noTableListEnd
  | declaredTwice (key : Key)
  | overwrite
  | frozen (key : Key)
  | redefined (key : Key)
  | duplicateKey (name : Text)
  | openList
  | openTable
  | openString
  | noClosing (delimiter : Text)
  | illegalCharacter (c : CodePoint)
  | foundCharacter (c : CodePoint)
  | strayBackslash
  | hexDigits
  | noScalarValue
  | noSuchTime
  deriving DecidableEq

/-- The names of a key in quotes and parentheses; a single one has a comma after it. -/
def Key.shown (key : Key) : Text :=
  match key with
  | [name] => ("(" : Text) ++ Text.quoted name ++ ",)"
  | names => ("(" : Text) ++ Text.join ", " (names.map Text.quoted) ++ ")"

namespace Problem

def message : Problem → Text
  | statement => "Invalid statement"
  | value => "Invalid value"
  | keyStart => "Invalid initial character for a key part"
  | noEquals => "Expected '=' after a key in a key/value pair"
  | noLineEnd => "Expected newline or end of document after a statement"
  | noTableEnd => "Expected ']' at the end of a table declaration"
  | noTableListEnd => "Expected ']]' at the end of an array declaration"
  | declaredTwice key => ("Cannot declare " : Text) ++ Key.shown key ++ " twice"
  | overwrite => "Cannot overwrite a value"
  | frozen key => ("Cannot mutate immutable namespace " : Text) ++ Key.shown key
  | redefined key => ("Cannot redefine namespace " : Text) ++ Key.shown key
  | duplicateKey name => ("Duplicate inline table key " : Text) ++ Text.quoted name
  | openList => "Unclosed array"
  | openTable => "Unclosed inline table"
  | openString => "Unterminated string"
  | noClosing delimiter => ("Expected " : Text) ++ Text.quoted delimiter
  | illegalCharacter c => ("Illegal character " : Text) ++ Text.quoted [c]
  | foundCharacter c => ("Found invalid character " : Text) ++ Text.quoted [c]
  | strayBackslash => "Unescaped '\\' in a string"
  | hexDigits => "Invalid hex value"
  | noScalarValue => "Escaped character is not a Unicode scalar value"
  | noSuchTime => "Invalid date or datetime"

end Problem

/-- Why a text gives no value: a problem and its line and column, or the end of the text; or an
integer that is longer than is accepted from a document. -/
inductive Fault where
  | grammar (problem : Problem) (place : Option (Nat × Nat))
  | longInteger (digits : Nat)
  deriving DecidableEq

namespace Fault

def message : Fault → Text
  | grammar problem none => problem.message ++ " (at end of document)"
  | grammar problem (some (line, column)) =>
    problem.message ++ " (at line " ++ Text.ofNat line ++ ", column " ++ Text.ofNat column ++ ")"
  | longInteger digits => Numeral.longMessage digits

end Fault
end Toml
end ResourceFinder
