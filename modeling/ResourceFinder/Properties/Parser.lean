import ResourceFinder.Dictionary
import ResourceFinder.Properties.Entry

/-
Reading a properties text.
-/

namespace ResourceFinder

/-- Keys with their values, in the order of the keys' first lines. -/
abbrev Properties := Dictionary Text

namespace Properties

/-- The pair of a logical line; where both its value and its key are malformed, the value is
named. -/
def parseEntry (line : Text) : Except EscapeError (Text × Text) := do
  let (key, value) := splitEntry line
  let value ← unescape value
  let key ← unescape key
  return (key, value)

/-- The properties of a text; of several lines with one key the last gives the value. -/
def parse (t : Text) : Except EscapeError Properties := do
  return Dictionary.ofPairs (← (logicalLines t).mapM parseEntry)

end Properties
end ResourceFinder
