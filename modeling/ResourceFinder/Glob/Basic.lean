import ResourceFinder.Text.Quoted

/-
Glob patterns as lists of items.

A pattern is anchored: it denotes whole names.  `*` and `?` stay within one segment of a name, `**`
does not, and braces hold alternatives.
-/

namespace ResourceFinder
namespace Glob

/-- One token of a pattern outside of its bracing: a character that denotes itself, `?`, `*` or
`**`. -/
inductive Atom where
  | literal (c : CodePoint)
  | anyChar
  | anySegment
  | anything
  deriving DecidableEq

/-- An atom, or a group of alternatives, each a list of atoms, since groups do not nest. -/
inductive Item where
  | atom (a : Atom)
  | group (alternatives : List (List Atom))
  deriving DecidableEq

inductive Problem where
  | noCharacterToEscape
  | nestedGroup
  | missingClosingBrace
  deriving DecidableEq

namespace Problem

def message : Problem → Text
  | noCharacterToEscape => "No character to escape"
  | nestedGroup => "Cannot nest groups"
  | missingClosingBrace => "Missing closing brace"

end Problem

/-- A text that is no pattern, why, and the position of the character that shows it. -/
structure SyntaxError where
  problem : Problem
  pattern : Text
  index : Nat
  deriving DecidableEq

namespace SyntaxError

def message (e : SyntaxError) : Text :=
  e.problem.message ++ " near index " ++ Text.ofNat e.index ++ ": " ++ Text.quoted e.pattern

end SyntaxError
end Glob

abbrev Glob := List Glob.Item

end ResourceFinder
