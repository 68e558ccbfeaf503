import ResourceFinder.Glob.Basic

/-
Reading a glob pattern.  A backslash makes the next character literal, wherever it stands; a comma
and a closing brace mean something inside a group only.
-/

namespace ResourceFinder
namespace Glob

/-- A group that is still open: its finished alternatives and the atoms of the current one, both
last first. -/
structure OpenGroup where
  finished : List (List Atom)
  current : List Atom

namespace OpenGroup

def start : OpenGroup := ⟨[], []⟩

def push (g : OpenGroup) (a : Atom) : OpenGroup := { g with current := a :: g.current }

def alternative (g : OpenGroup) : OpenGroup := ⟨g.current.reverse :: g.finished, []⟩

def close (g : OpenGroup) : Item := .group g.alternative.finished.reverse

end OpenGroup

/-- Adds an atom to the open group, or else to the items in front of those that follow. -/
def place (a : Atom) (group : Option OpenGroup)
    (following : Option OpenGroup → Except (Problem × Nat) Glob) : Except (Problem × Nat) Glob :=
  match group with
  | none => (following none).map (.atom a :: ·)
  | some g => following (some (g.push a))

/-- The items of a text that starts at the given position, possibly inside a group. -/
def parseFrom (position : Nat) (group : Option OpenGroup) :
    Text → Except (Problem × Nat) Glob
  | [] =>
    match group with
    | none => .ok []
    | some _ => .error (.missingClosingBrace, position - 1)
  | [.char '\\'] => .error (.noCharacterToEscape, position)
  | .char '\\' :: c :: t => place (.literal c) group fun g => parseFrom (position + 2) g t
  | .char '*' :: .char '*' :: t => place .anything group fun g => parseFrom (position + 2) g t
  | .char '*' :: t => place .anySegment group fun g => parseFrom (position + 1) g t
  | .char '?' :: t => place .anyChar group fun g => parseFrom (position + 1) g t
  | .char '\x7b' :: t =>
    match group with
    | none => parseFrom (position + 1) (some .start) t
    | some _ => .error (.nestedGroup, position)
  | .char ',' :: t =>
    match group with
    | none => place (.literal (.char ',')) group fun g => parseFrom (position + 1) g t
    | some g => parseFrom (position + 1) (some g.alternative) t
  | .char '\x7d' :: t =>
    match group with
    | none => place (.literal (.char '\x7d')) group fun g => parseFrom (position + 1) g t
    | some g => (parseFrom (position + 1) none t).map (g.close :: ·)
  | c :: t => place (.literal c) group fun g => parseFrom (position + 1) g t

/-- The items of a pattern, or the first place, from the left, that makes it none. -/
def parse (pattern : Text) : Except SyntaxError Glob :=
  (parseFrom 0 none pattern).mapError fun (problem, index) => ⟨problem, pattern, index⟩

end Glob
end ResourceFinder
