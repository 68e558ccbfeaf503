import ResourceFinder.Text.Basic

/-
A text while a document in it is being read.
-/

namespace ResourceFinder

/-- What is still to be read, and its position in the whole text. -/
structure Input where
  position : Nat
  rest : Text

/-- Why reading stops: a problem at a position, or an integer with more digits than are accepted. -/
inductive Stop (π : Type) where
  | problem (p : π) (position : Nat)
  | longInteger (digits : Nat)

namespace Input

def ofText (t : Text) : Input := ⟨0, t⟩

def fail {π α : Type} (s : Input) (p : π) : Except (Stop π) α := .error (.problem p s.position)

def skip (n : Nat) (s : Input) : Input := ⟨s.position + n, s.rest.drop n⟩

def skipWhile (p : CodePoint → Bool) (s : Input) : Input := s.skip (s.rest.takeWhile p).length

def startsWith (t : Text) (s : Input) : Bool := t.isPrefixOf s.rest

def nextIs (c : Char) (s : Input) : Bool := s.rest.head? = some (.char c)

def expect {π : Type} (c : Char) (p : π) (s : Input) : Except (Stop π) Input :=
  if s.nextIs c then .ok (s.skip 1) else s.fail p

end Input
end ResourceFinder
