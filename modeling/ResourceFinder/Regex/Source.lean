import ResourceFinder.Regex.Problem

/-
The text of an expression as it is read: signs, and signs with a backslash before them.
-/

namespace ResourceFinder
namespace Regex

/-- A sign, an escaped sign, or a backslash with nothing after it. -/
inductive Token where
  | plain (c : CodePoint)
  | escaped (c : CodePoint)
  | dangling
  deriving DecidableEq

namespace Token

def ofText : Text → List Token
  | [] => []
  | [.char '\\'] => [dangling]
  | .char '\\' :: c :: t => escaped c :: ofText t
  | c :: t => plain c :: ofText t

def text : Token → Text
  | plain c => [c]
  | escaped c => [.char '\\', c]
  | dangling => [.char '\\']

end Token

structure Source where
  position : Nat
  rest : List Token

abbrev Reading (α : Type) := Except Fault α

def fail {α : Type} (position : Nat) (problem : Problem) : Reading α :=
  .error ⟨problem, some position⟩

namespace Source

def ofText (t : Text) : Source := ⟨0, Token.ofText t⟩

/-- Refuses to go on where a backslash with nothing after it is next. -/
def check (s : Source) : Reading Source :=
  if s.rest.head? = some .dangling then fail s.position .danglingEscape else .ok s

/-- The next token and what follows it, unless nothing is left. -/
def take (s : Source) : Reading (Option Token × Source) :=
  match s.rest with
  | [] => .ok (none, s)
  | t :: rest => do return (some t, ← check ⟨s.position + t.text.length, rest⟩)

def pass (c : Char) (s : Source) : Reading (Bool × Source) :=
  if s.rest.head? = some (.plain (.char c)) then do return (true, (← s.take).2)
  else .ok (false, s)

def takeWhile (p : CodePoint → Bool) : Nat → Source → Reading (Text × Source)
  | 0, s => .ok ([], s)
  | n + 1, s =>
    match s.rest with
    | .plain c :: _ =>
      if p c then do
        let (t, s) ← takeWhile p n (← s.take).2
        return (c :: t, s)
      else .ok ([], s)
    | _ => .ok ([], s)

/-- The name before a sign that ends it, with the sign passed over. -/
def takeName (what : String) (terminator : Char) (taken : Text) :
    (fuel : Nat) → Source → Reading (Text × Source)
  | 0, s => fail s.position (.missingName what)
  | fuel + 1, s => do
    let (token, next) ← s.take
    match token with
    | none =>
      if taken.isEmpty then fail next.position (.missingName what)
      else fail (next.position - taken.length) (.unterminatedName terminator)
    | some token =>
      if token = .plain (.char terminator) then
        if taken.isEmpty then fail (next.position - 1) (.missingName what)
        else return (taken, next)
      else takeName what terminator (taken ++ token.text) fuel next

def name (what : String) (terminator : Char) (s : Source) : Reading (Text × Source) :=
  s.takeName what terminator [] (s.rest.length + 1)

end Source
end Regex
end ResourceFinder
