import ResourceFinder.Regex.Basic

/-
Matching by trying alternatives in order.

`run` follows an expression through a text and hands the place it reaches to a continuation; where
that fails it takes the next possibility.  Every definition is by recursion on the tree, and a
repetition stops at the first round that consumes nothing, so the length of the text bounds its
rounds.
-/

namespace ResourceFinder
namespace Regex

/-- A place in a text: what is before it, last first, what is after it, and the latest text of each
group. -/
structure Cursor where
  before : Text
  rest : Text
  groups : List (Nat × Text)

namespace Cursor

def start (t : Text) : Cursor := ⟨[], t, []⟩

def advance : Nat → Cursor → Cursor
  | n + 1, ⟨before, c :: rest, groups⟩ => advance n ⟨c :: before, rest, groups⟩
  | _, s => s

/-- The place some characters before, if the text begins no later. -/
def retreat? : Nat → Cursor → Option Cursor
  | 0, s => some s
  | n + 1, ⟨c :: before, rest, groups⟩ => retreat? n ⟨before, c :: rest, groups⟩
  | _ + 1, ⟨[], _, _⟩ => none

/-- Records what lies between an earlier place and this one as the text of a group. -/
def record (index : Nat) (opened s : Cursor) : Cursor :=
  { s with groups := (index, opened.rest.take (opened.rest.length - s.rest.length)) :: s.groups }

end Cursor

/-- What follows at a place reached: the rest of the match, or none. -/
abbrev Continuation := Cursor → Option Cursor

namespace Place

def isWordAt (flags : Flags) (c : Option CodePoint) : Bool :=
  c.any fun c => Category.word.contains flags.ascii c.code

def holds (flags : Flags) (s : Cursor) : Place → Bool
  | lineStart =>
    s.before.isEmpty || (flags.multiline && s.before.head? = some (.char '\n'))
  | lineEnd =>
    match s.rest with
    | [] => true
    | c :: t => c = .char '\n' && (t.isEmpty || flags.multiline)
  | textStart => s.before.isEmpty
  | textEnd => s.rest.isEmpty
  | wordEdge negated =>
    !(s.before.isEmpty && s.rest.isEmpty) &&
      ((isWordAt flags s.before.head? != isWordAt flags s.rest.head?) != negated)

end Place

def rounds (body : Continuation → Continuation) : Nat → Continuation → Continuation
  | 0, next, s => next s
  | n + 1, next, s => body (rounds body n next) s

/-- Up to the given number of further rounds, as many as possible; a round that consumes nothing is
the last. -/
def greedily (body : Continuation → Continuation) (next : Continuation) : Nat → Continuation
  | 0, s => next s
  | n + 1, s =>
    (body (fun s' =>
      if s'.rest.length < s.rest.length then greedily body next n s' else next s') s).or (next s)

def lazily (body : Continuation → Continuation) (next : Continuation) : Nat → Continuation
  | 0, s => next s
  | n + 1, s =>
    (next s).or
      (body (fun s' =>
        if s'.rest.length < s.rest.length then lazily body next n s' else next s') s)

/-- Rounds that are never reconsidered: the given number at least, and up to a number of further
ones. -/
def firmly (body : Continuation → Continuation) : (least further : Nat) → Continuation
  | 0, 0, s => some s
  | 0, n + 1, s =>
    match body some s with
    | none => some s
    | some s' => if s'.rest.length < s.rest.length then firmly body 0 n s' else some s'
  | least + 1, further, s =>
    (body some s).bind (firmly body least further)

/-- How many rounds past the least are worth a try: up to the greatest count, and one more than
there are characters. -/
def further (least : Nat) (most : Option Nat) (s : Cursor) : Nat :=
  match most with
  | none => s.rest.length + 1
  | some most => min (most - least) (s.rest.length + 1)

def sameCharacter (flags : Flags) (a b : CodePoint) : Bool :=
  a = b || (flags.ignoreCase && CodePoint.smallLetter a.code = CodePoint.smallLetter b.code)

def dropSame? (flags : Flags) : Text → Text → Bool
  | [], _ => true
  | _ :: _, [] => false
  | a :: s, b :: t => sameCharacter flags a b && dropSame? flags s t

namespace Node

def run : Node → Continuation → Continuation
  | empty, next, s => next s
  | one flags test, next, s =>
    match s.rest with
    | [] => none
    | c :: rest =>
      if test.accepts flags c then next { s with before := c :: s.before, rest } else none
  | sequence a b, next, s => a.run (b.run next) s
  | either a b, next, s => (a.run next s).or (b.run next s)
  | repeated least most .greedy body, next, s =>
    rounds body.run least (fun s' => greedily body.run next (further least most s') s') s
  | repeated least most .lazy body, next, s =>
    rounds body.run least (fun s' => lazily body.run next (further least most s') s') s
  | repeated least most .possessive body, next, s =>
    (firmly body.run least (further least most s) s).bind next
  | group index body, next, s => body.run (fun s' => next (Cursor.record index s s')) s
  | atomic body, next, s => (body.run some s).bind next
  | ahead true body, next, s =>
    (body.run some s).bind fun s' => next { s with groups := s'.groups }
  | ahead false body, next, s => if (body.run some s).isSome then none else next s
  | behind true width body, next, s =>
    (s.retreat? width).bind fun back =>
      (body.run some back).bind fun s' => next { s with groups := s'.groups }
  | behind false width body, next, s =>
    if ((s.retreat? width).bind (body.run some)).isSome then none else next s
  | sameAs flags index, next, s =>
    match s.groups.lookup index with
    | none => none
    | some text => if dropSame? flags text s.rest then next (s.advance text.length) else none
  | ifGroup index yes no, next, s =>
    if (s.groups.lookup index).isSome then yes.run next s else no.run next s
  | place flags p, next, s => if p.holds flags s then next s else none

end Node

def fullMatch (n : Node) (t : Text) : Bool :=
  (n.run (fun s => if s.rest.isEmpty then some s else none) (Cursor.start t)).isSome

def searchFrom (n : Node) (before : Text) : Text → Bool
  | [] => (n.run some ⟨before, [], []⟩).isSome
  | c :: t => (n.run some ⟨before, c :: t, []⟩).isSome || searchFrom n (c :: before) t

def search (n : Node) (t : Text) : Bool := searchFrom n [] t

end Regex
end ResourceFinder
