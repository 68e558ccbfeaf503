import ResourceFinder.Text.Character
import ResourceFinder.Text.LetterCase

/-
Regular expressions as trees, with the options that were in force where each part was written.
-/

namespace ResourceFinder
namespace Regex

structure Flags where
  ignoreCase : Bool := false
  multiline : Bool := false
  dotAll : Bool := false
  verbose : Bool := false
  ascii : Bool := false
  deriving DecidableEq

inductive Category where
  | digit
  | blank
  | word
  deriving DecidableEq

/-- A member of a character set; characters are given by their numbers. -/
inductive Member where
  | single (code : Nat)
  | range (low high : Nat)
  | category (kind : Category) (negated : Bool)
  deriving DecidableEq

/-- A test of one character: any but a line feed, or one in or out of a set. -/
inductive Test where
  | any
  | set (negated : Bool) (members : List Member)
  deriving DecidableEq

inductive Place where
  | lineStart
  | lineEnd
  | textStart
  | textEnd
  | wordEdge (negated : Bool)
  deriving DecidableEq

/-- How a repetition chooses its count: as many as possible, as few as possible, or as many as
possible once and for all. -/
inductive Manner where
  | greedy
  | lazy
  | possessive
  deriving DecidableEq

inductive Node where
  | empty
  | one (flags : Flags) (test : Test)
  | sequence (first second : Node)
  | either (first second : Node)
  | repeated (least : Nat) (most : Option Nat) (manner : Manner) (body : Node)
  | group (index : Nat) (body : Node)
  | atomic (body : Node)
  | ahead (wanted : Bool) (body : Node)
  | behind (wanted : Bool) (width : Nat) (body : Node)
  | sameAs (flags : Flags) (index : Nat)
  | ifGroup (index : Nat) (yes no : Node)
  | place (flags : Flags) (place : Place)

namespace Category

def contains (ascii : Bool) (kind : Category) (n : Nat) : Bool :=
  match CodePoint.ofNat? n with
  | none => false
  | some c =>
    match kind with
    | digit => if ascii then c.isDigit else c.decimalValue?.isSome
    | blank => if ascii then c.isOneOf [' ', '\t', '\n', '\r', '\x0b', '\x0c'] else c.isBlank
    | word =>
      if ascii then c.isDigit || c.isLetter || c.isOneOf ['_'] else c.isWord

end Category

namespace Member

def contains (ascii : Bool) (n : Nat) : Member → Bool
  | single code => n = code
  | range low high => low ≤ n && n ≤ high
  | category kind negated => kind.contains ascii n != negated

end Member

/-- The characters that count as the given one: itself, and without regard to case its variants. -/
def variants (flags : Flags) (n : Nat) : List Nat :=
  if !flags.ignoreCase then [n]
  else if flags.ascii then
    if 0x41 ≤ n && n ≤ 0x5A then [n, n + 0x20]
    else if 0x61 ≤ n && n ≤ 0x7A then [n, n - 0x20]
    else [n]
  else n :: CodePoint.caseVariants n

namespace Test

def accepts (flags : Flags) (c : CodePoint) : Test → Bool
  | any => flags.dotAll || c != .char '\n'
  | set negated members =>
    (variants flags c.code).any (fun n => members.any (·.contains flags.ascii n)) != negated

end Test

namespace Node

def sequenceOf : List Node → Node
  | [] => empty
  | [n] => n
  | n :: ns => sequence n (sequenceOf ns)

def eitherOf : List Node → Node
  | [] => empty
  | [n] => n
  | n :: ns => either n (eitherOf ns)

/-- The least and the greatest length of a match, given those of the groups; without a bound,
none. -/
def widths (groups : List (Nat × Nat × Option Nat)) : Node → Nat × Option Nat
  | empty => (0, some 0)
  | one _ _ => (1, some 1)
  | sequence a b =>
    let (low, high) := a.widths groups
    let (low', high') := b.widths groups
    (low + low', high.bind fun h => high'.map (h + ·))
  | either a b =>
    let (low, high) := a.widths groups
    let (low', high') := b.widths groups
    (min low low', high.bind fun h => high'.map (max h ·))
  | repeated least most _ body =>
    let (low, high) := body.widths groups
    (least * low,
      match most, high with
      | some m, some h => some (m * h)
      | none, some 0 => some 0
      | _, _ => none)
  | group _ body => body.widths groups
  | atomic body => body.widths groups
  | ahead _ _ => (0, some 0)
  | behind _ _ _ => (0, some 0)
  | sameAs _ index => (groups.lookup index).getD (0, some 0)
  | ifGroup _ yes no =>
    let (low, high) := yes.widths groups
    let (low', high') := no.widths groups
    (min low low', high.bind fun h => high'.map (max h ·))
  | place _ _ => (0, some 0)

end Node
end Regex
end ResourceFinder
