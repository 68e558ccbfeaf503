import ResourceFinder.Ignore.Pattern
import ResourceFinder.Regex.Matcher
import ResourceFinder.Regex.Parser

/-
Matching paths against the patterns of ignore files, by way of regular expressions that are looked
for in a path.  A directory is given with a slash at its end.
-/

namespace ResourceFinder
namespace Ignore

def Piece.regexText : Piece → Text
  | literal c => Regex.escapeChar c
  | anyChar => "[^/]"
  | anyRun => "[^/]*"
  | set negated members =>
    (if negated then ("[^" : Text) else "[") ++
      members.flatMap (fun c => if c = .char '\\' then "\\\\" else [c]) ++ "]"

/-- The expression of the segments from some place on; `first` at the head, and `slash` where
something before asks for a slash. -/
def segmentsText (first slash : Bool) : List Segment → Text
  | [] => []
  | .anyDepth :: rest =>
    if first then ("^(?:.+/)?" : Text) ++ segmentsText false false rest
    else if rest.isEmpty then "/"
    else ("(?:/.+)?" : Text) ++ segmentsText false true rest
  | .anyName :: rest =>
    (if first then ("^" : Text) else []) ++ (if slash then ("/" : Text) else []) ++ "[^/]+" ++
      (if rest.isEmpty then ("/?$" : Text) else segmentsText false true rest)
  | .pieces ps :: rest =>
    (if first then ("^" : Text) else []) ++ (if slash then ("/" : Text) else []) ++
      ps.flatMap Piece.regexText ++
      (if rest.isEmpty then ("(?:/|$)" : Text) else segmentsText false true rest)

namespace Pattern

/-- The expression of a pattern.  Patterns that every name matches need no anchors. -/
def regexText (p : Pattern) : Text :=
  match p.segments with
  | [.anyDepth] => if p.forDirectory then "/" else "."
  | [.anyDepth, .anyName] => "."
  | [.anyDepth, .anyName, .anyDepth] => "/"
  | segments => segmentsText true false segments

end Pattern

inductive LineError where
  | pattern (e : InvalidLine)
  | expression (text : Text) (fault : Regex.Fault)
  deriving DecidableEq

structure Rule where
  negated : Bool
  regex : Regex.Node

/-- Rules in order, of which the last one that matches decides. -/
abbrev Rules := List Rule

def Rule.ofLine (line : Text) : Except LineError (Option Rule) := do
  match ← (Pattern.ofLine line).mapError .pattern with
  | none => return none
  | some p =>
    let regex ← (Regex.parse {} p.regexText).mapError (.expression p.regexText)
    return some ⟨p.negated, regex⟩

def Rules.ofLines (lines : List Text) : Except LineError Rules := do
  return (← lines.mapM Rule.ofLine).filterMap id

/-- The path without one slash, or one dot and slash, at its head. -/
def dropHere : Text → Text
  | .char '/' :: t => t
  | .char '.' :: .char '/' :: t => t
  | t => t

/-- What the rules say about a path: that it is excluded, that it is not, or nothing. -/
def Rules.verdict? (rules : Rules) (path : Text) : Option Bool :=
  (rules.reverse.find? fun r => Regex.search r.regex (dropHere path)).map (!·.negated)

def Rules.excludes (rules : Rules) (path : Text) : Bool := (rules.verdict? path).getD false

end Ignore
end ResourceFinder
