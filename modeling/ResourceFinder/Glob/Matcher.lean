import ResourceFinder.Glob.Parser
import ResourceFinder.Regex.Matcher
import ResourceFinder.Regex.Parser

/-
Matching names against a glob pattern by way of a regular expression, in which a dot is any
character.
-/

namespace ResourceFinder
namespace Glob

def Atom.regexText : Atom → Text
  | literal c => Regex.escapeChar c
  | anyChar => "[^/]"
  | anySegment => "[^/]*"
  | anything => ".*"

def Item.regexText : Item → Text
  | atom a => a.regexText
  | group alternatives =>
    ("(?:" : Text) ++ Text.join "|" (alternatives.map (·.flatMap Atom.regexText)) ++ ")"

def regexText (g : Glob) : Text := g.flatMap Item.regexText

def toRegexText (pattern : Text) : Except SyntaxError Text := (parse pattern).map regexText

inductive CompileError where
  | pattern (e : SyntaxError)
  | expression (text : Text) (f : Regex.Fault)
  deriving DecidableEq

structure Matcher where
  pattern : Text
  regex : Regex.Node

def compile (pattern : Text) : Except CompileError Matcher := do
  let text ← (toRegexText pattern).mapError .pattern
  let regex ← (Regex.parse { dotAll := true } text).mapError (.expression text)
  return { pattern, regex }

def Matcher.accepts (m : Matcher) (name : Text) : Bool := Regex.fullMatch m.regex name

end Glob
end ResourceFinder
