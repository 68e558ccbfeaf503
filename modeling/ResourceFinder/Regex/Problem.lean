import ResourceFinder.Number.Numeral
import ResourceFinder.Regex.Basic
import ResourceFinder.Text.Lines
import ResourceFinder.Text.Quoted

/-
What can be wrong with the text of a regular expression, and where.
-/

namespace ResourceFinder
namespace Regex

inductive Problem where
  | danglingEscape
  | badEscape (escape : Text)
  | incompleteEscape (escape : Text)
  | largeOctal (escape : Text)
  | missingBrace
  | unknownCharacterName (name : Text)
  | missingName (what : String)
  | unterminatedName (terminator : Char)
  | badNameCharacter (name : Text)
  | openGroupReference
  | lookbehindGroupReference
  | unknownGroup (index : Nat)
  | unknownGroupName (name : Text)
  | badGroupNumber
  | repeatedGroupName (name : Text) (index earlier : Nat)
  | unterminatedSet
  | badRange (low high : Text)
  | nothingToRepeat
  | multipleRepeat
  | reversedBounds
  | hugeRepeat
  | longRepeat (digits : Nat)
  | unexpectedEnd
  | unknownExtension (mark : Text)
  | unterminatedComment
  | unterminatedGroup
  | tooManyBranches
  | unbalancedParenthesis
  | variableLookbehind
  | distantLookbehind
  | misplacedFlags
  | localeFlag
  | clashingFlags
  | clashingLetters
  | typeFlagOff
  | unknownFlag
  | missingFlag
  | missingFlagEnd
  | missingFlagColon
  | templateOn
  | templateOff
  | flagOnAndOff
  | templateRepeat (manner : Manner)
  deriving DecidableEq

/-- A repetition as the matcher calls it. -/
def Manner.operator : Manner → Text
  | greedy => "MAX_REPEAT"
  | lazy => "MIN_REPEAT"
  | possessive => "POSSESSIVE_REPEAT"

namespace Problem

def message : Problem → Text
  | danglingEscape => "bad escape (end of pattern)"
  | badEscape escape => ("bad escape " : Text) ++ escape
  | incompleteEscape escape => ("incomplete escape " : Text) ++ escape
  | largeOctal escape => ("octal escape value " : Text) ++ escape ++ " outside of range 0-0o377"
  | missingBrace => "missing \x7b"
  | unknownCharacterName name => ("undefined character name " : Text) ++ Text.quoted name
  | missingName what => ("missing " : Text) ++ Text.ofString what
  | unterminatedName terminator =>
    ("missing " : Text) ++ .char terminator :: (", unterminated name" : Text)
  | badNameCharacter name => ("bad character in group name " : Text) ++ Text.quoted name
  | openGroupReference => "cannot refer to an open group"
  | lookbehindGroupReference =>
    "cannot refer to group defined in the same lookbehind subpattern"
  | unknownGroup index => ("invalid group reference " : Text) ++ Text.ofNat index
  | unknownGroupName name => ("unknown group name " : Text) ++ Text.quoted name
  | badGroupNumber => "bad group number"
  | repeatedGroupName name index earlier =>
    ("redefinition of group name " : Text) ++ Text.quoted name ++ " as group " ++
      Text.ofNat index ++ "; was group " ++ Text.ofNat earlier
  | unterminatedSet => "unterminated character set"
  | badRange low high => ("bad character range " : Text) ++ low ++ "-" ++ high
  | nothingToRepeat => "nothing to repeat"
  | multipleRepeat => "multiple repeat"
  | reversedBounds => "min repeat greater than max repeat"
  | hugeRepeat => "the repetition number is too large"
  | longRepeat digits => Numeral.longMessage digits
  | unexpectedEnd => "unexpected end of pattern"
  | unknownExtension mark => ("unknown extension ?" : Text) ++ mark
  | unterminatedComment => "missing ), unterminated comment"
  | unterminatedGroup => "missing ), unterminated subpattern"
  | tooManyBranches => "conditional backref with more than two branches"
  | unbalancedParenthesis => "unbalanced parenthesis"
  | variableLookbehind => "look-behind requires fixed-width pattern"
  | distantLookbehind => "looks too much behind"
  | misplacedFlags => "global flags not at the start of the expression"
  | localeFlag => "bad inline flags: cannot use 'L' flag with a str pattern"
  | clashingFlags => "bad inline flags: flags 'a', 'u' and 'L' are incompatible"
  | clashingLetters => "ASCII and UNICODE flags are incompatible"
  | typeFlagOff => "bad inline flags: cannot turn off flags 'a', 'u' and 'L'"
  | unknownFlag => "unknown flag"
  | missingFlag => "missing flag"
  | missingFlagEnd => "missing -, : or )"
  | missingFlagColon => "missing :"
  | templateOn => "bad inline flags: cannot turn on global flag"
  | templateOff => "bad inline flags: cannot turn off global flag"
  | flagOnAndOff => "bad inline flags: flag turned on and off"
  | templateRepeat manner =>
    ("internal: unsupported template operator " : Text) ++ manner.operator

end Problem

structure Fault where
  problem : Problem
  position : Option Nat
  deriving DecidableEq

namespace Fault

/-- The position counts characters; in an expression of several lines, the line and the column in it
follow. -/
def message (pattern : Text) (f : Fault) : Text :=
  match f.position with
  | none => f.problem.message
  | some position =>
    let (line, column) := pattern.lineAndColumn position
    f.problem.message ++ " at position " ++ Text.ofNat position ++
      if pattern.contains (.char '\n') then
        (" (line " : Text) ++ Text.ofNat line ++ ", column " ++ Text.ofNat column ++ ")"
      else []

/-- Whether the fault is one of the form of the expression.  Counts past a limit of the matcher, and
options that are in order one by one and exclude each other, are faults of other kinds. -/
def isFormal (f : Fault) : Bool :=
  match f.problem with
  | .hugeRepeat | .longRepeat _ | .clashingLetters => false
  | _ => true

end Fault
end Regex
end ResourceFinder
