import ResourceFinder.FileSystem.TextFile
import ResourceFinder.Ignore.Matcher

/-
Ignore files: one pattern a line, blank lines and comments between them.
-/

namespace ResourceFinder
namespace Ignore

def isComment : Text → Bool
  | .char '#' :: _ => true
  | _ => false

def patternLines (t : Text) : List Text :=
  t.separatedLines.filter fun line => !line.trim.isEmpty && !isComment line.trim

inductive FileError where
  | file (e : TextFileError)
  | line (e : LineError)
  deriving DecidableEq

/-- The rules of an ignore file; a file that is not there or holds no pattern gives none. -/
def load (fs : FileSystem) (p : Path) : Except FileError (Option Rules) :=
  if !fs.isFile p then .ok none
  else do
    let t ← (fs.readText p).mapError .file
    match patternLines t with
    | [] => return none
    | lines => return some (← (Rules.ofLines lines).mapError .line)

end Ignore
end ResourceFinder
