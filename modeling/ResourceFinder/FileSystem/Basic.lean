import ResourceFinder.Path.Uri
import ResourceFinder.Text.Quoted

/-
A file system as a value: a tree of directories, files and symbolic links, with a working directory.
-/

namespace ResourceFinder

/-- A file with its octets, a link with the text it leads to, or a directory with its entries in the
order in which it lists them. -/
inductive Node where
  | file (content : Bytes)
  | link (target : Text)
  | directory (entries : List (Text × Node))

/-- A place in the tree: the names that lead from the root to it. -/
abbrev Place := List Text

structure FileSystem where
  entries : List (Text × Node)
  current : Place

inductive PathProblem where
  | missing
  | alreadyThere
  | notADirectory
  | isADirectory
  | nameTooLong
  | linkLoop
  | other (number : Nat) (message : Text)
  deriving DecidableEq

namespace PathProblem

def number : PathProblem → Nat
  | missing => 2
  | alreadyThere => 17
  | notADirectory => 20
  | isADirectory => 21
  | nameTooLong => 36
  | linkLoop => 40
  | other number _ => number

def message : PathProblem → Text
  | missing => "No such file or directory"
  | alreadyThere => "File exists"
  | notADirectory => "Not a directory"
  | isADirectory => "Is a directory"
  | nameTooLong => "File name too long"
  | linkLoop => "Too many levels of symbolic links"
  | other _ message => message

/-- Whether the problem shows that a path leads nowhere.  Any other one leaves it open. -/
def isAbsence (problem : PathProblem) : Bool := [2, 9, 20, 40].contains problem.number

end PathProblem

inductive PathError where
  | refused (problem : PathProblem) (path : Text)
  | nullCharacter
  deriving DecidableEq

namespace PathError

def message : PathError → Text
  | refused problem path =>
    ("[Errno " : Text) ++ Text.ofNat problem.number ++ "] " ++ problem.message ++ ": " ++
      Text.quoted path
  | nullCharacter => "embedded null byte"

end PathError

namespace Node

def isDirectory : Node → Bool
  | directory _ => true
  | _ => false

def isFile : Node → Bool
  | file _ => true
  | _ => false

def entry? (n : Node) (name : Text) : Option Node :=
  match n with
  | directory entries => List.lookup name entries
  | _ => none

def at? (n : Node) : Place → Option Node
  | [] => some n
  | name :: rest => (n.entry? name).bind (·.at? rest)

end Node

namespace FileSystem

def root (fs : FileSystem) : Node := .directory fs.entries

def nodeAt? (fs : FileSystem) (place : Place) : Option Node := fs.root.at? place

def startOf (fs : FileSystem) (p : Path) : Place :=
  if p.isAbsolute then [] else fs.current

end FileSystem
end ResourceFinder
