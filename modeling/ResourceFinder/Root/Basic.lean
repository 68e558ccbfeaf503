import ResourceFinder.Path.Uri

/-
Roots, which hold resources, and locations of resources in them.
-/

namespace ResourceFinder

/-- What a root is: a directory, whose files are resources, or an archive, whose entries are. -/
inductive RootKind where
  | directory
  | archive
  deriving DecidableEq

structure Root where
  kind : RootKind
  path : Path
  deriving DecidableEq

/-- Where a resource is: a root and the resource's name in it. -/
structure Location where
  root : Root
  name : Text
  deriving DecidableEq

namespace Location

def path (l : Location) : Path := l.root.path.joinText l.name

/-- The URI of a resource; only a root with an absolute path has any.  The name of an entry stands
in it as it is, after the URI of the archive. -/
def writeUri (l : Location) : Except Uri.Problem Text :=
  match l.root.kind with
  | .directory => Uri.ofPath l.path
  | .archive => (Uri.ofPath l.root.path).map fun u => ("zip:" : Text) ++ u ++ "!/" ++ l.name

def uri? (l : Location) : Option Text := l.writeUri.toOption

end Location

inductive InvalidRoot where
  | notADirectory (path : Text)
  | archiveMissing (path : Text)
  | notAnArchive (path : Text)
  | missing (path : Text)
  | nothingUsable
  deriving DecidableEq

namespace InvalidRoot

def message : InvalidRoot → Text
  | notADirectory path => ("Not a directory: " : Text) ++ path
  | archiveMissing path => ("Archive not found: " : Text) ++ path
  | notAnArchive path => ("Not a valid archive: " : Text) ++ path
  | missing path => ("Path not found: " : Text) ++ path
  | nothingUsable => "No usable directory or archive in search path"

end InvalidRoot

inductive Unresolvable where
  | notAFile (path : Text)
  | directoryEntry (name : Text)
  | unsafeName (name : Text)
  | reported (message : Text)
  deriving DecidableEq

namespace Unresolvable

def message : Unresolvable → Text
  | notAFile path => ("Not a readable file: " : Text) ++ path
  | directoryEntry name => ("Directory entry: " : Text) ++ name
  | unsafeName name => ("Unsafe entry name: " : Text) ++ name
  | reported message => message

end Unresolvable
end ResourceFinder
