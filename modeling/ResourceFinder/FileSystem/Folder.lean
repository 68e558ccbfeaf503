import ResourceFinder.FileSystem.Lookup

/-
The view of a directory that a walk through it has.

Files and links to files come in one list and directories in another, both in the order of their
names.  A link to a directory is in neither: a walk does not follow it, so it comes to an end for
every tree.
-/

namespace ResourceFinder

/-- The names of the files in a directory, and the directories in it. -/
inductive Folder where
  | mk (files : List Text) (folders : List (Text × Folder))

namespace Folder

def files : Folder → List Text
  | mk files _ => files

def folders : Folder → List (Text × Folder)
  | mk _ folders => folders

def empty : Folder := mk [] []

end Folder

namespace FileSystem

/-- Whether a name in a directory stands for a directory, perhaps by way of links. -/
def leadsToDirectory (fs : FileSystem) (place : Place) (name : Text) : Bool :=
  match fs.follow linkLimit place [name] with
  | .ok place => (fs.nodeAt? place).any Node.isDirectory
  | .error _ => false

def fileNames (fs : FileSystem) (place : Place) (entries : List (Text × Node)) : List Text :=
  (entries.map (·.1)).filter (!fs.leadsToDirectory place ·)

mutual

def folderOf (fs : FileSystem) (place : Place) : Node → Folder
  | .directory entries =>
    .mk ((fs.fileNames place entries).mergeSort Text.le)
      ((foldersOf fs place entries).mergeSort fun a b => Text.le a.1 b.1)
  | _ => .empty

def foldersOf (fs : FileSystem) (place : Place) : List (Text × Node) → List (Text × Folder)
  | [] => []
  | (name, .directory below) :: rest =>
    (name, folderOf fs (place ++ [name]) (.directory below)) :: foldersOf fs place rest
  | _ :: rest => foldersOf fs place rest

end

/-- The view of the directory that a path leads to; a path that leads to none has nothing in it. -/
def folder (fs : FileSystem) (p : Path) : Folder :=
  match fs.locate p with
  | .ok place => ((fs.nodeAt? place).map (fs.folderOf place)).getD .empty
  | .error _ => .empty

end FileSystem

namespace Folder

mutual

/-- The paths of all files below a directory, given the names on the way to it. -/
def filesBelow (names : List Text) : Folder → List (List Text)
  | mk files folders => files.map (names ++ [·]) ++ filesBelowAll names folders

def filesBelowAll (names : List Text) : List (Text × Folder) → List (List Text)
  | [] => []
  | (name, folder) :: rest => filesBelow (names ++ [name]) folder ++ filesBelowAll names rest

end

end Folder
end ResourceFinder
