import ResourceFinder.FileSystem.Lookup

/-
Changes to a file system.  Each gives a new value and leaves the old one as it was.
-/

namespace ResourceFinder
namespace Node

/-- Entries with a name set to a node, in its old place or at the end, or taken out. -/
def setEntry (name : Text) (n : Option Node) (entries : List (Text × Node)) :
    List (Text × Node) :=
  match n with
  | none => entries.filter (·.1 != name)
  | some n =>
    if entries.any (·.1 = name) then
      entries.map fun (k, old) => if k = name then (k, n) else (k, old)
    else entries ++ [(name, n)]

def setAt (n : Option Node) : Place → List (Text × Node) → List (Text × Node)
  | [], entries => entries
  | [name], entries => setEntry name n entries
  | name :: rest, entries =>
    entries.map fun (k, old) =>
      match old with
      | directory below => (k, if k = name then directory (setAt n rest below) else old)
      | _ => (k, old)

end Node

namespace FileSystem

def set (fs : FileSystem) (place : Place) (n : Option Node) : FileSystem :=
  { fs with entries := Node.setAt n place fs.entries }

/-- The directory that holds the last segment of a path, and that segment, which is not followed. -/
def holder (fs : FileSystem) (p : Path) : Except PathProblem (Place × Text) := do
  let place ← fs.locate p.parent
  match fs.nodeAt? place with
  | some (.directory _) => .ok (place, p.name)
  | some _ => .error .notADirectory
  | none => .error .missing

def makeDirectory (fs : FileSystem) (p : Path) : Except PathProblem FileSystem := do
  if p.segments.isEmpty || p.name = Path.up then
    let _ ← fs.locate p
    .error .alreadyThere
  else
    let (place, name) ← fs.holder p
    if (fs.nodeAt? (place ++ [name])).isSome then .error .alreadyThere
    else if isTooLong name then .error .nameTooLong
    else .ok (fs.set (place ++ [name]) (some (.directory [])))

/-- Makes a directory and, where they are missing, those above it; one that is there already will
do.  What has been made stays where the rest fails.  `depth` is the number of segments that may be
taken off the path. -/
def makeDirectoriesFrom (fs : FileSystem) (p : Path) :
    (depth : Nat) → FileSystem × Option PathError
  | 0 =>
    match fs.makeDirectory p with
    | .ok fs => (fs, none)
    | .error problem => (fs, if fs.isDirectory p then none else some (.refused problem p.text))
  | depth + 1 =>
    match fs.makeDirectory p with
    | .ok fs => (fs, none)
    | .error .missing =>
      match makeDirectoriesFrom fs p.parent depth with
      | (fs, some e) => (fs, some e)
      | (fs, none) =>
        match fs.makeDirectory p with
        | .ok fs => (fs, none)
        | .error problem => (fs, some (.refused problem p.text))
    | .error problem => (fs, if fs.isDirectory p then none else some (.refused problem p.text))

def makeDirectories (fs : FileSystem) (p : Path) : FileSystem × Option PathError :=
  fs.makeDirectoriesFrom p p.segments.length

/-- The place that a file written under a path gets.  A link at the end is followed, to a place
where nothing need be yet. -/
def target (fs : FileSystem) (links : Nat) (place : Place) (name : Text) :
    Except PathProblem Place :=
  match fs.nodeAt? (place ++ [name]) with
  | some (.link text) =>
    match links with
    | 0 => .error .linkLoop
    | links + 1 => do
      let way := targetSegments text
      let place ← fs.follow links (linkStart place text) way.dropLast
      match fs.nodeAt? place, way.getLast? with
      | some (.directory _), some last =>
        if last = Path.here || last = Path.up then .error .isADirectory
        else fs.target links place last
      | some (.directory _), none => .error .isADirectory
      | some _, _ => .error .notADirectory
      | none, _ => .error .missing
  | _ => .ok (place ++ [name])
termination_by links

def write (fs : FileSystem) (p : Path) (content : Bytes) : Except PathError FileSystem :=
  let outcome : Except PathProblem FileSystem := do
    if p.segments.isEmpty || p.name = Path.up then .error .isADirectory
    else
      let (place, name) ← fs.holder p
      let place ← fs.target linkLimit place name
      match fs.nodeAt? place with
      | some (.directory _) => .error .isADirectory
      | _ =>
        if place.any isTooLong then .error .nameTooLong
        else .ok (fs.set place (some (.file content)))
  outcome.mapError (.refused · p.text)

def makeLink (fs : FileSystem) (p : Path) (text : Text) : Except PathError FileSystem :=
  let outcome : Except PathProblem FileSystem := do
    let (place, name) ← fs.holder p
    if (fs.nodeAt? (place ++ [name])).isSome then .error .alreadyThere
    else if isTooLong name then .error .nameTooLong
    else .ok (fs.set (place ++ [name]) (some (.link text)))
  outcome.mapError (.refused · p.text)

/-- Takes out what a path names: a file, a link as itself, or a directory with all that is below
it. -/
def remove (fs : FileSystem) (p : Path) : Except PathError FileSystem :=
  let outcome : Except PathProblem FileSystem := do
    let (place, name) ← fs.holder p
    match fs.nodeAt? (place ++ [name]) with
    | none => .error .missing
    | some _ => .ok (fs.set (place ++ [name]) none)
  outcome.mapError (.refused · p.text)

def enter (fs : FileSystem) (p : Path) : Except PathError FileSystem := do
  let place ← (fs.locate p).mapError (.refused · p.text)
  match fs.nodeAt? place with
  | some (.directory _) => .ok { fs with current := place }
  | _ => .error (.refused .notADirectory p.text)

end FileSystem
end ResourceFinder
