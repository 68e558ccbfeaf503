import ResourceFinder.FileSystem.Basic

/-
What a path leads to.

Links are followed on the way and at the end, up to a fixed number of them, so a loop of links is a
problem and not an endless walk.
-/

namespace ResourceFinder
namespace FileSystem

def linkLimit : Nat := 40

def nameLimit : Nat := 255

def pathLimit : Nat := 4096

def isTooLong (name : Text) : Bool :=
  match Uri.octetsFrom 0 name with
  | .ok octets => nameLimit < octets.length
  | .error _ => false

/-- Why a name leads nowhere from a directory that has nothing of that name. -/
def absence (name : Text) : PathProblem := if isTooLong name then .nameTooLong else .missing

/-- The segments that the target of a link leads through; after a slash at the end there must be a
directory, as after a dot. -/
def targetSegments (target : Text) : List Text :=
  let segments := (Text.splitAt '/' target).filter (!·.isEmpty)
  if target.getLast? = some (.char '/') then segments ++ [Path.here] else segments

def linkStart (place : Place) (target : Text) : Place :=
  if target.head? = some (.char '/') then [] else place

/-- The place that segments lead to from a directory, with links followed. -/
def follow (fs : FileSystem) (links : Nat) (place : Place) (way : List Text) :
    Except PathProblem Place :=
  match way with
  | [] => .ok place
  | name :: rest =>
    match fs.nodeAt? place with
    | some (.directory entries) =>
      if name = Path.here then follow fs links place rest
      else if name = Path.up then follow fs links place.dropLast rest
      else match List.lookup name entries with
        | none => .error (absence name)
        | some (.link target) =>
          match links with
          | 0 => .error .linkLoop
          | links + 1 =>
            follow fs links (linkStart place target) (targetSegments target ++ rest)
        | some _ => follow fs links (place ++ [name]) rest
    | some _ => .error .notADirectory
    | none => .error .missing
termination_by (links, way.length)

def locate (fs : FileSystem) (p : Path) : Except PathProblem Place :=
  follow fs linkLimit (fs.startOf p) p.segments

def find (fs : FileSystem) (p : Path) : Except PathProblem Node := do
  match fs.nodeAt? (← fs.locate p) with
  | some n => .ok n
  | none => .error .missing

/-- Whether a path leads to a directory; one that leads nowhere does not. -/
def isDirectory (fs : FileSystem) (p : Path) : Bool :=
  match fs.find p with
  | .ok n => n.isDirectory
  | .error _ => false

def isFile (fs : FileSystem) (p : Path) : Bool :=
  match fs.find p with
  | .ok n => n.isFile
  | .error _ => false

/-- The number of octets of what a path leads to; a directory counts none. -/
def size? (fs : FileSystem) (p : Path) : Option Nat :=
  match fs.find p with
  | .ok (.file content) => some content.length
  | .ok _ => some 0
  | .error _ => none

def read (fs : FileSystem) (p : Path) : Except PathError Bytes :=
  if p.text.contains (.char '\x00') then .error .nullCharacter
  else match fs.find p with
    | .ok (.file content) => .ok content
    | .ok _ => .error (.refused .isADirectory p.text)
    | .error problem => .error (.refused problem p.text)

end FileSystem

/-- What a system refuses beyond what its tree shows: to say what is under a path, for instance since
it may not be looked for, or to open the file there. -/
structure Refusals where
  examining : Path → Option PathProblem := fun _ => none
  opening : Path → Option PathProblem := fun _ => none

/-- The octets that a system knows a path by; no path with a null character, or with a surrogate that
stands for no octet, has any. -/
def Path.octets? (p : Path) : Option Bytes :=
  if p.text.contains (.char '\x00') then none else (Uri.octetsFrom 0 p.text).toOption

namespace FileSystem

/-- What a system says of a path with some octets. -/
def examine (fs : FileSystem) (r : Refusals) (p : Path) (octets : Bytes) :
    Except PathProblem Node :=
  match r.examining p with
  | some problem => .error problem
  | none => if pathLimit ≤ octets.length then .error .nameTooLong else fs.find p

/-- Whether a path leads to a node of some kind, if the system says so. -/
def test (fs : FileSystem) (r : Refusals) (kind : Node → Bool) (p : Path) :
    Except PathError Bool :=
  match p.octets? with
  | none => .ok false
  | some octets =>
    match fs.examine r p octets with
    | .ok n => .ok (kind n)
    | .error problem => if problem.isAbsence then .ok false else .error (.refused problem p.text)

def open? (fs : FileSystem) (r : Refusals) (p : Path) : Option Bytes :=
  match r.opening p, fs.find p with
  | none, .ok (.file octets) => some octets
  | _, _ => none

end FileSystem
end ResourceFinder
