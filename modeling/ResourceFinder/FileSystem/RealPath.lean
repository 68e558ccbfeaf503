import ResourceFinder.FileSystem.Lookup

/-
The path without links and without dots that leads to the same place.

It exists for a path that leads nowhere too: from the first missing name on, segments are taken as
they are.  Only a loop of links has no such path.
-/

namespace ResourceFinder
namespace FileSystem

/-- Adds segments to a place by their spelling alone. -/
def appendPlainly (place : Place) (way : List Text) : Place :=
  way.foldl (fun place name =>
    if name.isEmpty || name = Path.here then place
    else if name = Path.up then place.dropLast
    else place ++ [name]) place

def linkAt? (fs : FileSystem) (place : Place) : Option Text :=
  match fs.nodeAt? place with
  | some (.link target) => some target
  | _ => none

mutual

def linkCount : Node → Nat
  | .file _ => 0
  | .link _ => 1
  | .directory entries => linkCountAll entries

def linkCountAll : List (Text × Node) → Nat
  | [] => 0
  | (_, n) :: rest => linkCount n + linkCountAll rest

end

/-- A place on the way, and whether the way was relative to the working directory so far. -/
structure Standing where
  place : Place
  relative : Bool
  deriving DecidableEq

def Standing.linkStart (s : Standing) (target : Text) : Standing :=
  if target.head? = some (.char '/') then ⟨[], false⟩ else s

/-- The place that segments lead to, with the links that are being resolved.  A link met again in
the same way while it is being resolved is a loop, and the place is then what is resolved so far
with all the rest after it. -/
def resolveFrom (fs : FileSystem) (fuel : Nat) (active : List Standing) (s : Standing)
    (way : List Text) : Except Place Standing :=
  match way with
  | [] => .ok s
  | name :: rest =>
    if name.isEmpty || name = Path.here then resolveFrom fs fuel active s rest
    else if name = Path.up then
      resolveFrom fs fuel active { s with place := s.place.dropLast } rest
    else
      let next : Standing := { s with place := s.place ++ [name] }
      match fs.linkAt? next.place with
      | none => resolveFrom fs fuel active next rest
      | some target =>
        if active.contains next then .error (appendPlainly next.place rest)
        else match fuel with
          | 0 => .error (appendPlainly next.place rest)
          | fuel + 1 =>
            match resolveFrom fs fuel (next :: active) (s.linkStart target)
                (Text.splitAt '/' target) with
            | .error place => .error (appendPlainly place rest)
            | .ok s => resolveFrom fs (fuel + 1) active s rest
termination_by (fuel, way.length)

/-- The absolute path without links, as far as links can be resolved.  Each link can be met in two
ways at a time. -/
def resolve (fs : FileSystem) (p : Path) : Path :=
  let start : Standing := ⟨fs.startOf p, !p.isAbsolute⟩
  match resolveFrom fs (2 * linkCountAll fs.entries) [] start p.segments with
  | .ok s => ⟨.root, s.place⟩
  | .error place => ⟨.root, place⟩

/-- The absolute path without links that a path stands for, or the path on which a loop of links
shows.  A loop that the rest of the path leaves again does no harm. -/
def realPath (fs : FileSystem) (p : Path) : Except Path Path :=
  let q := fs.resolve p
  match fs.locate q with
  | .error .linkLoop => .error q
  | _ => .ok q

end FileSystem
end ResourceFinder
