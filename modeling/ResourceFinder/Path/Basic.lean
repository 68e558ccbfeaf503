import ResourceFinder.Text.Basic

/-
Paths as texts name them.

Reading a path drops what changes nothing about it: repeated and trailing slashes and segments that
are a single dot.  Two dots stay, since what they lead to depends on links.
-/

namespace ResourceFinder

/-- Where a path starts: at the working directory, at the root, or at the root as two slashes write
it. -/
inductive Anchor where
  | relative
  | root
  | doubleRoot
  deriving DecidableEq

structure Path where
  anchor : Anchor
  segments : List Text
  deriving DecidableEq

namespace Anchor

def text : Anchor → Text
  | relative => []
  | root => "/"
  | doubleRoot => "//"

/-- The start that the slashes at the head of a path announce: more than two count as one. -/
def ofText : Text → Anchor
  | .char '/' :: .char '/' :: .char '/' :: _ => root
  | .char '/' :: .char '/' :: _ => doubleRoot
  | .char '/' :: _ => root
  | _ => relative

end Anchor

namespace Path

def here : Text := "."

def up : Text := ".."

/-- The segments of a text that lead somewhere. -/
def segmentsOf (t : Text) : List Text :=
  (Text.splitAt '/' t).filter fun s => !s.isEmpty && s != here

def ofText (t : Text) : Path := ⟨.ofText t, segmentsOf t⟩

def text (p : Path) : Text :=
  if p.anchor = .relative && p.segments.isEmpty then here
  else p.anchor.text ++ Text.join "/" p.segments

def isAbsolute (p : Path) : Bool := p.anchor != .relative

/-- A path followed from another one; an absolute path leads where it leads from anywhere. -/
def join (base p : Path) : Path :=
  if p.isAbsolute then p else { base with segments := base.segments ++ p.segments }

def joinText (base : Path) (t : Text) : Path := base.join (ofText t)

def child (p : Path) (name : Text) : Path := { p with segments := p.segments ++ [name] }

def below (p : Path) (names : List Text) : Path := { p with segments := p.segments ++ names }

def parent (p : Path) : Path := { p with segments := p.segments.dropLast }

def name (p : Path) : Text := p.segments.getLast?.getD []

def ancestors (p : Path) : List Path :=
  (List.range (p.segments.length + 1)).reverse.map fun k =>
    { p with segments := p.segments.take k }

end Path
end ResourceFinder
