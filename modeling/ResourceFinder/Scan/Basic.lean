import ResourceFinder.Fault

/-
Scanning a root for candidates, and resolving each of them to a location.
-/

namespace ResourceFinder

/-- A resource that a scan found but nobody has looked at: its name, and what its scanner knows it
by, a path in a directory and the name of an entry in an archive. -/
structure Candidate where
  name : Text
  raw : Text
  deriving DecidableEq

/-- The candidates of a scan in order, and the failure that ended it early, if one did. -/
structure Scan where
  candidates : List Candidate
  failure : Option Fault

namespace Scan

def ofCandidates (candidates : List Candidate) : Scan := ⟨candidates, none⟩

def ofFault (f : Fault) : Scan := ⟨[], some f⟩

/-- One scan after another one; a failure is the end of all. -/
def append (a b : Scan) : Scan :=
  match a.failure with
  | some _ => a
  | none => ⟨a.candidates ++ b.candidates, b.failure⟩

end Scan

/-- A way of scanning roots.  Resolving a candidate may fail for that candidate alone, which is an
unresolvable location, or for the whole scan. -/
structure Scanner where
  scan : Root → Scan
  resolve : Root → Candidate → Except Fault Location

end ResourceFinder
