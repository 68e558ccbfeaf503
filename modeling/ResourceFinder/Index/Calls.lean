import ResourceFinder.Index.Building

/-
Calls on a builder.

A call works on its builder, and what it has done to it before it fails stays done.  So a call that
is to add all of its roots or none has to know them before it adds the first.
-/

namespace ResourceFinder
namespace Builder

abbrev Work := ExceptT Fault (StateM Builder)

namespace Work

def ofResult {α : Type} (x : Except Fault α) : Work α := ExceptT.mk (pure x)

/-- What is left of a builder, whether or not the work on it has failed. -/
def outcome (w : Work Unit) (b : Builder) : Except Fault Unit × Builder := w.run.run b

end Work

inductive Call where
  | root (root : Root)
  | directory (path : Text)
  | archive (path : Text)
  | path (path : Text)
  | searchPath (entries : List Text)
  | build

def add (root : Root) : Work Unit := modify (·.addRoot root)

/-- Adds the usable entries of a search path one after the other. -/
def addUsable (fs : FileSystem) (entries : List Text) (r : Refusals := {}) : Work Unit := do
  match (← Work.ofResult (entries.mapM fun entry => searchRoot fs entry r)).filterMap id with
  | [] => throw (.invalidRoot .nothingUsable)
  | usable => usable.forM add

def Call.perform (fs : FileSystem) (c : Call) (r : Refusals := {}) : Work Unit :=
  match c with
  | .root added => add added
  | .directory shown => do add (← Work.ofResult (Root.ofDirectory fs shown r))
  | .archive shown => do add (← Work.ofResult (Root.ofArchive fs shown r))
  | .path shown => do add (← Work.ofResult (Root.ofPath fs shown r))
  | .searchPath entries => addUsable fs entries r
  | .build => do
    let _ ← Work.ofResult ((← get).build fs).result

/-- The builder that a call gives back, or why the call fails. -/
def answer (fs : FileSystem) (b : Builder) (c : Call) (r : Refusals := {}) :
    Except Fault Builder :=
  let (result, left) := (c.perform fs r).outcome b
  result.map fun _ => left

def addDirectory (fs : FileSystem) (b : Builder) (path : Text) (r : Refusals := {}) :
    Except Fault Builder :=
  b.answer fs (.directory path) r

def addArchive (fs : FileSystem) (b : Builder) (path : Text) (r : Refusals := {}) :
    Except Fault Builder :=
  b.answer fs (.archive path) r

def addPath (fs : FileSystem) (b : Builder) (path : Text) (r : Refusals := {}) :
    Except Fault Builder :=
  b.answer fs (.path path) r

def addSearchPath (fs : FileSystem) (b : Builder) (entries : List Text) (r : Refusals := {}) :
    Except Fault Builder :=
  b.answer fs (.searchPath entries) r

def after (fs : FileSystem) (b : Builder) (c : Call) : Builder := ((c.perform fs).outcome b).2

def run (b : Builder) (calls : List (FileSystem × Call)) : Builder :=
  calls.foldl (fun b (fs, c) => b.after fs c) b

end Builder
end ResourceFinder
