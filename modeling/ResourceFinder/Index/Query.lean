import ResourceFinder.Glob.Matcher
import ResourceFinder.Index.Basic
import ResourceFinder.Root.Read

/-
Queries over an index, answered one resource at a time.

A query is a glob pattern or a test of names.  Its answer is a cursor, which holds the resources
that are still to come; pulling on it looks at them up to the next match and loads that one.  A
failure ends a cursor.

Loading is an action, of a monad that is left open: what a cursor loads and when is then a matter of
the actions that pulling on it performs.  The loaders of common formats are actions that read a file
system.
-/

namespace ResourceFinder

/-- A test of names, which may fail instead of giving an answer. -/
abbrev NameTest := Text → Except Fault Bool

inductive Query where
  | glob (pattern : Text)
  | test (accepts : NameTest)
  | other (type : Text)

namespace Query

def accepts : Query → Except Fault NameTest
  | glob pattern =>
    ((Glob.compile pattern).map fun m name => .ok (m.accepts name)).mapError .ofGlob
  | test p => .ok p
  | other type => .error (.noQuery type)

end Query

abbrev Reading := ReaderM FileSystem

def Reading.within {α : Type} (fs : FileSystem) (x : Reading α) : α := (x.run fs).run

abbrev Loader (m : Type → Type) (α : Type) := Location → m (Except Fault α)

structure LoadOutcome (α : Type) where
  location : Location
  result : Except Fault α

namespace LoadOutcome

/-- The value, or the failure together with where it happened.  A location without a URI cannot be
named, which is a failure of its own. -/
def unwrap {α : Type} (o : LoadOutcome α) : Except Fault α :=
  match o.result, o.location.uri with
  | .ok a, _ => .ok a
  | .error f, .ok _ => .error (.load o.location f)
  | .error _, .error f => .error f

end LoadOutcome

structure Cursor (m : Type → Type) (α : Type) where
  rest : List Resource
  accepts : NameTest
  deliver : Loader m α

inductive Pull (α : Type) where
  | item (a : α)
  | failed (f : Fault)
  | stop

/-- The first resource whose name is accepted, and what is after it.  The test is asked about no
name after that one. -/
def firstAccepted (accepts : NameTest) :
    List Resource → Except Fault (Option (Resource × List Resource))
  | [] => .ok none
  | r :: rest => do
    if ← accepts r.name then return some (r, rest) else firstAccepted accepts rest

section

variable {m : Type → Type} [Monad m] {α : Type}

namespace Cursor

def pull (c : Cursor m α) : m (Pull α × Cursor m α) :=
  let ended := { c with rest := [] }
  match firstAccepted c.accepts c.rest with
  | .error f => return (.failed f, ended)
  | .ok none => return (.stop, ended)
  | .ok (some (r, rest)) => do
    match ← c.deliver r.location with
    | .ok a => return (.item a, { c with rest })
    | .error f => return (.failed f, ended)

def drainWith : Nat → Cursor m α → m (List α × Option Fault)
  | 0, _ => return ([], none)
  | pulls + 1, c => do
    match ← c.pull with
    | (.stop, _) => return ([], none)
    | (.failed f, _) => return ([], some f)
    | (.item a, c) =>
      let (items, failure) ← drainWith pulls c
      return (a :: items, failure)

/-- All deliveries, and the failure that ended them, if one did.  A cursor stops after a delivery for
each of its resources at the latest. -/
def drain (c : Cursor m α) : m (List α × Option Fault) := c.drainWith (c.rest.length + 1)

def all (c : Cursor m α) : m (Except Fault (List α)) := do
  match ← c.drain with
  | (items, none) => return .ok items
  | (_, some f) => return .error f

end Cursor

/-- Loads a resource; a failure that concerns it alone is an outcome, and any other one is not. -/
def attempt (load : Loader m α) : Loader m (LoadOutcome α) := fun l => do
  match ← load l with
  | .ok a => return .ok ⟨l, .ok a⟩
  | .error f => return if f.isRecoverable then .ok ⟨l, .error f⟩ else .error f

namespace Index

def locate (i : Index) (q : Query) : Except Fault (Cursor m Location) := do
  return ⟨i.resources, ← q.accepts, fun l => return .ok l⟩

def fetchOutcomes (i : Index) (q : Query) (load : Loader m α) :
    Except Fault (Cursor m (LoadOutcome α)) := do
  return ⟨i.resources, ← q.accepts, attempt load⟩

def fetch (i : Index) (q : Query) (load : Loader m α) : Except Fault (Cursor m α) := do
  return ⟨i.resources, ← q.accepts, fun l => do return (← attempt load l).bind LoadOutcome.unwrap⟩

end Index

end

end ResourceFinder
