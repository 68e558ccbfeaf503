import ResourceFinder.Index.Building
import ResourceFinder.Index.Query

/-
Sessions: iterators over indexes, pulled in any order while all else goes on.

In between pulls the files change, builders are made and called, and indexes are built.  Loading is
followed in a world of files that also keeps a list of the locations loaded.
-/

namespace ResourceFinder

/-- The files as they are, and the locations loaded so far. -/
structure World where
  fs : FileSystem
  loaded : List Location

namespace World

def load (w : World) (locations : List Location) : World :=
  { w with loaded := w.loaded ++ locations }

end World

/-- The loader that makes a value of the files as they are, and leaves a trace of it. -/
def Loader.watched {α : Type} (value : FileSystem → Location → Except Fault α) :
    Loader (StateM World) α :=
  fun l => do
    let w ← get
    set (w.load [l])
    return value w.fs l

namespace Pull

variable {α β : Type}

def isItem : Pull α → Bool
  | item _ => true
  | _ => false

def map (f : α → β) : Pull α → Pull β
  | item a => item (f a)
  | failed f => failed f
  | stop => stop

end Pull

/-- What an iterator is opened for, with what its loader makes of the files as they are. -/
inductive Request (α : Type) where
  | locate
  | fetch (value : FileSystem → Location → Except Fault α)
  | fetchOutcomes (value : FileSystem → Location → Except Fault α)

inductive Item (α : Type) where
  | location (l : Location)
  | value (a : α)
  | outcome (o : LoadOutcome α)

inductive Iterator (α : Type) where
  | locations (c : Cursor (StateM World) Location)
  | values (c : Cursor (StateM World) α)
  | outcomes (c : Cursor (StateM World) (LoadOutcome α))

variable {α : Type}

def Request.open (r : Request α) (i : Index) (q : Query) : Except Fault (Iterator α) :=
  match r with
  | .locate => (i.locate q).map .locations
  | .fetch value => (i.fetch q (.watched value)).map .values
  | .fetchOutcomes value => (i.fetchOutcomes q (.watched value)).map .outcomes

/-- A pull whose answer and whose cursor are taken for something else. -/
def Cursor.pullAs {β γ δ : Type} (answerAs : β → γ) (cursorAs : Cursor (StateM World) β → δ)
    (c : Cursor (StateM World) β) : StateM World (Pull γ × δ) := do
  let (answer, c) ← c.pull
  return (answer.map answerAs, cursorAs c)

def Iterator.pull : Iterator α → StateM World (Pull (Item α) × Iterator α)
  | .locations c => c.pullAs .location .locations
  | .values c => c.pullAs .value .values
  | .outcomes c => c.pullAs .outcome .outcomes

/-- A session so far: the files, with the locations loaded, and all that was made. -/
structure Session (α : Type) where
  world : World
  builders : List Builder
  indexes : List Index
  iterators : List (Iterator α)

/-- What can be done next.  Builders, indexes and iterators go by the order in which they were
made; nothing happens to one that is not there. -/
inductive Action (α : Type) where
  | change (f : FileSystem → FileSystem)
  | builder (b : Builder)
  | call (b : Nat) (f : FileSystem → Builder → Builder)
  | build (b : Nat)
  | index (i : Index)
  | open (i : Nat) (q : Query) (r : Request α)
  | pull (k : Nat)

namespace Action

def isPull (k : Nat) : Action α → Bool
  | .pull j => j = k
  | _ => false

def changes : Action α → FileSystem → FileSystem
  | .change f => f
  | _ => id

end Action

namespace Session

def start (fs : FileSystem) : Session α := ⟨⟨fs, []⟩, [], [], []⟩

def step (s : Session α) : Action α → Option (Pull (Item α)) × Session α
  | .change f => (none, { s with world := { s.world with fs := f s.world.fs } })
  | .builder b => (none, { s with builders := s.builders ++ [b] })
  | .call b f => (none, { s with builders := s.builders.modify b (f s.world.fs) })
  | .build b =>
    match (s.builders[b]?).map fun builder : Builder => (builder.build s.world.fs).result with
    | some (.ok i) => (none, { s with indexes := s.indexes ++ [i] })
    | _ => (none, s)
  | .index i => (none, { s with indexes := s.indexes ++ [i] })
  | .open i q r =>
    match (s.indexes[i]?).map (r.open · q) with
    | some (.ok it) => (none, { s with iterators := s.iterators ++ [it] })
    | _ => (none, s)
  | .pull k =>
    match s.iterators[k]? with
    | some it =>
      let ((answer, it), world) := it.pull.run s.world
      (some answer, { s with world, iterators := s.iterators.set k it })
    | none => (none, s)

def run (s : Session α) : List (Action α) → Session α
  | [] => s
  | a :: rest => (s.step a).2.run rest

def answers (k : Nat) (s : Session α) : List (Action α) → List (Pull (Item α))
  | [] => []
  | a :: rest => (if a.isPull k then (s.step a).1.toList else []) ++ answers k (s.step a).2 rest

end Session

end ResourceFinder
