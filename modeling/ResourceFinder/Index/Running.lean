import ResourceFinder.Index.Building

/-
A build as a machine that takes one step at a time.

A scanner is asked for the next candidate of a scan, for the location of a candidate or to close a
scan, and may answer anything each time, candidates without end included.  The scanner of a builder
answers from what its scans hold, which makes the steps those of `Builder.build`.
-/

namespace ResourceFinder
namespace Builder

/-- What a scanner does when it is asked: to go on with a scan, which yields a candidate, ends or
fails; to resolve a candidate; or to close a scan that has not ended. -/
inductive Answer where
  | pulled (x : Except Fault (Option Candidate))
  | resolved (x : Except Fault Location)
  | closed (x : Except Fault Unit)

/-- What is going on in a build: a scan is asked for its next candidate, or a candidate of it is
resolved, and there are roots to come; a scan is closed for a failure; or all is over. -/
inductive Stage where
  | pulling (root : Root) (later : List Root)
  | resolving (root : Root) (c : Candidate) (later : List Root)
  | closing (root : Root) (f : Fault)
  | ended (result : Except Fault Index)

/-- Whether an answer is one to what is asked at some stage. -/
def Stage.asks : Stage → Answer → Bool
  | pulling _ _, .pulled _ => true
  | resolving _ _ _, .resolved _ => true
  | closing _ _, .closed _ => true
  | _, _ => false

structure Running where
  roots : List Root
  stage : Stage
  events : List Event
  resources : List Resource

namespace Running

/-- Starts the scan of the next root, if there is one, and else comes to the end. -/
def enter (b : Running) : List Root → Running
  | root :: later =>
    { b with stage := .pulling root later, events := b.events ++ [.scanning root] }
  | [] =>
    let index := Index.ofResources b.resources
    let summary := Event.indexed index.size b.roots.length (b.events.countP Event.isDropped)
      (b.resources.length - index.size)
    { b with stage := .ended (.ok index), events := b.events ++ [summary] }

def leave (b : Running) (root : Root) : Running := { b with events := b.events ++ [.closed root] }

def fail (b : Running) (f : Fault) : Running := { b with stage := .ended (.error f) }

def step? (b : Running) (a : Answer) : Option Running :=
  match b.stage, a with
  | .pulling root later, .pulled (.ok (some c)) =>
    some { b with stage := .resolving root c later }
  | .pulling root later, .pulled (.ok none) => some ((b.leave root).enter later)
  | .pulling root _, .pulled (.error f) => some ((b.leave root).fail f)
  | .resolving root c later, .resolved (.ok l) =>
    some { b with stage := .pulling root later, resources := b.resources ++ [⟨c.name, l⟩] }
  | .resolving root c later, .resolved (.error (.unresolvable why)) =>
    some { b with stage := .pulling root later, events := b.events ++ [.dropped c.name why] }
  | .resolving root _ _, .resolved (.error f) => some { b with stage := .closing root f }
  | .closing root f, .closed (.ok ()) => some ((b.leave root).fail f)
  | .closing root _, .closed (.error f) => some ((b.leave root).fail f)
  | _, _ => none

def start (roots : List Root) : Running :=
  let b : Running := ⟨roots, .ended (.error .noRoots), [], []⟩
  if roots.isEmpty then b else b.enter roots

def run? (roots : List Root) (answers : List Answer) : Option Running :=
  answers.foldlM step? (start roots)

/-! ## The answers of a scanner -/

/-- The answers up to some failure, and the ones after them if there is none. -/
def andThen (p : Progress) (answers more : List Answer) : List Answer :=
  answers ++ if p.failure.isSome then [] else more

/-- What a scanner answers about a candidate of a scan, about the candidates of one and about a whole
scan. -/
def answersTo (s : Scanner) (root : Root) (c : Candidate) : List Answer :=
  .pulled (.ok (some c)) :: .resolved (s.resolve root c) ::
    if (resolveOne s root c).failure.isSome then [.closed (.ok ())] else []

def answersFor (s : Scanner) (root : Root) : List Candidate → List Answer
  | [] => []
  | c :: rest => andThen (resolveOne s root c) (answersTo s root c) (answersFor s root rest)

def lastPull (scan : Scan) : Except Fault (Option Candidate) :=
  match scan.failure with
  | some f => .error f
  | none => .ok none

def answersOf (s : Scanner) (root : Root) : List Answer :=
  let candidates := (s.scan root).candidates
  andThen (resolveAll s root candidates) (answersFor s root candidates)
    [.pulled (lastPull (s.scan root))]

def answersOfAll (s : Scanner) : List Root → List Answer
  | [] => []
  | root :: rest => andThen (scanRoot s root) (answersOf s root) (answersOfAll s rest)

end Running
end Builder
end ResourceFinder
