import ResourceFinder.Index.Building
import ResourceFinder.Text.Utf8

/-
What a machine does to a run beyond what the files and the arguments decide.

Its means can be exhausted at any point, for instance by an expression with too many groups in each
other, and its system can refuse what the tree of files would grant.  What is refused and passed over
is as if it were not in the tree, so only refusals that stop something are counted here.
-/

namespace ResourceFinder
namespace CommandLine

inductive Stage where
  | settings
  | test
  | index
  deriving DecidableEq

inductive Interruption where
  | exhausted (message : Text)
  | refused (problem : PathProblem) (path : Text)

def Interruption.fault : Interruption → Fault
  | exhausted message => .exhausted message
  | refused problem path => .path (.refused problem path)

/-- What stops the stages of a run, and after how many events; what stops the making of the output,
and the writing of a file with it; and how many octets standard output takes where it does not take
all of them, and why. -/
structure Machine where
  interrupts : Stage → Option (Nat × Interruption) := fun _ => none
  rendering : Option Fault := none
  writing : Option Fault := none
  standardOutput : Bytes → Option (Nat × Fault) := fun _ => none

namespace Machine

def during {α : Type} (m : Machine) (stage : Stage) (x : Except Fault α) : Except Fault α :=
  match m.interrupts stage with
  | none => x
  | some (_, i) => .error i.fault

def duringIndex {α : Type} (m : Machine) (x : Logged α) : Logged α :=
  match m.interrupts .index with
  | none => x
  | some (n, i) => ⟨x.events.take n, .error i.fault⟩

def duringRendering {α : Type} (m : Machine) (x : Except Fault α) : Except Fault α :=
  match m.rendering with
  | none => x
  | some f => .error f

/-- Writes octets to standard output: those of them that it takes, and why it does not take the
rest. -/
def put (m : Machine) (octets : Bytes) : Bytes × Option Fault :=
  match m.standardOutput octets with
  | none => (octets, none)
  | some (n, f) => (octets.take n, some f)

/-- Writes a text to standard output, nothing of it if not all of it has octets. -/
def print (m : Machine) (t : Text) : Bytes × Option Fault :=
  match Utf8.encode t with
  | .ok octets => m.put octets
  | .error e => ([], some (.surrogates e))

end Machine
end CommandLine
end ResourceFinder
