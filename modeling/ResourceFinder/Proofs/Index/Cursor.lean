import Mathlib.Control.Lawful
import ResourceFinder.Index.Session

/-
What pulling on a cursor does, told from what its test finds.

A pull looks at the resources that are left up to the first one accepted, so which resources it has
passed over does not show in what it does: it is decided by the first of the findings that are left,
and leaves the rest of them.
-/

namespace ResourceFinder

/-- What a test finds among resources: those it accepts, and at the end its failure, if it fails on
one of them. -/
def findings (accepts : NameTest) : List Resource → List (Except Fault Resource)
  | [] => []
  | r :: rest =>
    match accepts r.name with
    | .ok true => .ok r :: findings accepts rest
    | .ok false => findings accepts rest
    | .error f => [.error f]

theorem findings_of_total {accepts : NameTest} {p : Text → Bool}
    (h : ∀ name, accepts name = .ok (p name)) (rest : List Resource) :
    findings accepts rest = (rest.filter (p ·.name)).map .ok := by
  induction rest with
  | nil => rfl
  | cons r rest ih =>
    rw [findings, h, List.filter_cons]
    cases p r.name with
    | true => simp [ih]
    | false => simp [ih]

theorem firstAccepted_cases (accepts : NameTest) (rest : List Resource) :
    (findings accepts rest = [] ∧ firstAccepted accepts rest = .ok none) ∨
    (∃ f, findings accepts rest = [.error f] ∧ firstAccepted accepts rest = .error f) ∨
    ∃ r after, findings accepts rest = .ok r :: findings accepts after ∧
      firstAccepted accepts rest = .ok (some (r, after)) := by
  induction rest with
  | nil => exact .inl ⟨rfl, rfl⟩
  | cons r rest ih =>
    rw [findings, firstAccepted]
    cases haccepts : accepts r.name with
    | error f => exact .inr (.inl ⟨f, rfl, rfl⟩)
    | ok b =>
      cases b with
      | true => exact .inr (.inr ⟨r, rest, rfl, rfl⟩)
      | false =>
        -- A name passed over leaves no trace in the findings.
        exact ih

namespace World

@[simp]
theorem load_fs (w : World) (locations : List Location) : (w.load locations).fs = w.fs := rfl

@[simp]
theorem load_nil (w : World) : w.load [] = w := by simp [load]

@[simp]
theorem load_load (w : World) (locations more : List Location) :
    (w.load locations).load more = w.load (locations ++ more) := by simp [load]

end World

namespace Pull

variable {α β : Type}

@[simp]
theorem isItem_map (f : α → β) (p : Pull α) : (p.map f).isItem = p.isItem := by cases p <;> rfl

def ofResult : Except Fault α → Pull α
  | .ok a => item a
  | .error f => failed f

end Pull

/-- What a pull comes to: its answer, and the locations that it loads. -/
structure PullStep (α : Type) where
  answer : Pull α
  loaded : List Location

/-- The pull that comes to a finding, if making a value of a location loads some locations. -/
def pullStep {α : Type} (value : Location → Except Fault α) (loads : Location → List Location) :
    Option (Except Fault Resource) → PullStep α
  | none => ⟨.stop, []⟩
  | some (.error f) => ⟨.failed f, []⟩
  | some (.ok r) => ⟨.ofResult (value r.location), loads r.location⟩

/-- The findings that are left by a pull: those after the first one, as long as there are items. -/
def leftBy {α : Type} (found : List (Except Fault Resource)) (answer : Pull α) :
    List (Except Fault Resource) :=
  if answer.isItem then found.tail else []

/-- A cursor that makes values of the files as they are, loads some locations for each and nothing
else, and has some findings left. -/
structure Cursor.Serves {α : Type} (c : Cursor (StateM World) α)
    (value : FileSystem → Location → Except Fault α) (loads : Location → List Location)
    (found : List (Except Fault Resource)) : Prop where
  delivers : ∀ l w, (c.deliver l).run w = (value w.fs l, w.load (loads l))
  finds : findings c.accepts c.rest = found

/-- A pull is decided by the files and by the first of the findings that are left. -/
theorem Cursor.Serves.run_pull {α : Type} {c : Cursor (StateM World) α}
    {value : FileSystem → Location → Except Fault α} {loads : Location → List Location}
    {found : List (Except Fault Resource)} (h : c.Serves value loads found) (w : World) :
    let step := pullStep (value w.fs) loads found.head?
    ∃ after : Cursor (StateM World) α,
      c.pull.run w = ((step.answer, after), w.load step.loaded) ∧
      after.Serves value loads (leftBy found step.answer) := by
  -- An ended cursor keeps its way of delivering, but has nothing left to deliver.
  have hended : ({ c with rest := [] } : Cursor (StateM World) α).Serves value loads [] :=
    ⟨h.delivers, rfl⟩
  obtain ⟨hfound, hfirst⟩ | ⟨f, hfound, hfirst⟩ | ⟨r, rest, hfound, hfirst⟩ :=
    firstAccepted_cases c.accepts c.rest
  · obtain rfl := hfound.symm.trans h.finds
    refine ⟨_, ?_, hended⟩
    rw [pull, hfirst]
    simp only [List.head?_nil, pullStep, World.load_nil]
    rfl
  · obtain rfl := hfound.symm.trans h.finds
    refine ⟨_, ?_, hended⟩
    rw [pull, hfirst]
    simp only [List.head?_cons, pullStep, World.load_nil]
    rfl
  · obtain rfl := hfound.symm.trans h.finds
    have hdeliver := h.delivers r.location w
    rw [pull, hfirst]
    simp only [List.head?_cons, pullStep]
    cases hvalue : value w.fs r.location with
    | ok a =>
      refine ⟨{ c with rest }, ?_, h.delivers, rfl⟩
      simp only [StateT.run_bind, hdeliver, hvalue]
      rfl
    | error f =>
      refine ⟨_, ?_, hended⟩
      simp only [StateT.run_bind, hdeliver, hvalue]
      rfl

/-! ## The cursors of an index -/

/-- What comes of a location that was loaded with some result. -/
def LoadOutcome.ofResult {α : Type} (l : Location) : Except Fault α → Except Fault (LoadOutcome α)
  | .ok a => .ok ⟨l, .ok a⟩
  | .error f => if f.isRecoverable then .ok ⟨l, .error f⟩ else .error f

namespace Index

variable {α : Type} {q : Query} {accepts : NameTest}

theorem run_attempt (value : FileSystem → Location → Except Fault α) (l : Location) (w : World) :
    (attempt (.watched value) l).run w = (LoadOutcome.ofResult l (value w.fs l), w.load [l]) := by
  unfold attempt Loader.watched LoadOutcome.ofResult
  simp only [StateT.run_bind, StateT.run_get, StateT.run_set, StateT.run_pure, pure_bind]
  cases value w.fs l with
  | ok a => rfl
  | error f => rfl

theorem locate_eq (i : Index) (hq : q.accepts = .ok accepts) :
    ∃ c : Cursor (StateM World) Location, i.locate q = .ok c ∧
      c.Serves (fun _ l => .ok l) (fun _ => []) (findings accepts i.resources) := by
  refine ⟨⟨i.resources, accepts, fun l => return .ok l⟩, ?_, fun l w => ?_, rfl⟩
  · rw [locate, hq]
    rfl
  · rw [World.load_nil]
    rfl

theorem fetchOutcomes_eq (i : Index) (value : FileSystem → Location → Except Fault α)
    (hq : q.accepts = .ok accepts) :
    ∃ c, i.fetchOutcomes q (.watched value) = .ok c ∧
      c.Serves (fun fs l => LoadOutcome.ofResult l (value fs l)) (fun l => [l])
        (findings accepts i.resources) := by
  refine ⟨⟨i.resources, accepts, attempt (.watched value)⟩, ?_, run_attempt value, rfl⟩
  rw [fetchOutcomes, hq]
  rfl

theorem fetch_eq (i : Index) (value : FileSystem → Location → Except Fault α)
    (hq : q.accepts = .ok accepts) :
    ∃ c, i.fetch q (.watched value) = .ok c ∧
      c.Serves (fun fs l => (LoadOutcome.ofResult l (value fs l)).bind LoadOutcome.unwrap)
        (fun l => [l]) (findings accepts i.resources) := by
  refine ⟨⟨i.resources, accepts, fun l => do
    return (← attempt (.watched value) l).bind LoadOutcome.unwrap⟩, ?_, fun l w => ?_, rfl⟩
  · rw [fetch, hq]
    rfl
  · simp only [StateT.run_bind, run_attempt]
    rfl

end Index
end ResourceFinder
