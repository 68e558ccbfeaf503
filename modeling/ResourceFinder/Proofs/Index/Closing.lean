import ResourceFinder.Index.Running
import ResourceFinder.Proofs.Index.Roots

/-
Scans that are started and closed while an index is built.

Building is told step by step: a scanner is asked for the next candidate of a scan, for the location
of a candidate or to close a scan, and may answer anything each time, candidates without end
included.  The scanners that a builder runs answer from what their scans hold, and the steps they
lead to are the ones that it takes.
-/

namespace ResourceFinder

/-- Whether a scan is started or has ended. -/
def Event.isScan : Event → Bool
  | scanning _ => true
  | closed _ => true
  | _ => false

namespace Builder

namespace Running

theorem isSome_step? (b : Running) (a : Answer) : (b.step? a).isSome = b.stage.asks a := by
  obtain ⟨roots, stage, events, resources⟩ := b
  cases stage with
  | pulling root later =>
    cases a with
    | pulled x => rcases x with f | _ | c <;> rfl
    | resolved x => rfl
    | closed x => rfl
  | resolving root c later =>
    cases a with
    | pulled x => rfl
    | resolved x =>
      cases x with
      | error f => cases f <;> rfl
      | ok l => rfl
    | closed x => rfl
  | closing root f =>
    cases a with
    | pulled x => rfl
    | resolved x => rfl
    | closed x => cases x <;> rfl
  | ended result => cases a <;> rfl

end Running

/-! ## Which scans have been started and which have ended -/

/-- What a scan or a resolution raises, other than that a candidate has no location. -/
def Answer.raised? : Answer → Option Fault
  | pulled (.error f) => some f
  | resolved (.error (.unresolvable _)) => none
  | resolved (.error f) => some f
  | _ => none

/-- What is raised by a scan that is being closed. -/
def Answer.raisedLate? : Answer → Option Fault
  | closed (.error f) => some f
  | _ => none

def Answer.isEnd : Answer → Bool
  | pulled (.ok none) => true
  | _ => false

def raisedIn (answers : List Answer) : List Fault := answers.filterMap Answer.raised?

def raisedLateIn (answers : List Answer) : List Fault := answers.filterMap Answer.raisedLate?

def endsIn (answers : List Answer) : Nat := answers.countP Answer.isEnd

/-- Scans of some roots, each of which ends before the next one is started. -/
def wholeScans (roots : List Root) : List Event :=
  roots.flatMap fun root => [.scanning root, .closed root]

theorem wholeScans_append (roots more : List Root) :
    wholeScans (roots ++ more) = wholeScans roots ++ wholeScans more := by
  simp [wholeScans]

theorem wholeScans_concat (roots : List Root) (root : Root) :
    wholeScans (roots ++ [root]) = wholeScans roots ++ [.scanning root] ++ [.closed root] := by
  simp [wholeScans]

/-- How a build of some roots stands: at which stage, with which scans started and ended, what has
been raised before and while a scan is closed, and how many scans have come to their end. -/
inductive Stands (roots : List Root) :
    Stage → List Event → List Fault → List Fault → Nat → Prop where
  | noRoots (h : roots = []) : Stands roots (.ended (.error .noRoots)) [] [] [] 0
  | pulling {before later : List Root} {root : Root} (h : roots = before ++ root :: later) :
      Stands roots (.pulling root later) (wholeScans before ++ [.scanning root]) [] [] before.length
  | resolving {before later : List Root} {root : Root} (c : Candidate)
      (h : roots = before ++ root :: later) :
      Stands roots (.resolving root c later) (wholeScans before ++ [.scanning root]) [] []
        before.length
  | closing {before later : List Root} {root : Root} (f : Fault)
      (h : roots = before ++ root :: later) :
      Stands roots (.closing root f) (wholeScans before ++ [.scanning root]) [f] [] before.length
  | failed {before later : List Root} {root : Root} {f g : Fault} {late : List Fault}
      (h : roots = before ++ root :: later) (hf : f = late.getLast?.getD g) :
      Stands roots (.ended (.error f)) (wholeScans (before ++ [root])) [g] late before.length
  | built (i : Index) (hne : roots ≠ []) :
      Stands roots (.ended (.ok i)) (wholeScans roots) [] [] roots.length

namespace Running

variable {b b' : Running} {answers : List Answer}

/-- What a build has started and ended so far. -/
def scans (b : Running) : List Event := b.events.filter Event.isScan

/-- How a build stands after some answers. -/
def StandsAfter (b : Running) (answers : List Answer) : Prop :=
  Stands b.roots b.stage b.scans (raisedIn answers) (raisedLateIn answers) (endsIn answers)

theorem scans_leave (b : Running) (root : Root) :
    (b.leave root).scans = b.scans ++ [.closed root] := by
  simp [scans, leave, Event.isScan]

theorem stands_enter {before later : List Root} (hroots : b.roots = before ++ later)
    (hne : b.roots ≠ []) (hscans : b.scans = wholeScans before) :
    Stands b.roots (b.enter later).stage (b.enter later).scans [] [] before.length := by
  cases later with
  | nil =>
    have hsame : (b.enter []).scans = wholeScans b.roots := by
      rw [hroots, List.append_nil, ← hscans]
      simp [scans, enter, Event.isScan]
    rw [hsame, ← List.append_nil before, ← hroots]
    exact .built _ hne
  | cons root later =>
    have hentered : (b.enter (root :: later)).scans = wholeScans before ++ [.scanning root] := by
      rw [← hscans]
      simp [scans, enter, Event.isScan]
    rw [hentered]
    exact .pulling hroots

theorem roots_enter (b : Running) (later : List Root) : (b.enter later).roots = b.roots := by
  cases later <;> rfl

theorem standsAfter_start (roots : List Root) : (start roots).StandsAfter [] := by
  cases roots with
  | nil => exact .noRoots rfl
  | cons root later =>
    let b : Running := ⟨root :: later, .ended (.error .noRoots), [], []⟩
    have hroots : b.roots = [] ++ root :: later := rfl
    exact stands_enter hroots (List.cons_ne_nil root later) rfl

theorem roots_step {a : Answer} (hstep : b.step? a = some b') : b'.roots = b.roots := by
  unfold step? at hstep
  split at hstep
  case h_2 => rw [← Option.some.inj hstep, roots_enter, leave]
  case h_9 => cases hstep
  all_goals rw [← Option.some.inj hstep]; try rfl

/-- What comes of a scan that is asked for its next candidate. -/
theorem stands_pulled {before later : List Root} {root : Root}
    (hroots : b.roots = before ++ root :: later) (hstage : b.stage = .pulling root later)
    (hscans : b.scans = wholeScans before ++ [.scanning root]) {x : Except Fault (Option Candidate)}
    (hstep : b.step? (.pulled x) = some b') :
    Stands b.roots b'.stage b'.scans (raisedIn [.pulled x]) (raisedLateIn [.pulled x])
      (before.length + endsIn [.pulled x]) := by
  have hleft : (b.leave root).scans = wholeScans (before ++ [root]) := by
    rw [scans_leave, hscans, wholeScans_concat]
  unfold step? at hstep
  rw [hstage] at hstep
  match x with
  | .ok (some c) =>
    obtain rfl := Option.some.inj hstep
    show Stands b.roots _ b.scans [] [] before.length
    rw [hscans]
    exact .resolving c hroots
  | .ok none =>
    obtain rfl := Option.some.inj hstep
    have hlength : (before ++ [root]).length = before.length + 1 := by simp
    show Stands b.roots _ _ [] [] (before.length + 1)
    rw [← hlength]
    refine stands_enter (b := b.leave root) ?_ ?_ hleft
    · show b.roots = _
      rw [hroots, List.append_assoc, List.singleton_append]
    · show b.roots ≠ []
      simp [hroots]
  | .error f =>
    obtain rfl := Option.some.inj hstep
    show Stands b.roots _ (b.leave root).scans [f] [] before.length
    rw [hleft]
    exact .failed hroots rfl

theorem step_resolved_error {root : Root} {c : Candidate} {later : List Root}
    (hstage : b.stage = .resolving root c later) {f : Fault} (hf : ∀ why, f ≠ .unresolvable why) :
    b.step? (.resolved (.error f)) = some { b with stage := .closing root f } ∧
      raisedIn [.resolved (.error f)] = [f] := by
  unfold step?
  rw [hstage]
  cases f with
  | unresolvable why => exact absurd rfl (hf why)
  | _ => exact ⟨rfl, rfl⟩

/-- What comes of a candidate that is resolved. -/
theorem stands_resolved {before later : List Root} {root : Root} {c : Candidate}
    (hroots : b.roots = before ++ root :: later) (hstage : b.stage = .resolving root c later)
    (hscans : b.scans = wholeScans before ++ [.scanning root]) {x : Except Fault Location}
    (hstep : b.step? (.resolved x) = some b') :
    Stands b.roots b'.stage b'.scans (raisedIn [.resolved x]) (raisedLateIn [.resolved x])
      before.length := by
  have hfails := hstep
  unfold step? at hstep
  rw [hstage] at hstep
  cases x with
  | ok l =>
    obtain rfl := Option.some.inj hstep
    show Stands b.roots _ b.scans [] [] before.length
    rw [hscans]
    exact .pulling hroots
  | error f =>
    by_cases hwhy : ∃ why, f = .unresolvable why
    · obtain ⟨why, rfl⟩ := hwhy
      obtain rfl := Option.some.inj hstep
      have hsame : (b.events ++ [Event.dropped c.name why]).filter Event.isScan = b.scans := by
        simp [scans, Event.isScan]
      show Stands b.roots _ ((b.events ++ [Event.dropped c.name why]).filter Event.isScan) [] []
        before.length
      rw [hsame, hscans]
      exact .pulling hroots
    · obtain ⟨hstep', hraised⟩ := step_resolved_error hstage fun why hf => hwhy ⟨why, hf⟩
      obtain rfl := Option.some.inj (hstep'.symm.trans hfails)
      rw [hraised]
      show Stands b.roots _ b.scans [f] [] before.length
      rw [hscans]
      exact .closing f hroots

/-- What comes of a scan that is closed. -/
theorem stands_closed {before later : List Root} {root : Root} {g : Fault}
    (hroots : b.roots = before ++ root :: later) (hstage : b.stage = .closing root g)
    (hscans : b.scans = wholeScans before ++ [.scanning root]) {x : Except Fault Unit}
    (hstep : b.step? (.closed x) = some b') :
    Stands b.roots b'.stage b'.scans [g] (raisedLateIn [.closed x]) before.length := by
  have hleft : (b.leave root).scans = wholeScans (before ++ [root]) := by
    rw [scans_leave, hscans, wholeScans_concat]
  unfold step? at hstep
  rw [hstage] at hstep
  cases x with
  | ok =>
    obtain rfl := Option.some.inj hstep
    show Stands b.roots _ (b.leave root).scans [g] [] before.length
    rw [hleft]
    exact .failed hroots rfl
  | error f =>
    obtain rfl := Option.some.inj hstep
    show Stands b.roots _ (b.leave root).scans [g] [f] before.length
    rw [hleft]
    exact .failed hroots rfl

/-- A step leads from where a build stands to where it stands then. -/
theorem StandsAfter.step (h : b.StandsAfter answers) {a : Answer} (hstep : b.step? a = some b') :
    b'.StandsAfter (answers ++ [a]) := by
  have hasks : b.stage.asks a = true := by
    rw [← isSome_step?, hstep]
    rfl
  have hraised : raisedIn (answers ++ [a]) = raisedIn answers ++ raisedIn [a] :=
    List.filterMap_append
  have hlate : raisedLateIn (answers ++ [a]) = raisedLateIn answers ++ raisedLateIn [a] :=
    List.filterMap_append
  have hends : endsIn (answers ++ [a]) = endsIn answers + endsIn [a] := List.countP_append
  unfold StandsAfter at h ⊢
  rw [hraised, hlate, hends, roots_step hstep]
  generalize hstage : b.stage = stage at h hasks
  generalize hscans : b.scans = scans at h
  generalize raisedIn answers = raised at h ⊢
  generalize raisedLateIn answers = late at h ⊢
  generalize endsIn answers = ends at h ⊢
  cases h with
  | noRoots => cases hasks
  | pulling hroots =>
    cases a with
    | pulled x => exact stands_pulled hroots hstage hscans hstep
    | resolved x => cases hasks
    | closed x => cases hasks
  | resolving c hroots =>
    cases a with
    | pulled x => cases hasks
    | resolved x => exact stands_resolved hroots hstage hscans hstep
    | closed x => cases hasks
  | closing g hroots =>
    cases a with
    | pulled x => cases hasks
    | resolved x => cases hasks
    | closed x => exact stands_closed hroots hstage hscans hstep
  | failed => cases hasks
  | built => cases hasks

/-- Whatever a scanner answers, the build stands by it. -/
theorem standsAfter_run {roots : List Root} (h : run? roots answers = some b) :
    b.roots = roots ∧ b.StandsAfter answers := by
  induction answers using List.reverseRecOn generalizing b with
  | nil =>
    obtain rfl := Option.some.inj h
    refine ⟨?_, standsAfter_start roots⟩
    cases roots <;> rfl
  | append_singleton answers a ih =>
    unfold run? at h
    rw [List.foldlM_append] at h
    obtain ⟨b₀, hb₀, hstep⟩ := Option.bind_eq_some_iff.1 h
    obtain ⟨hroots, hstands⟩ := ih hb₀
    have hlast : b₀.step? a = some b := by
      simpa using hstep
    exact ⟨(roots_step hlast).trans hroots, hstands.step hlast⟩

/-! ## The steps that a builder takes -/

def add (b : Running) (p : Progress) : Running :=
  { b with events := b.events ++ p.events, resources := b.resources ++ p.resources }

def settle (b : Running) (root : Root) (p : Progress) : Running :=
  match p.failure with
  | none => b.add p
  | some f => ((b.add p).leave root).fail f

def conclude (b : Running) (later : List Root) (p : Progress) : Running :=
  match p.failure with
  | none => (b.add p).enter later
  | some f => (b.add p).fail f

section

variable {s : Scanner} {root : Root} {later : List Root} {p q : Progress} {f : Fault}
  {more : List Answer}

theorem foldlM_andThen_of_none (h : p.failure = none)
    (hanswers : answers.foldlM step? b = some b') :
    (andThen p answers more).foldlM step? b = more.foldlM step? b' := by
  rw [andThen, h, List.foldlM_append, hanswers]
  rfl

theorem foldlM_andThen_of_some (h : p.failure = some f) :
    (andThen p answers more).foldlM step? b = answers.foldlM step? b := by
  rw [andThen, h]
  simp

theorem append_of_none (h : p.failure = none) :
    p.append q = ⟨p.events ++ q.events, p.resources ++ q.resources, q.failure⟩ := by
  rw [Progress.append, h]

theorem append_of_some (h : p.failure = some f) : p.append q = p := by
  rw [Progress.append, h]

theorem settle_append (h : p.failure = none) :
    (b.settle root p).settle root q = b.settle root (p.append q) := by
  have hp : b.settle root p = b.add p := by
    rw [settle, h]
  rw [hp, append_of_none h]
  simp only [settle, add, List.append_assoc]

theorem conclude_append (h : p.failure = none) :
    b.conclude later (p.append q) = (b.add p).conclude later q := by
  rw [append_of_none h]
  simp only [conclude, add, List.append_assoc]

theorem resolveOne_error {c : Candidate} (hresolve : s.resolve root c = .error f)
    (hf : ∀ why, f ≠ .unresolvable why) : resolveOne s root c = ⟨[], [], some f⟩ := by
  unfold resolveOne
  rw [hresolve]
  cases f with
  | unresolvable why => exact absurd rfl (hf why)
  | _ => rfl

theorem run_answersTo (hstage : b.stage = .pulling root later) (c : Candidate) :
    (answersTo s root c).foldlM step? b = some (b.settle root (resolveOne s root c)) := by
  obtain ⟨roots, stage, events, resources⟩ := b
  obtain rfl : stage = .pulling root later := hstage
  have hpull : step? ⟨roots, .pulling root later, events, resources⟩ (.pulled (.ok (some c))) =
      some ⟨roots, .resolving root c later, events, resources⟩ := rfl
  simp only [answersTo, List.foldlM_cons, hpull, Option.bind_eq_bind, Option.bind_some]
  cases hresolve : s.resolve root c with
  | ok l => simp [resolveOne, hresolve, step?, settle, add]
  | error f =>
    by_cases hwhy : ∃ why, f = .unresolvable why
    · obtain ⟨why, rfl⟩ := hwhy
      simp [resolveOne, hresolve, step?, settle, add]
    · have hf : ∀ why, f ≠ .unresolvable why := fun why hf => hwhy ⟨why, hf⟩
      obtain ⟨hstep, -⟩ := step_resolved_error
        (b := ⟨roots, .resolving root c later, events, resources⟩) rfl hf
      rw [resolveOne_error hresolve hf, hstep]
      simp [step?, settle, add, leave, fail]

theorem run_answersFor (hstage : b.stage = .pulling root later) (candidates : List Candidate) :
    (answersFor s root candidates).foldlM step? b =
      some (b.settle root (resolveAll s root candidates)) := by
  induction candidates generalizing b with
  | nil =>
    show some b = some (b.add ⟨[], [], none⟩)
    simp [add]
  | cons c rest ih =>
    rw [answersFor, resolveAll]
    have hone := run_answersTo (s := s) hstage c
    cases hfailure : (resolveOne s root c).failure with
    | none =>
      have hnext : (b.settle root (resolveOne s root c)).stage = .pulling root later := by
        rw [settle, hfailure]
        exact hstage
      rw [foldlM_andThen_of_none hfailure hone, ih hnext, settle_append hfailure]
    | some f => rw [foldlM_andThen_of_some hfailure, append_of_some hfailure, hone]

theorem run_answersOf (b : Running) (later : List Root) :
    (answersOf s root).foldlM step? (b.enter (root :: later)) =
      some (b.conclude later (scanRoot s root)) := by
  have hcandidates := run_answersFor (s := s) (b := b.enter (root :: later)) rfl
    (s.scan root).candidates
  unfold answersOf scanRoot
  dsimp only
  cases hfailure : (resolveAll s root (s.scan root).candidates).failure with
  | some f =>
    rw [foldlM_andThen_of_some hfailure, hcandidates, append_of_some hfailure]
    simp [settle, conclude, hfailure, add, leave, fail, enter]
  | none =>
    rw [foldlM_andThen_of_none hfailure hcandidates, append_of_none hfailure]
    cases hscan : (s.scan root).failure with
    | none => simp [settle, conclude, hfailure, hscan, add, leave, enter, lastPull, step?]
    | some f => simp [settle, conclude, hfailure, hscan, add, leave, fail, enter, lastPull, step?]

theorem run_answersOfAll (b : Running) (later : List Root) :
    (answersOfAll s later).foldlM step? (b.enter later) =
      some (b.conclude [] (scanRoots s later)) := by
  induction later generalizing b with
  | nil =>
    show some (b.enter []) = some ((b.add ⟨[], [], none⟩).enter [])
    simp [add]
  | cons root rest ih =>
    rw [answersOfAll, scanRoots]
    have hroot : (answersOf s root).foldlM step? (b.enter (root :: rest)) =
        some (b.conclude rest (scanRoot s root)) := run_answersOf b rest
    cases hfailure : (scanRoot s root).failure with
    | none =>
      rw [foldlM_andThen_of_none hfailure hroot, conclude_append hfailure, conclude, hfailure]
      exact ih (b.add (scanRoot s root))
    | some f =>
      rw [foldlM_andThen_of_some hfailure, append_of_some hfailure, hroot, conclude, conclude,
        hfailure]

end

end Running

/-- A build takes the steps that the answers of its scanner lead to. -/
theorem run_of_build (b : Builder) (fs : FileSystem) :
    ∃ r, Running.run? b.roots (Running.answersOfAll (b.scanner fs) b.roots) = some r ∧
      r.stage = .ended (b.build fs).result ∧ r.events = (b.build fs).events := by
  unfold Running.run? Running.start build
  by_cases hroots : b.roots = []
  · rw [hroots]
    exact ⟨_, rfl, rfl, rfl⟩
  · have hempty : b.roots.isEmpty = false := by simpa using hroots
    rw [hempty]
    refine ⟨_, Running.run_answersOfAll _ _, ?_⟩
    simp only [Running.conclude, Bool.false_eq_true, if_false]
    cases (scanRoots (b.scanner fs) b.roots).failure with
    | some f => exact ⟨rfl, by simp [Running.fail, Running.add]⟩
    | none => exact ⟨by simp [Running.enter, Running.add], by simp [Running.enter, Running.add]⟩

theorem Stands.scans_eq {roots : List Root} {stage : Stage} {scans : List Event}
    {raised late : List Fault} {k : Nat} (h : Stands roots stage scans raised late k) :
    (roots = [] → stage = .ended (.error .noRoots) ∧ scans = []) ∧
    ((∀ result, stage ≠ .ended result) → ∃ root, roots[k]? = some root ∧
      scans = wholeScans (roots.take k) ++ [.scanning root]) ∧
    (∀ f, stage = .ended (.error f) → roots ≠ [] →
      k < roots.length ∧ scans = wholeScans (roots.take (k + 1)) ∧
      ∃ g, raised = [g] ∧ f = late.getLast?.getD g) ∧
    ∀ i, stage = .ended (.ok i) → k = roots.length ∧ scans = wholeScans roots ∧ raised = [] := by
  have hopen : ∀ {before later : List Root} {root : Root}, roots = before ++ root :: later →
      roots ≠ [] ∧ ∃ r, roots[before.length]? = some r ∧ wholeScans before ++ [.scanning root] =
        wholeScans (roots.take before.length) ++ [.scanning r] := by
    intro before later root hroots
    subst hroots
    exact ⟨by simp, root, by simp, by simp⟩
  cases h with
  | noRoots hroots =>
    exact ⟨fun _ => ⟨rfl, rfl⟩, fun hgoing => absurd rfl (hgoing _),
      fun _ _ hne => absurd hroots hne, nofun⟩
  | pulling hroots =>
    obtain ⟨hne, hscans⟩ := hopen hroots
    exact ⟨fun hnone => absurd hnone hne, fun _ => hscans, nofun, nofun⟩
  | resolving c hroots =>
    obtain ⟨hne, hscans⟩ := hopen hroots
    exact ⟨fun hnone => absurd hnone hne, fun _ => hscans, nofun, nofun⟩
  | closing g hroots =>
    obtain ⟨hne, hscans⟩ := hopen hroots
    exact ⟨fun hnone => absurd hnone hne, fun _ => hscans, nofun, nofun⟩
  | @failed before later root f g late hroots hf =>
    obtain ⟨hne, -⟩ := hopen hroots
    refine ⟨fun hnone => absurd hnone hne, fun hgoing => absurd rfl (hgoing _), ?_, nofun⟩
    intro f' hf' _
    obtain rfl := Except.error.inj (Stage.ended.inj hf')
    refine ⟨?_, ?_, g, rfl, hf⟩
    · simp [hroots]
    · have htake : roots.take (before.length + 1) = before ++ [root] := by
        rw [hroots, List.append_cons]
        exact List.take_left' (by simp)
      rw [htake]
  | built i hne =>
    exact ⟨fun hnone => absurd hnone hne, fun hgoing => absurd rfl (hgoing _), nofun,
      fun _ _ => ⟨rfl, rfl, rfl⟩⟩

/-! ## What a scanner raises -/

end Builder

/-- What a scanner raises at a root: what comes of the first candidate that fails to resolve for
another reason than that it has no location, or what its scan raises after all of its candidates. -/
inductive Scanner.Raises (s : Scanner) (root : Root) : Fault → Prop where
  | resolution {before after : List Candidate} {c : Candidate} {f : Fault}
      (hcandidates : (s.scan root).candidates = before ++ c :: after)
      (hbefore : ∀ other ∈ before, ∀ f, s.resolve root other = .error f → ∃ why, f = .unresolvable why)
      (hresolve : s.resolve root c = .error f) (hf : ∀ why, f ≠ .unresolvable why) :
      Raises s root f
  | scan {f : Fault}
      (hresolve : ∀ c ∈ (s.scan root).candidates, ∀ f, s.resolve root c = .error f →
        ∃ why, f = .unresolvable why)
      (h : (s.scan root).failure = some f) : Raises s root f

/-- Where a condition does not hold of all items, there is a first one of which it does not. -/
theorem exists_first_not {α : Type} {p : α → Prop} {items : List α} (h : ¬∀ a ∈ items, p a) :
    ∃ before a after, items = before ++ a :: after ∧ (∀ b ∈ before, p b) ∧ ¬p a := by
  induction items with
  | nil => simp at h
  | cons a rest ih =>
    by_cases ha : p a
    · have hrest : ¬∀ b ∈ rest, p b := fun hall => h (List.forall_mem_cons.2 ⟨ha, hall⟩)
      obtain ⟨before, b, after, rfl, hbefore, hb⟩ := ih hrest
      exact ⟨a :: before, b, after, rfl, List.forall_mem_cons.2 ⟨ha, hbefore⟩, hb⟩
    · exact ⟨[], a, rest, rfl, by simp, ha⟩

namespace Builder

section

variable {s : Scanner} {root : Root} {f : Fault}

theorem failure_resolveAll_of_first {before after : List Candidate} {c : Candidate}
    (hbefore : ∀ other ∈ before, ∀ f, s.resolve root other = .error f → ∃ why, f = .unresolvable why)
    (hresolve : s.resolve root c = .error f) (hf : ∀ why, f ≠ .unresolvable why) :
    (resolveAll s root (before ++ c :: after)).failure = some f := by
  induction before with
  | nil =>
    have hone := Running.resolveOne_error hresolve hf
    rw [List.nil_append, resolveAll, hone, Running.append_of_some rfl]
  | cons other rest ih =>
    obtain ⟨hother, hrest⟩ := List.forall_mem_cons.1 hbefore
    rw [List.cons_append, resolveAll, (resources_append (resolveOne_eq hother).2).2]
    exact ih hrest

theorem failure_of_raises (h : s.Raises root f) : (scanRoot s root).failure = some f := by
  show (Progress.append _ _).failure = some f
  cases h with
  | resolution hcandidates hbefore hresolve hf =>
    have hfails : (resolveAll s root (s.scan root).candidates).failure = some f := by
      rw [hcandidates]
      exact failure_resolveAll_of_first hbefore hresolve hf
    rw [Running.append_of_some hfails, hfails]
  | scan hresolve h => rw [(resources_append (resolveAll_eq hresolve).2).2, h]

/-- At a root a scanner raises something, or it does not and is sound there. -/
theorem isSound_or_raises (s : Scanner) (root : Root) : s.IsSound root ∨ ∃ f, s.Raises root f := by
  by_cases hresolve : ∀ c ∈ (s.scan root).candidates, ∀ f, s.resolve root c = .error f →
      ∃ why, f = .unresolvable why
  · cases hscan : (s.scan root).failure with
    | none => exact .inl ⟨hscan, hresolve⟩
    | some f => exact .inr ⟨f, .scan hresolve hscan⟩
  · obtain ⟨before, c, after, hcandidates, hbefore, hc⟩ := exists_first_not hresolve
    push Not at hc
    obtain ⟨f, hfails, hf⟩ := hc
    exact .inr ⟨f, .resolution hcandidates hbefore hfails hf⟩

/-- Nothing that comes of candidates starts or ends a scan. -/
theorem not_isScan_of_resolveAll (s : Scanner) (root : Root) (candidates : List Candidate) :
    (resolveAll s root candidates).events.filter Event.isScan = [] := by
  have hone : ∀ c, (resolveOne s root c).events.filter Event.isScan = [] := by
    intro c
    unfold resolveOne
    split <;> rfl
  induction candidates with
  | nil => rfl
  | cons c rest ih =>
    rw [resolveAll, Progress.append]
    split
    · exact hone c
    · rw [List.filter_append, hone, ih]
      rfl

/-- The scan of a root is started once and ends once, whatever comes of it. -/
theorem scans_scanRoot (s : Scanner) (root : Root) :
    (scanRoot s root).events.filter Event.isScan = wholeScans [root] := by
  have hnone : ((resolveAll s root (s.scan root).candidates).append
      ⟨[], [], (s.scan root).failure⟩).events.filter Event.isScan = [] := by
    rw [Progress.append]
    split
    · exact not_isScan_of_resolveAll s root _
    · rw [List.append_nil]
      exact not_isScan_of_resolveAll s root _
  simp only [scanRoot, List.cons_append, List.filter_cons, Event.isScan, if_true,
    List.filter_append, hnone]
  rfl

theorem scans_scanRoots_of_isSound {roots : List Root} (h : ∀ root ∈ roots, s.IsSound root) :
    (scanRoots s roots).events.filter Event.isScan = wholeScans roots := by
  induction roots with
  | nil => rfl
  | cons root rest ih =>
    obtain ⟨hroot, hrest⟩ := List.forall_mem_cons.1 h
    rw [scanRoots, Running.append_of_none (scanRoot_eq hroot).2, List.filter_append,
      scans_scanRoot, ih hrest, ← wholeScans_append]
    rfl

/-- Scanning roots comes to an end at the first one where the scanner raises something. -/
theorem scanRoots_of_raises {before : List Root} (hbefore : ∀ other ∈ before, s.IsSound other)
    (h : s.Raises root f) (later : List Root) :
    (scanRoots s (before ++ root :: later)).failure = some f ∧
      (scanRoots s (before ++ root :: later)).events.filter Event.isScan =
        wholeScans (before ++ [root]) := by
  induction before with
  | nil =>
    rw [List.nil_append, scanRoots, Running.append_of_some (failure_of_raises h)]
    exact ⟨failure_of_raises h, scans_scanRoot s root⟩
  | cons other rest ih =>
    obtain ⟨hother, hrest⟩ := List.forall_mem_cons.1 hbefore
    obtain ⟨hfailure, hscans⟩ := ih hrest
    rw [List.cons_append, scanRoots, Running.append_of_none (scanRoot_eq hother).2]
    refine ⟨hfailure, ?_⟩
    rw [List.filter_append, scans_scanRoot, hscans, ← wholeScans_append]
    rfl

end

/-- What a build has started and ended. -/
def scansOf (x : Logged Index) : List Event := x.events.filter Event.isScan

/-- A build fails with what the scanner raises first, with the scans up to there, or it comes to an
index with all of them. -/
theorem build_stops (b : Builder) (fs : FileSystem) :
    (b.roots = [] → (b.build fs).result = .error .noRoots ∧ scansOf (b.build fs) = []) ∧
    (∀ before root later f, b.roots = before ++ root :: later →
      (∀ other ∈ before, (b.scanner fs).IsSound other) → (b.scanner fs).Raises root f →
      (b.build fs).result = .error f ∧ scansOf (b.build fs) = wholeScans (before ++ [root])) ∧
    (b.roots ≠ [] → (∀ root ∈ b.roots, (b.scanner fs).IsSound root) →
      (∃ i, (b.build fs).result = .ok i) ∧ scansOf (b.build fs) = wholeScans b.roots) := by
  refine ⟨fun hnone => ?_, fun before root later f hroots hbefore hraises => ?_, fun hne hsound => ?_⟩
  · rw [build_of_no_roots hnone]
    exact ⟨rfl, rfl⟩
  · obtain ⟨hfailure, hscans⟩ := scanRoots_of_raises hbefore hraises later
    have hempty : b.roots.isEmpty = false := by simp [hroots]
    rw [← hroots] at hfailure hscans
    simp only [build, hempty, hfailure, Bool.false_eq_true, if_false, true_and]
    exact hscans
  · refine ⟨⟨_, build_eq hne hsound⟩, ?_⟩
    have hempty : b.roots.isEmpty = false := by simpa using hne
    simp only [build, hempty, (scanRoots_eq hsound).2, Bool.false_eq_true, if_false]
    rw [scansOf, List.filter_append, scans_scanRoots_of_isSound hsound]
    simp [Event.isScan]

/-- A build starts the scans of its roots in their order and has each of them ended or closed just
once before it starts the next one, whatever scans yield or raise, whatever comes of resolving their
candidates, and even if a scan fails when it is closed.  Where something is raised, other than that a
candidate has no location, the scans up to that root have been started and have ended when the build
fails, no others have been started, and what the build fails with is what was raised, unless closing
the scan raises something else then.  Where nothing is raised, all scans have ended when there is an
index.  So it is for a builder's own scanner, whose answers lead to what building gives: at the first
root where the scanner raises something, building ends with just that.  The builder it leaves is the
one that it was called on, to be built from afresh. -/
theorem scans_closed_in_turn (b : Builder) :
    (∀ answers s, Running.run? b.roots answers = some s →
      let k := endsIn answers
      s.roots = b.roots ∧ (∀ a, (s.step? a).isSome = s.stage.asks a) ∧
      (b.roots = [] → s.stage = .ended (.error .noRoots) ∧ s.scans = []) ∧
      ((∀ result, s.stage ≠ .ended result) → ∃ root, b.roots[k]? = some root ∧
        s.scans = wholeScans (b.roots.take k) ++ [.scanning root]) ∧
      (∀ f, s.stage = .ended (.error f) → b.roots ≠ [] →
        k < b.roots.length ∧ s.scans = wholeScans (b.roots.take (k + 1)) ∧
        ∃ g, raisedIn answers = [g] ∧ f = (raisedLateIn answers).getLast?.getD g) ∧
      ∀ i, s.stage = .ended (.ok i) →
        k = b.roots.length ∧ s.scans = wholeScans b.roots ∧ raisedIn answers = []) ∧
    ∀ fs, let scanner := b.scanner fs
      (∃ s, Running.run? b.roots (Running.answersOfAll scanner b.roots) = some s ∧
        s.stage = .ended (b.build fs).result ∧ s.events = (b.build fs).events) ∧
      (∀ root, scanner.IsSound root ∨ ∃ f, scanner.Raises root f) ∧
      (b.roots = [] → (b.build fs).result = .error .noRoots ∧ scansOf (b.build fs) = []) ∧
      (∀ before root later f, b.roots = before ++ root :: later →
        (∀ other ∈ before, scanner.IsSound other) → scanner.Raises root f →
        (b.build fs).result = .error f ∧ scansOf (b.build fs) = wholeScans (before ++ [root])) ∧
      (b.roots ≠ [] → (∀ root ∈ b.roots, scanner.IsSound root) →
        (∃ i, (b.build fs).result = .ok i) ∧ scansOf (b.build fs) = wholeScans b.roots) ∧
      b.after fs .build = b := by
  constructor
  · intro answers s hrun k
    obtain ⟨hroots, hstands⟩ := Running.standsAfter_run hrun
    refine ⟨hroots, s.isSome_step?, ?_⟩
    unfold Running.StandsAfter at hstands
    rw [hroots] at hstands
    exact hstands.scans_eq
  · intro fs scanner
    obtain ⟨hnone, hraises, hsound⟩ := b.build_stops fs
    refine ⟨b.run_of_build fs, isSound_or_raises scanner, hnone, hraises, hsound, ?_⟩
    rw [after_eq]
    simp [accepted]

def threeRoots : Builder where
  scanner _ := ⟨fun _ => .ofCandidates [], fun root c => .ok ⟨root, c.name⟩⟩
  roots := [⟨.directory, ⟨.root, ["a"]⟩⟩, ⟨.archive, ⟨.root, ["b"]⟩⟩, ⟨.directory, ⟨.root, ["c"]⟩⟩]
  distinct := by decide

/-- A candidate of the first root has no location, and resolving one of the second root fails. -/
def failingAnswers : List Answer :=
  [.pulled (.ok (some ⟨"x", "x"⟩)), .resolved (.error (.unresolvable (.reported "gone"))),
    .pulled (.ok none), .pulled (.ok (some ⟨"y", "y"⟩)),
    .resolved (.error (.reported .runtime "boom")), .closed (.ok ())]

/-- The scans of two roots have ended, and the third one has not been started. -/
theorem scans_closed_in_turn_failing :
    ∃ s, Running.run? threeRoots.roots failingAnswers = some s ∧
      s.stage = .ended (.error (.reported .runtime "boom")) ∧
      s.scans = wholeScans [⟨.directory, ⟨.root, ["a"]⟩⟩, ⟨.archive, ⟨.root, ["b"]⟩⟩] := by
  have hrun : (Running.run? threeRoots.roots failingAnswers).map Running.stage =
      some (.ended (.error (.reported .runtime "boom"))) := rfl
  obtain ⟨s, hs, hstage⟩ := Option.map_eq_some_iff.1 hrun
  obtain ⟨-, -, -, -, hfailed, -⟩ := (scans_closed_in_turn threeRoots).1 failingAnswers s hs
  obtain ⟨-, hscans, -⟩ := hfailed _ hstage (by decide)
  exact ⟨s, hs, hstage, hscans⟩

end Builder
end ResourceFinder
