import Mathlib.Logic.Basic
import ResourceFinder.CommandLine.Run
import ResourceFinder.Proofs.Index.Failure

/-
How a run of the command ends.

What can stop a run before it has any output is the configuration file, a missing root, a missing
query, the test of names and the index.  A run answers for the first three and for some of the
failures of the last two, with a message and an exit code.  From there on it answers for all.
-/

namespace ResourceFinder
namespace CommandLine

/-- The options that a run goes by: those of the arguments, under the settings that count. -/
def optionsHere (m : Machine) (fs : FileSystem) (o : Options) (explicit : List Text) :
    Except Stop Options :=
  (settingsOn m fs).map fun s => s.elim o (o.under · explicit)

/-- A run that has somewhere to search and something to search for. -/
structure Searches (m : Machine) (fs : FileSystem) (o : Options) (explicit : List Text)
    (used : Options) : Prop where
  options : optionsHere m fs o explicit = .ok used
  roots : used.roots ≠ []
  asked : ¬ (used.patterns = [] ∧ used.regex = none)

namespace Stop

def text : Stop → Text
  | message t => t
  | failure f => f.message

/-- Whether a run says what stopped it. -/
def isAnswered : Stop → Bool
  | message _ => true
  | failure f => isUsersFault f

end Stop

/-- What stops a run before it has any output. -/
inductive Stops (m : Machine) (fs : FileSystem) (o : Options) (explicit : List Text) :
    Stop → Prop where
  | settings {stop : Stop} (h : settingsOn m fs = .error stop) : Stops m fs o explicit stop
  | noRoots {used : Options} (hused : optionsHere m fs o explicit = .ok used)
      (h : used.roots = []) : Stops m fs o explicit (.message noRootsMessage)
  | noPatterns {used : Options} (hused : optionsHere m fs o explicit = .ok used)
      (hroots : used.roots ≠ []) (h : used.patterns = [] ∧ used.regex = none) :
      Stops m fs o explicit (.message noPatternsMessage)
  | test {used : Options} {f : Fault} (hused : Searches m fs o explicit used)
      (h : m.during .test (predicate used.patterns used.regex) = .error f) :
      Stops m fs o explicit (.failure f)
  | index {used : Options} {accepts : Text → Bool} {f : Fault}
      (hused : Searches m fs o explicit used)
      (haccepts : m.during .test (predicate used.patterns used.regex) = .ok accepts)
      (h : (m.duringIndex (Index.ofPaths fs used.scanConfig used.roots)).result = .error f) :
      Stops m fs o explicit (.failure f)

/-! ## The failures -/

inductive TestRefused (patterns : List Text) (regex : Option Text) : Fault → Prop where
  | glob {p : Text} {e : Glob.CompileError} (hp : p ∈ patterns) (h : Glob.compile p = .error e) :
      TestRefused patterns regex (.ofGlob e)
  | expression {t : Text} {g : Regex.Fault} (ht : regex = some t)
      (h : Regex.parse {} t = .error g) : TestRefused patterns regex (.expression t g)

theorem testRefused_of_predicate {patterns : List Text} {regex : Option Text} {f : Fault}
    (h : predicate patterns regex = .error f) : TestRefused patterns regex f := by
  obtain hglobs | ⟨_, -, hregex⟩ := bind_eq_error.1 h
  · obtain ⟨p, hp, hcompile⟩ := mapM_eq_error hglobs
    obtain ⟨e, he, rfl⟩ := mapError_eq_error hcompile
    exact .glob hp he
  · obtain hexpression | ⟨_, -, hdone⟩ := bind_eq_error.1 hregex
    · cases regex with
      | none => cases hexpression
      | some t =>
        obtain hparse | ⟨_, -, hsome⟩ := bind_eq_error.1 hexpression
        · obtain ⟨g, hg, rfl⟩ := mapError_eq_error hparse
          exact .expression rfl hg
        · cases hsome
    · cases hdone

/-- The kinds of failure that a run does not answer for: a count in an expression that is too large
for any text or options in it that exclude each other, a pattern of an ignore file or of the options
that is none, an ignore file that is no text, a path that the system does not say or read what is
under, an archive that cannot be read though it is one, and means that are exhausted. -/
inductive Unanswered : Fault → Prop where
  | expression (t : Text) {g : Regex.Fault} (h : g.isFormal = false) : Unanswered (.expression t g)
  | ignoreLine (e : Ignore.InvalidLine) : Unanswered (.ignoreLine e)
  | encoding (e : DecodeError) : Unanswered (.encoding e)
  | path (e : PathError) : Unanswered (.path e)
  | archive (a : Archive.Fault) : Unanswered (.archive a)
  | exhausted (message : Text) : Unanswered (.exhausted message)

theorem unanswered_fault (i : Interruption) : Unanswered i.fault := by
  cases i with
  | exhausted message => exact .exhausted message
  | refused problem path => exact .path (.refused problem path)

theorem unanswered_expression {t : Text} {g : Regex.Fault}
    (h : isUsersFault (.expression t g) = false) : Unanswered (.expression t g) :=
  .expression t h

theorem unanswered_ignoreLine {e : Ignore.LineError}
    (h : isUsersFault (.ofIgnoreLine e) = false) : Unanswered (.ofIgnoreLine e) := by
  cases e with
  | pattern e => exact .ignoreLine e
  | expression t g => exact unanswered_expression h

theorem unanswered_of_testRefused {patterns : List Text} {regex : Option Text} {f : Fault}
    (h : TestRefused patterns regex f) (hf : isUsersFault f = false) : Unanswered f := by
  cases h with
  | glob hp he =>
    rename_i p e
    cases e with
    | pattern e => cases hf
    | expression t g => exact unanswered_expression hf
  | expression ht hg => exact unanswered_expression hf

theorem unanswered_of_refuses {fs : FileSystem} {config : ScanConfig} {paths : List Text} {f : Fault}
    (h : Index.Refuses fs config paths f) (hf : isUsersFault f = false) : Unanswered f := by
  cases h with
  | pattern hline he => exact unanswered_ignoreLine hf
  | path hpath hroot =>
    cases Root.hinders_of_ofPath hroot with
    | invalid e => cases hf
    | archive a => exact .archive a
    | path e => exact .path e
  | noPaths => cases hf
  | ignoreFile hpath hroot hkind hfile he =>
    rename_i e
    cases e with
    | line e => exact unanswered_ignoreLine hf
    | file e =>
      cases e with
      | path e => exact .path e
      | encoding e => exact .encoding e
  | archive hpath hroot hkind he =>
    obtain ⟨e, rfl⟩ | ⟨a, rfl⟩ := kind_of_archiveEntries he
    · exact .path e
    · exact .archive a

/-! ## The run -/

/-- A stage fails for a reason of its own or since it is interrupted. -/
theorem during_eq_error {α : Type} {m : Machine} {stage : Stage} {x : Except Fault α} {f : Fault}
    (h : m.during stage x = .error f) :
    (∃ n i, m.interrupts stage = some (n, i) ∧ f = i.fault) ∨
      m.interrupts stage = none ∧ x = .error f := by
  unfold Machine.during at h
  cases hstage : m.interrupts stage with
  | none => exact .inr ⟨rfl, by simpa only [hstage] using h⟩
  | some interruption =>
    obtain ⟨n, i⟩ := interruption
    rw [hstage] at h
    exact .inl ⟨n, i, rfl, (Except.error.inj h).symm⟩

theorem result_duringIndex {α : Type} (m : Machine) (x : Logged α) :
    (m.duringIndex x).result = m.during .index x.result := by
  unfold Machine.duringIndex Machine.during
  cases m.interrupts .index <;> rfl

theorem exit_deliver (fs : FileSystem) (o : Options) (log t : Text) (m : Machine) :
    (deliver fs o log t m).exit = .ok 0 ∨ (deliver fs o log t m).exit = .ok 2 := by
  unfold deliver
  split
  case isTrue =>
    split
    · exact .inl rfl
    · exact .inr rfl
  case isFalse =>
    split
    · exact .inl rfl
    · exact .inr rfl

section

variable {m : Machine} {fs : FileSystem} {o : Options} {explicit : List Text}

theorem optionsHere_eq_error {stop : Stop} (h : settingsOn m fs = .error stop) :
    optionsHere m fs o explicit = .error stop := by
  rw [optionsHere, h]
  rfl

theorem Stops.of_settings {stop' : Stop} (h : settingsOn m fs = .error stop') {stop : Stop}
    (hstop : Stops m fs o explicit stop) : stop = stop' := by
  have hnone : optionsHere m fs o explicit = .error stop' := optionsHere_eq_error h
  cases hstop with
  | settings h' => exact Except.error.inj (h'.symm.trans h)
  | noRoots hused => cases hnone.symm.trans hused
  | noPatterns hused => cases hnone.symm.trans hused
  | test hused => cases hnone.symm.trans hused.options
  | index hused => cases hnone.symm.trans hused.options

/-- A run that goes by some options is stopped by what they lack or by a failure. -/
theorem Stops.of_options {used : Options} (h : optionsHere m fs o explicit = .ok used) {stop : Stop}
    (hstop : Stops m fs o explicit stop) :
    used.roots = [] ∧ stop = .message noRootsMessage ∨
    used.roots ≠ [] ∧ (used.patterns = [] ∧ used.regex = none) ∧ stop = .message noPatternsMessage ∨
    Searches m fs o explicit used ∧ ∃ f, stop = .failure f ∧
      (m.during .test (predicate used.patterns used.regex) = .error f ∨
        ∃ accepts, m.during .test (predicate used.patterns used.regex) = .ok accepts ∧
          (m.duringIndex (Index.ofPaths fs used.scanConfig used.roots)).result = .error f) := by
  cases hstop with
  | settings h' => cases h.symm.trans (optionsHere_eq_error h')
  | noRoots hused hroots =>
    obtain rfl := Except.ok.inj (h.symm.trans hused)
    exact .inl ⟨hroots, rfl⟩
  | noPatterns hused hroots hpatterns =>
    obtain rfl := Except.ok.inj (h.symm.trans hused)
    exact .inr (.inl ⟨hroots, hpatterns, rfl⟩)
  | test hused htest =>
    obtain rfl := Except.ok.inj (h.symm.trans hused.options)
    exact .inr (.inr ⟨hused, _, rfl, .inl htest⟩)
  | index hused haccepts hindex =>
    obtain rfl := Except.ok.inj (h.symm.trans hused.options)
    exact .inr (.inr ⟨hused, _, rfl, .inr ⟨_, haccepts, hindex⟩⟩)

theorem Stops.unique {stop stop' : Stop} (h : Stops m fs o explicit stop)
    (h' : Stops m fs o explicit stop') : stop = stop' := by
  cases h with
  | settings hsettings => exact (h'.of_settings hsettings).symm
  | noRoots hused hroots =>
    obtain ⟨-, rfl⟩ | ⟨hsome, -⟩ | ⟨hsearches, -⟩ := h'.of_options hused
    · rfl
    · exact absurd hroots hsome
    · exact absurd hroots hsearches.roots
  | noPatterns hused hroots hpatterns =>
    obtain ⟨hnone, -⟩ | ⟨-, -, rfl⟩ | ⟨hsearches, -⟩ := h'.of_options hused
    · exact absurd hnone hroots
    · rfl
    · exact absurd hpatterns hsearches.asked
  | test hsearches htest =>
    obtain ⟨hnone, -⟩ | ⟨-, hpatterns, -⟩ | ⟨-, f', rfl, htest' | ⟨accepts, haccepts, -⟩⟩ :=
      h'.of_options hsearches.options
    · exact absurd hnone hsearches.roots
    · exact absurd hpatterns hsearches.asked
    · rw [Except.error.inj (htest.symm.trans htest')]
    · cases htest.symm.trans haccepts
  | index hsearches haccepts hindex =>
    obtain ⟨hnone, -⟩ | ⟨-, hpatterns, -⟩ | ⟨-, f', rfl, htest | ⟨accepts, -, hindex'⟩⟩ :=
      h'.of_options hsearches.options
    · exact absurd hnone hsearches.roots
    · exact absurd hpatterns hsearches.asked
    · cases haccepts.symm.trans htest
    · rw [Except.error.inj (hindex.symm.trans hindex')]

/-- A run is stopped, or it is not and all that fails from there on is answered for. -/
theorem search_cases {used : Options} (hused : optionsHere m fs o explicit = .ok used) :
    (∃ stop log, Stops m fs o explicit stop ∧ (used.verbose = false → log = []) ∧
      search fs used m = stop.answer fs log) ∨
    (∀ stop, ¬ Stops m fs o explicit stop) ∧
      ((search fs used m).exit = .ok 0 ∨ (search fs used m).exit = .ok 2) := by
  unfold search
  by_cases hroots : used.roots = []
  · exact .inl ⟨_, [], .noRoots hused hroots, fun _ => rfl, by simp [hroots]⟩
  by_cases hpatterns : used.patterns = [] ∧ used.regex = none
  · refine .inl ⟨_, [], .noPatterns hused hroots hpatterns, fun _ => rfl, ?_⟩
    simp [hroots, hpatterns]
  have hsearches : Searches m fs o explicit used := ⟨hused, hroots, hpatterns⟩
  rw [if_neg (by simpa using hroots), if_neg (by simpa using hpatterns)]
  cases htest : m.during .test (predicate used.patterns used.regex) with
  | error f => exact .inl ⟨.failure f, [], .test hsearches htest, fun _ => rfl, rfl⟩
  | ok accepts =>
    let built := m.duringIndex (Index.ofPaths fs used.scanConfig used.roots)
    cases hindex : built.result with
    | error f =>
      have hlog : used.verbose = false → (if used.verbose then logText built.events else []) = [] :=
        fun hverbose => by simp [hverbose]
      refine .inl ⟨.failure f, _, .index hsearches htest hindex, hlog, ?_⟩
      simp only [built] at hindex ⊢
      simp only [hindex]
    | ok index =>
      -- Nothing that can stop a run is the case, and rendering and delivering answer for themselves.
      refine .inr ⟨fun stop hstop => ?_, ?_⟩
      · obtain ⟨hnone, -⟩ | ⟨-, hnone, -⟩ | ⟨-, f, -, hfails | ⟨_, -, hfails⟩⟩ := hstop.of_options hused
        · exact hroots hnone
        · exact hpatterns hnone
        · cases htest.symm.trans hfails
        · cases hindex.symm.trans hfails
      · simp only [built] at hindex
        simp only [hindex]
        cases m.duringRendering (render fs index accepts used) with
        | error f => exact .inr rfl
        | ok t => exact exit_deliver fs used _ t m

theorem run_eq_search {arguments : List Text} (hread : Options.read arguments = .ok (o, explicit))
    (hversion : o.version = false) {used : Options} (hused : optionsHere m fs o explicit = .ok used) :
    run fs arguments m = search fs used m := by
  unfold optionsHere at hused
  unfold run
  simp only [hread, hversion]
  cases hsettings : settingsOn m fs with
  | error e =>
    rw [hsettings] at hused
    cases hused
  | ok s =>
    rw [hsettings] at hused
    obtain rfl := Except.ok.inj hused
    cases s <;> rfl

theorem verbose_of_optionsHere {used : Options} (hused : optionsHere m fs o explicit = .ok used) :
    used.verbose = o.verbose := by
  unfold optionsHere at hused
  cases hsettings : settingsOn m fs with
  | error e =>
    rw [hsettings] at hused
    cases hused
  | ok s =>
    rw [hsettings] at hused
    obtain rfl := Except.ok.inj hused
    cases s <;> rfl

theorem run_cases {arguments : List Text} (hread : Options.read arguments = .ok (o, explicit))
    (hversion : o.version = false) :
    (∃ stop log, Stops m fs o explicit stop ∧ (o.verbose = false → log = []) ∧
      run fs arguments m = stop.answer fs log) ∨
    (∀ stop, ¬ Stops m fs o explicit stop) ∧
      ((run fs arguments m).exit = .ok 0 ∨ (run fs arguments m).exit = .ok 2) := by
  cases hsettings : settingsOn m fs with
  | error stop =>
    refine .inl ⟨stop, [], .settings hsettings, fun _ => rfl, ?_⟩
    unfold run
    simp [hread, hversion, hsettings]
  | ok s =>
    have hused : optionsHere m fs o explicit = .ok (s.elim o (o.under · explicit)) := by
      rw [optionsHere, hsettings]
      rfl
    rw [run_eq_search hread hversion hused, ← verbose_of_optionsHere hused]
    exact search_cases hused

theorem exit_answer (fs : FileSystem) (stop : Stop) (log : Text) :
    (stop.answer fs log).exit = .ok 1 ∧ stop.isAnswered = true ∨
      ∃ f, (stop.answer fs log).exit = .error f ∧ stop = .failure f ∧ isUsersFault f = false := by
  cases stop with
  | message t => exact .inl ⟨rfl, rfl⟩
  | failure f =>
    cases hf : isUsersFault f with
    | true => exact .inl ⟨by simp [Stop.answer, failed, hf], hf⟩
    | false => exact .inr ⟨f, by simp [Stop.answer, hf], rfl, hf⟩

theorem messages_answer (fs : FileSystem) (stop : Stop) (log : Text) :
    (stop.answer fs log).output = [] ∧ (stop.answer fs log).fs = fs ∧
      (stop.isAnswered = true → (stop.answer fs log).exit = .ok 1 ∧
        (stop.answer fs log).messages = log ++ "Error: " ++ stop.text ++ "\n") ∧
      (stop.isAnswered = false → (stop.answer fs log).messages = log) := by
  cases stop with
  | message t =>
    refine ⟨rfl, rfl, fun _ => ⟨rfl, rfl⟩, fun h => ?_⟩
    cases h
  | failure f =>
    simp only [Stop.isAnswered, Stop.answer]
    cases hf : isUsersFault f with
    | true => simp [failed, Stop.text]
    | false => simp

theorem run_of_help {arguments : List Text} (hread : Options.read arguments = .error .help) :
    run fs arguments m = ⟨.ok 0, (m.print help).1, [], fs⟩ := by
  unfold run
  simp only [hread]

theorem run_of_usage {arguments : List Text} {e : UsageError}
    (hread : Options.read arguments = .error (.usage e)) :
    run fs arguments m = ⟨.ok 2, [], usageMessage e, fs⟩ := by
  unfold run
  simp only [hread]

theorem run_of_version {arguments : List Text}
    (hread : Options.read arguments = .ok (o, explicit)) (hversion : o.version = true) :
    run fs arguments m = printed m versionText fs := by
  unfold run
  simp only [hread, hversion, if_true]

/-- The exit code is 0, 1 or 2, unless a failure stops the run that it does not answer for, or the
version cannot be written. -/
theorem exit_run (m : Machine) (fs : FileSystem) {arguments : List Text}
    (hread : Options.read arguments = .ok (o, explicit)) :
    (∃ code, (run fs arguments m).exit = .ok code ∧ (code = 0 ∨ code = 1 ∨ code = 2)) ∨
      ∃ f, (run fs arguments m).exit = .error f ∧
        (o.version = true ∧ (m.print versionText).2 = some f ∨
          o.version = false ∧ Stops m fs o explicit (.failure f) ∧ isUsersFault f = false) := by
  cases hversion : o.version with
  | true =>
    rw [run_of_version hread hversion, printed]
    rcases m.print versionText with ⟨taken, _ | f⟩
    · exact .inl ⟨0, rfl, by decide⟩
    · exact .inr ⟨f, rfl, .inl ⟨rfl, rfl⟩⟩
  | false =>
    obtain ⟨stop, log, hstop, -, hrun⟩ | ⟨-, hexit | hexit⟩ := run_cases hread hversion
    · rw [hrun]
      obtain ⟨hexit, -⟩ | ⟨f, hexit, rfl, hf⟩ := exit_answer fs stop log
      · exact .inl ⟨1, hexit, by decide⟩
      · exact .inr ⟨f, hexit, .inr ⟨rfl, hstop, hf⟩⟩
    · exact .inl ⟨0, hexit, by decide⟩
    · exact .inl ⟨2, hexit, by decide⟩

theorem run_of_stops {arguments : List Text} (hread : Options.read arguments = .ok (o, explicit))
    (hversion : o.version = false) {stop : Stop} (hstop : Stops m fs o explicit stop) :
    ∃ log, (o.verbose = false → log = []) ∧ run fs arguments m = stop.answer fs log := by
  obtain ⟨stop', log, hstop', hlog, hrun⟩ | ⟨hnone, -⟩ := run_cases hread hversion
  · obtain rfl := hstop.unique hstop'
    exact ⟨log, hlog, hrun⟩
  · exact absurd hstop (hnone stop)

/-- Where a failure that stops a run comes from: the machine, the test of names or the index. -/
inductive Origin (m : Machine) (fs : FileSystem) (o : Options) (explicit : List Text) :
    Fault → Prop where
  | machine {stage : Stage} {n : Nat} {i : Interruption} (h : m.interrupts stage = some (n, i)) :
      Origin m fs o explicit i.fault
  | test {used : Options} {f : Fault} (hused : Searches m fs o explicit used)
      (h : TestRefused used.patterns used.regex f) : Origin m fs o explicit f
  | index {used : Options} {f : Fault} (hused : Searches m fs o explicit used)
      (h : Index.Refuses fs used.scanConfig used.roots f) : Origin m fs o explicit f

theorem origin_of_stops {f : Fault} (h : Stops m fs o explicit (.failure f)) :
    Origin m fs o explicit f := by
  cases h with
  | settings h =>
    unfold settingsOn at h
    split at h
    · obtain ⟨e, -, he⟩ := mapError_eq_error h
      cases he
    · cases h
    case h_3 hinterrupts =>
      obtain rfl := Stop.failure.inj (Except.error.inj h)
      exact .machine hinterrupts
  | test hused htest =>
    obtain ⟨n, i, hinterrupts, rfl⟩ | ⟨-, hrefused⟩ := during_eq_error htest
    · exact .machine hinterrupts
    · exact .test hused (testRefused_of_predicate hrefused)
  | index hused haccepts hindex =>
    rw [result_duringIndex] at hindex
    obtain ⟨n, i, hinterrupts, rfl⟩ | ⟨-, hrefused⟩ := during_eq_error hindex
    · exact .machine hinterrupts
    · exact .index hused (Index.refuses_of_ofPaths hrefused)

theorem unanswered_of_origin {f : Fault} (h : Origin m fs o explicit f)
    (hf : isUsersFault f = false) : Unanswered f := by
  cases h with
  | machine h => exact unanswered_fault _
  | test hused h => exact unanswered_of_testRefused h hf
  | index hused h => exact unanswered_of_refuses h hf

/-- How runs end, on any machine.  The exit code is 0, 1 or 2, unless a failure stops the run that it
does not answer for, or the version is asked for and cannot be written.  A run that is stopped writes
nothing and leaves the file system as it is; if it answers, it does so with a message and code 1, and
if not, it ends with the failure itself, which is one of a few kinds and comes from the machine, from
the test of names or from the index. -/
theorem run_outcome (m : Machine) (fs : FileSystem) {arguments : List Text}
    (hread : Options.read arguments = .ok (o, explicit)) :
    (∀ code, (run fs arguments m).exit = .ok code → code = 0 ∨ code = 1 ∨ code = 2) ∧
    (∀ f, (run fs arguments m).exit = .error f ↔
      o.version = true ∧ (m.print versionText).2 = some f ∨
      o.version = false ∧ Stops m fs o explicit (.failure f) ∧ isUsersFault f = false) ∧
    (o.version = false → ∀ stop, Stops m fs o explicit stop →
      (run fs arguments m).output = [] ∧ (run fs arguments m).fs = fs ∧
      ∃ log : Text, (o.verbose = false → log = []) ∧
        (stop.isAnswered = true → (run fs arguments m).exit = .ok 1 ∧
          (run fs arguments m).messages = log ++ "Error: " ++ stop.text ++ "\n") ∧
        (stop.isAnswered = false → (run fs arguments m).messages = log)) ∧
    ∀ f, Stops m fs o explicit (.failure f) → Origin m fs o explicit f ∧
      (isUsersFault f = false → Unanswered f) := by
  refine ⟨fun code hcode => ?_, fun f => ⟨fun hf => ?_, fun hf => ?_⟩, ?_, fun f hstop =>
    ⟨origin_of_stops hstop, unanswered_of_origin (origin_of_stops hstop)⟩⟩
  · obtain ⟨code', hexit, hcodes⟩ | ⟨f, hexit, -⟩ := exit_run m fs hread
    · obtain rfl := Except.ok.inj (hcode.symm.trans hexit)
      exact hcodes
    · cases hcode.symm.trans hexit
  · obtain ⟨code, hexit, -⟩ | ⟨f', hexit, hreasons⟩ := exit_run m fs hread
    · cases hf.symm.trans hexit
    · obtain rfl := Except.error.inj (hf.symm.trans hexit)
      exact hreasons
  · obtain ⟨hversion, hprint⟩ | ⟨hversion, hstop, hf⟩ := hf
    · rw [run_of_version hread hversion, printed]
      rcases hprinted : m.print versionText with ⟨taken, failure⟩
      rw [hprinted] at hprint
      obtain rfl := hprint
      rfl
    · obtain ⟨log, -, hrun⟩ := run_of_stops hread hversion hstop
      rw [hrun, Stop.answer, if_neg (by simp [hf])]
  · intro hversion stop hstop
    obtain ⟨log, hlog, hrun⟩ := run_of_stops hread hversion hstop
    rw [hrun]
    obtain ⟨houtput, hfs, hanswered, hsilent⟩ := messages_answer fs stop log
    exact ⟨houtput, hfs, log, hlog, hanswered, hsilent⟩

end

/-! ## An exclusion that is no pattern -/

/-- What the arguments `-r res --exclude ! **` give. -/
def bareMark : Options :=
  .ofArguments ⟨[⟨.root, "res"⟩, ⟨.exclude, "!"⟩], ["**"], []⟩

theorem read_bareMark : Options.read ["-r", "res", "--exclude", "!", "**"] =
    .ok (bareMark, ["roots", "exclude"]) := by cbv

theorem settingsHere_empty : settingsHere ⟨[], []⟩ = .ok none := by
  have hnone : Settings.findFrom? ⟨[], []⟩ ⟨.root, []⟩ = none := by cbv
  unfold settingsHere
  rw [hnone]

theorem predicate_anything (m : Machine) (h : m.interrupts .test = none) :
    ∃ accepts, m.during .test (predicate ["**"] none) = .ok accepts := by
  rw [Machine.during, h]
  exact ⟨_, rfl⟩

theorem stops_bareMark :
    Stops {} ⟨[], []⟩ bareMark ["roots", "exclude"] (.failure (.ignoreLine ⟨"!"⟩)) := by
  have hused : optionsHere {} ⟨[], []⟩ bareMark ["roots", "exclude"] = .ok bareMark := by
    simp only [optionsHere, settingsOn, settingsHere_empty]
    rfl
  obtain ⟨accepts, haccepts⟩ := predicate_anything {} rfl
  have hpatterns : Scanner.patternsOf bareMark.scanConfig = .error (.ignoreLine ⟨"!"⟩) := rfl
  refine .index ⟨hused, by decide, by decide⟩ haccepts ?_
  unfold Index.ofPaths Builder.ofConfig
  rw [hpatterns]
  rfl

/-- An exclusion that is no pattern ends a run with that failure, without a word. -/
theorem run_bareMark :
    Options.read ["-r", "res", "--exclude", "!", "**"] = .ok (bareMark, ["roots", "exclude"]) ∧
    (run ⟨[], []⟩ ["-r", "res", "--exclude", "!", "**"]).exit = .error (.ignoreLine ⟨"!"⟩) ∧
    (run ⟨[], []⟩ ["-r", "res", "--exclude", "!", "**"]).messages = [] := by
  obtain ⟨log, hlog, hrun⟩ := run_of_stops read_bareMark rfl stops_bareMark
  have hfault : isUsersFault (.ignoreLine ⟨"!"⟩) = false := rfl
  refine ⟨read_bareMark, ?_, ?_⟩
  · rw [hrun]
    rfl
  · rw [hrun, hlog rfl]
    rfl

theorem run_outcome_bareMark :
    Options.read ["-r", "res", "--exclude", "!", "**"] = .ok (bareMark, ["roots", "exclude"]) ∧
    (run ⟨[], []⟩ ["-r", "res", "--exclude", "!", "**"]).exit = .error (.ignoreLine ⟨"!"⟩) ∧
    Origin {} ⟨[], []⟩ bareMark ["roots", "exclude"] (.ignoreLine ⟨"!"⟩) ∧
    Unanswered (.ignoreLine ⟨"!"⟩) := by
  obtain ⟨-, hexit, -, hreasons⟩ := run_outcome {} ⟨[], []⟩ read_bareMark
  obtain ⟨horigin, hkind⟩ := hreasons _ stops_bareMark
  exact ⟨read_bareMark, (hexit _).2 (.inr ⟨rfl, stops_bareMark, rfl⟩), horigin, hkind rfl⟩

end CommandLine
end ResourceFinder
