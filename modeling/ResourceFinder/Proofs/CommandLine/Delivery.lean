import ResourceFinder.Proofs.CommandLine.Outcome
import ResourceFinder.Proofs.CommandLine.Redirected
import ResourceFinder.Proofs.FileSystem.Update

/-
Where the output of a run goes.

A run makes its whole output before it writes any of it, so two runs that differ in where the output
goes make the same output or end in the same way.  An output file then has all of it or is not
touched.
-/

namespace ResourceFinder

namespace CommandLine

/-! ## One file -/

/-- The file under a path has been given a content.  The directories for it may have been made, and
nothing else has changed.  The path leads to the file, unless its last name stood for a directory
that the path led to by way of too many links. -/
structure FileGiven (fs fs' : FileSystem) (p : Path) (octets : Bytes) (above : FileSystem)
    (place : Place) : Prop where
  directories : fs.AddsDirectories above p.parent
  holder : above.holder p = .ok (place, p.name)
  current : fs'.current = fs.current
  content : fs'.bareAt? (place ++ [p.name]) = some (.file octets)
  others : ∀ q, q ≠ place ++ [p.name] → fs'.bareAt? q = above.bareAt? q
  read : above.leadsToDirectory place p.name = false → fs'.read p = .ok octets

theorem replaceEntry_eq_ok {fs above fs' : FileSystem} {p : Path} {octets : Bytes}
    (hp : p.IsSpelt) (hne : p.segments ≠ []) (hnull : .char '\x00' ∉ p.text)
    (habove : fs.AddsDirectories above p.parent) (h : replaceEntry above p octets = .ok fs') :
    ∃ place, FileGiven fs fs' p octets above place := by
  unfold replaceEntry at h
  split at h
  case isTrue => cases h
  case isFalse hdirectory =>
    cases hholder : above.holder p with
    | error problem =>
      rw [hholder] at h
      cases h
    | ok held =>
      obtain ⟨place, name⟩ := held
      rw [hholder] at h
      obtain rfl := Except.ok.inj h
      obtain ⟨-, rfl, hplace⟩ := FileSystem.holder_eq_ok.1 hholder
      obtain ⟨hname, hold⟩ := FileSystem.not_directory_of_holder hp hne
        (eq_false_of_ne_true hdirectory) hholder
      have hset := FileSystem.bareAt?_set (n := .file octets) (fun _ => rfl) hplace hold
      refine ⟨place, habove, hholder, habove.current, (hset _).trans (if_pos rfl), fun q hq => ?_,
        fun hlead => ?_⟩
      · rw [hset, if_neg hq]
      · have hlocate := FileSystem.locate_set hne hname hholder (n := .file octets) (fun _ => rfl)
          (by simp) hold hlead
        have hcontent := FileSystem.bareAt?_eq_file.1 ((hset _).trans (if_pos rfl))
        unfold FileSystem.read FileSystem.find
        rw [if_neg (by simpa using hnull)]
        simp only [hlocate, bind, Except.bind, hcontent]

theorem null_not_mem_text {p : Path} (hne : p.segments ≠ [])
    (hparent : .char '\x00' ∉ p.parent.text) (hname : .char '\x00' ∉ p.name) :
    .char '\x00' ∉ p.text := by
  rw [Path.mem_text (by decide) (by decide)] at hparent ⊢
  rw [Path.parent_segments_append hne]
  intro ⟨s, hs, hc⟩
  obtain hs | hs := List.mem_append.1 hs
  · exact hparent ⟨s, hs, hc⟩
  · exact hname (List.mem_singleton.1 hs ▸ hc)

/-- A file is replaced as a whole, or at most the directories for it are made. -/
theorem replaceFile_cases (fs : FileSystem) {p : Path} (hp : p.IsSpelt) (t : Text)
    (refusal : Option Fault) :
    (∃ f, (replaceFile fs p t refusal).2 = some f ∧
      fs.AddsDirectories (replaceFile fs p t refusal).1 p.parent) ∨
    (replaceFile fs p t refusal).2 = none ∧ ∃ octets, Utf8.encode t = .ok octets ∧
      (p = nullDevice ∧ (replaceFile fs p t refusal).1 = fs ∨
        p ≠ nullDevice ∧
          ∃ above place, FileGiven fs (replaceFile fs p t refusal).1 p octets above place) := by
  unfold replaceFile
  by_cases hdevice : p = nullDevice
  · rw [if_pos hdevice]
    cases hencode : Utf8.encode t with
    | ok octets => exact .inr ⟨rfl, octets, rfl, .inl ⟨hdevice, rfl⟩⟩
    | error e => exact .inl ⟨_, rfl, .refl fs _⟩
  rw [if_neg hdevice]
  by_cases hne : p.segments = []
  · rw [if_pos (by simpa using hne)]
    exact .inl ⟨_, rfl, .refl fs _⟩
  rw [if_neg (by simpa using hne)]
  by_cases hparent : p.parent.text.contains (.char '\x00') = true
  · rw [if_pos hparent]
    exact .inl ⟨_, rfl, .refl fs _⟩
  rw [if_neg hparent]
  have habove := fs.addsDirectories_makeDirectoriesFrom hp.parent p.parent.segments.length
  rcases hmake : fs.makeDirectories p.parent with ⟨above, _ | e⟩
  · rw [FileSystem.makeDirectories] at hmake
    rw [hmake] at habove
    simp only
    by_cases hname : p.name.contains (.char '\x00') = true
    · rw [if_pos hname]
      exact .inl ⟨_, rfl, habove⟩
    rw [if_neg hname]
    by_cases htooLong : FileSystem.isTooLong p.name = true
    · rw [if_pos htooLong]
      exact .inl ⟨_, rfl, habove⟩
    rw [if_neg htooLong]
    cases refusal with
    | some f => exact .inl ⟨_, rfl, habove⟩
    | none =>
      cases hencode : Utf8.encode t with
      | error e => exact .inl ⟨_, rfl, habove⟩
      | ok octets =>
        simp only [Except.mapError, Except.bind]
        cases hreplace : replaceEntry above p octets with
        | error f => exact .inl ⟨_, rfl, habove⟩
        | ok fs' =>
          have hnull : .char '\x00' ∉ p.text :=
            null_not_mem_text hne (by simpa using hparent) (by simpa using hname)
          obtain ⟨place, hgiven⟩ := replaceEntry_eq_ok hp hne hnull habove hreplace
          exact .inr ⟨rfl, octets, rfl, .inr ⟨hdevice, above, place, hgiven⟩⟩
  · rw [FileSystem.makeDirectories] at hmake
    rw [hmake] at habove
    exact .inl ⟨_, rfl, habove⟩

/-! ## The standard output -/

/-- Standard output has failed a run: some octets at the beginning of a text were taken and then no
more. -/
def Machine.Fails (m : Machine) (t : Text) (taken : Bytes) (f : Fault) : Prop :=
  ∃ octets n, Utf8.encode t = .ok octets ∧ m.standardOutput octets = some (n, f) ∧
    taken = octets.take n

/-- A text is written as a whole, or it has no octets, or standard output fails. -/
theorem print_cases (m : Machine) (t : Text) :
    (∃ octets, Utf8.encode t = .ok octets ∧ m.print t = (octets, none)) ∨
    (∃ f, m.print t = ([], some f) ∧ ∃ e, Utf8.encode t = .error e) ∨
    ∃ taken f, m.print t = (taken, some f) ∧ m.Fails t taken f := by
  unfold Machine.print
  cases hencode : Utf8.encode t with
  | error e => exact .inr (.inl ⟨_, rfl, e, rfl⟩)
  | ok octets =>
    simp only [Machine.put]
    cases hput : m.standardOutput octets with
    | none => exact .inl ⟨octets, rfl, rfl⟩
    | some failure =>
      obtain ⟨n, f⟩ := failure
      exact .inr (.inr ⟨_, f, rfl, octets, n, hencode, hput, rfl⟩)

/-! ## The run -/

structure RunResult.IsEmptyHanded (r : RunResult) (fs : FileSystem) : Prop where
  exit : r.exit ≠ .ok 0
  output : r.output = []
  fs : r.fs = fs

section

variable {m : Machine} {fs : FileSystem}

theorem isEmptyHanded_failed {exit : Nat} (hexit : exit ≠ 0) (log message : Text) :
    (failed exit log message fs).IsEmptyHanded fs :=
  ⟨fun h => hexit (Except.ok.inj h), rfl, rfl⟩

theorem isEmptyHanded_answer (log : Text) (stop : Stop) :
    (stop.answer fs log).IsEmptyHanded fs := by
  obtain ⟨houtput, hfs, -⟩ := messages_answer fs stop log
  refine ⟨fun hexit => ?_, houtput, hfs⟩
  obtain ⟨hanswered, -⟩ | ⟨f, hfailed, -⟩ := exit_answer fs stop log
  · cases hanswered.symm.trans hexit
  · cases hfailed.symm.trans hexit

/-- Wherever the output goes, a search has nothing to deliver, or delivers the same text. -/
theorem search_cases_output (m : Machine) (fs : FileSystem) (o : Options) :
    (∃ r : RunResult, r.IsEmptyHanded fs ∧ ∀ output, search fs { o with output := output } m = r) ∨
      ∃ log t, ∀ output,
        search fs { o with output := output } m =
          deliver fs { o with output := output } log t m := by
  unfold search
  by_cases hroots : o.roots.isEmpty = true
  · simp only [hroots, if_true]
    exact .inl ⟨_, isEmptyHanded_answer _ _, fun _ => rfl⟩
  by_cases hpatterns : (o.patterns.isEmpty && o.regex.isNone) = true
  · simp only [hroots, hpatterns, Bool.false_eq_true, if_true, if_false]
    exact .inl ⟨_, isEmptyHanded_answer _ _, fun _ => rfl⟩
  simp only [hroots, hpatterns]
  cases hpredicate : m.during .test (predicate o.patterns o.regex) with
  | error f => exact .inl ⟨_, isEmptyHanded_answer _ (.failure f), fun _ => rfl⟩
  | ok accepts =>
    have hconfig : ∀ output, ({ o with output := output } : Options).scanConfig = o.scanConfig :=
      fun _ => rfl
    simp only [hconfig]
    cases hindex : (m.duringIndex (Index.ofPaths fs o.scanConfig o.roots)).result with
    | error f => exact .inl ⟨_, isEmptyHanded_answer _ (.failure f), fun _ => rfl⟩
    | ok index =>
      have hrender : ∀ output,
          render fs index accepts { o with output := output } = render fs index accepts o :=
        fun _ => rfl
      simp only [hrender]
      cases hrendered : m.duringRendering (render fs index accepts o) with
      | error f => exact .inl ⟨_, isEmptyHanded_failed (by decide) _ _, fun _ => rfl⟩
      | ok t => exact .inr ⟨_, t, fun _ => rfl⟩

theorem optionsHere_output (o : Options) (explicit : List Text) (output : Text) :
    optionsHere m fs { o with output := output } explicit =
      (optionsHere m fs o explicit).map fun used => { used with output := output } := by
  unfold optionsHere
  cases settingsOn m fs with
  | error e => rfl
  | ok s => cases s <;> rfl

/-- Names given explicitly only matter by which settings they are. -/
theorem optionsHere_congr {explicit explicit' : List Text} (h : SameSettings explicit explicit')
    (o : Options) : optionsHere m fs o explicit' = optionsHere m fs o explicit := by
  have hcontains : ∀ f name, Options.settingName? f = some name →
      explicit'.contains name = explicit.contains name := by
    intro f name hname
    rw [Bool.eq_iff_iff, List.contains_iff_mem, List.contains_iff_mem]
    exact h f name hname
  have hunder : ∀ s, o.under s explicit' = o.under s explicit := by
    intro s
    simp only [Options.under, settle, hcontains .root _ rfl, hcontains .exclude _ rfl,
      hcontains .extendExclude _ rfl, hcontains .noRespectGitignore _ rfl,
      hcontains .filesMaxSize _ rfl]
  simp only [optionsHere, hunder]

/-- Runs with the same options have nothing to deliver, or deliver the same text, wherever their
output goes. -/
theorem run_cases_output (m : Machine) (fs : FileSystem) (o : Options) (explicit : List Text)
    (hversion : o.version = false) :
    (∃ r : RunResult, r.IsEmptyHanded fs ∧ ∀ arguments output explicit',
      Options.read arguments = .ok ({ o with output := output }, explicit') →
        SameSettings explicit explicit' → run fs arguments m = r) ∨
    ∃ log t, ∀ arguments output explicit',
      Options.read arguments = .ok ({ o with output := output }, explicit') →
        SameSettings explicit explicit' →
          run fs arguments m = deliver fs { o with output := output } log t m := by
  cases hsettings : settingsOn m fs with
  | error stop =>
    refine .inl ⟨_, isEmptyHanded_answer [] stop, fun arguments output explicit' hread _ => ?_⟩
    unfold run
    simp [hread, hversion, hsettings]
  | ok s =>
    let used : Options := s.elim o (o.under · explicit)
    have hsearch : ∀ arguments output explicit',
        Options.read arguments = .ok ({ o with output := output }, explicit') →
          SameSettings explicit explicit' →
            run fs arguments m = search fs { used with output := output } m := by
      intro arguments output explicit' hread hsame
      refine run_eq_search hread hversion ?_
      rw [optionsHere_output, optionsHere_congr hsame, optionsHere, hsettings]
      rfl
    obtain ⟨r, hr, hrun⟩ | ⟨log, t, hrun⟩ := search_cases_output m fs used
    · exact .inl ⟨r, hr, fun arguments output explicit' hread hsame =>
        (hsearch arguments output explicit' hread hsame).trans (hrun output)⟩
    · exact .inr ⟨log, t, fun arguments output explicit' hread hsame =>
        (hsearch arguments output explicit' hread hsame).trans (hrun output)⟩

theorem deliver_standardOutput (m : Machine) (fs : FileSystem) {o : Options}
    (h : o.output = Options.standardOutput) (log t : Text) :
    (∀ octets, m.print t = (octets, none) → deliver fs o log t m = ⟨.ok 0, octets, log, fs⟩) ∧
      ∀ taken f, m.print t = (taken, some f) →
        (deliver fs o log t m).exit = .ok 2 ∧ (deliver fs o log t m).output = taken ∧
          (deliver fs o log t m).fs = fs := by
  unfold deliver
  rw [if_pos h]
  refine ⟨fun octets hprint => by rw [hprint], fun taken f hprint => ?_⟩
  rw [hprint]
  exact ⟨rfl, rfl, rfl⟩

/-- Standard output takes all that a text is in octets, or the run is failed by it. -/
theorem deliver_encoded (m : Machine) (fs : FileSystem) {o : Options}
    (h : o.output = Options.standardOutput) (log : Text) {t : Text} {octets : Bytes}
    (hencode : Utf8.encode t = .ok octets) :
    (deliver fs o log t m).output = (m.put octets).1 ∧ (deliver fs o log t m).fs = fs ∧
      ((deliver fs o log t m).exit = .ok 0 ↔ (m.put octets).2 = none) := by
  have hprint : m.print t = m.put octets := by
    rw [Machine.print, hencode]
  obtain ⟨hok, hcut⟩ := deliver_standardOutput m fs h log t
  rw [hprint] at hok hcut
  rcases hput : m.put octets with ⟨taken, _ | f⟩
  · rw [hok taken hput]
    exact ⟨rfl, rfl, by simp⟩
  · obtain ⟨hexit, houtput, hfs⟩ := hcut taken f hput
    exact ⟨houtput, hfs, by simp [hexit]⟩

theorem deliver_file (m : Machine) (fs : FileSystem) {o : Options}
    (h : o.output ≠ Options.standardOutput) (log t : Text) :
    ∃ exit messages, deliver fs o log t m =
        ⟨.ok exit, [], messages, (replaceFile fs (.ofText o.output) t m.writing).1⟩ ∧
      (exit = 0 ↔ (replaceFile fs (.ofText o.output) t m.writing).2 = none) := by
  unfold deliver
  rw [if_neg h]
  rcases hreplace : replaceFile fs (.ofText o.output) t m.writing with ⟨fs', _ | f⟩
  · exact ⟨0, log, rfl, by simp⟩
  · exact ⟨2, _, rfl, by simp⟩

/-- What a run leaves behind that is failed by standard output: the file system as it was, and a
beginning of its output. -/
structure RunResult.IsCutShort (r : RunResult) (m : Machine) (fs : FileSystem) : Prop where
  output : ∃ t f, m.Fails t r.output f
  fs : r.fs = fs

/-- What a run with some options leaves behind.  If the exit code is 0, its whole output can be
encoded and is what any arguments that differ in the output alone write to standard output. -/
theorem run_reads (m : Machine) (fs : FileSystem) {arguments : List Text} {o : Options}
    {explicit : List Text} (hread : Options.read arguments = .ok (o, explicit))
    (hversion : o.version = false) :
    ((run fs arguments m).exit ≠ .ok 0 →
      (run fs arguments m).output = [] ∧ ((run fs arguments m).fs = fs ∨
        o.output ≠ Options.standardOutput ∧
          fs.AddsDirectories (run fs arguments m).fs (Path.ofText o.output).parent) ∨
      o.output = Options.standardOutput ∧ (run fs arguments m).exit = .ok 2 ∧
        (run fs arguments m).IsCutShort m fs) ∧
    ((run fs arguments m).exit = .ok 0 → ∃ t octets, Utf8.encode t = .ok octets ∧
      (∀ arguments', Redirects arguments' o explicit →
        (run fs arguments' m).output = (m.put octets).1 ∧ (run fs arguments' m).fs = fs ∧
          ((run fs arguments' m).exit = .ok 0 ↔ (m.put octets).2 = none)) ∧
      (o.output ≠ Options.standardOutput → (run fs arguments m).output = [] ∧
        (Path.ofText o.output = nullDevice ∧ (run fs arguments m).fs = fs ∨
          Path.ofText o.output ≠ nullDevice ∧ ∃ above place,
            FileGiven fs (run fs arguments m).fs (.ofText o.output) octets above place))) := by
  have hself : SameSettings explicit explicit := fun _ _ _ => Iff.rfl
  obtain ⟨r, hr, hrun⟩ | ⟨log, t, hrun⟩ := run_cases_output m fs o explicit hversion
  · rw [hrun arguments o.output explicit hread hself]
    exact ⟨fun _ => .inl ⟨hr.output, .inl hr.fs⟩, fun h => absurd h hr.exit⟩
  · have hdeliver : run fs arguments m = deliver fs o log t m :=
      hrun arguments o.output explicit hread hself
    have hredirected : ∀ octets, Utf8.encode t = .ok octets → ∀ arguments',
        Redirects arguments' o explicit →
          (run fs arguments' m).output = (m.put octets).1 ∧ (run fs arguments' m).fs = fs ∧
            ((run fs arguments' m).exit = .ok 0 ↔ (m.put octets).2 = none) := by
      rintro octets hencode arguments' ⟨explicit', hread', hsame⟩
      rw [hrun arguments' _ explicit' hread' hsame]
      exact deliver_encoded m fs rfl log hencode
    by_cases houtput : o.output = Options.standardOutput
    · obtain ⟨hok, hcut⟩ := deliver_standardOutput m fs houtput log t
      rw [hdeliver]
      obtain ⟨octets, hencode, hprint⟩ | ⟨f, hprint, -⟩ | ⟨taken, f, hprint, hfails⟩ :=
        print_cases m t
      · rw [hok octets hprint]
        exact ⟨fun h => absurd rfl h, fun _ => ⟨t, octets, hencode, hredirected octets hencode,
          fun h => absurd houtput h⟩⟩
      · obtain ⟨hexit, hnothing, hfs⟩ := hcut [] f hprint
        exact ⟨fun _ => .inl ⟨hnothing, .inl hfs⟩, fun h => by cases hexit.symm.trans h⟩
      · obtain ⟨hexit, htaken, hfs⟩ := hcut taken f hprint
        refine ⟨fun _ => .inr ⟨houtput, hexit, ⟨t, f, ?_⟩, hfs⟩, fun h => by cases hexit.symm.trans h⟩
        rw [htaken]
        exact hfails
    · obtain ⟨exit, messages, hresult, hexit⟩ := deliver_file m fs houtput log t
      rw [hdeliver, hresult]
      obtain ⟨f, hfailed, hadded⟩ | ⟨hdone, octets, hencode, hgiven⟩ :=
        replaceFile_cases fs (Path.isSpelt_ofText o.output) t m.writing
      · refine ⟨fun _ => .inl ⟨rfl, .inr ⟨houtput, hadded⟩⟩, fun h => ?_⟩
        cases hfailed.symm.trans (hexit.1 (Except.ok.inj h))
      · refine ⟨fun h => absurd (congrArg Except.ok (hexit.2 hdone)) h, fun _ => ?_⟩
        exact ⟨t, octets, hencode, hredirected octets hencode, fun _ => ⟨rfl, hgiven⟩⟩

end

/-- Output is all or nothing, but for what standard output itself does.  A run that ends with anything
but code 0 changes no file, though directories for an output file may have been made, and it writes
nothing to standard output, unless that fails under it: then what is there is a beginning of the
output, and the code is 2, or the failure leaves a run that is asked for its version.  A run with code
0 that is given an output file, no device, puts into it exactly what it would write to standard output
with the same arguments otherwise, such arguments being those with one more, and changes no other
file.  A run that is asked for help or for its version answers on standard output and leaves all files
alone, whatever output file it is given. -/
theorem run_all_or_nothing (m : Machine) (fs : FileSystem) (arguments : List Text) :
    let r := run fs arguments m
    (r.exit ≠ .ok 0 → r.output = [] ∧ (r.fs = fs ∨ ∃ o explicit,
        Options.read arguments = .ok (o, explicit) ∧ o.output ≠ Options.standardOutput ∧
          fs.AddsDirectories r.fs (Path.ofText o.output).parent) ∨
      ∃ o explicit, Options.read arguments = .ok (o, explicit) ∧ r.IsCutShort m fs ∧
        (o.version = false ∧ o.output = Options.standardOutput ∧ r.exit = .ok 2 ∨
          o.version = true ∧ ∃ f, r.exit = .error f)) ∧
    (∀ o explicit, Options.read arguments = .ok (o, explicit) → o.version = false →
      r.exit = .ok 0 → o.output ≠ Options.standardOutput → Path.ofText o.output ≠ nullDevice →
      r.output = [] ∧ ∃ t octets above place, Utf8.encode t = .ok octets ∧
        FileGiven fs r.fs (.ofText o.output) octets above place ∧
        (∀ arguments', Redirects arguments' o explicit →
          (run fs arguments' m).output = (m.put octets).1 ∧ (run fs arguments' m).fs = fs ∧
            ((run fs arguments' m).exit = .ok 0 ↔ (m.put octets).2 = none)) ∧
        ∃ before after, arguments = before ++ after ∧
          Redirects (before ++ redirection :: after) o explicit) ∧
    (Options.read arguments = .error .help → r = ⟨.ok 0, (m.print help).1, [], fs⟩) ∧
    ∀ o explicit, Options.read arguments = .ok (o, explicit) → o.version = true →
      r = printed m versionText fs := by
  intro r
  refine ⟨fun hexit => ?_, fun o explicit hread hversion hexit houtput hdevice => ?_, run_of_help,
    fun o explicit => run_of_version⟩
  · cases hread : Options.read arguments with
    | error halt =>
      cases halt with
      | help => exact absurd (congrArg RunResult.exit (run_of_help hread)) hexit
      | usage e =>
        have hrun : r = ⟨.ok 2, [], usageMessage e, fs⟩ := run_of_usage hread
        rw [hrun]
        exact .inl ⟨rfl, .inl rfl⟩
    | ok reading =>
      obtain ⟨o, explicit⟩ := reading
      cases hversion : o.version with
      | true =>
        have hrun : r = printed m versionText fs := run_of_version hread hversion
        rw [hrun, printed] at hexit ⊢
        obtain ⟨octets, -, hprint⟩ | ⟨f, hprint, -⟩ | ⟨taken, f, hprint, hfails⟩ :=
          print_cases m versionText
        · rw [hprint] at hexit
          exact absurd rfl hexit
        · rw [hprint]
          exact .inl ⟨rfl, .inl rfl⟩
        · rw [hprint]
          exact .inr ⟨o, explicit, rfl, ⟨⟨_, f, hfails⟩, rfl⟩, .inr ⟨hversion, f, rfl⟩⟩
      | false =>
        obtain ⟨hnothing, hfs⟩ | ⟨houtput, hcode, hcut⟩ := (run_reads m fs hread hversion).1 hexit
        · exact .inl ⟨hnothing, hfs.imp_right fun h => ⟨o, explicit, rfl, h⟩⟩
        · exact .inr ⟨o, explicit, rfl, hcut, .inl ⟨hversion, houtput, hcode⟩⟩
  · obtain ⟨t, octets, hencode, hsame, hfile⟩ := (run_reads m fs hread hversion).2 hexit
    obtain ⟨hnothing, ⟨hnull, -⟩ | ⟨-, above, place, hgiven⟩⟩ := hfile houtput
    · exact absurd hnull hdevice
    · exact ⟨hnothing, t, octets, above, place, hencode, hgiven, hsame, exists_redirects hread houtput⟩

/-! ## Output files -/

def oneResource : FileSystem := ⟨[("d", .directory [("x", .file [])])], []⟩

def oneArguments : List Text := ["-r", "d", "--exclude", "y", "x"]

def fullMachine : Machine :=
  { standardOutput := fun _ => some (1, .path (.refused (.other 28 "No space left on device") [])) }

theorem run_oneArguments (takes : Bytes → Option (Nat × Fault)) :
    run oneResource oneArguments { standardOutput := takes } =
      deliver oneResource (.ofArguments ⟨[⟨.root, "d"⟩, ⟨.exclude, "y"⟩], ["x"], []⟩) [] "x\n"
        { standardOutput := takes } := by
  cbv

/-- A run for the version is given an output file, but writes to standard output alone; and a run on
a machine with little space left writes the first octet of its output and ends with code 2. -/
theorem run_version_output :
    ((∃ o explicit, Options.read ["--version", "-o", "F"] = .ok (o, explicit) ∧ o.output = "F") ∧
      (run ⟨[], []⟩ ["--version", "-o", "F"]).exit = .ok 0 ∧
      Utf8.encode versionText = .ok (run ⟨[], []⟩ ["--version", "-o", "F"]).output ∧
      versionText ≠ [] ∧
      (run ⟨[], []⟩ ["--version", "-o", "F"]).fs.find (.ofText "F") = .error .missing) ∧
    (run oneResource oneArguments fullMachine).exit = .ok 2 ∧
      (run oneResource oneArguments fullMachine).output = [120] ∧
      (run oneResource oneArguments).output = [120, 10] := by
  obtain ⟨o, explicit, hread, houtput, hversion⟩ : ∃ o explicit,
      Options.read ["--version", "-o", "F"] = .ok (o, explicit) ∧ o.output = "F" ∧
        o.version = true := ⟨_, _, by cbv, rfl, rfl⟩
  have hcut : run oneResource oneArguments fullMachine = _ := run_oneArguments _
  have hwhole : run oneResource oneArguments = _ := run_oneArguments _
  rw [run_of_version hread hversion, hcut, hwhole]
  exact ⟨⟨⟨o, explicit, hread, houtput⟩, by cbv, by cbv, by decide, by cbv⟩, rfl, rfl, rfl⟩

def intoDirectory : List Text := ["-r", "d", "--exclude", "y", "-o", "n/F", "x"]

theorem run_all_or_nothing_oneResource :
    ∃ o explicit, Options.read intoDirectory = .ok (o, explicit) ∧ o.version = false ∧
      (run oneResource intoDirectory).exit = .ok 0 ∧ o.output ≠ Options.standardOutput ∧
      Path.ofText o.output ≠ nullDevice ∧ (run oneResource intoDirectory).output = [] ∧
      ∃ t octets above place, Utf8.encode t = .ok octets ∧
        FileGiven oneResource (run oneResource intoDirectory).fs (.ofText o.output) octets above
          place := by
  have hread : Options.read intoDirectory = .ok (.ofArguments ⟨[⟨.root, "d"⟩, ⟨.exclude, "y"⟩,
      ⟨.output, "n/F"⟩], ["x"], []⟩, ["roots", "exclude"]) := by cbv
  have hexit : (run oneResource intoDirectory).exit = .ok 0 := by cbv
  obtain ⟨-, hfile, -⟩ := run_all_or_nothing {} oneResource intoDirectory
  obtain ⟨hnothing, t, octets, above, place, hencode, hgiven, -⟩ :=
    hfile _ _ hread rfl hexit (by decide) (by decide)
  exact ⟨_, _, hread, rfl, hexit, by decide, by decide, hnothing, t, octets, above, place, hencode,
    hgiven⟩

end CommandLine
end ResourceFinder
