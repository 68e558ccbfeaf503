import ResourceFinder.Proofs.Index.Cursor

/-
What one iterator of a session answers, told from its own side: by the findings in its index when it
was opened, and by the files at each of its own pulls.
-/

namespace ResourceFinder

variable {α : Type}

/-! ## One iterator -/

namespace Request

def value (r : Request α) (fs : FileSystem) (l : Location) : Except Fault (Item α) :=
  match r with
  | .locate => .ok (.location l)
  | .fetch value => ((LoadOutcome.ofResult l (value fs l)).bind LoadOutcome.unwrap).map .value
  | .fetchOutcomes value => (LoadOutcome.ofResult l (value fs l)).map .outcome

def loads (r : Request α) (l : Location) : List Location :=
  match r with
  | .locate => []
  | _ => [l]

end Request

theorem pullStep_map {β γ : Type} (f : β → γ) (value : Location → Except Fault β)
    (loads : Location → List Location) (next : Option (Except Fault Resource)) :
    pullStep (fun l => (value l).map f) loads next =
      ⟨(pullStep value loads next).answer.map f, (pullStep value loads next).loaded⟩ := by
  match next with
  | none => rfl
  | some (.error _) => rfl
  | some (.ok r) =>
    simp only [pullStep]
    cases value r.location <;> rfl

theorem Cursor.Serves.run_pullAs {β γ δ : Type} {c : Cursor (StateM World) β}
    {value : FileSystem → Location → Except Fault β} {loads : Location → List Location}
    {found : List (Except Fault Resource)} (h : c.Serves value loads found) (answerAs : β → γ)
    (cursorAs : Cursor (StateM World) β → δ) (w : World) :
    let step := pullStep (fun l => (value w.fs l).map answerAs) loads found.head?
    ∃ after : Cursor (StateM World) β,
      (c.pullAs answerAs cursorAs).run w = ((step.answer, cursorAs after), w.load step.loaded) ∧
      after.Serves value loads (leftBy found step.answer) := by
  obtain ⟨after, hpull, hafter⟩ := h.run_pull w
  simp only [pullStep_map]
  refine ⟨after, ?_, ?_⟩
  · simp only [pullAs, StateT.run_bind, hpull]
    rfl
  · rwa [leftBy, Pull.isItem_map]

namespace Iterator

/-- An iterator that was opened for a request and has some findings left. -/
def Serves : Iterator α → Request α → List (Except Fault Resource) → Prop
  | .locations c, .locate, found => c.Serves (fun _ l => .ok l) (fun _ => []) found
  | .values c, .fetch value, found =>
    c.Serves (fun fs l => (LoadOutcome.ofResult l (value fs l)).bind LoadOutcome.unwrap)
      (fun l => [l]) found
  | .outcomes c, .fetchOutcomes value, found =>
    c.Serves (fun fs l => LoadOutcome.ofResult l (value fs l)) (fun l => [l]) found
  | _, _, _ => False

theorem serves_of_open {r : Request α} {i : Index} {q : Query} {accepts : NameTest}
    (hq : q.accepts = .ok accepts) :
    ∃ it, r.open i q = .ok it ∧ it.Serves r (findings accepts i.resources) := by
  cases r with
  | locate =>
    obtain ⟨c, hc, hserves⟩ := i.locate_eq hq
    exact ⟨.locations c, by rw [Request.open, hc]; rfl, hserves⟩
  | fetch value =>
    obtain ⟨c, hc, hserves⟩ := i.fetch_eq value hq
    exact ⟨.values c, by rw [Request.open, hc]; rfl, hserves⟩
  | fetchOutcomes value =>
    obtain ⟨c, hc, hserves⟩ := i.fetchOutcomes_eq value hq
    exact ⟨.outcomes c, by rw [Request.open, hc]; rfl, hserves⟩

theorem open_of_error {r : Request α} {i : Index} {q : Query} {f : Fault}
    (hq : q.accepts = .error f) : r.open i q = .error f := by
  cases r with
  | locate =>
    rw [Request.open, Index.locate, hq]
    rfl
  | fetch value =>
    rw [Request.open, Index.fetch, hq]
    rfl
  | fetchOutcomes value =>
    rw [Request.open, Index.fetchOutcomes, hq]
    rfl

/-- A pull is decided by the files and by the first of the findings that are left. -/
theorem Serves.run_pull {it : Iterator α} {r : Request α} {found : List (Except Fault Resource)}
    (h : it.Serves r found) (w : World) :
    let step := pullStep (r.value w.fs) r.loads found.head?
    ∃ after : Iterator α, it.pull.run w = ((step.answer, after), w.load step.loaded) ∧
      after.Serves r (leftBy found step.answer) := by
  cases it with
  | locations c =>
    cases r with
    | locate =>
      obtain ⟨after, hpull, hafter⟩ := Cursor.Serves.run_pullAs h Item.location locations w
      exact ⟨.locations after, hpull, hafter⟩
    | _ => cases h
  | values c =>
    cases r with
    | fetch value =>
      obtain ⟨after, hpull, hafter⟩ := Cursor.Serves.run_pullAs h Item.value values w
      exact ⟨.values after, hpull, hafter⟩
    | _ => cases h
  | outcomes c =>
    cases r with
    | fetchOutcomes value =>
      obtain ⟨after, hpull, hafter⟩ := Cursor.Serves.run_pullAs h Item.outcome outcomes w
      exact ⟨.outcomes after, hpull, hafter⟩
    | _ => cases h

end Iterator

/-! ## One step -/

namespace Session

variable {s : Session α}

/-- Every iterator was opened for a request. -/
def Sound (s : Session α) : Prop := ∀ it ∈ s.iterators, ∃ r found, it.Serves r found

theorem sound_start (fs : FileSystem) : (start fs : Session α).Sound := by
  intro it hit
  cases hit

/-- A step keeps the session sound, and it changes the files only if that is what it is for. -/
theorem step_sound (h : s.Sound) (a : Action α) :
    (s.step a).2.Sound ∧ (s.step a).2.world.fs = a.changes s.world.fs := by
  cases a with
  | change f => exact ⟨h, rfl⟩
  | builder b => exact ⟨h, rfl⟩
  | call b f => exact ⟨h, rfl⟩
  | index i => exact ⟨h, rfl⟩
  | build b =>
    rw [step]
    split
    · exact ⟨h, rfl⟩
    · exact ⟨h, rfl⟩
  | «open» i q r =>
    rw [step]
    split
    case h_1 it hopen =>
      refine ⟨fun it' hit' => ?_, rfl⟩
      -- The new iterator was opened, so its query has a test.
      rcases List.mem_append.1 hit' with hold | hnew
      · exact h it' hold
      · obtain rfl := List.mem_singleton.1 hnew
        obtain ⟨index, -, hopen⟩ := Option.map_eq_some_iff.1 hopen
        cases hq : q.accepts with
        | error f =>
          rw [Iterator.open_of_error hq] at hopen
          cases hopen
        | ok accepts =>
          obtain ⟨it, hit, hserves⟩ := Iterator.serves_of_open (r := r) (i := index) hq
          obtain rfl := Except.ok.inj (hit.symm.trans hopen)
          exact ⟨r, _, hserves⟩
    case h_2 => exact ⟨h, rfl⟩
  | pull k =>
    rw [step]
    cases hk : s.iterators[k]? with
    | none => exact ⟨h, rfl⟩
    | some it =>
      obtain ⟨r, found, hserves⟩ := h it (List.mem_of_getElem? hk)
      obtain ⟨after, hpull, hafter⟩ := hserves.run_pull s.world
      simp only [hpull]
      refine ⟨fun it' hit' => ?_, rfl⟩
      rcases List.mem_or_eq_of_mem_set hit' with hold | rfl
      · exact h it' hold
      · exact ⟨r, _, hafter⟩

theorem step_iterator {a : Action α} {k : Nat} {it : Iterator α} (hk : s.iterators[k]? = some it)
    (ha : a.isPull k = false) : (s.step a).2.iterators[k]? = some it := by
  cases a with
  | «open» i q r =>
    rw [step]
    split
    · rw [List.getElem?_append_left (List.getElem?_eq_some_iff.1 hk).1, hk]
    · exact hk
  | build b =>
    rw [step]
    split
    · exact hk
    · exact hk
  | pull j =>
    have hne : j ≠ k := by simpa [Action.isPull] using ha
    rw [step]
    cases hj : s.iterators[j]? with
    | none => exact hk
    | some it' =>
      show (s.iterators.set j _)[k]? = some it
      rw [List.getElem?_set_ne hne, hk]
  | change f => exact hk
  | builder b => exact hk
  | call b f => exact hk
  | index i => exact hk

/-- A pull on an iterator is decided by the files and by the first of the findings that are left. -/
theorem step_pull {k : Nat} {it : Iterator α} (hk : s.iterators[k]? = some it) {r : Request α}
    {found : List (Except Fault Resource)} (hserves : it.Serves r found) :
    let step := pullStep (r.value s.world.fs) r.loads found.head?
    (s.step (.pull k)).1 = some step.answer ∧
      (s.step (.pull k)).2.world = s.world.load step.loaded ∧
      ∃ after, (s.step (.pull k)).2.iterators[k]? = some after ∧
        after.Serves r (leftBy found step.answer) := by
  obtain ⟨after, hpull, hafter⟩ := hserves.run_pull s.world
  have hlt : k < s.iterators.length := (List.getElem?_eq_some_iff.1 hk).1
  rw [Session.step, hk]
  simp only [hpull, true_and]
  exact ⟨after, List.getElem?_set_self hlt, hafter⟩

/-! ## Whole runs -/

/-- The files at each pull on an iterator, as far as actions change them. -/
def filesAt (k : Nat) (fs : FileSystem) : List (Action α) → List FileSystem
  | [] => []
  | a :: rest => (if a.isPull k then [fs] else []) ++ filesAt k (a.changes fs) rest

/-- The answers of an iterator with some findings left, by the files at each of its pulls. -/
def answersBy (r : Request α) (found : List (Except Fault Resource)) :
    List FileSystem → List (Pull (Item α))
  | [] => []
  | fs :: rest =>
    let answer := (pullStep (r.value fs) r.loads found.head?).answer
    answer :: answersBy r (leftBy found answer) rest

/-- The findings that are left after some answers. -/
def leftByAll (found : List (Except Fault Resource)) :
    List (Pull (Item α)) → List (Except Fault Resource)
  | [] => found
  | answer :: rest => leftByAll (leftBy found answer) rest

theorem leftByAll_nil (answers : List (Pull (Item α))) : leftByAll [] answers = [] := by
  induction answers with
  | nil => rfl
  | cons answer rest ih =>
    have hleft : leftBy [] answer = [] := by rw [leftBy, List.tail_nil, ite_self]
    rw [leftByAll, hleft, ih]

/-- As long as there are items each of them takes one finding, and after anything else none is
left. -/
theorem leftByAll_eq (found : List (Except Fault Resource)) (answers : List (Pull (Item α))) :
    leftByAll found answers =
      if ∀ answer ∈ answers, answer.isItem = true then found.drop answers.length else [] := by
  induction answers generalizing found with
  | nil => simp [leftByAll]
  | cons answer rest ih =>
    rw [leftByAll, leftBy]
    cases hitem : answer.isItem with
    | true =>
      rw [if_pos rfl, ih]
      simp [hitem]
    | false =>
      rw [if_neg (by simp), leftByAll_nil, if_neg]
      intro h
      rw [h answer List.mem_cons_self] at hitem
      cases hitem

theorem eq_pull_of_isPull {a : Action α} {k : Nat} (ha : a.isPull k = true) : a = .pull k := by
  cases a with
  | pull j => rw [show j = k by simpa [Action.isPull] using ha]
  | _ => cases ha

/-- In a run an iterator answers by the files at its own pulls, and has the findings left that its
own answers leave. -/
theorem run_serves (hsound : s.Sound) {k : Nat} {it : Iterator α}
    (hk : s.iterators[k]? = some it) {r : Request α} {found : List (Except Fault Resource)}
    (hserves : it.Serves r found) (actions : List (Action α)) :
    s.answers k actions = answersBy r found (filesAt k s.world.fs actions) ∧
      ∃ after, (s.run actions).iterators[k]? = some after ∧
        after.Serves r (leftByAll found (s.answers k actions)) := by
  -- The iterator and its findings stay general: its own pulls change both, and nothing else does.
  induction actions generalizing s it found with
  | nil => exact ⟨rfl, it, hk, hserves⟩
  | cons a rest ih =>
    obtain ⟨hsound', hfs⟩ := step_sound hsound a
    rw [answers, filesAt, run]
    cases ha : a.isPull k with
    | false =>
      obtain ⟨hanswers, hafter⟩ := ih hsound' (step_iterator hk ha) hserves
      rw [hfs] at hanswers
      simpa using ⟨hanswers, hafter⟩
    | true =>
      obtain rfl := eq_pull_of_isPull ha
      obtain ⟨hanswer, -, it', hk', hserves'⟩ := step_pull hk hserves
      obtain ⟨hanswers, hafter⟩ := ih hsound' hk' hserves'
      rw [hfs] at hanswers
      simp only [hanswer, if_true, Option.toList_some, List.singleton_append, answersBy, leftByAll]
      exact ⟨by rw [hanswers], hafter⟩

theorem length_filesAt (k : Nat) (fs : FileSystem) (actions : List (Action α)) :
    (filesAt k fs actions).length = actions.countP (Action.isPull k) := by
  induction actions generalizing fs with
  | nil => rfl
  | cons a rest ih =>
    rw [filesAt, List.length_append, ih, List.countP_cons, Nat.add_comm]
    cases a.isPull k <;> rfl

theorem length_answersBy (r : Request α) (found : List (Except Fault Resource))
    (files : List FileSystem) : (answersBy r found files).length = files.length := by
  induction files generalizing found with
  | nil => rfl
  | cons fs rest ih => rw [answersBy, List.length_cons, List.length_cons, ih]

theorem run_sound (h : s.Sound) (actions : List (Action α)) :
    (s.run actions).Sound ∧
      (s.run actions).world.fs = actions.foldl (fun fs a => a.changes fs) s.world.fs := by
  induction actions generalizing s with
  | nil => exact ⟨h, rfl⟩
  | cons a rest ih =>
    obtain ⟨hsound, hfs⟩ := step_sound h a
    obtain ⟨hrun, hfiles⟩ := ih hsound
    refine ⟨hrun, ?_⟩
    rw [run, hfiles, hfs, List.foldl_cons]

theorem step_open {i : Nat} {index : Index} (hindex : s.indexes[i]? = some index) {q : Query}
    {accepts : NameTest} (hq : q.accepts = .ok accepts) (r : Request α) :
    (s.step (.open i q r)).2.world = s.world ∧
      ∃ it, (s.step (.open i q r)).2.iterators[s.iterators.length]? = some it ∧
        it.Serves r (findings accepts index.resources) := by
  obtain ⟨it, hit, hserves⟩ := Iterator.serves_of_open (r := r) (i := index) hq
  rw [step, hindex, Option.map_some, hit]
  exact ⟨rfl, it, List.getElem?_concat_length, hserves⟩

/-- Opening an iterator loads nothing.  From then on, whatever happens in between, each of its pulls
that comes after items only is decided by the files at that pull and by the finding whose turn it
is: the resource that the test accepts as the next one, which is loaded and nothing else is.  After
any other answer there is nothing more.  All the answers together are thus determined by the index
as it was, the request and the files at the iterator's own pulls. -/
theorem pull_decided (fs : FileSystem) (prior later : List (Action α)) {i : Nat} {index : Index}
    {q : Query} {accepts : NameTest} (r : Request α)
    (hindex : ((start fs : Session α).run prior).indexes[i]? = some index)
    (hq : q.accepts = .ok accepts) :
    let before := (start fs : Session α).run prior
    let k := before.iterators.length
    let opened := (before.step (.open i q r)).2
    let now := opened.run later
    let earlier := opened.answers k later
    let found := findings accepts index.resources
    let step := pullStep (r.value now.world.fs) r.loads found[earlier.length]?
    opened.world = before.world ∧
    earlier = answersBy r found (filesAt k before.world.fs later) ∧
    earlier.length = later.countP (Action.isPull k) ∧
    now.world.fs = (prior ++ later).foldl (fun fs a => a.changes fs) fs ∧
    ((∀ answer ∈ earlier, answer.isItem = true) →
      (now.step (.pull k)).1 = some step.answer ∧
      (now.step (.pull k)).2.world = now.world.load step.loaded) ∧
    ∀ answer ∈ earlier, answer.isItem = false →
      (now.step (.pull k)).1 = some .stop ∧ (now.step (.pull k)).2.world = now.world := by
  intro before k opened now earlier found step
  obtain ⟨hbefore, hfiles⟩ := run_sound (sound_start fs : (start fs : Session α).Sound) prior
  obtain ⟨hopened, hfs⟩ := step_sound hbefore (.open i q r)
  obtain ⟨hworld, it, hk, hserves⟩ := step_open hindex hq r
  obtain ⟨hanswers, after, hk', hserves'⟩ := run_serves hopened hk hserves later
  obtain ⟨-, hnow⟩ := run_sound hopened later
  rw [hfs] at hanswers hnow
  have hlength : earlier.length = later.countP (Action.isPull k) := by
    show (opened.answers k later).length = _
    rw [hanswers, length_answersBy, length_filesAt]
  obtain ⟨hanswer, hloads, -⟩ := step_pull hk' hserves'
  rw [leftByAll_eq] at hanswer hloads
  refine ⟨hworld, hanswers, hlength, ?_, fun hitems => ?_, fun answer hmem hitem => ?_⟩
  · have hstart : before.world.fs = prior.foldl (fun fs a => a.changes fs) fs := hfiles
    rw [List.foldl_append, ← hstart]
    exact hnow
  · rw [if_pos hitems, List.head?_drop] at hanswer hloads
    exact ⟨hanswer, hloads⟩
  · have hended : ¬ ∀ answer ∈ earlier, answer.isItem = true := by
      intro hitems
      rw [hitems answer hmem] at hitem
      cases hitem
    rw [if_neg hended] at hanswer hloads
    refine ⟨hanswer, hloads.trans ?_⟩
    exact World.load_nil _

def twoNames : Index :=
  ⟨[⟨"a", ⟨⟨.directory, ⟨.root, []⟩⟩, "a"⟩⟩, ⟨"b", ⟨⟨.directory, ⟨.root, []⟩⟩, "b"⟩⟩], by decide⟩

def onlyB : Query := .test fun name => .ok (name = "b")

/-- An iterator counts the entries of the file system as it is when it is pulled, and not as it was
when the iterator was opened, whatever another one has loaded before. -/
theorem pull_decided_twoNames :
    let before := (start ⟨[], []⟩ : Session Nat).run [.index twoNames]
    let opened := (before.step (.open 0 onlyB (.fetch fun fs _ => .ok fs.entries.length))).2
    let now := opened.run [.open 0 onlyB (.fetch fun _ _ => .ok 7), .pull 1,
      .change fun fs => { fs with entries := [("b", .file [])] }]
    before.indexes[0]? = some twoNames ∧
    onlyB.accepts = .ok (fun name => .ok (name = "b")) ∧
    (now.step (.pull 0)).1 = some (.item (.value 1)) ∧
    (now.step (.pull 0)).2.world.loaded =
      now.world.loaded ++ [⟨⟨.directory, ⟨.root, []⟩⟩, "b"⟩] := by
  intro before opened now
  obtain ⟨-, -, -, -, hitems, -⟩ := pull_decided ⟨[], []⟩ [.index twoNames]
    [.open 0 onlyB (.fetch fun _ _ => .ok 7), .pull 1,
      .change fun fs => { fs with entries := [("b", .file [])] }]
    (.fetch fun fs _ => .ok fs.entries.length : Request Nat) (i := 0) (q := onlyB) rfl rfl
  obtain ⟨hanswer, hworld⟩ := hitems (by intro answer h; cases h)
  exact ⟨rfl, rfl, hanswer, congrArg World.loaded hworld⟩

end Session

end ResourceFinder
