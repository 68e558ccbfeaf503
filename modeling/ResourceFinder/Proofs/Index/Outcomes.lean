import ResourceFinder.Proofs.Index.Cursor

/-
Values and outcomes of the same resources.

While the files stay as they are, what a cursor gives can be said at once: some items, and at the end
the failure that stops it.  The cursor of values follows the cursor of outcomes up to the first
outcome that failed, and raises what that one says.
-/

namespace ResourceFinder

/-- A query that has an answer for every name. -/
def Query.Decides (q : Query) (p : Text → Bool) : Prop :=
  ∃ accepts, q.accepts = .ok accepts ∧ ∀ name, accepts name = .ok (p name)

theorem Query.decides_glob {pattern : Text} {m : Glob.Matcher} (h : Glob.compile pattern = .ok m) :
    (Query.glob pattern).Decides m.accepts := by
  refine ⟨fun name => .ok (m.accepts name), ?_, fun _ => rfl⟩
  rw [accepts, h]
  rfl

/-! ## Pulling again and again -/

/-- What some pulls give, one after the other. -/
def Cursor.pulls {m : Type → Type} [Monad m] {α : Type} : Nat → Cursor m α → m (List (Pull α))
  | 0, _ => return []
  | n + 1, c => do
    let (answer, c) ← c.pull
    return answer :: (← c.pulls n)

/-- The items made of some locations, up to the failure of one. -/
def deliveries {α : Type} (value : Location → Except Fault α) :
    List Location → List α × Option Fault
  | [] => ([], none)
  | l :: rest =>
    match value l with
    | .ok a => (a :: (deliveries value rest).1, (deliveries value rest).2)
    | .error f => ([], some f)

/-- The answers to pulls that give some items and then a failure, if there is one: after that there
is nothing more. -/
def answerAt {α : Type} (items : List α) (failure : Option Fault) (n : Nat) : Pull α :=
  match items[n]? with
  | some a => .item a
  | none => if n = items.length then failure.elim .stop .failed else .stop

/-- While the files stay as they are, pulls give some items and then a failure, if there is one, and
each of them loads the next of some locations, as long as there are any. -/
def Cursor.Yields {α : Type} (c : Cursor (StateM World) α) (fs : FileSystem) (items : List α)
    (failure : Option Fault) (loaded : List Location) : Prop :=
  ∀ n before, (c.pulls n).run ⟨fs, before⟩ =
    ((List.range n).map (answerAt items failure), ⟨fs, before ++ loaded.take n⟩)

/-- The locations that pulls look at: those of the items, and the one that failed. -/
def touched {α : Type} (items : List α) (failure : Option Fault) (ls : List Location) :
    List Location :=
  ls.take (items.length + failure.toList.length)

section

variable {α : Type} {value : FileSystem → Location → Except Fault α}
  {loads : Location → List Location} {c : Cursor (StateM World) α}

theorem map_answerAt_cons (a : α) (items : List α) (failure : Option Fault) (n : Nat) :
    (List.range (n + 1)).map (answerAt (a :: items) failure) =
      .item a :: (List.range n).map (answerAt items failure) := by
  rw [List.range_succ_eq_map, List.map_cons, List.map_map]
  congr 1
  refine List.map_congr_left fun k _ => ?_
  simp [answerAt]

theorem map_answerAt_nil (failure : Option Fault) (n : Nat) :
    (List.range (n + 1)).map (answerAt ([] : List α) failure) =
      failure.elim .stop .failed :: (List.range n).map (answerAt ([] : List α) none) := by
  rw [List.range_succ_eq_map, List.map_cons, List.map_map]
  congr 1
  refine List.map_congr_left fun k _ => ?_
  simp [answerAt]

theorem run_pulls_succ (n : Nat) (w : World) :
    (c.pulls (n + 1)).run w =
      let ((answer, after), w) := c.pull.run w
      let (answers, w) := (after.pulls n).run w
      (answer :: answers, w) := rfl

theorem run_pulls_of_nil (h : c.Serves value loads []) (n : Nat) (w : World) :
    (c.pulls n).run w = ((List.range n).map (answerAt ([] : List α) none), w) := by
  induction n generalizing c with
  | zero => rfl
  | succ n ih =>
    obtain ⟨after, hpull, hafter⟩ := h.run_pull w
    rw [run_pulls_succ, hpull, map_answerAt_nil]
    simp only [List.head?_nil, pullStep, World.load_nil, ih hafter]
    rfl

/-- What pulls give, by what each location gives. -/
theorem run_pulls {rs : List Resource} (h : c.Serves value loads (rs.map .ok)) (n : Nat)
    (w : World) :
    (c.pulls n).run w =
      let found := deliveries (value w.fs) (rs.map Resource.location)
      ((List.range n).map (answerAt found.1 found.2), w.load
        (((touched found.1 found.2 (rs.map Resource.location)).take n).flatMap loads)) := by
  -- The world stays general: each pull leaves a longer trace in it, though the same files.
  induction n generalizing c rs w with
  | zero =>
    simp only [List.range_zero, List.map_nil, List.take_zero, List.flatMap_nil, World.load_nil]
    rfl
  | succ n ih =>
    cases rs with
    | nil =>
      rw [run_pulls_of_nil h]
      simp [deliveries, touched]
    | cons r rs =>
      obtain ⟨after, hpull, hafter⟩ := h.run_pull w
      rw [run_pulls_succ, hpull]
      simp only [List.map_cons, List.head?_cons, pullStep, deliveries] at hafter ⊢
      cases hvalue : value w.fs r.location with
      | ok a =>
        rw [hvalue] at hafter
        simp only [ih hafter, map_answerAt_cons, touched, List.length_cons, World.load_load,
          World.load_fs]
        rw [Nat.add_right_comm, List.take_succ_cons, List.take_succ_cons, List.flatMap_cons]
        rfl
      | error f =>
        rw [hvalue] at hafter
        simp only [run_pulls_of_nil hafter, map_answerAt_nil, touched]
        simp [Pull.ofResult]

end

/-! ## Values and outcomes -/

theorem LoadOutcome.exists_unwrap_error {α : Type} (l : Location) (f : Fault) :
    ∃ g, LoadOutcome.unwrap (⟨l, .error f⟩ : LoadOutcome α) = .error g := by
  rw [LoadOutcome.unwrap]
  cases l.uri with
  | ok u => exact ⟨_, rfl⟩
  | error g => exact ⟨g, rfl⟩

/-- How the values and the outcomes of some locations go together, and each with what loading gives:
`os` and `vs` are what comes before the failures `fo` and `fv`. -/
structure Agreement {α : Type} (load : Location → Except Fault α) (ls : List Location)
    (os : List (LoadOutcome α)) (fo : Option Fault) (vs : List α) (fv : Option Fault) : Prop where
  locations : os.map LoadOutcome.location = ls.take os.length
  results : ∀ o ∈ os, o.result = load o.location ∧
    ∀ f, o.result = .error f → f.isRecoverable = true
  complete : fo = none → os.length = ls.length
  unrecoverable : ∀ f, fo = some f →
    ∃ l, ls[os.length]? = some l ∧ load l = .error f ∧ f.isRecoverable = false
  values : vs.map .ok = (os.map LoadOutcome.result).takeWhile Except.isOk
  firstFailed : ∀ o, os[vs.length]? = some o → ∃ f, o.result = .error f ∧
    (∀ u, o.location.uri = .ok u → fv = some (.load o.location f)) ∧
    ∀ g, o.location.uri = .error g → fv = some g
  sameEnd : vs.length = os.length → fv = fo

namespace Agreement

variable {α : Type} {load : Location → Except Fault α} {l : Location} {ls : List Location}
  {os : List (LoadOutcome α)} {fo fv : Option Fault} {vs : List α}

theorem nil : Agreement load [] [] none [] none where
  locations := rfl
  results := by simp
  complete _ := rfl
  unrecoverable := by simp
  values := rfl
  firstFailed := by simp
  sameEnd _ := rfl

/-- A location that loads adds a value and an outcome. -/
theorem cons (h : Agreement load ls os fo vs fv) {a : α} (ha : load l = .ok a) :
    Agreement load (l :: ls) (⟨l, .ok a⟩ :: os) fo (a :: vs) fv where
  locations := by simp [h.locations]
  results := by
    refine List.forall_mem_cons.2 ⟨⟨ha.symm, fun f hf => ?_⟩, h.results⟩
    cases hf
  complete hnone := by simp [h.complete hnone]
  unrecoverable f hf := by simpa using h.unrecoverable f hf
  values := by
    rw [List.map_cons, List.map_cons, List.takeWhile_cons_of_pos rfl, h.values]
  firstFailed o ho := h.firstFailed o (by simpa using ho)
  sameEnd hlength := h.sameEnd (by simpa using hlength)

/-- A failure that concerns a location alone adds an outcome and ends the values. -/
theorem consFailed (h : Agreement load ls os fo vs fv) {f : Fault} (hf : load l = .error f)
    (hrecoverable : f.isRecoverable = true) {g : Fault}
    (hg : LoadOutcome.unwrap (⟨l, .error f⟩ : LoadOutcome α) = .error g) :
    Agreement load (l :: ls) (⟨l, .error f⟩ :: os) fo [] (some g) where
  locations := by simp [h.locations]
  results := by
    refine List.forall_mem_cons.2 ⟨⟨hf.symm, fun f' hf' => ?_⟩, h.results⟩
    obtain rfl := Except.error.inj hf'
    exact hrecoverable
  complete hend := by simp [h.complete hend]
  unrecoverable f' hf' := by simpa using h.unrecoverable f' hf'
  values := by simp [Except.isOk, Except.toBool]
  firstFailed o ho := by
    obtain rfl : ⟨l, .error f⟩ = o := by simpa using ho
    refine ⟨f, rfl, fun u hu => ?_, fun g' hg' => ?_⟩
    · rw [LoadOutcome.unwrap, hu] at hg
      rw [Except.error.inj hg]
    · rw [LoadOutcome.unwrap, hg'] at hg
      rw [Except.error.inj hg]
  sameEnd hlength := by simp at hlength

/-- Any other failure ends both. -/
theorem stop {f : Fault} (hf : load l = .error f) (hrecoverable : f.isRecoverable = false) :
    Agreement load (l :: ls) [] (some f) [] (some f) where
  locations := rfl
  results := by simp
  complete hend := by cases hend
  unrecoverable f' hf' := by
    obtain rfl := Option.some.inj hf'
    exact ⟨l, rfl, hf, hrecoverable⟩
  values := rfl
  firstFailed := by simp
  sameEnd _ := rfl

theorem of_deliveries (load : Location → Except Fault α) (ls : List Location) :
    let outcomes := deliveries (fun l => LoadOutcome.ofResult l (load l)) ls
    let values := deliveries (fun l => (LoadOutcome.ofResult l (load l)).bind LoadOutcome.unwrap) ls
    Agreement load ls outcomes.1 outcomes.2 values.1 values.2 := by
  induction ls with
  | nil => exact nil
  | cons l ls ih =>
    simp only [deliveries]
    -- A value goes on with both, a recoverable failure with the outcomes, any other with neither.
    cases hload : load l with
    | ok a => exact cons ih hload
    | error f =>
      cases hf : f.isRecoverable with
      | false =>
        simp only [LoadOutcome.ofResult, hf, Bool.false_eq_true, if_false]
        exact stop hload hf
      | true =>
        obtain ⟨g, hg⟩ := LoadOutcome.exists_unwrap_error (α := α) l f
        simp only [LoadOutcome.ofResult, hf, if_true, Except.bind, hg]
        exact consFailed ih hload hf hg

theorem location_at (h : Agreement load ls os fo vs fv) {k : Nat} {o : LoadOutcome α}
    (ho : os[k]? = some o) : ls[k]? = some o.location := by
  have hk : k < os.length := (List.getElem?_eq_some_iff.1 ho).1
  have hmap : (os.map LoadOutcome.location)[k]? = some o.location := by
    rw [List.getElem?_map, ho]
    rfl
  rwa [h.locations, List.getElem?_take_of_lt hk] at hmap

theorem length_values_le (h : Agreement load ls os fo vs fv) : vs.length ≤ os.length := by
  have hlength : vs.length = ((os.map LoadOutcome.result).takeWhile Except.isOk).length := by
    rw [← h.values, List.length_map]
  have hprefix := (List.takeWhile_prefix (l := os.map LoadOutcome.result) Except.isOk).length_le
  rwa [← hlength, List.length_map] at hprefix

/-- Where no failure concerns more than its location, there is an outcome for each of them. -/
theorem all_outcomes (h : Agreement load ls os fo vs fv)
    (hall : ∀ l ∈ ls, ∀ f, load l = .error f → f.isRecoverable = true) :
    fo = none ∧ os.map LoadOutcome.location = ls := by
  have hnone : fo = none := by
    cases hfo : fo with
    | none => rfl
    | some f =>
      obtain ⟨l, hl, hf, hunrecoverable⟩ := h.unrecoverable f hfo
      have hrecoverable := hall l (List.mem_of_getElem? hl) f hf
      rw [hunrecoverable] at hrecoverable
      cases hrecoverable
  refine ⟨hnone, ?_⟩
  rw [h.locations, h.complete hnone, List.take_length]

/-- The first failure that concerns more than its location ends the outcomes there, and the values
unless they have ended before. -/
theorem first_unrecoverable (h : Agreement load ls os fo vs fv) {j : Nat} {f : Fault}
    (hl : ls[j]? = some l) (hf : load l = .error f) (hunrecoverable : f.isRecoverable = false)
    (hbefore : ∀ k < j, ∀ l' f', ls[k]? = some l' → load l' = .error f' →
      f'.isRecoverable = true) :
    os.length = j ∧ fo = some f ∧ (vs.length < j ∨ vs.length = j ∧ fv = some f) := by
  have hj : j < ls.length := (List.getElem?_eq_some_iff.1 hl).1
  have hle : os.length ≤ j := by
    refine Nat.le_of_not_lt fun hlt => ?_
    obtain ⟨o, ho⟩ : ∃ o, os[j]? = some o := ⟨_, List.getElem?_eq_getElem hlt⟩
    obtain rfl := Option.some.inj (hl.symm.trans (h.location_at ho))
    obtain ⟨hresult, hrecoverable⟩ := h.results o (List.mem_of_getElem? ho)
    rw [hrecoverable f (hresult.trans hf)] at hunrecoverable
    cases hunrecoverable
  cases hfo : fo with
  | none =>
    have hcomplete := h.complete hfo
    omega
  | some f' =>
    obtain ⟨l', hl', hf', hunrecoverable'⟩ := h.unrecoverable f' hfo
    have hge : j ≤ os.length := by
      refine Nat.le_of_not_lt fun hlt => ?_
      rw [hbefore _ hlt l' f' hl' hf'] at hunrecoverable'
      cases hunrecoverable'
    have hlength : os.length = j := by omega
    rw [hlength, hl] at hl'
    obtain rfl := Option.some.inj hl'
    obtain rfl := Except.error.inj (hf.symm.trans hf')
    have hvalues := h.length_values_le
    refine ⟨hlength, rfl, ?_⟩
    by_cases hend : vs.length = os.length
    · exact .inr ⟨by omega, (h.sameEnd hend).trans hfo⟩
    · exact .inl (by omega)

end Agreement

section

variable {α : Type} {value : FileSystem → Location → Except Fault α} {c : Cursor (StateM World) α}

theorem yields_of_serves {rs : List Resource} (h : c.Serves value (fun l => [l]) (rs.map .ok))
    (fs : FileSystem) :
    let found := deliveries (value fs) (rs.map Resource.location)
    c.Yields fs found.1 found.2 (touched found.1 found.2 (rs.map Resource.location)) := by
  intro found n before
  rw [run_pulls h n ⟨fs, before⟩]
  simp only [List.flatMap_singleton']
  rfl

theorem deliveries_ok (ls : List Location) : deliveries .ok ls = (ls, none) := by
  induction ls with
  | nil => rfl
  | cons l ls ih => rw [deliveries, ih]

theorem yields_locations {c : Cursor (StateM World) Location} {rs : List Resource}
    (h : c.Serves (fun _ l => .ok l) (fun _ => []) (rs.map .ok)) (fs : FileSystem) :
    c.Yields fs (rs.map Resource.location) none [] := by
  intro n before
  have hnil : ∀ ls : List Location, ls.flatMap (fun _ => ([] : List Location)) = [] :=
    fun ls => List.flatMap_eq_nil_iff.2 fun _ _ => rfl
  rw [run_pulls h n ⟨fs, before⟩]
  simp only [deliveries_ok, hnil, World.load_nil, List.take_nil, List.append_nil]

end

/-- Values follow outcomes.  Over files that stay as they are, a query gives the locations of the
resources it accepts; their outcomes, up to a failure that concerns more than its location; and the
values of the outcomes before the first one that failed, and then its failure.  Nothing is loaded
after a failure that is raised.  The failure of an outcome is raised together with its location if
that has a URI; if it has none, that is raised instead. -/
theorem fetch_follows_outcomes {α : Type} (i : Index) {q : Query} {p : Text → Bool}
    (hq : q.Decides p) (value : FileSystem → Location → Except Fault α) (fs : FileSystem) :
    ∃ ls os fo vs fv,
      (∃ c, i.locate q = .ok c ∧ c.Yields fs ls none []) ∧
      (∃ c, i.fetchOutcomes q (.watched value) = .ok c ∧ c.Yields fs os fo (touched os fo ls)) ∧
      (∃ c, i.fetch q (.watched value) = .ok c ∧ c.Yields fs vs fv (touched vs fv ls)) ∧
      ls = (i.resources.filter (p ·.name)).map Resource.location ∧
      Agreement (value fs) ls os fo vs fv ∧
      ((∀ l ∈ ls, ∀ f, value fs l = .error f → f.isRecoverable = true) →
        fo = none ∧ os.map LoadOutcome.location = ls) ∧
      ∀ j l f, ls[j]? = some l → value fs l = .error f → f.isRecoverable = false →
        (∀ k < j, ∀ l' f', ls[k]? = some l' → value fs l' = .error f' →
          f'.isRecoverable = true) →
        os.length = j ∧ fo = some f ∧ (vs.length < j ∨ vs.length = j ∧ fv = some f) := by
  obtain ⟨accepts, haccepts, hdecides⟩ := hq
  obtain ⟨locations, hlocate, hlocations⟩ := i.locate_eq haccepts
  obtain ⟨outcomes, hfetchOutcomes, houtcomes⟩ := i.fetchOutcomes_eq value haccepts
  obtain ⟨values, hfetch, hvalues⟩ := i.fetch_eq value haccepts
  rw [findings_of_total hdecides] at hlocations houtcomes hvalues
  have hagree := Agreement.of_deliveries (value fs)
    ((i.resources.filter (p ·.name)).map Resource.location)
  exact ⟨_, _, _, _, _, ⟨locations, hlocate, yields_locations hlocations fs⟩,
    ⟨outcomes, hfetchOutcomes, yields_of_serves houtcomes fs⟩,
    ⟨values, hfetch, yields_of_serves hvalues fs⟩, rfl, hagree, hagree.all_outcomes,
    fun j l f => hagree.first_unrecoverable⟩

/-! ## Three locations, and one without a URI -/

/-- A resource in a directory under some path. -/
def resourceIn (base : Path) (name : Text) : Resource := ⟨name, ⟨⟨.directory, base⟩, name⟩⟩

def threeResources : Index :=
  ⟨[resourceIn ⟨.root, ["d"]⟩ "a", resourceIn ⟨.root, ["d"]⟩ "b", resourceIn ⟨.root, ["d"]⟩ "c"],
    by decide⟩

/-- A loader of three kinds of results: a value, a failure that concerns the location alone, and one
that does not. -/
def mixedValue (_ : FileSystem) (l : Location) : Except Fault Nat :=
  if l.name = "a" then .ok 1
  else if l.name = "b" then .error (.reported .value "b")
  else .error (.reported .key "c")

theorem fetch_follows_outcomes_threeResources :
    ∃ m, Glob.compile "?" = .ok m ∧ (Query.glob "?").Decides m.accepts ∧
    ∃ os fv,
      (∃ c, threeResources.fetchOutcomes (.glob "?") (.watched mixedValue) = .ok c ∧
        c.Yields ⟨[], []⟩ os (some (.reported .key "c"))
          (threeResources.resources.map Resource.location)) ∧
      (∃ c, threeResources.fetch (.glob "?") (.watched mixedValue) = .ok c ∧
        c.Yields ⟨[], []⟩ [1] (some fv)
          ((threeResources.resources.map Resource.location).take 2)) ∧
      os.length = 2 ∧
      fv = .load (resourceIn ⟨.root, ["d"]⟩ "b").location (.reported .value "b") := by
  obtain ⟨m, hm, ha, hb, hc⟩ : ∃ m, Glob.compile "?" = .ok m ∧ m.accepts "a" = true ∧
      m.accepts "b" = true ∧ m.accepts "c" = true := ⟨_, rfl, by decide, by decide, by decide⟩
  have hdecides : (Query.glob "?").Decides m.accepts := Query.decides_glob hm
  obtain ⟨ls, os, fo, vs, fv, -, houtcomes, hvalues, hls, hagree, -, hfirst⟩ :=
    fetch_follows_outcomes threeResources hdecides mixedValue ⟨[], []⟩
  have hall : threeResources.resources.filter (m.accepts ·.name) = threeResources.resources := by
    simp [threeResources, resourceIn, ha, hb, hc]
  rw [hall] at hls
  subst hls
  have hbefore : ∀ k < 2, ∀ l f, (threeResources.resources.map Resource.location)[k]? = some l →
      mixedValue ⟨[], []⟩ l = .error f → f.isRecoverable = true := by
    intro k hk l f hl hf
    obtain rfl | rfl : k = 0 ∨ k = 1 := by omega
    · obtain rfl := Option.some.inj hl
      cases hf
    · obtain rfl := Option.some.inj hl
      obtain rfl := Except.error.inj hf
      rfl
  obtain ⟨hlength, rfl, -⟩ := hfirst 2 _ (.reported .key "c") rfl rfl rfl hbefore
  obtain ⟨o₁, o₂, rfl⟩ : ∃ o₁ o₂, os = [o₁, o₂] := by
    match os, hlength with
    | [o₁, o₂], _ => exact ⟨o₁, o₂, rfl⟩
  obtain ⟨hlocation₁, hlocation₂⟩ := List.cons_eq_cons.1 hagree.locations
  obtain ⟨hlocation₂, -⟩ := List.cons_eq_cons.1 hlocation₂
  have hresult₁ := (hagree.results o₁ (by simp)).1
  have hresult₂ := (hagree.results o₂ (by simp)).1
  rw [hlocation₁] at hresult₁
  rw [hlocation₂] at hresult₂
  have hmap : vs.map (Except.ok : Nat → Except Fault Nat) = [.ok 1] := by
    rw [hagree.values, List.map_cons, hresult₁, List.map_cons, hresult₂]
    rfl
  obtain rfl : vs = [1] := by
    obtain ⟨v, rfl, hv⟩ := List.map_eq_singleton_iff.1 hmap
    rw [Except.ok.inj hv]
  obtain ⟨f, hf, hraised, -⟩ := hagree.firstFailed o₂ rfl
  obtain rfl := Except.error.inj (hresult₂.symm.trans hf)
  rw [hlocation₂] at hraised
  obtain rfl := hraised _ rfl
  exact ⟨m, hm, hdecides, _, _, houtcomes, hvalues, rfl, rfl⟩

/-- A failure at a location without a URI is not raised together with that location. -/
theorem fetch_relativeRoot :
    ∃ (i : Index) (l : Location) (f : Fault) (values : Cursor (StateM World) Nat)
      (outcomes : Cursor (StateM World) (LoadOutcome Nat)),
      i.fetch (.glob "?") (.watched mixedValue) = .ok values ∧
      i.fetchOutcomes (.glob "?") (.watched mixedValue) = .ok outcomes ∧ f.isRecoverable = true ∧
      (outcomes.pull.run ⟨⟨[], []⟩, []⟩).1.1 = .item ⟨l, .error f⟩ ∧
      (values.pull.run ⟨⟨[], []⟩, []⟩).1.1 = .failed .relativeUri :=
  ⟨⟨[resourceIn ⟨.relative, ["d"]⟩ "b"], by decide⟩, (resourceIn ⟨.relative, ["d"]⟩ "b").location,
    .reported .value "b", _, _, rfl, rfl, rfl, rfl, rfl⟩

end ResourceFinder
