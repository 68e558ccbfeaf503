import ResourceFinder.Proofs.CommandLine.Outcome
import ResourceFinder.Proofs.Index.Changing
import ResourceFinder.Proofs.Index.Uris
import ResourceFinder.Proofs.Text.Trim

/-
The output of a search.

Which resources come into the output is told by their names, and what each of them adds by its
location and the files.  The patterns have no part in the second, so that other patterns can add
lines and leave lines out, and do nothing else.
-/

namespace ResourceFinder

/-! ## Cursors over files that stay as they are -/

section

variable {α : Type} {value : FileSystem → Location → Except Fault α} {c : Cursor Reading α}
  {rs : List Resource}

theorem Cursor.Reads.within_drainWith (h : c.Reads value (rs.map .ok)) (fs : FileSystem)
    {pulls : Nat} (hpulls : rs.length < pulls) :
    (c.drainWith pulls).within fs = deliveries (value fs) (rs.map Resource.location) := by
  induction pulls generalizing c rs with
  | zero => exact absurd hpulls (Nat.not_lt_zero _)
  | succ pulls ih =>
    obtain ⟨after, hpull, hafter⟩ := h.within_pull fs
    simp only [Cursor.drainWith, Reading.within_bind, hpull]
    cases rs with
    | nil => rfl
    | cons r rs =>
      simp only [List.map_cons, List.head?_cons, pullStep, deliveries] at hafter ⊢
      cases hvalue : value fs r.location with
      | ok a =>
        rw [hvalue] at hafter
        simp only [Pull.ofResult, Reading.within_bind]
        rw [ih hafter (by simpa using hpulls)]
        rfl
      | error f => rfl

theorem mapM_eq_deliveries (value : Location → Except Fault α) (ls : List Location) :
    ls.mapM value =
      (deliveries value ls).2.elim (.ok (deliveries value ls).1) .error := by
  induction ls with
  | nil => rfl
  | cons l ls ih =>
    rw [List.mapM_cons, deliveries, ih]
    cases value l with
    | error f => rfl
    | ok a =>
      obtain ⟨items, failure⟩ := deliveries value ls
      cases failure with
      | none => rfl
      | some f => rfl

/-- All that a test of names accepts is delivered. -/
theorem Cursor.within_all (rs : List Resource) (accepts : Text → Bool) (load : Loader Reading α)
    (fs : FileSystem) :
    (Cursor.all ⟨rs, fun name => .ok (accepts name), load⟩).within fs =
      ((rs.filter (accepts ·.name)).map Resource.location).mapM fun l => (load l).within fs := by
  have hreads : (⟨rs, fun name => .ok (accepts name), load⟩ : Cursor Reading α).Reads
      (fun fs l => (load l).within fs) ((rs.filter (accepts ·.name)).map .ok) :=
    ⟨fun _ _ => rfl, findings_of_total (fun _ => rfl) rs⟩
  have hlength := Nat.lt_succ_of_le (List.length_filter_le (accepts ·.name) rs)
  simp only [all, drain, Reading.within_bind, hreads.within_drainWith fs hlength,
    mapM_eq_deliveries]
  obtain ⟨items, failure⟩ := deliveries _ _
  cases failure with
  | none => rfl
  | some f => rfl

end

theorem filterMap_mapM_some {ε α β : Type} (f : α → Except ε β) (items : List α) :
    (items.mapM fun a => (f a).map some).map (·.filterMap id) = items.mapM f := by
  rw [mapM_map_right]
  cases items.mapM f with
  | error e => rfl
  | ok bs => simp [Except.map]

namespace CommandLine

/-! ## One line a location -/

/-- The line that a location adds to the output, if it adds one. -/
def line? (fs : FileSystem) (o : Options) (l : Location) : Except Fault (Option Text) :=
  match o.property with
  | some key =>
    (LoadOutcome.ofResult l ((Loader.properties Loader.defaultEncoding l).within fs)).bind
      (propertyLine? o key)
  | none =>
    if o.cat then
      (((LoadOutcome.ofResult l (l.readText fs Loader.defaultEncoding)).bind
        LoadOutcome.unwrap).map (Text.dropEndWhile (· = .char '\n'))).map some
    else (label o l).map some

theorem outputLines_eq (fs : FileSystem) (index : Index) (accepts : Text → Bool) (o : Options) :
    outputLines fs index accepts o =
      (((index.resources.filter (accepts ·.name)).map Resource.location).mapM (line? fs o)).map
        (·.filterMap id) := by
  have hall {α : Type} (load : Loader Reading α) :=
    Cursor.within_all index.resources accepts load fs
  unfold outputLines line?
  cases hproperty : o.property with
  | some key =>
    have hlines := hall fun l => do
      return (← attempt (Loader.properties Loader.defaultEncoding) l).bind (propertyLine? o key)
    simp only [Reading.within_bind, within_attempt_eq] at hlines
    exact congrArg (Except.map (·.filterMap id)) hlines
  | none =>
    cases hcat : o.cat with
    | true =>
      have htexts := hall fun l => do
        return (← attempt (Loader.text Loader.defaultEncoding) l).bind LoadOutcome.unwrap
      simp only [Reading.within_bind, within_attempt_eq] at htexts
      simp only [if_true]
      rw [filterMap_mapM_some, mapM_map_right]
      exact congrArg (Except.map (·.map (Text.dropEndWhile (· = .char '\n')))) htexts
    | false =>
      have hlocations := hall fun l => return .ok l
      have hpure : ∀ ls : List Location, ls.mapM (Except.ok : _ → Except Fault Location) = .ok ls :=
        fun ls => mapM_eq_ok_iff.2 (List.forall₂_same.2 fun _ _ => rfl)
      simp only [Bool.false_eq_true, if_false]
      rw [filterMap_mapM_some]
      exact congrArg (· >>= List.mapM (label o)) (hlocations.trans (hpure _))

/-! ## What a location adds -/

/-- What a location is called in the output. -/
inductive Titled (o : Options) (l : Location) : Text → Prop where
  | name (huri : o.uri = false) : Titled o l l.name
  | uri {u : Text} (huri : o.uri = true) (hwrite : l.writeUri = .ok u) : Titled o l u

/-- What a location adds to the output: its title; its text, which ends in one line feed, however
many there are at the end of the file; or its title and the value of a property, and nothing if it
does not have that property. -/
inductive Adds (fs : FileSystem) (o : Options) (l : Location) : Option Text → Prop where
  | title {title : Text} (hproperty : o.property = none) (hcat : o.cat = false)
      (htitle : Titled o l title) : Adds fs o l (some (title ++ [.char '\n']))
  | content {t feeds : Text} (hproperty : o.property = none) (hcat : o.cat = true)
      (hread : l.readText fs Loader.defaultEncoding = .ok (t ++ feeds))
      (hfeeds : ∀ c ∈ feeds, c = .char '\n') (hend : t.getLast? ≠ some (.char '\n')) :
      Adds fs o l (some (t ++ [.char '\n']))
  | value {key t title value : Text} {properties : Properties} (hproperty : o.property = some key)
      (hread : l.readText fs Loader.defaultEncoding = .ok t)
      (hparse : Properties.parse t = .ok properties) (hvalue : properties.get? key = some value)
      (htitle : Titled o l title) :
      Adds fs o l (some (title ++ .char '\t' :: value ++ [.char '\n']))
  | noValue {key t : Text} {properties : Properties} (hproperty : o.property = some key)
      (hread : l.readText fs Loader.defaultEncoding = .ok t)
      (hparse : Properties.parse t = .ok properties) (hvalue : properties.get? key = none) :
      Adds fs o l none

/-- A location from which what the output needs can be loaded: nothing for a title, else its text,
and its properties if one of them is asked for. -/
inductive Loads (fs : FileSystem) (o : Options) (l : Location) : Prop where
  | nothing (hproperty : o.property = none) (hcat : o.cat = false)
  | text {t : Text} (hproperty : o.property = none) (hcat : o.cat = true)
      (hread : l.readText fs Loader.defaultEncoding = .ok t)
  | properties {key t : Text} {properties : Properties} (hproperty : o.property = some key)
      (hread : l.readText fs Loader.defaultEncoding = .ok t)
      (hparse : Properties.parse t = .ok properties)

section

variable {fs : FileSystem} {o : Options} {l : Location}

theorem label_eq_ok_iff {title : Text} : label o l = .ok title ↔ Titled o l title := by
  unfold label
  constructor
  · intro h
    cases huri : o.uri with
    | false =>
      rw [huri] at h
      obtain rfl := Except.ok.inj h
      exact .name huri
    | true =>
      rw [huri] at h
      exact .uri huri (mapError_eq_ok h)
  · intro h
    cases h with
    | name huri => rw [huri]; rfl
    | uri huri hwrite =>
      rw [huri, if_pos rfl, Location.uri, hwrite]
      rfl

theorem ofResult_eq_ok_iff {α β : Type} {x : Except Fault α} {f : LoadOutcome α → Except Fault β}
    (hf : ∀ g, ∃ g', f ⟨l, .error g⟩ = .error g') {b : β} :
    (LoadOutcome.ofResult l x).bind f = .ok b ↔ ∃ a, x = .ok a ∧ f ⟨l, .ok a⟩ = .ok b := by
  cases x with
  | ok a => simp [LoadOutcome.ofResult, Except.bind]
  | error g =>
    obtain ⟨g', hg'⟩ := hf g
    cases hrecoverable : g.isRecoverable with
    | true => simp [LoadOutcome.ofResult, hrecoverable, Except.bind, hg']
    | false => simp [LoadOutcome.ofResult, hrecoverable, Except.bind]

theorem exists_propertyLine?_error (key : Text) (g : Fault) :
    ∃ g', propertyLine? o key ⟨l, .error g⟩ = .error g' := by
  obtain ⟨g', hg'⟩ := LoadOutcome.exists_unwrap_error (α := Properties) l g
  refine ⟨g', ?_⟩
  rw [propertyLine?, hg']
  rfl

theorem within_properties_eq_ok_iff {encoding : Text} {properties : Properties} :
    (Loader.properties encoding l).within fs = .ok properties ↔
      ∃ t, l.readText fs encoding = .ok t ∧ Properties.parse t = .ok properties := by
  show (l.readText fs encoding >>= fun t => (Properties.parse t).mapError Fault.properties) = _ ↔ _
  cases l.readText fs encoding with
  | error f => exact iff_of_false nofun nofun
  | ok t =>
    constructor
    · intro h
      exact ⟨t, rfl, mapError_eq_ok h⟩
    · intro ⟨t', ht, hparse⟩
      obtain rfl := Except.ok.inj ht
      exact congrArg (Except.mapError Fault.properties) hparse

variable {line : Option Text}

theorem line?_title (hproperty : o.property = none) (hcat : o.cat = false) :
    line? fs o l = .ok line ↔ ∃ title, Titled o l title ∧ some title = line := by
  rw [line?, hproperty]
  simp only [hcat, Bool.false_eq_true, if_false, map_eq_ok, label_eq_ok_iff]

theorem line?_content (hproperty : o.property = none) (hcat : o.cat = true) :
    line? fs o l = .ok line ↔ ∃ t, l.readText fs Loader.defaultEncoding = .ok t ∧
      some (Text.dropEndWhile (· = .char '\n') t) = line := by
  rw [line?, hproperty]
  simp only [hcat, if_true, map_eq_ok, ofResult_eq_ok_iff (LoadOutcome.exists_unwrap_error l)]
  simp [LoadOutcome.unwrap]

theorem propertyLine?_eq_ok_iff {key : Text} {properties : Properties} :
    propertyLine? o key ⟨l, .ok properties⟩ = .ok line ↔
      properties.get? key = none ∧ line = none ∨
        ∃ value title, properties.get? key = some value ∧ Titled o l title ∧
          line = some (title ++ .char '\t' :: value) := by
  have hunwrap : LoadOutcome.unwrap ⟨l, .ok properties⟩ = .ok properties := rfl
  rw [propertyLine?, hunwrap]
  simp only [bind, Except.bind, pure, Except.pure]
  cases properties.get? key with
  | none => simp [eq_comm]
  | some value =>
    simp only [← label_eq_ok_iff]
    cases label o l with
    | error f => simp
    | ok title => simp [eq_comm]

theorem line?_property {key : Text} (hproperty : o.property = some key) :
    line? fs o l = .ok line ↔ ∃ t properties, l.readText fs Loader.defaultEncoding = .ok t ∧
      Properties.parse t = .ok properties ∧
      (properties.get? key = none ∧ line = none ∨
        ∃ value title, properties.get? key = some value ∧ Titled o l title ∧
          line = some (title ++ .char '\t' :: value)) := by
  rw [line?, hproperty]
  simp only [ofResult_eq_ok_iff (exists_propertyLine?_error key), within_properties_eq_ok_iff,
    propertyLine?_eq_ok_iff]
  constructor
  · intro ⟨properties, ⟨t, hread, hparse⟩, hvalue⟩
    exact ⟨t, properties, hread, hparse, hvalue⟩
  · intro ⟨t, properties, hread, hparse, hvalue⟩
    exact ⟨properties, ⟨t, hread, hparse⟩, hvalue⟩

theorem adds_iff {chunk : Option Text} :
    Adds fs o l chunk ↔
      ∃ line, line? fs o l = .ok line ∧ line.map (· ++ [.char '\n']) = chunk := by
  constructor
  · intro h
    cases h with
    | title hproperty hcat htitle =>
      exact ⟨_, (line?_title hproperty hcat).2 ⟨_, htitle, rfl⟩, rfl⟩
    | @content t feeds hproperty hcat hread hfeeds hend =>
      refine ⟨_, (line?_content hproperty hcat).2 ⟨_, hread, rfl⟩, ?_⟩
      rw [Text.dropEndWhile_append_of_getLast?]
      · rfl
      · simpa using hfeeds
      · intro c hc
        have hne : c ≠ .char '\n' := fun h => hend (h ▸ hc)
        simpa using hne
    | value hproperty hread hparse hvalue htitle =>
      exact ⟨_, (line?_property hproperty).2
        ⟨_, _, hread, hparse, .inr ⟨_, _, hvalue, htitle, rfl⟩⟩, rfl⟩
    | noValue hproperty hread hparse hvalue =>
      exact ⟨_, (line?_property hproperty).2 ⟨_, _, hread, hparse, .inl ⟨hvalue, rfl⟩⟩, rfl⟩
  · intro ⟨line, hline, hchunk⟩
    subst hchunk
    cases hproperty : o.property with
    | some key =>
      obtain ⟨t, properties, hread, hparse, ⟨hvalue, rfl⟩ | ⟨value, title, hvalue, htitle, rfl⟩⟩ :=
        (line?_property hproperty).1 hline
      · exact .noValue hproperty hread hparse hvalue
      · exact .value hproperty hread hparse hvalue htitle
    | none =>
      cases hcat : o.cat with
      | false =>
        obtain ⟨title, htitle, rfl⟩ := (line?_title hproperty hcat).1 hline
        exact .title hproperty hcat htitle
      | true =>
        obtain ⟨t, hread, rfl⟩ := (line?_content hproperty hcat).1 hline
        obtain ⟨feeds, hfeeds, hall⟩ := Text.exists_append_dropEndWhile (· = .char '\n') t
        refine .content hproperty hcat (hfeeds ▸ hread) (by simpa using hall) ?_
        intro hend
        simpa using Text.getLast?_dropEndWhile _ _ _ hend

theorem exists_adds (h : Loads fs o l) (huri : o.uri = true → ∃ u, l.writeUri = .ok u) :
    ∃ chunk, Adds fs o l chunk := by
  obtain ⟨title, htitle⟩ : ∃ title, Titled o l title := by
    cases ho : o.uri with
    | false => exact ⟨_, .name ho⟩
    | true =>
      obtain ⟨u, hwrite⟩ := huri ho
      exact ⟨u, .uri ho hwrite⟩
  cases h with
  | nothing hproperty hcat => exact ⟨_, .title hproperty hcat htitle⟩
  | text hproperty hcat hread =>
    exact ⟨_, adds_iff.2 ⟨_, (line?_content hproperty hcat).2 ⟨_, hread, rfl⟩, rfl⟩⟩
  | @properties key t properties hproperty hread hparse =>
    cases hvalue : properties.get? key with
    | none => exact ⟨_, .noValue hproperty hread hparse hvalue⟩
    | some value => exact ⟨_, .value hproperty hread hparse hvalue htitle⟩

end

/-! ## What comes into the output -/

/-- Patterns and an expression that can be read. -/
structure IsValid (patterns : List Text) (regex : Option Text) : Prop where
  patterns : ∀ p ∈ patterns, ∃ m, Glob.compile p = .ok m
  expression : ∀ t ∈ regex, ∃ e, Regex.parse {} t = .ok e

/-- A name that one of some patterns accepts, or that an expression matches as a whole. -/
inductive Wanted (patterns : List Text) (regex : Option Text) (name : Text) : Prop where
  | pattern {p : Text} {m : Glob.Matcher} (hp : p ∈ patterns) (hcompile : Glob.compile p = .ok m)
      (haccepts : m.accepts name = true)
  | expression {t : Text} {e : Regex.Node} (ht : t ∈ regex) (hparse : Regex.parse {} t = .ok e)
      (hmatch : Regex.fullMatch e name = true)

section

variable {patterns patterns' : List Text} {regex : Option Text}

theorem Wanted.mono (hsubset : patterns ⊆ patterns') {name : Text}
    (h : Wanted patterns regex name) : Wanted patterns' regex name := by
  cases h with
  | pattern hp hcompile haccepts => exact .pattern (hsubset hp) hcompile haccepts
  | expression ht hparse hmatch => exact .expression ht hparse hmatch

theorem wanted_iff {name : Text} : Wanted patterns regex name ↔
    (patterns.any fun p => (Glob.compile p).toOption.any (·.accepts name)) = true ∨
      (regex.any fun t => (Regex.parse {} t).toOption.any (Regex.fullMatch · name)) = true := by
  simp only [List.any_eq_true, Option.any_eq_true]
  constructor
  · intro h
    cases h with
    | pattern hp hcompile haccepts => exact .inl ⟨_, hp, _, by rw [hcompile]; rfl, haccepts⟩
    | expression ht hparse hmatch => exact .inr ⟨_, ht, _, by rw [hparse]; rfl, hmatch⟩
  · intro h
    rcases h with ⟨p, hp, m, hm, haccepts⟩ | ⟨t, ht, e, he, hmatch⟩
    · exact .pattern hp (toOption_eq_some hm) haccepts
    · exact .expression ht (toOption_eq_some he) hmatch

instance (name : Text) : Decidable (Wanted patterns regex name) := decidable_of_iff _ wanted_iff.symm

/-- What a test of names made of patterns and an expression accepts. -/
theorem accepts_iff {accepts : Text → Bool} (h : predicate patterns regex = .ok accepts)
    (name : Text) : accepts name = true ↔ Wanted patterns regex name := by
  unfold predicate at h
  cases hglobs : patterns.mapM fun p => (Glob.compile p).mapError Fault.ofGlob with
  | error f =>
    rw [hglobs] at h
    cases h
  | ok matchers =>
    cases hexpression : regex.mapM fun t => (Regex.parse {} t).mapError (Fault.expression t) with
    | error f =>
      rw [hglobs, hexpression] at h
      cases h
    | ok expression =>
      rw [hglobs, hexpression] at h
      obtain rfl := Except.ok.inj h
      simp only [wanted_iff, Bool.or_eq_true, any_of_mapM hglobs, any_of_optionMapM hexpression,
        toOption_mapError]

theorem exists_predicate (h : IsValid patterns regex) :
    ∃ accepts, predicate patterns regex = .ok accepts := by
  cases hpredicate : predicate patterns regex with
  | ok accepts => exact ⟨accepts, rfl⟩
  | error f =>
    cases testRefused_of_predicate hpredicate with
    | glob hp hrefused =>
      obtain ⟨m, hm⟩ := h.patterns _ hp
      cases hrefused.symm.trans hm
    | expression ht hrefused =>
      obtain ⟨e, he⟩ := h.expression _ ht
      cases hrefused.symm.trans he

end

def matching (index : Index) (o : Options) : List Resource :=
  index.resources.filter fun r => Wanted o.patterns o.regex r.name

def rendered (fs : FileSystem) (index : Index) (o : Options) : Except Fault Text := do
  render fs index (← predicate o.patterns o.regex) o

section

variable {fs : FileSystem} {index : Index} {o : Options}

theorem filter_accepts {accepts : Text → Bool} (h : predicate o.patterns o.regex = .ok accepts) :
    index.resources.filter (accepts ·.name) = matching index o := by
  refine List.filter_congr fun r _ => ?_
  rw [Bool.eq_iff_iff, decide_eq_true_iff]
  exact accepts_iff h r.name

/-- The output is made of the lines of the locations that are wanted, each of them ended. -/
theorem rendered_eq (h : IsValid o.patterns o.regex) :
    rendered fs index o =
      ((matching index o).mapM fun r => line? fs o r.location).map fun lines =>
        (lines.filterMap (·.map (· ++ [.char '\n']))).flatten := by
  obtain ⟨accepts, hpredicate⟩ := exists_predicate h
  rw [rendered, hpredicate]
  show render fs index accepts o = _
  rw [render, outputLines_eq, filter_accepts hpredicate, List.mapM_map]
  show ((matching index o).mapM fun r => line? fs o r.location).map _ >>= _ = _
  cases (matching index o).mapM fun r => line? fs o r.location with
  | error f => rfl
  | ok lines =>
    refine congrArg Except.ok ?_
    rw [List.flatMap_def, List.map_filterMap]
    rfl

theorem rendered_eq_ok_iff (h : IsValid o.patterns o.regex) {text : Text} :
    rendered fs index o = .ok text ↔ ∃ chunk : Resource → Option Text,
      (∀ r ∈ matching index o, Adds fs o r.location (chunk r)) ∧
      text = ((matching index o).filterMap chunk).flatten := by
  rw [rendered_eq h, map_eq_ok]
  constructor
  · intro ⟨lines, hlines, htext⟩
    obtain ⟨line, hline, rfl⟩ := mapM_eq_ok_iff_exists.1 hlines
    refine ⟨fun r => (line r).map (· ++ [.char '\n']), fun r hr => ?_, ?_⟩
    · exact adds_iff.2 ⟨_, hline r hr, rfl⟩
    · rw [← htext, List.filterMap_map]
      rfl
  · intro ⟨chunk, hchunk, htext⟩
    choose! line hline hended using fun r hr => adds_iff.1 (hchunk r hr)
    refine ⟨_, mapM_eq_ok_iff_exists.2 ⟨line, hline, rfl⟩, ?_⟩
    rw [htext, List.filterMap_map]
    exact congrArg List.flatten (List.filterMap_congr hended)

theorem adds_patterns {patterns : List Text} {l : Location} {chunk : Option Text} :
    Adds fs { o with patterns := patterns } l chunk ↔ Adds fs o l chunk := by
  rw [adds_iff, adds_iff]
  rfl

theorem IsValid.of_subset {patterns patterns' : List Text} {regex : Option Text}
    (h : IsValid patterns' regex) (hsubset : patterns ⊆ patterns') : IsValid patterns regex :=
  ⟨fun p hp => h.patterns p (hsubset hp), h.expression⟩

/-- Patterns count only by the names in the index that they make wanted. -/
theorem rendered_congr {patterns : List Text} (hvalid : IsValid o.patterns o.regex)
    (hvalid' : IsValid patterns o.regex)
    (h : ∀ r ∈ index.resources, Wanted patterns o.regex r.name ↔ Wanted o.patterns o.regex r.name) :
    rendered fs index { o with patterns := patterns } = rendered fs index o := by
  have hmatching : matching index { o with patterns := patterns } = matching index o :=
    List.filter_congr fun r hr => decide_eq_decide.2 (h r hr)
  rw [rendered_eq hvalid', rendered_eq hvalid, hmatching]
  rfl

theorem matching_sublist {patterns : List Text} (hsubset : o.patterns ⊆ patterns) :
    (matching index o).Sublist (matching index { o with patterns := patterns }) := by
  refine List.monotone_filter_right _ fun r hr => ?_
  rw [decide_eq_true_iff] at hr ⊢
  exact hr.mono hsubset

end

/-- Where patterns and expression can be read, the output is made of what the resources add whose
names are wanted, one after the other in the order of the index; no resource comes twice.  If all
that is to be loaded can be loaded, there is an output; titles that are URIs need an absolute path,
which every resource of an index of paths has.  The same patterns in another order or number, and
more patterns that make no other names of the index wanted, leave the output as it is, and any more
patterns put more in between and leave nothing out. -/
theorem rendered_in_index_order (fs : FileSystem) (index : Index) (o : Options)
    (hvalid : IsValid o.patterns o.regex) :
    let found := matching index o
    (found.map Resource.name).Nodup ∧
    (∀ text, rendered fs index o = .ok text ↔ ∃ chunk : Resource → Option Text,
      (∀ r ∈ found, Adds fs o r.location (chunk r)) ∧ text = (found.filterMap chunk).flatten) ∧
    ((∀ r ∈ found, Loads fs o r.location) →
      (o.uri = true → ∀ r ∈ found, ∃ u, r.location.writeUri = .ok u) →
      ∃ text, rendered fs index o = .ok text) ∧
    (∀ fs' : FileSystem, fs'.IsRegular → ∀ config paths,
      (Index.ofPaths fs' config paths).result = .ok index →
      ∀ r ∈ found, ∃ u, r.location.writeUri = .ok u) ∧
    ∀ patterns, o.patterns ⊆ patterns →
      let o' := { o with patterns := patterns }
      let found' := matching index o'
      (patterns ⊆ o.patterns → rendered fs index o' = rendered fs index o) ∧
      (IsValid patterns o.regex →
        (∀ r ∈ index.resources, Wanted patterns none r.name → Wanted o.patterns o.regex r.name) →
        rendered fs index o' = rendered fs index o) ∧
      (IsValid patterns o.regex → ∀ text', rendered fs index o' = .ok text' →
        ∃ chunk : Resource → Option Text, (∀ r ∈ found', Adds fs o r.location (chunk r)) ∧
          (found.filterMap chunk).Sublist (found'.filterMap chunk) ∧
          rendered fs index o = .ok (found.filterMap chunk).flatten ∧
          text' = (found'.filterMap chunk).flatten) := by
  intro found
  refine ⟨?_, fun text => rendered_eq_ok_iff hvalid, fun hloads huri => ?_,
    fun fs' hfs config paths hbuilt r hr => ?_, fun patterns hsubset => ?_⟩
  · exact index.distinct.sublist (List.filter_sublist.map _)
  · choose! chunk hchunk using fun r hr => exists_adds (hloads r hr) fun h => huri h r hr
    exact ⟨_, (rendered_eq_ok_iff hvalid).2 ⟨chunk, hchunk, rfl⟩⟩
  · have hindexed := Resource.isIndexed_of_ofPaths hfs hbuilt (List.mem_of_mem_filter hr)
    obtain ⟨u, hwrite, -⟩ := hindexed.exists_uri
    exact ⟨u, hwrite⟩
  · intro o' found'
    refine ⟨fun hsame => ?_, fun hvalid' hcovered => ?_, fun hvalid' text' htext' => ?_⟩
    · exact rendered_congr hvalid (hvalid.of_subset hsame) fun r _ =>
        ⟨fun h => h.mono hsame, fun h => h.mono hsubset⟩
    · refine rendered_congr hvalid hvalid' fun r hr => ⟨fun h => ?_, fun h => h.mono hsubset⟩
      cases h with
      | pattern hp hcompile haccepts => exact hcovered r hr (.pattern hp hcompile haccepts)
      | expression ht hparse hmatch => exact .expression ht hparse hmatch
    · obtain ⟨chunk, hadds, rfl⟩ := (rendered_eq_ok_iff hvalid').1 htext'
      have hfound : found.Sublist found' := matching_sublist hsubset
      have hchunk : ∀ r ∈ found', Adds fs o r.location (chunk r) :=
        fun r hr => adds_patterns.1 (hadds r hr)
      exact ⟨chunk, hchunk, hfound.filterMap chunk,
        (rendered_eq_ok_iff hvalid).2 ⟨chunk, fun r hr => hchunk r (hfound.subset hr), rfl⟩, rfl⟩

/-! ### A property of three files, one of which lacks it -/

/-- Three files of properties: `k=1`, `j=2` and `k=3`. -/
def keyedTree : FileSystem :=
  ⟨[("d", .directory [("a", .file [107, 61, 49]), ("b", .file [106, 61, 50]),
    ("c", .file [107, 61, 51])])], []⟩

/-- What the arguments `--property k --regex b|c` and some patterns give. -/
def keyed (patterns : List Text) : Options :=
  .ofArguments ⟨[⟨.property, "k"⟩, ⟨.regex, "b|c"⟩], patterns, []⟩

theorem isValid_keyed : IsValid ["?", "a", "a"] (some "b|c") := by
  refine ⟨?_, ?_⟩
  · exact List.forall_mem_cons.2 ⟨⟨_, rfl⟩, List.forall_mem_cons.2 ⟨⟨_, rfl⟩,
      List.forall_mem_singleton.2 ⟨_, rfl⟩⟩⟩
  · intro t ht
    obtain rfl := Option.some.inj ht
    exact ⟨_, rfl⟩

def keyedChunk (r : Resource) : Option Text :=
  if r.name = "a" then some "a\t1\n" else if r.name = "c" then some "c\t3\n" else none

theorem adds_keyed :
    ∀ r ∈ threeResources.resources, Adds keyedTree (keyed ["a"]) r.location (keyedChunk r) := by
  let location (name : Text) := (resourceIn ⟨.root, ["d"]⟩ name).location
  have ha : (location "a").readText keyedTree Loader.defaultEncoding = .ok "k=1" := by cbv
  have hb : (location "b").readText keyedTree Loader.defaultEncoding = .ok "j=2" := by cbv
  have hc : (location "c").readText keyedTree Loader.defaultEncoding = .ok "k=3" := by cbv
  have hka : Properties.parse "k=1" = .ok [("k", "1")] := by cbv
  have hjb : Properties.parse "j=2" = .ok [("j", "2")] := by cbv
  have hkc : Properties.parse "k=3" = .ok [("k", "3")] := by cbv
  have h1 : Dictionary.get? "k" ([("k", "1")] : Properties) = some "1" := rfl
  have h3 : Dictionary.get? "k" ([("k", "3")] : Properties) = some "3" := rfl
  have hadds : Adds keyedTree (keyed ["a"]) (location "a") (some "a\t1\n") ∧
      Adds keyedTree (keyed ["a"]) (location "b") none ∧
      Adds keyedTree (keyed ["a"]) (location "c") (some "c\t3\n") :=
    ⟨.value rfl ha hka h1 (.name rfl), .noValue rfl hb hjb rfl, .value rfl hc hkc h3 (.name rfl)⟩
  exact List.forall_mem_cons.2 ⟨hadds.1, List.forall_mem_cons.2 ⟨hadds.2.1,
    List.forall_mem_singleton.2 hadds.2.2⟩⟩

/-- The expression matches two of the names and a pattern the third; a pattern that accepts all of
them, and the first one twice, come to the same. -/
theorem rendered_in_index_order_keyed :
    IsValid ["a"] (some "b|c") ∧ IsValid ["?", "a", "a"] (some "b|c") ∧
    rendered keyedTree threeResources (keyed ["a"]) = .ok "a\t1\nc\t3\n" ∧
    rendered keyedTree threeResources (keyed ["?", "a", "a"]) = .ok "a\t1\nc\t3\n" := by
  have hsubset : (["a"] : List Text) ⊆ ["?", "a", "a"] := by simp
  have hvalid : IsValid ["a"] (some "b|c") := isValid_keyed.of_subset hsubset
  have hfound : matching threeResources (keyed ["a"]) = threeResources.resources := by decide
  obtain ⟨-, hrendered, -, -, hpatterns⟩ :=
    rendered_in_index_order keyedTree threeResources (keyed ["a"]) hvalid
  rw [hfound] at hrendered
  have hone : rendered keyedTree threeResources (keyed ["a"]) = .ok "a\t1\nc\t3\n" :=
    (hrendered _).2 ⟨keyedChunk, adds_keyed, rfl⟩
  obtain ⟨-, hcovered, -⟩ := hpatterns ["?", "a", "a"] hsubset
  refine ⟨hvalid, isValid_keyed, hone, (hcovered isValid_keyed fun r hr _ => ?_).trans hone⟩
  rw [← hfound] at hr
  exact of_decide_eq_true (List.mem_filter.1 hr).2

end CommandLine
end ResourceFinder
