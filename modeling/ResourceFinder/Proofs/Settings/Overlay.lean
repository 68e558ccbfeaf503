import Mathlib.Logic.Function.Basic
import ResourceFinder.Proofs.Dictionary.Update
import ResourceFinder.Proofs.List.Lookup
import ResourceFinder.Settings.Attributes

/-
What settings laid over an object in place do to it.

All assignments together change the values of attributes that are there, each by itself, so what
settings do to an object is said by what they do to one value.
-/

namespace ResourceFinder

theorem Attributes.eq_of_values {α : Type} {o o' : Attributes α} (h : o.values = o'.values) :
    o = o' := by
  cases o
  cases o'
  simpa using h

theorem Objects.change_eq_update {α : Type} (objects : Objects α) (object : Nat)
    (o : Attributes α) : objects.change object o = Function.update objects object o := by
  funext other
  exact (Function.update_apply objects object o other).symm

namespace Settings

/-! ## Assignments in place -/

section

variable {α : Type}

/-- The attributes with those values settled that some settings name. -/
def settled (explicit : List Text) (settings : List (Text × Option α)) (o : Attributes α) :
    Attributes α where
  values := o.values.map fun e => (e.1, settle explicit e.1 (settings.lookup e.1).join e.2)
  distinct := by
    rw [Dictionary.keys, List.map_map]
    exact o.distinct

variable {explicit : List Text} {o : Attributes α}

theorem keys_settled (settings : List (Text × Option α)) :
    (settled explicit settings o).values.keys = o.values.keys := by
  show List.map _ (List.map _ _) = _
  rw [List.map_map]
  rfl

theorem settle_none (explicit : List Text) (name : Text) (value : α) :
    settle explicit name none value = value := ite_self _

theorem settled_nil (o : Attributes α) : settled explicit [] o = o := by
  refine Attributes.eq_of_values ((List.map_congr_left fun e _ => ?_).trans (List.map_id _))
  exact congrArg (Prod.mk e.1) (settle_none explicit e.1 e.2)

/-- Settings of different names are settled one after the other. -/
theorem settled_cons {name : Text} {setting : Option α} {settings : List (Text × Option α)}
    (hname : settings.lookup name = none) (o : Attributes α) :
    settled explicit ((name, setting) :: settings) o =
      settled explicit settings (settled explicit [(name, setting)] o) := by
  refine Attributes.eq_of_values ((List.map_congr_left fun e _ => ?_).trans List.map_map.symm)
  by_cases h : e.1 = name
  · simp [h, hname, settle_none]
  · have hbeq : (e.1 == name) = false := by simpa using h
    simp [List.lookup_cons, hbeq, settle_none]

theorem settled_one (name : Text) (setting : Option α) (o : Attributes α) :
    (settled explicit [(name, setting)] o).values =
      o.values.map fun e => (e.1, if e.1 = name then settle explicit name setting e.2 else e.2) := by
  refine List.map_congr_left fun e _ => ?_
  by_cases h : e.1 = name
  · simp [h]
  · have hbeq : (e.1 == name) = false := by simpa using h
    simp [List.lookup_cons, hbeq, h, settle_none]

/-- One assignment settles one value. -/
theorem assigned_eq_settled (name : Text) (setting : Option α) (o : Attributes α) :
    assigned explicit name setting o = settled explicit [(name, setting)] o := by
  refine Attributes.eq_of_values (Eq.trans ?_ (settled_one name setting o).symm)
  have hsame (h : ∀ v, settle explicit name setting v = v ∨ o.has name = false) :
      o.values = o.values.map fun e =>
        (e.1, if e.1 = name then settle explicit name setting e.2 else e.2) := by
    refine ((List.map_congr_left fun e he => congrArg (Prod.mk e.1) ?_).trans (List.map_id _)).symm
    by_cases hname : e.1 = name
    · have hmem : name ∈ o.values.keys := List.mem_map.2 ⟨e, he, hname⟩
      have hhas : o.has name = true := List.contains_iff_mem.2 hmem
      rw [if_pos hname, (h e.2).resolve_right (by rw [hhas]; decide)]
    · rw [if_neg hname]
  cases setting with
  | none => exact hsame fun v => .inl (settle_none explicit name v)
  | some value =>
    cases hexplicit : explicit.contains name with
    | true =>
      rw [assigned, hexplicit]
      exact hsame fun v => .inl (by rw [settle, if_pos hexplicit])
    | false =>
      cases hhas : o.has name with
      | false =>
        rw [assigned, hexplicit, hhas]
        exact hsame fun v => .inr hhas
      | true =>
        have hsettle : ∀ v, settle explicit name (some value) v = value := by
          intro v
          rw [settle, hexplicit]
          rfl
        rw [assigned, hexplicit, hhas]
        simp only [hsettle]
        exact Dictionary.insert_eq_map o.distinct (List.contains_iff_mem.1 hhas) value

/-- What the assignments of several settings do, one after the other. -/
theorem run_forM_assign (explicit : List Text) (object : Nat)
    {settings : List (Text × Option α)} (hnames : (settings.map (·.1)).Nodup)
    (objects : Objects α) :
    (settings.forM fun e => assign explicit object e.1 e.2).run objects =
      ((), Function.update objects object (settled explicit settings (objects object))) := by
  induction settings generalizing objects with
  | nil =>
    rw [settled_nil, Function.update_eq_self]
    rfl
  | cons e settings ih =>
    obtain ⟨hname, hrest⟩ := List.nodup_cons.1 hnames
    have hlookup : settings.lookup e.1 = none := by
      rw [List.lookup_eq_none_iff]
      intro e' he'
      have hne : e.1 ≠ e'.1 := fun heq => hname (List.mem_map.2 ⟨e', he', heq.symm⟩)
      simpa using hne
    show (settings.forM fun e => assign explicit object e.1 e.2).run
      (objects.change object (assigned explicit e.1 e.2 (objects object))) = _
    rw [ih hrest, objects.change_eq_update, Function.update_self, Function.update_idem, assigned_eq_settled,
      ← settled_cons hlookup]

end

/-! ## What settings there are -/

/-- A setting that is there, whatever it is, with its value as that of an option. -/
inductive Sets (s : Settings) : Text → OptionValue → Prop where
  | roots {paths : List Text} (h : s.roots = some paths) : Sets s rootsName (.texts paths)
  | exclude {patterns : List Text} (h : s.exclude = some patterns) :
      Sets s excludeName (.texts patterns)
  | extendExclude {patterns : List Text} (h : s.extendExclude = some patterns) :
      Sets s extendExcludeName (.texts patterns)
  | respectGitignore {b : Bool} (h : s.respectGitignore = some b) :
      Sets s respectGitignoreName (.flag b)
  | filesMaxSize {size : Int} (h : s.filesMaxSize = some size) :
      Sets s filesMaxSizeName (.count size)

theorem nodup_fields (s : Settings) : (s.fields.map (·.1)).Nodup := by
  show [rootsName, excludeName, extendExcludeName, respectGitignoreName, filesMaxSizeName].Nodup
  decide

/-- What settings say of an option, if they say anything. -/
def setting? (s : Settings) (name : Text) : Option OptionValue := (s.fields.lookup name).join

theorem setting?_eq_some_iff {s : Settings} {name : Text} {v : OptionValue} :
    s.setting? name = some v ↔ s.Sets name v := by
  have hmem : s.setting? name = some v ↔ (name, some v) ∈ s.fields := by
    rw [setting?, Option.join_eq_some_iff]
    exact ⟨mem_of_lookup, lookup_of_mem s.nodup_fields⟩
  rw [hmem]
  constructor
  · intro h
    simp only [fields, List.mem_cons, List.not_mem_nil, or_false, Prod.mk.injEq] at h
    rcases h with ⟨rfl, h⟩ | ⟨rfl, h⟩ | ⟨rfl, h⟩ | ⟨rfl, h⟩ | ⟨rfl, h⟩
    · obtain ⟨paths, hset, rfl⟩ := Option.map_eq_some_iff.1 h.symm
      exact .roots hset
    · obtain ⟨patterns, hset, rfl⟩ := Option.map_eq_some_iff.1 h.symm
      exact .exclude hset
    · obtain ⟨patterns, hset, rfl⟩ := Option.map_eq_some_iff.1 h.symm
      exact .extendExclude hset
    · obtain ⟨b, hset, rfl⟩ := Option.map_eq_some_iff.1 h.symm
      exact .respectGitignore hset
    · obtain ⟨size, hset, rfl⟩ := Option.map_eq_some_iff.1 h.symm
      exact .filesMaxSize hset
  · intro h
    cases h with
    | roots h => simp [fields, h]
    | exclude h => simp [fields, h]
    | extendExclude h => simp [fields, h]
    | respectGitignore h => simp [fields, h]
    | filesMaxSize h => simp [fields, h]

theorem get?_values_eq (s : Settings) (name : Text) : s.values.get? name = s.setting? name :=
  lookup_filterMap s.fields name s.nodup_fields

/-- Settings with those of others over them. -/
def revisedBy (s t : Settings) : Settings where
  roots := t.roots.or s.roots
  exclude := t.exclude.or s.exclude
  extendExclude := t.extendExclude.or s.extendExclude
  respectGitignore := t.respectGitignore.or s.respectGitignore
  filesMaxSize := t.filesMaxSize.or s.filesMaxSize

theorem setting?_revisedBy (s t : Settings) (name : Text) :
    (s.revisedBy t).setting? name = (t.setting? name).or (s.setting? name) := by
  simp only [setting?, fields, revisedBy, List.lookup_cons, Option.map_or]
  cases name == rootsName with
  | true => rfl
  | false =>
    cases name == excludeName with
    | true => rfl
    | false =>
      cases name == extendExcludeName with
      | true => rfl
      | false =>
        cases name == respectGitignoreName with
        | true => rfl
        | false => cases name == filesMaxSizeName <;> rfl

/-! ## Settings over objects -/

section

variable {α : Type} (write : OptionValue → α) (explicit : List Text)

theorem lookup_fieldsAs (s : Settings) (name : Text) :
    ((s.fieldsAs write).lookup name).join = (s.setting? name).map write := by
  have hlookup : (s.fieldsAs write).lookup name = (s.fields.lookup name).map (·.map write) :=
    Dictionary.get?_map_values (fun _ (v : Option OptionValue) => v.map write) name s.fields
  rw [hlookup, setting?]
  cases s.fields.lookup name <;> rfl

/-- Later settings that are there come before earlier ones. -/
theorem settle_settle (name : Text) (setting later : Option α) (v : α) :
    settle explicit name later (settle explicit name setting v) =
      settle explicit name (later.or setting) v := by
  unfold settle
  split
  · rfl
  · cases later <;> rfl

/-- An object with the settings over it. -/
def laidOver (config : Option Settings) (o : Attributes α) : Attributes α :=
  settled explicit (config.elim [] (fieldsAs write)) o

theorem values_laidOver (config : Option Settings) (o : Attributes α) :
    (laidOver write explicit config o).values = o.values.map fun e =>
      (e.1, settle explicit e.1 ((config.bind (·.setting? e.1)).map write) e.2) := by
  refine List.map_congr_left fun e _ => congrArg (Prod.mk e.1) ?_
  cases config with
  | none => rfl
  | some s => rw [Option.elim_some, lookup_fieldsAs, Option.bind_some]

theorem run_layOver (config : Option Settings) (object : Nat) (objects : Objects α) :
    (layOver write config explicit object).run objects =
      (object, Function.update objects object (laidOver write explicit config (objects object))) := by
  cases config with
  | none =>
    rw [laidOver, Option.elim_none, settled_nil, Function.update_eq_self]
    rfl
  | some s =>
    have hnames : ((s.fieldsAs write).map (·.1)).Nodup := by
      rw [fieldsAs, List.map_map]
      exact s.nodup_fields
    simp only [layOver, StateT.run_bind, run_forM_assign explicit object hnames]
    rfl

theorem setting?_merge (config later : Option Settings) (name : Text) :
    (Option.merge revisedBy config later).bind (·.setting? name) =
      (later.bind (·.setting? name)).or (config.bind (·.setting? name)) := by
  cases config with
  | none => cases later <;> simp
  | some s =>
    cases later with
    | none => simp
    | some t => exact setting?_revisedBy s t name

theorem laidOver_laidOver (config later : Option Settings) (o : Attributes α) :
    laidOver write explicit later (laidOver write explicit config o) =
      laidOver write explicit (Option.merge revisedBy config later) o := by
  refine Attributes.eq_of_values ?_
  rw [values_laidOver, values_laidOver, values_laidOver, List.map_map]
  refine List.map_congr_left fun e _ => congrArg (Prod.mk e.1) ?_
  rw [setting?_merge, Option.map_or]
  exact settle_settle explicit e.1 _ _ e.2

theorem merge_self (config : Option Settings) : Option.merge revisedBy config config = config := by
  cases config with
  | none => rfl
  | some s => simp [revisedBy]

theorem get?_laidOver (config : Option Settings) (o : Attributes α) (name : Text) :
    (laidOver write explicit config o).get? name = (o.get? name).map
      (settle explicit name ((config.bind (·.setting? name)).map write)) := by
  rw [Attributes.get?, values_laidOver]
  exact Dictionary.get?_map_values
    (fun n v => settle explicit n ((config.bind (·.setting? n)).map write) v) name o.values

theorem settle_of_sets {config : Option Settings} {s : Settings} (hconfig : config = some s)
    {name : Text} {w : OptionValue} (hsets : s.Sets name w) (hname : name ∉ explicit) (v : α) :
    settle explicit name ((config.bind (·.setting? name)).map write) v = write w := by
  have hnot : explicit.contains name = false := by simpa using hname
  rw [hconfig, Option.bind_some, setting?_eq_some_iff.2 hsets, settle, hnot]
  rfl

theorem settle_of_not_sets {config : Option Settings} {name : Text}
    (h : name ∈ explicit ∨ ∀ s, config = some s → ∀ w, ¬ s.Sets name w) (v : α) :
    settle explicit name ((config.bind (·.setting? name)).map write) v = v := by
  rcases h with hexplicit | hnone
  · rw [settle, if_pos (List.contains_iff_mem.2 hexplicit)]
  · have hsetting : config.bind (·.setting? name) = none := by
      rw [Option.bind_eq_none_iff]
      intro s hs
      refine Option.eq_none_iff_forall_ne_some.2 fun w hw => ?_
      exact hnone s hs w (setting?_eq_some_iff.1 hw)
    rw [hsetting]
    exact settle_none explicit name v

theorem values_laidOver_id (config : Option Settings) (o : Attributes OptionValue) :
    (laidOver id explicit config o).values =
      config.elim o.values fun s => s.overlay explicit o.values := by
  rw [values_laidOver]
  cases config with
  | none =>
    refine (List.map_congr_left fun e _ => ?_).trans (List.map_id _)
    exact congrArg (Prod.mk e.1) (settle_none explicit e.1 e.2)
  | some s =>
    refine List.map_congr_left fun e _ => congrArg (Prod.mk e.1) ?_
    rw [Option.bind_some, Option.map_id, get?_values_eq]
    rfl

/-- What laying settings over an object does.  It is given back itself, and no other object is
changed.  It has the attributes that it had: those that a setting is there for and that were not
given explicitly have the value of the setting, and all others the value they had.  Doing it again
changes nothing, and laying other settings over it afterwards is laying both over it at once, the
later ones over the earlier.  On attributes with the values that settings have, it is `overlay`. -/
theorem layOver_spec (config : Option Settings) (object : Nat) (objects : Objects α) :
    let result := (layOver write config explicit object).run objects
    let before := objects object
    let after := result.2 object
    result.1 = object ∧ (∀ other, other ≠ object → result.2 other = objects other) ∧
    after.values.keys = before.values.keys ∧
    (∀ name v, before.get? name = some v →
      (∀ s w, config = some s → s.Sets name w → name ∉ explicit →
        after.get? name = some (write w)) ∧
      (name ∈ explicit ∨ (∀ s, config = some s → ∀ w, ¬ s.Sets name w) →
        after.get? name = some v)) ∧
    (layOver write config explicit object).run result.2 = result ∧
    (∀ later, (layOver write later explicit object).run result.2 =
      (layOver write (Option.merge revisedBy config later) explicit object).run objects) ∧
    ∀ options : Objects OptionValue,
      (((layOver id config explicit object).run options).2 object).values =
        config.elim (options object).values (·.overlay explicit (options object).values) := by
  intro result before after
  have hresult : result = (object, Function.update objects object
      (laidOver write explicit config before)) := run_layOver write explicit config object objects
  have hobjects : result.2 = Function.update objects object (laidOver write explicit config before) :=
    congrArg Prod.snd hresult
  have hafter : after = laidOver write explicit config before := by
    simp only [after, hobjects, Function.update_self]
  have hlater : ∀ later, (layOver write later explicit object).run result.2 =
      (layOver write (Option.merge revisedBy config later) explicit object).run objects := by
    intro later
    rw [run_layOver, run_layOver, hobjects, Function.update_self, Function.update_idem,
      laidOver_laidOver]
  refine ⟨congrArg Prod.fst hresult, fun other hother => ?_, ?_, fun name v hv => ?_, ?_, hlater,
    fun options => ?_⟩
  · rw [hobjects]
    exact Function.update_of_ne hother _ _
  · rw [hafter, laidOver, keys_settled]
  · rw [hafter, get?_laidOver, hv, Option.map_some]
    refine ⟨fun s w hs hsets hname => ?_, fun h => ?_⟩
    · rw [settle_of_sets write explicit hs hsets hname]
    · rw [settle_of_not_sets write explicit h]
  · rw [hlater, merge_self]
  · have hoptions : ((layOver id config explicit object).run options).2 =
        Function.update options object (laidOver id explicit config (options object)) :=
      congrArg Prod.snd (run_layOver id explicit config object options)
    rw [← values_laidOver_id, hoptions, Function.update_self]

end

end Settings
end ResourceFinder
