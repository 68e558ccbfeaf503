import ResourceFinder.Proofs.Except.Failure
import ResourceFinder.Settings.File

/-
Which keys of a document make settings.

The keys that are read are those at the top and those of each table there.  A key with a table for its
value at the top stands for the keys of that table and is itself not looked at, whatever its name is.
Of the keys that are read, the first that names a setting and has a value of another type makes the
file invalid; where there is none, the last value of each setting counts.
-/

namespace ResourceFinder

/-- What a configuration file can set. -/
inductive Setting where
  | roots
  | exclude
  | extendExclude
  | respectGitignore
  | filesMaxSize
  deriving DecidableEq

namespace Setting

def name : Setting → Text
  | roots => rootsName
  | exclude => excludeName
  | extendExclude => extendExcludeName
  | respectGitignore => respectGitignoreName
  | filesMaxSize => filesMaxSizeName

def expected : Setting → Settings.Expected
  | roots | exclude | extendExclude => .texts
  | respectGitignore => .flag
  | filesMaxSize => .size

def all : List Setting := [roots, exclude, extendExclude, respectGitignore, filesMaxSize]

/-- Whether a key stands for a setting, its words joined in either way. -/
def IsNamed (x : Setting) (key : Text) : Prop := key.replaceChar '-' '_' = x.name

instance (x : Setting) (key : Text) : Decidable (x.IsNamed key) :=
  inferInstanceAs (Decidable (key.replaceChar '-' '_' = x.name))

/-- Whether a key stands for any setting. -/
def isKnown (key : Text) : Bool := all.any (·.IsNamed key)

theorem not_isNamed_of_isKnown {key : Text} (h : isKnown key = false) (x : Setting) :
    ¬ x.IsNamed key := by
  have hall : x ∈ all := by cases x <;> decide
  simpa using List.any_eq_false.1 h x hall

theorem eq_of_name {x y : Setting} (h : x.name = y.name) : x = y := by
  revert h
  cases x <;> cases y <;> decide

theorem IsNamed.unique {x y : Setting} {key : Text} (hx : x.IsNamed key) (hy : y.IsNamed key) :
    x = y := eq_of_name (hx.symm.trans hy)

end Setting

namespace Settings

inductive Expected.Fits : Expected → Toml.Value → Prop where
  | texts (ts : List Text) : Fits .texts (.list (ts.map .text))
  | flag (b : Bool) : Fits .flag (.bool b)
  | size (n : Nat) : Fits .size (.integer n)

/-- The value of a setting as a document writes it. -/
def written (s : Settings) : Setting → Option Toml.Value
  | .roots => s.roots.map fun ts => .list (ts.map .text)
  | .exclude => s.exclude.map fun ts => .list (ts.map .text)
  | .extendExclude => s.extendExclude.map fun ts => .list (ts.map .text)
  | .respectGitignore => s.respectGitignore.map .bool
  | .filesMaxSize => s.filesMaxSize.map .integer

/-- A key that names a setting, with a value that is not of its type. -/
inductive IsWrong : Text × Toml.Value → WrongType → Prop where
  | mk {x : Setting} {key : Text} {v : Toml.Value} (hkey : x.IsNamed key)
      (hv : ¬ x.expected.Fits v) : IsWrong (key, v) ⟨key, x.expected, v⟩

/-- The first wrong type among keys with their values. -/
inductive IsFirstWrong : List (Text × Toml.Value) → WrongType → Prop where
  | here {e : Text × Toml.Value} {entries : List (Text × Toml.Value)} {w : WrongType}
      (h : IsWrong e w) : IsFirstWrong (e :: entries) w
  | later {e : Text × Toml.Value} {entries : List (Text × Toml.Value)} {w : WrongType}
      (he : ∀ w, ¬ IsWrong e w) (h : IsFirstWrong entries w) : IsFirstWrong (e :: entries) w

/-- The last value that keys give a setting. -/
def lastValue? (x : Setting) (entries : List (Text × Toml.Value)) : Option Toml.Value :=
  (entries.reverse.find? fun e => x.IsNamed e.1).map (·.2)

/-! ## One value -/

theorem textOf?_eq_some {v : Toml.Value} {t : Text} : textOf? v = some t ↔ v = .text t := by
  cases v <;> simp [textOf?]

theorem mapM_textOf? {items : List Toml.Value} {ts : List Text} :
    items.mapM textOf? = some ts ↔ items = ts.map .text := by
  induction items generalizing ts with
  | nil => cases ts <;> simp
  | cons v items ih =>
    simp only [List.mapM_cons, bind, pure, Option.bind_eq_some_iff, textOf?_eq_some, ih,
      Option.some.injEq]
    constructor
    · rintro ⟨t, rfl, ts, rfl, rfl⟩
      rfl
    · intro h
      obtain ⟨t, ts, rfl, rfl, rfl⟩ := List.map_eq_cons_iff.1 h.symm
      exact ⟨t, rfl, ts, rfl, rfl⟩

theorem textsOf?_eq_some {v : Toml.Value} {ts : List Text} :
    textsOf? v = some ts ↔ v = .list (ts.map .text) := by
  cases v with
  | list items => simp [textsOf?, mapM_textOf?]
  | _ => simp [textsOf?]

theorem flagOf?_eq_some {v : Toml.Value} {b : Bool} : flagOf? v = some b ↔ v = .bool b := by
  cases v <;> simp [flagOf?]

theorem sizeOf?_eq_some {v : Toml.Value} {n : Int} :
    sizeOf? v = some n ↔ v = .integer n ∧ 0 ≤ n := by
  cases v with
  | integer m =>
    simp only [sizeOf?, Toml.Value.integer.injEq]
    split <;> grind
  | _ => simp [sizeOf?]

theorem fits_texts {v : Toml.Value} : Expected.texts.Fits v ↔ ∃ ts, textsOf? v = some ts := by
  simp only [textsOf?_eq_some]
  constructor
  · intro h
    cases h with
    | texts ts => exact ⟨ts, rfl⟩
  · rintro ⟨ts, rfl⟩
    exact .texts ts

theorem fits_flag {v : Toml.Value} : Expected.flag.Fits v ↔ ∃ b, flagOf? v = some b := by
  simp only [flagOf?_eq_some]
  constructor
  · intro h
    cases h with
    | flag b => exact ⟨b, rfl⟩
  · rintro ⟨b, rfl⟩
    exact .flag b

theorem fits_size {v : Toml.Value} : Expected.size.Fits v ↔ ∃ n, sizeOf? v = some n := by
  simp only [sizeOf?_eq_some]
  constructor
  · intro h
    cases h with
    | size n => exact ⟨n, rfl, Int.natCast_nonneg n⟩
  · rintro ⟨n, rfl, hn⟩
    obtain ⟨m, rfl⟩ := Int.eq_ofNat_of_zero_le hn
    exact .size m

/-! ## One key -/

/-- What a key does that stands for a setting: it sets that one alone, or it is refused. -/
inductive Takes (s : Settings) (x : Setting) (key : Text) (v : Toml.Value) :
    Except WrongType Settings → Prop where
  | set {s' : Settings} (hv : x.expected.Fits v) (here : s'.written x = some v)
      (others : ∀ y, y ≠ x → s'.written y = s.written y) : Takes s x key v (.ok s')
  | refuse (hv : ¬ x.expected.Fits v) : Takes s x key v (.error ⟨key, x.expected, v⟩)

section

variable {s : Settings} {x : Setting} {key : Text} {v : Toml.Value}

/-- A value that is taken as the type of a setting, or not, as the type says. -/
theorem takes_expect {α : Type} {as? : Toml.Value → Option α} {shown : α → Toml.Value}
    {f : α → Settings} (hfits : x.expected.Fits v ↔ ∃ a, as? v = some a)
    (hshown : ∀ a, as? v = some a → v = shown a) (here : ∀ a, (f a).written x = some (shown a))
    (others : ∀ a y, y ≠ x → (f a).written y = s.written y) :
    Takes s x key v ((expect key x.expected as? v).map f) := by
  unfold expect
  cases has : as? v with
  | some a =>
    refine .set (hfits.2 ⟨a, has⟩) ?_ (others a)
    rw [here, ← hshown a has]
  | none => exact .refuse (by simp [hfits, has])

theorem set_of_unknown (h : ∀ x : Setting, ¬ x.IsNamed key) : s.set key v = .ok s := by
  have hroots : ¬ key.replaceChar '-' '_' = rootsName := h .roots
  have hexclude : ¬ key.replaceChar '-' '_' = excludeName := h .exclude
  have hextend : ¬ key.replaceChar '-' '_' = extendExcludeName := h .extendExclude
  have hrespect : ¬ key.replaceChar '-' '_' = respectGitignoreName := h .respectGitignore
  have hsize : ¬ key.replaceChar '-' '_' = filesMaxSizeName := h .filesMaxSize
  simp only [set, hroots, hexclude, hextend, hrespect, hsize, if_false]
  rfl

theorem takes_set (h : x.IsNamed key) : Takes s x key v (s.set key v) := by
  have hname : key.replaceChar '-' '_' = x.name := h
  unfold set
  simp only [hname]
  cases x with
  | roots =>
    refine takes_expect fits_texts (fun _ => textsOf?_eq_some.1) (fun _ => rfl) fun _ y hy => ?_
    cases y with
    | roots => exact absurd rfl hy
    | _ => rfl
  | exclude =>
    refine takes_expect fits_texts (fun _ => textsOf?_eq_some.1) (fun _ => rfl) fun _ y hy => ?_
    cases y with
    | exclude => exact absurd rfl hy
    | _ => rfl
  | extendExclude =>
    refine takes_expect fits_texts (fun _ => textsOf?_eq_some.1) (fun _ => rfl) fun _ y hy => ?_
    cases y with
    | extendExclude => exact absurd rfl hy
    | _ => rfl
  | respectGitignore =>
    refine takes_expect fits_flag (fun _ => flagOf?_eq_some.1) (fun _ => rfl) fun _ y hy => ?_
    cases y with
    | respectGitignore => exact absurd rfl hy
    | _ => rfl
  | filesMaxSize =>
    refine takes_expect fits_size (fun _ ha => (sizeOf?_eq_some.1 ha).1) (fun _ => rfl) fun _ y hy => ?_
    cases y with
    | filesMaxSize => exact absurd rfl hy
    | _ => rfl

end

/-! ## All keys -/

theorem not_isWrong_of_unknown {key : Text} {v : Toml.Value} (h : ∀ x : Setting, ¬ x.IsNamed key)
    (w : WrongType) : ¬ IsWrong (key, v) w := by
  rintro ⟨hkey, -⟩
  exact h _ hkey

theorem not_isWrong_of_fits {x : Setting} {key : Text} {v : Toml.Value} (hkey : x.IsNamed key)
    (hv : x.expected.Fits v) (w : WrongType) : ¬ IsWrong (key, v) w := by
  rintro ⟨hkey', hv'⟩
  obtain rfl := hkey.unique hkey'
  exact hv' hv

theorem lastValue?_cons (x : Setting) (key : Text) (v : Toml.Value)
    (entries : List (Text × Toml.Value)) : lastValue? x ((key, v) :: entries) =
      (lastValue? x entries).or (if x.IsNamed key then some v else none) := by
  rw [lastValue?, lastValue?, List.reverse_cons, List.find?_append, Option.map_or]
  by_cases hkey : x.IsNamed key
  · simp [hkey]
  · simp [hkey]

/-- What taking over some keys comes to, from settings that are there already. -/
inductive TakesAll (s : Settings) (entries : List (Text × Toml.Value)) :
    Except WrongType Settings → Prop where
  | set {s' : Settings} (hfits : ∀ e ∈ entries, ∀ w, ¬ IsWrong e w)
      (h : ∀ x, s'.written x = (lastValue? x entries).or (s.written x)) : TakesAll s entries (.ok s')
  | refuse {w : WrongType} (h : IsFirstWrong entries w) : TakesAll s entries (.error w)

theorem TakesAll.cons {s s' : Settings} {entries : List (Text × Toml.Value)}
    {outcome : Except WrongType Settings} (h : TakesAll s' entries outcome) {key : Text}
    {v : Toml.Value} (he : ∀ w, ¬ IsWrong (key, v) w)
    (hs : ∀ x, s'.written x = if x.IsNamed key then some v else s.written x) :
    TakesAll s ((key, v) :: entries) outcome := by
  cases h with
  | set hfits h =>
    refine .set (List.forall_mem_cons.2 ⟨he, hfits⟩) fun x => ?_
    rw [h, hs, lastValue?_cons, Option.or_assoc]
    by_cases hkey : x.IsNamed key
    · rw [if_pos hkey, if_pos hkey, Option.some_or]
    · rw [if_neg hkey, if_neg hkey, Option.none_or]
  | refuse h => exact .refuse (.later he h)

/-- The keys are taken over in order.  The first wrong type ends it, and where there is none each
setting is left with its last value. -/
theorem takesAll_foldlM (entries : List (Text × Toml.Value)) (s : Settings) :
    TakesAll s entries (entries.foldlM (fun s (key, v) => s.set key v) s) := by
  induction entries generalizing s with
  | nil => exact .set (by simp) fun x => rfl
  | cons e entries ih =>
    obtain ⟨key, v⟩ := e
    rw [List.foldlM_cons]
    show TakesAll s _ (s.set key v >>= _)
    by_cases hknown : ∃ x : Setting, x.IsNamed key
    · obtain ⟨x, hkey⟩ := hknown
      have htakes : Takes s x key v (s.set key v) := takes_set hkey
      generalize s.set key v = outcome at htakes
      cases htakes with
      | set hv here others =>
        refine (ih _).cons (not_isWrong_of_fits hkey hv) fun y => ?_
        by_cases hy : y = x
        · rw [if_pos (hy ▸ hkey), hy, here]
        · rw [if_neg fun hkey' => hy (hkey'.unique hkey), others y hy]
      | refuse hv => exact .refuse (.here (.mk hkey hv))
    · have hunknown : ∀ x : Setting, ¬ x.IsNamed key := fun x hx => hknown ⟨x, hx⟩
      rw [set_of_unknown hunknown]
      refine (ih s).cons (not_isWrong_of_unknown hunknown) fun x => ?_
      rw [if_neg (hunknown x)]

/-- Keys that name no setting have no influence. -/
theorem foldlM_filter_isKnown (entries : List (Text × Toml.Value)) (s : Settings) :
    (entries.filter fun e => Setting.isKnown e.1).foldlM (fun s (key, v) => s.set key v) s =
      entries.foldlM (fun s (key, v) => s.set key v) s := by
  induction entries generalizing s with
  | nil => rfl
  | cons e entries ih =>
    obtain ⟨key, v⟩ := e
    cases hknown : Setting.isKnown key with
    | true =>
      simp only [List.filter_cons, hknown, if_true, List.foldlM_cons]
      exact bind_congr fun s => ih s
    | false =>
      simp only [List.filter_cons, hknown, Bool.false_eq_true, if_false, ih, List.foldlM_cons]
      show _ = s.set key v >>= _
      rw [set_of_unknown (Setting.not_isNamed_of_isKnown hknown)]
      rfl

/-! ## The keys of a document -/

/-- All keys at the top and all keys of the tables there. -/
def allKeys (t : Toml.Table) : List (Text × Toml.Value) :=
  t.flatMap fun
    | (key, .table members) => (key, .table members) :: members
    | entry => [entry]

/-- Of all these keys only those are not read whose values at the top are tables. -/
theorem mem_allKeys {t : Toml.Table} {e : Text × Toml.Value} :
    e ∈ allKeys t ↔ e ∈ flatten t ∨ ∃ key members, e = (key, .table members) ∧ e ∈ t := by
  induction t with
  | nil => simp [allKeys, flatten]
  | cons entry t ih =>
    obtain ⟨key, v⟩ := entry
    simp only [allKeys, flatten] at ih
    simp only [allKeys, flatten, List.flatMap_cons, List.mem_append, ih]
    cases v with
    | table members =>
      simp only [List.mem_cons]
      grind
    | _ =>
      simp only [List.mem_cons]
      grind

def tableIn (p : Path) (document : Toml.Table) : Toml.Table :=
  if p.name = sharedFileName then (toolTable? document).getD [] else document

/-- Settings whose roots are read as paths from a directory. -/
def rootedAt (s : Settings) (base : Path) : Settings :=
  { s with roots := s.roots.map (·.map fun root => (base.joinText root).text) }

section

variable {fs : FileSystem} {p : Path} {document : Toml.Table}

theorem load_eq (h : readDocument fs p = .ok document) :
    load fs p = ((ofTable (tableIn p document)).mapError (.wrongType p.text)).map
      (·.rootedAt (fs.resolve p).parent) := by
  rw [load, h]
  show ((ofTable (tableIn p document)).mapError (FileError.wrongType p.text) >>=
    fun s => .ok (s.rootedAt (fs.resolve p).parent)) = _
  cases (ofTable (tableIn p document)).mapError (FileError.wrongType p.text) <;> rfl

/-- The two ways in which a document that has been read goes on. -/
theorem load_cases (h : readDocument fs p = .ok document) :
    let entries := flatten (tableIn p document)
    (∃ w, IsFirstWrong entries w ∧ load fs p = .error (.wrongType p.text w)) ∨
    (∀ e ∈ entries, ∀ w, ¬ IsWrong e w) ∧
      ∃ s : Settings, load fs p = .ok (s.rootedAt (fs.resolve p).parent) ∧
        ∀ x, s.written x = lastValue? x entries := by
  intro entries
  rw [load_eq h]
  have htakes : TakesAll {} entries (ofTable (tableIn p document)) := takesAll_foldlM entries {}
  generalize ofTable (tableIn p document) = outcome at htakes
  cases htakes with
  | set hfits hs =>
    refine .inr ⟨hfits, _, rfl, fun x => ?_⟩
    have hnone : ({} : Settings).written x = none := by cases x <;> rfl
    rw [hs, hnone, Option.or_none]
  | refuse hw => exact .inl ⟨_, hw, rfl⟩

theorem IsWrong.unique {e : Text × Toml.Value} {w w' : WrongType} (h : IsWrong e w)
    (h' : IsWrong e w') : w = w' := by
  obtain ⟨hkey, -⟩ := h
  obtain ⟨hkey', -⟩ := h'
  rw [hkey.unique hkey']

theorem IsFirstWrong.exists_isWrong {entries : List (Text × Toml.Value)} {w : WrongType}
    (h : IsFirstWrong entries w) : ∃ e ∈ entries, IsWrong e w := by
  induction h with
  | here h => exact ⟨_, List.mem_cons_self, h⟩
  | later he h ih =>
    obtain ⟨e, hmem, hw⟩ := ih
    exact ⟨e, List.mem_cons_of_mem _ hmem, hw⟩

theorem IsFirstWrong.unique {entries : List (Text × Toml.Value)} {w w' : WrongType}
    (h : IsFirstWrong entries w) (h' : IsFirstWrong entries w') : w = w' := by
  induction h with
  | here h =>
    cases h' with
    | here h' => exact h.unique h'
    | later he h' => exact absurd h (he _)
  | later he h ih =>
    cases h' with
    | here h' => exact absurd h' (he _)
    | later he' h' => exact ih h'

theorem isWrong_table {x : Setting} {key : Text} (hkey : x.IsNamed key)
    (members : List (Text × Toml.Value)) : ∃ w, IsWrong (key, .table members) w := by
  refine ⟨_, .mk hkey fun hv => ?_⟩
  generalize x.expected = expected at hv
  cases hv

theorem exists_isWrong_allKeys {t : Toml.Table} : (∃ e ∈ allKeys t, ∃ w, IsWrong e w) ↔
    (∃ e ∈ flatten t, ∃ w, IsWrong e w) ∨
      ∃ x : Setting, ∃ key members, x.IsNamed key ∧ (key, .table members) ∈ t := by
  constructor
  · rintro ⟨e, he, w, hw⟩
    rcases mem_allKeys.1 he with he | ⟨key, members, rfl, he⟩
    · exact .inl ⟨e, he, w, hw⟩
    · obtain ⟨hkey, -⟩ := hw
      exact .inr ⟨_, key, members, hkey, he⟩
  · rintro (⟨e, he, hw⟩ | ⟨x, key, members, hkey, he⟩)
    · exact ⟨e, mem_allKeys.2 (.inl he), hw⟩
    · exact ⟨_, mem_allKeys.2 (.inr ⟨key, members, rfl, he⟩), isWrong_table hkey members⟩

/-- What comes of a configuration file whose document can be read.  It is invalid exactly if, among the
keys at the top that have no tables for values and the keys of these tables, one names a setting and
has a value of the wrong type; the failure names the file and the first such key.  Otherwise each
setting has its last value among these keys, or none, with the roots as paths from the directory that
holds the file.  Keys that name no setting have no influence.  What is passed over, though it is a
setting of the wrong type, is a table at the top under the name of a setting. -/
theorem load_reads_keys (h : readDocument fs p = .ok document) :
    let t := tableIn p document
    (∀ f, load fs p = .error f ↔ ∃ w, IsFirstWrong (flatten t) w ∧ f = .wrongType p.text w) ∧
    (∀ w, (FileError.wrongType p.text w).message = p.text ++ ": " ++ w.message) ∧
    ((∀ e ∈ flatten t, ∀ w, ¬ IsWrong e w) →
      ∃ s : Settings, load fs p = .ok (s.rootedAt (fs.resolve p).parent) ∧
        ∀ x, s.written x = lastValue? x (flatten t)) ∧
    (∀ fs' document', readDocument fs' p = .ok document' → fs'.resolve p = fs.resolve p →
      (flatten (tableIn p document')).filter (fun e => Setting.isKnown e.1) =
        (flatten t).filter (fun e => Setting.isKnown e.1) → load fs' p = load fs p) ∧
    ((∃ e ∈ allKeys t, ∃ w, IsWrong e w) ↔ (∃ f, load fs p = .error f) ∨
      ∃ x : Setting, ∃ key members, x.IsNamed key ∧ (key, .table members) ∈ t) := by
  intro t
  have hfails : ∀ f, load fs p = .error f ↔
      ∃ w, IsFirstWrong (flatten t) w ∧ f = .wrongType p.text w := by
    intro f
    obtain ⟨w, hw, hload⟩ | ⟨hfits, s, hload, -⟩ := load_cases h
    · rw [hload, Except.error.injEq]
      refine ⟨fun hf => ⟨w, hw, hf.symm⟩, fun ⟨w', hw', hf⟩ => ?_⟩
      rw [hf, hw.unique hw']
    · rw [hload]
      constructor
      · intro hf
        cases hf
      · rintro ⟨w, hw, -⟩
        obtain ⟨e, he, hw⟩ := hw.exists_isWrong
        exact absurd hw (hfits e he w)
  refine ⟨hfails, fun w => rfl, fun hfits => ?_, fun fs' document' h' hresolve hknown => ?_, ?_⟩
  · obtain ⟨w, hw, -⟩ | ⟨-, hs⟩ := load_cases h
    · obtain ⟨e, he, hw⟩ := hw.exists_isWrong
      exact absurd hw (hfits e he w)
    · exact hs
  · rw [load_eq h, load_eq h', hresolve, ofTable, ofTable, ← foldlM_filter_isKnown, hknown,
      foldlM_filter_isKnown]
  · rw [exists_isWrong_allKeys]
    refine or_congr_left ?_
    obtain ⟨w, hw, hload⟩ | ⟨hfits, s, hload, -⟩ := load_cases h
    · rw [hload]
      obtain ⟨e, he, hw⟩ := hw.exists_isWrong
      exact ⟨fun _ => ⟨_, rfl⟩, fun _ => ⟨e, he, w, hw⟩⟩
    · rw [hload]
      constructor
      · rintro ⟨e, he, w, hw⟩
        exact absurd hw (hfits e he w)
      · rintro ⟨f, hf⟩
        cases hf

end

/-! ## A table under the name of a setting -/

def tableForRoots : FileSystem :=
  ⟨[("reslocator.toml", .file [114, 111, 111, 116, 115, 61, 123, 101, 120, 99, 108, 117, 100, 101, 61,
    91, 93, 125])], []⟩

def tableForRootsPath : Path := ⟨.root, ["reslocator.toml"]⟩

theorem readDocument_tableForRoots : readDocument tableForRoots tableForRootsPath =
    .ok [("roots", .table [("exclude", .list [])])] := by
  have htext : tableForRoots.readText tableForRootsPath =
      .ok ("roots=\x7bexclude=[]\x7d" : Text) := by cbv
  unfold readDocument
  rw [htext]
  rfl

theorem not_isWrong_tableForRoots :
    ∀ e ∈ flatten [("roots", .table [("exclude", .list [])])], ∀ w, ¬ IsWrong e w := by
  intro e he
  obtain rfl : e = (excludeName, .list []) := List.mem_singleton.1 he
  exact not_isWrong_of_fits (x := .exclude) rfl (.texts [])

/-- A table under the name of the roots is no list of texts, and yet it does not make the file
invalid: it is read for the keys in it. -/
theorem load_tableForRoots :
    readDocument tableForRoots tableForRootsPath =
      .ok [("roots", .table [("exclude", .list [])])] ∧
    IsWrong ("roots", .table [("exclude", .list [])])
      ⟨"roots", .texts, .table [("exclude", .list [])]⟩ ∧
    load tableForRoots tableForRootsPath = .ok { exclude := some [] } := by
  refine ⟨readDocument_tableForRoots, .mk (x := .roots) rfl fun hv => ?_, ?_⟩
  · cases hv
  · rw [load_eq readDocument_tableForRoots]
    rfl

theorem load_reads_keys_tableForRoots :
    readDocument tableForRoots tableForRootsPath =
      .ok [("roots", .table [("exclude", .list [])])] ∧
    (∃ s : Settings, load tableForRoots tableForRootsPath =
        .ok (s.rootedAt (tableForRoots.resolve tableForRootsPath).parent) ∧
      s.written .exclude = some (.list []) ∧ s.written .roots = none) ∧
    ∃ e ∈ allKeys [("roots", .table [("exclude", .list [])])], ∃ w, IsWrong e w := by
  obtain ⟨-, -, hloads, -, hpassed⟩ := load_reads_keys readDocument_tableForRoots
  obtain ⟨s, hload, hs⟩ := hloads not_isWrong_tableForRoots
  refine ⟨readDocument_tableForRoots, ⟨s, hload, ?_, ?_⟩, ?_⟩
  · rw [hs]
    rfl
  · rw [hs]
    rfl
  · exact hpassed.2 (.inr ⟨.roots, "roots", _, rfl, List.mem_cons_self⟩)

end Settings
end ResourceFinder
