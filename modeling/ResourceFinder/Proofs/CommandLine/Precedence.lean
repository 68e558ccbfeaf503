import ResourceFinder.CommandLine.Run
import ResourceFinder.Proofs.CommandLine.Explicit
import ResourceFinder.Proofs.Settings.Nearest

/-
The precedence of arguments over settings, and of settings over defaults.

`Options.prescribed` says which value each option should have.  A run uses these values for all the
options that a configuration file can set but the roots.  A root that shares an argument with
options before it is read as a root, and yet the settings count as if none had been given: whether
options were given is asked of a reader who passes over the argument, since it begins with an option
that this reader does not know.
-/

namespace ResourceFinder

open CommandLine

namespace Options

/-- The value given, if any is given; else the one set, if any is set; else the default. -/
def precedence {α : Type} (given : Bool) (value : α) (setting : Option α) (default : α) : α :=
  if given then value else setting.getD default

def isGiven (a : Arguments) (f : Flag) : Bool := a.given.any (·.flag = f)

/-- The options with the values that they should have. -/
def prescribed (a : Arguments) (s : Settings) : Options :=
  { ofArguments a with
    roots := precedence (isGiven a .root) (valuesOf a.given .root) s.roots []
    exclude := precedence (isGiven a .exclude) (some (valuesOf a.given .exclude))
      (s.exclude.map some) none
    extendExclude := precedence (isGiven a .extendExclude) (valuesOf a.given .extendExclude)
      s.extendExclude []
    respectGitignore := precedence (isGiven a .noRespectGitignore) false s.respectGitignore true
    filesMaxSize := precedence (isGiven a .filesMaxSize)
      (((valuesOf a.given .filesMaxSize).getLast?.bind Numeral.limitedInteger?).getD 0)
      s.filesMaxSize 0 }

/-- Some argument is a root, on its face. -/
def NamesRoot (arguments : List Text) : Prop :=
  ∃ tokens, tokensOf Flag.all arguments = .ok tokens ∧ Names tokens .root

/-- The settings have other roots than the arguments, each of which shares its argument with options
before it. -/
def RootsOverruled (arguments : List Text) (a : Arguments) (s : Settings) : Prop :=
  isGiven a .root = true ∧ ¬ NamesRoot arguments ∧
    ∃ roots, s.roots = some roots ∧ roots ≠ valuesOf a.given .root

theorem isGiven_iff {a : Arguments} {f : Flag} :
    isGiven a f = true ↔ ∃ g ∈ a.given, g.flag = f := by
  simp [isGiven]

theorem valuesOf_eq_nil {a : Arguments} {f : Flag} (h : isGiven a f = false) :
    valuesOf a.given f = [] := by
  have hnone : ∀ g ∈ a.given, g.flag ≠ f := by
    intro g hg hflag
    rw [isGiven_iff.2 ⟨g, hg, hflag⟩] at h
    cases h
  simpa [valuesOf] using hnone

/-- Where it is known whether an option was given, settling it gives the value that it should
have. -/
theorem settle_eq_precedence {α : Type} {explicit : List Text} {name : Text} {given : Bool}
    {v value default : α} (setting : Option α) (h : name ∈ explicit ↔ given = true)
    (hgiven : given = true → v = value) (hdefault : given = false → v = default) :
    settle explicit name setting v = precedence given value setting default := by
  cases given with
  | true =>
    rw [settle, if_pos (List.contains_iff_mem.2 (h.2 rfl)), hgiven rfl]
    rfl
  | false =>
    have hnot : explicit.contains name = false := by simpa using h
    rw [settle, hnot, hdefault rfl]
    rfl

theorem under_empty (o : Options) (explicit : List Text) : o.under {} explicit = o := by
  simp [under, settle]

/-! ## Names of settings -/

theorem mem_configurable_of_settingName {f : Flag} {name : Text} (h : settingName? f = some name) :
    f ∈ Flag.configurable := by
  cases f <;> first | decide | cases h

theorem settingName?_inj {f f' : Flag} {name : Text} (h : settingName? f = some name)
    (h' : settingName? f' = some name) : f = f' := by
  have hinj : ∀ f ∈ Flag.configurable, ∀ f' ∈ Flag.configurable,
      settingName? f = settingName? f' → f = f' := by decide
  exact hinj f (mem_configurable_of_settingName h) f' (mem_configurable_of_settingName h')
    (h.trans h'.symm)

theorem mem_explicitNames {a : Arguments} {f : Flag} {name : Text}
    (h : settingName? f = some name) : name ∈ explicitNames a ↔ ∃ g ∈ a.given, g.flag = f := by
  unfold explicitNames
  rw [List.mem_filterMap]
  constructor
  · rintro ⟨g, hg, hname⟩
    exact ⟨g, hg, settingName?_inj hname h⟩
  · rintro ⟨g, hg, rfl⟩
    exact ⟨g, hg, h⟩

/-! ## Runs -/

/-- What reading arguments finds explicit: the options that are given, but a root only where an
argument is one on its face. -/
theorem exists_read {arguments : List Text} {a : Arguments}
    (hread : CommandLine.read Flag.all arguments = .ok a) (hleft : a.leftOver = []) :
    ∃ explicit, Options.read arguments = .ok (ofArguments a, explicit) ∧
      ∀ f name, settingName? f = some name →
        (name ∈ explicit ↔ isGiven a f = true ∧ (f = .root → NamesRoot arguments)) := by
  cases htokens : tokensOf Flag.all arguments with
  | error e =>
    unfold CommandLine.read at hread
    rw [htokens] at hread
    cases hread
  | ok tokens =>
    obtain ⟨known, hknown, hgiven⟩ := exists_read_configurable htokens hread hleft
    refine ⟨explicitNames known, ?_, fun f name hname => ?_⟩
    · simp [Options.read, hread, hleft, hknown, bind, Except.bind, pure, Except.pure]
    · have hconfigurable := mem_configurable_of_settingName hname
      have hnames : NamesRoot arguments ↔ Names tokens .root := by
        simp [NamesRoot, htokens]
      rw [mem_explicitNames hname, hgiven, isGiven_iff, hnames]
      by_cases hroot : f = .root
      · subst hroot
        constructor
        · rintro ⟨-, hnamed⟩
          exact ⟨(reads_of_read htokens hread).1.given_of_names hnamed, fun _ => hnamed⟩
        · rintro ⟨-, hnamed⟩
          exact ⟨hconfigurable, hnamed rfl⟩
      · rw [names_iff_given htokens hread hconfigurable hroot]
        simp [hconfigurable, hroot]

section

variable {arguments : List Text} {a : Arguments} {explicit : List Text}
  (hexplicit : ∀ f name, settingName? f = some name →
    (name ∈ explicit ↔ isGiven a f = true ∧ (f = .root → NamesRoot arguments)))

include hexplicit

theorem mem_explicit_iff {f : Flag} {name : Text} (hname : settingName? f = some name)
    (hroot : f ≠ .root) : name ∈ explicit ↔ isGiven a f = true := by
  rw [hexplicit f name hname]
  simp [hroot]

/-- But for the roots, settings over the options are the options as they should be. -/
theorem under_eq_prescribed (s : Settings) :
    { (ofArguments a).under s explicit with roots := (prescribed a s).roots } =
      prescribed a s := by
  have hexclude : settle explicit excludeName (s.exclude.map some) (ofArguments a).exclude =
      precedence (isGiven a .exclude) (some (valuesOf a.given .exclude)) (s.exclude.map some)
        none :=
    settle_eq_precedence _ (mem_explicit_iff hexplicit rfl (by decide)) (fun h => if_pos h)
      (fun h => if_neg (Bool.eq_false_iff.1 h))
  have hextend : settle explicit extendExcludeName s.extendExclude (ofArguments a).extendExclude =
      precedence (isGiven a .extendExclude) (valuesOf a.given .extendExclude) s.extendExclude [] :=
    settle_eq_precedence _ (mem_explicit_iff hexplicit rfl (by decide)) (fun _ => rfl)
      valuesOf_eq_nil
  have hrespect : settle explicit respectGitignoreName s.respectGitignore
        (ofArguments a).respectGitignore =
      precedence (isGiven a .noRespectGitignore) false s.respectGitignore true :=
    settle_eq_precedence _ (mem_explicit_iff hexplicit rfl (by decide)) (congrArg not)
      (congrArg not)
  have hsize : settle explicit filesMaxSizeName s.filesMaxSize (ofArguments a).filesMaxSize =
      precedence (isGiven a .filesMaxSize)
        (((valuesOf a.given .filesMaxSize).getLast?.bind Numeral.limitedInteger?).getD 0)
        s.filesMaxSize 0 := by
    refine settle_eq_precedence _ (mem_explicit_iff hexplicit rfl (by decide)) (fun _ => rfl)
      fun h => ?_
    simp only [ofArguments, valuesOf_eq_nil h]
    rfl
  simp only [under, prescribed, hexclude, hextend, hrespect, hsize]

theorem roots_under_iff (s : Settings) :
    ((ofArguments a).under s explicit).roots = (prescribed a s).roots ↔
      ¬ RootsOverruled arguments a s := by
  have hroots := hexplicit .root rootsName rfl
  have hleft : ((ofArguments a).under s explicit).roots =
      settle explicit rootsName s.roots (valuesOf a.given .root) := rfl
  have hright : (prescribed a s).roots =
      precedence (isGiven a .root) (valuesOf a.given .root) s.roots [] := rfl
  rw [hleft, hright]
  cases hgiven : isGiven a .root with
  | false =>
    have hmem : rootsName ∈ explicit ↔ false = true := by
      rw [hroots, hgiven]
      simp
    have hnot : ¬ RootsOverruled arguments a s := fun h => by
      rw [h.1] at hgiven
      cases hgiven
    refine iff_of_true ?_ hnot
    exact settle_eq_precedence s.roots hmem (fun _ => rfl) (fun _ => valuesOf_eq_nil hgiven)
  | true =>
    show settle explicit rootsName s.roots (valuesOf a.given .root) = valuesOf a.given .root ↔ _
    by_cases hnamed : NamesRoot arguments
    · have hmem : rootsName ∈ explicit := hroots.2 ⟨hgiven, fun _ => hnamed⟩
      refine iff_of_true ?_ fun h => h.2.1 hnamed
      rw [settle, if_pos (List.contains_iff_mem.2 hmem)]
    · have hmem : rootsName ∉ explicit := fun h => hnamed ((hroots.1 h).2 rfl)
      rw [settle, if_neg (fun h => hmem (List.contains_iff_mem.1 h))]
      simp only [RootsOverruled, hgiven, hnamed, not_false_eq_true, true_and]
      cases s.roots with
      | none => simp
      | some roots => simp

end

/-- A run uses the options as they should be, and the roots too, unless they are overruled.  They are
those of the arguments with the settings laid over them as over any options. -/
theorem run_precedence {fs : FileSystem} {arguments : List Text} {a : Arguments}
    {settings : Option Settings} (hread : CommandLine.read Flag.all arguments = .ok a)
    (hleft : a.leftOver = []) (hversion : isGiven a .version = false)
    (hsettings : settingsHere fs = .ok settings) :
    ∃ explicit o, Options.read arguments = .ok (ofArguments a, explicit) ∧
      o = (ofArguments a).under (settings.getD {}) explicit ∧
      o.values = (settings.getD {}).overlay explicit (ofArguments a).values ∧
      run fs arguments = search fs o ∧
      (∀ f name, settingName? f = some name →
        (name ∈ explicit ↔ isGiven a f = true ∧ (f = .root → NamesRoot arguments))) ∧
      { o with roots := (prescribed a (settings.getD {})).roots } =
        prescribed a (settings.getD {}) ∧
      (o.roots = (prescribed a (settings.getD {})).roots ↔
        ¬ RootsOverruled arguments a (settings.getD {})) := by
  obtain ⟨explicit, hexplicit, hnames⟩ := exists_read hread hleft
  refine ⟨explicit, _, hexplicit, rfl, values_under _ _ _, ?_, hnames, under_eq_prescribed hnames _,
    roots_under_iff hnames _⟩
  have hnot : (ofArguments a).version = false := hversion
  unfold run
  rw [hexplicit]
  rw [settingsOn_default, hsettings]
  cases settings with
  | none => simp [hnot, Except.mapError, under_empty]
  | some s => simp [hnot, Except.mapError]

/-! ## A root that shares its argument -/

/-- A file system with `roots=["b"]` in its configuration file. -/
def otherRoot : FileSystem :=
  ⟨[(".reslocator.toml", .file [114, 111, 111, 116, 115, 61, 91, 34, 98, 34, 93])], []⟩

/-- What the arguments `-vr a *` give. -/
def sharedRoot : Arguments := ⟨[⟨.verbose, []⟩, ⟨.root, "a"⟩], ["*"], []⟩

theorem readText_otherRoot :
    otherRoot.readText ⟨.root, [".reslocator.toml"]⟩ = .ok ("roots=[\"b\"]" : Text) := by cbv

theorem findFrom?_otherRoot :
    Settings.findFrom? otherRoot ⟨.root, otherRoot.current⟩ =
      some ⟨.root, [".reslocator.toml"]⟩ := by
  have hfile : otherRoot.isFile ⟨.root, [".reslocator.toml"]⟩ = true := by cbv
  exact Settings.findFrom?_of_first rfl (.own hfile (by decide))

theorem load_otherRoot : Settings.load otherRoot ⟨.root, [".reslocator.toml"]⟩ =
    .ok { roots := some [("/b" : Text)] } := by
  have hdocument : Settings.readDocument otherRoot ⟨.root, [".reslocator.toml"]⟩ =
      .ok [("roots", .list [.text "b"])] := by
    unfold Settings.readDocument
    rw [readText_otherRoot]
    rfl
  have hresolve : otherRoot.resolve ⟨.root, [".reslocator.toml"]⟩ =
      ⟨.root, [".reslocator.toml"]⟩ := by cbv
  unfold Settings.load
  rw [hdocument, hresolve]
  rfl

theorem settingsHere_otherRoot :
    settingsHere otherRoot = .ok (some { roots := some [("/b" : Text)] }) := by
  unfold settingsHere
  rw [findFrom?_otherRoot]
  show (Settings.load otherRoot ⟨.root, [".reslocator.toml"]⟩).map some = _
  rw [load_otherRoot]
  rfl

theorem read_sharedRoot :
    CommandLine.read Flag.all ["-vr", "a", "*"] = .ok sharedRoot := by cbv

/-- A run with `-vr a *` searches the root of the configuration file, though it read the other one
from the arguments. -/
theorem run_sharedRoot : CommandLine.read Flag.all ["-vr", "a", "*"] = .ok sharedRoot ∧
    (prescribed sharedRoot { roots := some [("/b" : Text)] }).roots = [("a" : Text)] ∧
    run otherRoot ["-vr", "a", "*"] =
      search otherRoot { ofArguments sharedRoot with roots := [("/b" : Text)] } := by
  have hknown : CommandLine.read Flag.configurable ["-vr", "a", "*"] =
      .ok ⟨[], ["a", "*"], ["-vr"]⟩ := by cbv
  have hread : Options.read ["-vr", "a", "*"] = .ok (ofArguments sharedRoot, []) := by
    unfold Options.read
    rw [read_sharedRoot, hknown]
    rfl
  have hversion : (ofArguments sharedRoot).version = false := by decide
  have hsettings : settingsOn {} otherRoot = .ok (some { roots := some [("/b" : Text)] }) := by
    rw [settingsOn_default, settingsHere_otherRoot]
    rfl
  have hunder : (ofArguments sharedRoot).under { roots := some [("/b" : Text)] } [] =
      { ofArguments sharedRoot with roots := [("/b" : Text)] } := rfl
  refine ⟨read_sharedRoot, rfl, ?_⟩
  unfold run
  simp only [hread, hversion, hsettings, hunder, Bool.false_eq_true, if_false]

theorem run_precedence_sharedRoot :
    CommandLine.read Flag.all ["-vr", "a", "*"] = .ok sharedRoot ∧ sharedRoot.leftOver = [] ∧
    isGiven sharedRoot .version = false ∧
    settingsHere otherRoot = .ok (some { roots := some [("/b" : Text)] }) ∧
    ∃ explicit o, Options.read ["-vr", "a", "*"] = .ok (ofArguments sharedRoot, explicit) ∧
      o = (ofArguments sharedRoot).under { roots := some [("/b" : Text)] } explicit ∧
      o.values =
        Settings.overlay { roots := some [("/b" : Text)] } explicit (ofArguments sharedRoot).values ∧
      run otherRoot ["-vr", "a", "*"] = search otherRoot o ∧
      (∀ f name, settingName? f = some name → (name ∈ explicit ↔
        isGiven sharedRoot f = true ∧ (f = .root → NamesRoot ["-vr", "a", "*"]))) ∧
      { o with roots := (prescribed sharedRoot { roots := some [("/b" : Text)] }).roots } =
        prescribed sharedRoot { roots := some [("/b" : Text)] } ∧
      (o.roots = (prescribed sharedRoot { roots := some [("/b" : Text)] }).roots ↔
        ¬ RootsOverruled ["-vr", "a", "*"] sharedRoot { roots := some [("/b" : Text)] }) :=
  ⟨read_sharedRoot, rfl, by decide, settingsHere_otherRoot,
    run_precedence read_sharedRoot rfl (by decide) settingsHere_otherRoot⟩

end Options
end ResourceFinder
