import ResourceFinder.CommandLine.Parser
import ResourceFinder.Scan.Config
import ResourceFinder.Settings.Basic

/-
The options that arguments give, and which of those that a configuration file can set were given.
-/

namespace ResourceFinder

structure Options where
  patterns : List Text
  roots : List Text
  regex : Option Text
  uri : Bool
  cat : Bool
  property : Option Text
  output : Text
  exclude : Option (List Text)
  extendExclude : List Text
  respectGitignore : Bool
  filesMaxSize : Int
  verbose : Bool
  version : Bool

namespace Options

def standardOutput : Text := "-"

def valuesOf (given : List CommandLine.Given) (f : CommandLine.Flag) : List Text :=
  (given.filter (·.flag = f)).map (·.value)

/-- The options that arguments give; where an option has one value, its last occurrence counts. -/
def ofArguments (a : CommandLine.Arguments) : Options :=
  let values := valuesOf a.given
  let has (f : CommandLine.Flag) : Bool := a.given.any (·.flag = f)
  { patterns := a.patterns
    roots := values .root
    regex := (values .regex).getLast?
    uri := has .uri
    cat := has .cat
    property := (values .property).getLast?
    output := (values .output).getLastD standardOutput
    exclude := if has .exclude then some (values .exclude) else none
    extendExclude := values .extendExclude
    respectGitignore := !has .noRespectGitignore
    filesMaxSize := ((values .filesMaxSize).getLast?.bind Numeral.limitedInteger?).getD 0
    verbose := has .verbose
    version := has .version }

def settingName? : CommandLine.Flag → Option Text
  | .root => some rootsName
  | .exclude => some excludeName
  | .extendExclude => some extendExcludeName
  | .noRespectGitignore => some respectGitignoreName
  | .filesMaxSize => some filesMaxSizeName
  | _ => none

def explicitNames (a : CommandLine.Arguments) : List Text :=
  a.given.filterMap fun g => settingName? g.flag

/-- The options, and the settings that they take the place of.  Which options were given is asked of
a reader who knows only those that a configuration file can set. -/
def read (arguments : List Text) : Except CommandLine.Halt (Options × List Text) := do
  let a ← CommandLine.read CommandLine.Flag.all arguments
  if !a.leftOver.isEmpty then .error (.usage (.unrecognized a.leftOver))
  else
    let known ← CommandLine.read CommandLine.Flag.configurable arguments
    return (ofArguments a, explicitNames known)

def under (o : Options) (s : Settings) (explicit : List Text) : Options :=
  { o with
    roots := settle explicit rootsName s.roots o.roots
    exclude := settle explicit excludeName (s.exclude.map some) o.exclude
    extendExclude := settle explicit extendExcludeName s.extendExclude o.extendExclude
    respectGitignore := settle explicit respectGitignoreName s.respectGitignore o.respectGitignore
    filesMaxSize := settle explicit filesMaxSizeName s.filesMaxSize o.filesMaxSize }

def values (o : Options) : Dictionary OptionValue :=
  [(rootsName, .texts o.roots), (excludeName, o.exclude.elim .unset .texts),
    (extendExcludeName, .texts o.extendExclude), (respectGitignoreName, .flag o.respectGitignore),
    (filesMaxSizeName, .count o.filesMaxSize)]

/-- Settings change the options of a run as they change any options. -/
theorem values_under (o : Options) (s : Settings) (explicit : List Text) :
    (o.under s explicit).values = s.overlay explicit o.values := by
  obtain ⟨h₁, h₂, h₃, h₄, h₅⟩ := s.get?_values
  have hx := map_settle (Option.elim · OptionValue.unset OptionValue.texts) explicit excludeName
    (s.exclude.map some) o.exclude
  rw [Option.map_map] at hx
  simp only [values, under, Settings.overlay, List.map, h₁, h₂, h₃, h₄, h₅,
    map_settle OptionValue.texts, map_settle OptionValue.flag, map_settle OptionValue.count]
  exact congrArg (fun v => (rootsName, _) :: (excludeName, v) :: _) hx

def scanConfig (o : Options) : ScanConfig :=
  { exclude := o.exclude
    extendExclude := o.extendExclude
    respectGitignore := o.respectGitignore
    filesMaxSize := o.filesMaxSize }

end Options
end ResourceFinder
