import ResourceFinder.Dictionary
import ResourceFinder.Text.Basic

/-
Settings, and how they combine with options from elsewhere.

A setting that is not there leaves an option as it is, and so does any setting for an option that
was given explicitly.  A setting that is there counts whatever it is, also if it is false, zero or
empty.
-/

namespace ResourceFinder

def toolName : Text := "reslocator"

/-- What a configuration file sets; nothing for what it leaves open. -/
structure Settings where
  roots : Option (List Text) := none
  exclude : Option (List Text) := none
  extendExclude : Option (List Text) := none
  respectGitignore : Option Bool := none
  filesMaxSize : Option Int := none
  deriving DecidableEq

inductive OptionValue where
  | unset
  | flag (b : Bool)
  | count (n : Int)
  | number (numeral : Text)
  | text (t : Text)
  | list (items : List OptionValue)
  | table (members : List (Text × OptionValue))
  deriving Inhabited

namespace OptionValue

def texts (items : List Text) : OptionValue := .list (items.map .text)

end OptionValue

def rootsName : Text := "roots"
def excludeName : Text := "exclude"
def extendExcludeName : Text := "extend_exclude"
def respectGitignoreName : Text := "respect_gitignore"
def filesMaxSizeName : Text := "files_max_size"

def settle {α : Type} (explicit : List Text) (name : Text) (setting : Option α) (value : α) : α :=
  if explicit.contains name then value else setting.getD value

theorem map_settle {α β : Type} (f : α → β) (explicit : List Text) (name : Text)
    (setting : Option α) (value : α) :
    f (settle explicit name setting value) = settle explicit name (setting.map f) (f value) := by
  cases setting <;> simp only [settle, Option.map, Option.getD] <;> split <;> rfl

namespace Settings

def fields (s : Settings) : List (Text × Option OptionValue) :=
  [(rootsName, s.roots.map .texts), (excludeName, s.exclude.map .texts),
    (extendExcludeName, s.extendExclude.map .texts),
    (respectGitignoreName, s.respectGitignore.map .flag),
    (filesMaxSizeName, s.filesMaxSize.map .count)]

def values (s : Settings) : Dictionary OptionValue :=
  s.fields.filterMap fun (name, v) => v.map (name, ·)

theorem get?_values (s : Settings) :
    s.values.get? rootsName = s.roots.map .texts ∧
    s.values.get? excludeName = s.exclude.map .texts ∧
    s.values.get? extendExcludeName = s.extendExclude.map .texts ∧
    s.values.get? respectGitignoreName = s.respectGitignore.map .flag ∧
    s.values.get? filesMaxSizeName = s.filesMaxSize.map .count := by
  obtain ⟨roots, exclude, extendExclude, respectGitignore, filesMaxSize⟩ := s
  cases roots <;> cases exclude <;> cases extendExclude <;> cases respectGitignore <;>
    cases filesMaxSize <;> exact ⟨rfl, rfl, rfl, rfl, rfl⟩

/-- Settings laid over options; options of other names stay as they are, and none is added. -/
def overlay (s : Settings) (explicit : List Text) (options : Dictionary OptionValue) :
    Dictionary OptionValue :=
  options.map fun (name, v) => (name, settle explicit name (s.values.get? name) v)

end Settings
end ResourceFinder
