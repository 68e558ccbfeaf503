import ResourceFinder.Settings.Basic

/-
Settings laid over an object in place.

The object is changed by one assignment after the other, each of which is left out if there is no
such setting, if the option was given explicitly, or if the object has no such attribute.
-/

namespace ResourceFinder

structure Attributes (α : Type) where
  values : Dictionary α
  distinct : values.keys.Nodup

abbrev Objects (α : Type) := Nat → Attributes α

namespace Attributes

variable {α : Type}

def get? (o : Attributes α) (name : Text) : Option α := o.values.get? name

def has (o : Attributes α) (name : Text) : Bool := o.values.keys.contains name

def set (o : Attributes α) (name : Text) (value : α) : Attributes α :=
  ⟨o.values.insert name value, Dictionary.nodup_keys_insert o.distinct name value⟩

end Attributes

namespace Objects

def change {α : Type} (objects : Objects α) (object : Nat) (o : Attributes α) : Objects α :=
  fun other => if other = object then o else objects other

end Objects

namespace Settings

variable {α : Type}

/-- An object after one setting was assigned to it, if that is to be. -/
def assigned (explicit : List Text) (name : Text) (setting : Option α) (o : Attributes α) :
    Attributes α :=
  match setting with
  | none => o
  | some value => if explicit.contains name || !o.has name then o else o.set name value

def assign (explicit : List Text) (object : Nat) (name : Text) (setting : Option α) :
    StateM (Objects α) Unit :=
  modify fun objects => objects.change object (assigned explicit name setting (objects object))

def fieldsAs (write : OptionValue → α) (s : Settings) : List (Text × Option α) :=
  s.fields.map fun (name, setting) => (name, setting.map write)

def layOver (write : OptionValue → α) (config : Option Settings) (explicit : List Text)
    (object : Nat) : StateM (Objects α) Nat := do
  match config with
  | none => return object
  | some s =>
    (s.fieldsAs write).forM fun e => assign explicit object e.1 e.2
    return object

end Settings
end ResourceFinder
