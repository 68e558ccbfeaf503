import ResourceFinder.Dictionary
import ResourceFinder.Distinct
import ResourceFinder.Root.Basic

/-
Indexes of resources.
-/

namespace ResourceFinder

structure Resource where
  name : Text
  location : Location
  deriving DecidableEq

/-- The register of some resources by their names, made in one pass. -/
def Resource.register (resources : List Resource) : Dictionary Resource :=
  resources.foldl (fun d r => d.insertNew r.name r) []

/-- Resources in order, no two of them with one name. -/
structure Index where
  resources : List Resource
  distinct : (resources.map Resource.name).Nodup
  deriving DecidableEq

namespace Index

/-- The index of some resources; of several with one name the first is kept. -/
def ofResources (resources : List Resource) : Index :=
  ⟨distinctBy Resource.name resources, nodup_map_distinctBy _ _⟩

def size (i : Index) : Nat := i.resources.length

def names (i : Index) : List Text := i.resources.map Resource.name

def get? (i : Index) (name : Text) : Option Resource := i.resources.find? (·.name = name)

def contains (i : Index) (name : Text) : Bool := i.names.contains name

end Index
end ResourceFinder
