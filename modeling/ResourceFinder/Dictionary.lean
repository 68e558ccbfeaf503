import ResourceFinder.Text.Basic

/-
Dictionaries that keep their keys in the order of the first assignment.
-/

namespace ResourceFinder

/-- Keys with their values.  Assigning to a key that is there changes its value and not its
place. -/
abbrev Dictionary (α : Type) := List (Text × α)

namespace Dictionary

variable {α : Type}

def insert (key : Text) (value : α) : Dictionary α → Dictionary α
  | [] => [(key, value)]
  | (k, v) :: rest => if k = key then (k, value) :: rest else (k, v) :: insert key value rest

def get? (key : Text) (d : Dictionary α) : Option α := List.lookup key d

def ofPairs (pairs : List (Text × α)) : Dictionary α :=
  pairs.foldl (fun d (key, value) => d.insert key value) []

def keys (d : Dictionary α) : List Text := d.map (·.1)

def update (d d' : Dictionary α) : Dictionary α :=
  d'.foldl (fun d (key, value) => d.insert key value) d

/-- An assignment to a key that is not there yet; one that is there keeps its value. -/
def insertNew (key : Text) (value : α) (d : Dictionary α) : Dictionary α :=
  if d.keys.contains key then d else d ++ [(key, value)]

theorem keys_insert (key : Text) (value : α) (d : Dictionary α) :
    (d.insert key value).keys = if key ∈ d.keys then d.keys else d.keys ++ [key] := by
  induction d with
  | nil => rfl
  | cons entry d ih =>
    obtain ⟨k, v⟩ := entry
    by_cases hk : k = key
    · simp [insert, keys, hk]
    · have hne : key ≠ k := Ne.symm hk
      simp only [keys] at ih
      simp only [insert, if_neg hk, keys, List.map_cons, ih, List.mem_cons, hne, false_or]
      by_cases hmem : key ∈ d.map (·.1) <;> simp [hmem]

theorem nodup_keys_insert {d : Dictionary α} (h : d.keys.Nodup) (key : Text) (value : α) :
    (d.insert key value).keys.Nodup := by
  rw [keys_insert]
  by_cases hkey : key ∈ d.keys
  · rwa [if_pos hkey]
  · rw [if_neg hkey]
    refine List.nodup_append.2 ⟨h, by simp, fun k hk k' hk' => ?_⟩
    rw [List.mem_singleton.1 hk']
    exact fun heq => hkey (heq ▸ hk)

end Dictionary
end ResourceFinder
