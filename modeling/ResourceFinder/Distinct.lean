import ResourceFinder.Text.Basic

/-
Lists in which every name occurs once: of several items with one name the first is kept.
-/

namespace ResourceFinder

/-- The items whose names are new, given the names that are known. -/
def distinctFrom {α : Type} (name : α → Text) (known : List Text) : List α → List α
  | [] => []
  | a :: rest =>
    if known.contains (name a) then distinctFrom name known rest
    else a :: distinctFrom name (name a :: known) rest

def distinctBy {α : Type} (name : α → Text) (items : List α) : List α := distinctFrom name [] items

theorem not_mem_known_of_mem_distinctFrom {α : Type} {name : α → Text} {known : List Text}
    {items : List α} {a : α} (h : a ∈ distinctFrom name known items) : name a ∉ known := by
  induction items generalizing known with
  | nil => simp [distinctFrom] at h
  | cons b rest ih =>
    simp only [distinctFrom] at h
    split at h
    · exact ih h
    · rename_i hb
      rcases List.mem_cons.1 h with rfl | h
      · simpa using hb
      · exact fun hk => ih h (List.mem_cons_of_mem _ hk)

theorem nodup_map_distinctFrom {α : Type} (name : α → Text) (known : List Text) (items : List α) :
    ((distinctFrom name known items).map name).Nodup := by
  induction items generalizing known with
  | nil => simp [distinctFrom]
  | cons a rest ih =>
    simp only [distinctFrom]
    split
    · exact ih known
    · refine List.nodup_cons.2 ⟨fun h => ?_, ih _⟩
      obtain ⟨b, hb, he⟩ := List.mem_map.1 h
      exact not_mem_known_of_mem_distinctFrom hb (he ▸ List.mem_cons_self)

theorem nodup_map_distinctBy {α : Type} (name : α → Text) (items : List α) :
    ((distinctBy name items).map name).Nodup :=
  nodup_map_distinctFrom name [] items

end ResourceFinder
