import ResourceFinder.Distinct

/-
Which items are kept of a list in which names repeat.

The names that are kept are the names of the list without repetitions, and the item kept of each
name is the first one.  What is kept of the beginning of a list is the beginning of what is kept.
Said by places, the items kept are those whose names do not stand before them.
-/

namespace ResourceFinder

variable {α : Type} {name : α → Text}

theorem map_distinctFrom (name : α → Text) (known : List Text) (items : List α) :
    (distinctFrom name known items).map name =
      ((items.map name).filter (fun n => !known.contains n)).eraseDups := by
  induction items generalizing known with
  | nil => rfl
  | cons a rest ih =>
    rw [distinctFrom, List.map_cons]
    by_cases ha : known.contains (name a) = true
    · rw [if_pos ha, List.filter_cons_of_neg (by simpa using ha)]
      exact ih known
    · rw [if_neg ha, List.filter_cons_of_pos (by simpa using ha), List.eraseDups_cons,
        List.map_cons, ih, List.filter_filter]
      congr 3
      funext n
      rw [List.contains_cons, Bool.not_or]

theorem map_distinctBy (name : α → Text) (items : List α) :
    (distinctBy name items).map name = (items.map name).eraseDups := by
  have hall : (items.map name).filter (fun n => !([] : List Text).contains n) = items.map name :=
    List.filter_eq_self.2 fun _ _ => rfl
  rw [distinctBy, map_distinctFrom, hall]

theorem find?_distinctFrom {known : List Text} {n : Text} (hn : n ∉ known) (items : List α) :
    (distinctFrom name known items).find? (name · = n) = items.find? (name · = n) := by
  induction items generalizing known with
  | nil => rfl
  | cons a rest ih =>
    rw [distinctFrom]
    by_cases ha : known.contains (name a) = true
    · have hne : name a ≠ n := by
        rintro rfl
        exact hn (List.contains_iff_mem.1 ha)
      rw [if_pos ha, List.find?_cons_of_neg (by simpa using hne)]
      exact ih hn
    · rw [if_neg ha]
      by_cases hname : name a = n
      · rw [List.find?_cons_of_pos (by simpa using hname),
          List.find?_cons_of_pos (by simpa using hname)]
      · rw [List.find?_cons_of_neg (by simpa using hname),
          List.find?_cons_of_neg (by simpa using hname)]
        exact ih fun h => (List.mem_cons.1 h).elim (fun heq => hname heq.symm) hn

theorem find?_distinctBy (items : List α) (n : Text) :
    (distinctBy name items).find? (name · = n) = items.find? (name · = n) :=
  find?_distinctFrom (List.not_mem_nil) items

theorem distinctFrom_sublist (name : α → Text) (known : List Text) (items : List α) :
    (distinctFrom name known items).Sublist items := by
  induction items generalizing known with
  | nil => exact .slnil
  | cons a rest ih =>
    rw [distinctFrom]
    split
    · exact (ih known).cons a
    · exact (ih (name a :: known)).cons_cons a

theorem distinctBy_sublist (name : α → Text) (items : List α) :
    (distinctBy name items).Sublist items := distinctFrom_sublist name [] items

/-- Only which names are known counts, and not how often or in which order. -/
theorem distinctFrom_congr {known known' : List Text} (h : ∀ n, n ∈ known ↔ n ∈ known')
    (items : List α) : distinctFrom name known items = distinctFrom name known' items := by
  induction items generalizing known known' with
  | nil => rfl
  | cons a rest ih =>
    have hcontains : known.contains (name a) = known'.contains (name a) := by
      rw [Bool.eq_iff_iff, List.contains_iff_mem, List.contains_iff_mem, h]
    have hcons : ∀ n, n ∈ name a :: known ↔ n ∈ name a :: known' := by
      intro n
      rw [List.mem_cons, List.mem_cons, h]
    rw [distinctFrom, distinctFrom, hcontains, ih h, ih hcons]

/-- The names of the first items are known to those after them. -/
theorem distinctFrom_append (name : α → Text) (known : List Text) (items more : List α) :
    distinctFrom name known (items ++ more) =
      distinctFrom name known items ++ distinctFrom name (items.map name ++ known) more := by
  induction items generalizing known with
  | nil => rfl
  | cons a rest ih =>
    rw [List.cons_append, distinctFrom, distinctFrom]
    by_cases ha : known.contains (name a) = true
    · have hsame : ∀ n, n ∈ rest.map name ++ known ↔ n ∈ (a :: rest).map name ++ known := by
        intro n
        rw [List.map_cons, List.cons_append, List.mem_cons]
        refine ⟨.inr, fun hn => hn.elim (fun heq => ?_) id⟩
        rw [heq]
        exact List.mem_append_right _ (List.contains_iff_mem.1 ha)
      rw [if_pos ha, if_pos ha, ih known, distinctFrom_congr hsame]
    · have hsame : ∀ n, n ∈ rest.map name ++ name a :: known ↔
          n ∈ (a :: rest).map name ++ known := by
        intro n
        rw [List.map_cons, List.cons_append, List.perm_middle.mem_iff]
      rw [if_neg ha, if_neg ha, ih (name a :: known), distinctFrom_congr hsame, List.cons_append]

/-- Names that are known only take away from what is kept without them. -/
theorem distinctFrom_known_append (name : α → Text) (known more : List Text) (items : List α) :
    distinctFrom name (known ++ more) items =
      (distinctFrom name more items).filter (name · ∉ known) := by
  induction items generalizing more with
  | nil => rfl
  | cons a rest ih =>
    have hcons : ∀ n, n ∈ known ++ name a :: more ↔ n ∈ name a :: (known ++ more) := by
      intro n
      rw [List.perm_middle.mem_iff]
    rw [distinctFrom, distinctFrom]
    by_cases hmore : more.contains (name a) = true
    · rw [if_pos hmore, if_pos (by simp [List.contains_iff_mem.1 hmore]), ih more]
    · by_cases hknown : name a ∈ known
      · have hsame : ∀ n, n ∈ known ++ more ↔ n ∈ known ++ name a :: more := by
          intro n
          rw [hcons, List.mem_cons]
          refine ⟨.inr, fun hn => hn.elim (fun heq => ?_) id⟩
          rw [heq]
          exact List.mem_append_left _ hknown
        rw [if_pos (by simp [hknown]), if_neg hmore,
          List.filter_cons_of_neg (by simpa using hknown), ← ih, distinctFrom_congr hsame]
      · have hneither : ¬(known ++ more).contains (name a) = true := by
          simpa [hknown] using hmore
        rw [if_neg hneither, if_neg hmore, List.filter_cons_of_pos (by simpa using hknown), ← ih,
          distinctFrom_congr hcons]

/-- Of a list that follows another one, what is kept of it alone is kept if its name is new. -/
theorem distinctBy_append (name : α → Text) (items more : List α) :
    distinctBy name (items ++ more) =
      distinctBy name items ++ (distinctBy name more).filter (name · ∉ items.map name) := by
  rw [distinctBy, distinctFrom_append, distinctFrom_known_append]
  rfl

theorem distinctBy_prefix (name : α → Text) (items more : List α) :
    distinctBy name items <+: distinctBy name (items ++ more) := by
  rw [distinctBy_append]
  exact List.prefix_append _ _

theorem distinctFrom_of_nodup {known : List Text} {items : List α} (h : (items.map name).Nodup)
    (hnew : ∀ a ∈ items, name a ∉ known) : distinctFrom name known items = items := by
  induction items generalizing known with
  | nil => rfl
  | cons a rest ih =>
    obtain ⟨hfirst, hrest⟩ := List.nodup_cons.1 h
    obtain ⟨hnewFirst, hnewRest⟩ := List.forall_mem_cons.1 hnew
    rw [distinctFrom, if_neg (by simpa using hnewFirst), ih hrest]
    intro b hb hmem
    rcases List.mem_cons.1 hmem with heq | hmem
    · exact hfirst (heq ▸ List.mem_map_of_mem hb)
    · exact hnewRest b hb hmem

theorem distinctBy_of_nodup {items : List α} (h : (items.map name).Nodup) :
    distinctBy name items = items := distinctFrom_of_nodup h fun _ _ => List.not_mem_nil

/-! ## Where the items stand -/

/-- The item at a place of a list, none of whose name stands before it. -/
structure FirstAt (name : α → Text) (items : List α) (k : Nat) (a : α) : Prop where
  item : items[k]? = some a
  first : ∀ j < k, ∀ b, items[j]? = some b → name b ≠ name a

theorem FirstAt.find?_eq {items : List α} {k : Nat} {a : α} (h : FirstAt name items k a) :
    items.find? (name · = name a) = some a := by
  obtain ⟨hk, hitem⟩ := List.getElem?_eq_some_iff.1 h.item
  rw [List.find?_eq_some_iff_getElem]
  refine ⟨by simp, k, hk, hitem, fun j hj => ?_⟩
  have hother := h.first j hj _ (List.getElem?_eq_getElem (by omega))
  simpa using hother

theorem FirstAt.eq_of_name {items : List α} {k k' : Nat} {a a' : α} (h : FirstAt name items k a)
    (h' : FirstAt name items k' a') (heq : name a = name a') : a = a' := by
  have hfind := h.find?_eq
  rw [heq, h'.find?_eq] at hfind
  exact (Option.some.inj hfind).symm

theorem exists_firstAt (name : α → Text) {items : List α} {a : α} (h : a ∈ items) :
    ∃ k b, FirstAt name items k b ∧ name b = name a := by
  have hsome : (items.find? (name · = name a)).isSome = true :=
    List.find?_isSome.2 ⟨a, h, by simp⟩
  obtain ⟨b, hb⟩ := Option.isSome_iff_exists.1 hsome
  obtain ⟨hname, k, hk, hitem, hfirst⟩ := List.find?_eq_some_iff_getElem.1 hb
  have hname : name b = name a := by simpa using hname
  refine ⟨k, b, ⟨List.getElem?_eq_some_iff.2 ⟨hk, hitem⟩, fun j hj c hc heq => ?_⟩, hname⟩
  obtain ⟨hj', rfl⟩ := List.getElem?_eq_some_iff.1 hc
  simpa [heq, hname] using hfirst j hj

/-- What is kept, place by place: the items whose names are not known and do not stand before. -/
theorem distinctFrom_eq_filterMap (name : α → Text) (known : List Text) (items : List α) :
    distinctFrom name known items = (List.range items.length).filterMap fun k =>
      items[k]?.filter fun a =>
        !known.contains (name a) && !((items.take k).map name).contains (name a) := by
  induction items generalizing known with
  | nil => rfl
  | cons a rest ih =>
    rw [distinctFrom, List.length_cons, List.range_succ_eq_map, List.filterMap_cons,
      List.filterMap_map]
    cases ha : known.contains (name a) with
    | true =>
      -- The first item is not kept, and what it adds to the names before is known anyway.
      have hsame : ∀ b : α, ∀ names : List Text,
          (!known.contains (name b) && !(name a :: names).contains (name b)) =
            (!known.contains (name b) && !names.contains (name b)) := by
        intro b names
        rw [List.contains_cons]
        by_cases hb : name b = name a
        · rw [hb, ha]
          rfl
        · have hbeq : (name b == name a) = false := by simpa using hb
          rw [hbeq, Bool.false_or]
      simp only [List.getElem?_cons_zero, Option.filter_some, ha, Bool.not_true, Bool.false_and,
        Bool.false_eq_true, if_false, Function.comp_def, List.getElem?_cons_succ, if_true,
        Nat.succ_eq_add_one, List.take_succ_cons, List.map_cons, hsame]
      exact ih known
    | false =>
      have hsame : ∀ b : α, ∀ names : List Text,
          (!known.contains (name b) && !(name a :: names).contains (name b)) =
            (!(name a :: known).contains (name b) && !names.contains (name b)) := by
        intro b names
        rw [List.contains_cons, List.contains_cons, Bool.not_or, Bool.not_or, ← Bool.and_assoc,
          Bool.and_comm (!known.contains (name b))]
      simp only [List.getElem?_cons_zero, Option.filter_some, ha, Bool.not_false, Bool.true_and,
        List.take_zero, List.map_nil, List.contains_nil, if_true, Function.comp_def,
        Bool.false_eq_true, if_false, List.getElem?_cons_succ, Nat.succ_eq_add_one,
        List.take_succ_cons, List.map_cons, hsame]
      rw [ih (name a :: known)]

theorem filterMap_eq_of_isSome {β γ : Type} {f g : β → Option γ} (bs : List β)
    (h : ∀ b c, f b = some c → g b = some c) :
    bs.filterMap f = (bs.filter fun b => (f b).isSome).filterMap g := by
  induction bs with
  | nil => rfl
  | cons b bs ih =>
    cases hb : f b with
    | none => rw [List.filterMap_cons_none hb, List.filter_cons_of_neg (by simp [hb]), ih]
    | some c =>
      rw [List.filterMap_cons_some hb, List.filter_cons_of_pos (by simp [hb]),
        List.filterMap_cons_some (h b c hb), ih]

theorem not_contains_take_iff {items : List α} {k : Nat} {a : α} :
    (!((items.take k).map name).contains (name a)) = true ↔
      ∀ j < k, ∀ b, items[j]? = some b → name b ≠ name a := by
  rw [Bool.not_eq_true', ← Bool.not_eq_true, List.contains_iff_mem, List.mem_map]
  constructor
  · intro h j hj b hb heq
    obtain ⟨hlength, hitem⟩ := List.getElem?_eq_some_iff.1 hb
    exact h ⟨b, List.mem_take_iff_getElem.2 ⟨j, by omega, hitem⟩, heq⟩
  · rintro h ⟨b, hb, heq⟩
    obtain ⟨j, hj, hitem⟩ := List.mem_take_iff_getElem.1 hb
    exact h j (by omega) b (List.getElem?_eq_some_iff.2 ⟨by omega, hitem⟩) heq

/-- The items that are kept and pass a test stand at ascending places: those of the first items of
each name that pass it. -/
theorem exists_places (name : α → Text) (items : List α) (p : α → Bool) :
    ∃ places : List Nat, places.Pairwise (· < ·) ∧
      (distinctBy name items).filter p = places.filterMap (items[·]?) ∧
      ∀ k, k ∈ places ↔ ∃ a, FirstAt name items k a ∧ p a = true := by
  let new (k : Nat) : Option α :=
    items[k]?.filter fun a => !((items.take k).map name).contains (name a)
  have hnew : ∀ k a, new k = some a ↔ FirstAt name items k a := by
    intro k a
    rw [Option.filter_eq_some_iff, not_contains_take_iff]
    exact ⟨fun h => ⟨h.1, h.2⟩, fun h => ⟨h.item, h.first⟩⟩
  have hkept : ∀ k a, (new k).filter p = some a ↔ FirstAt name items k a ∧ p a = true := by
    intro k a
    rw [Option.filter_eq_some_iff, hnew]
  have hall : distinctBy name items = (List.range items.length).filterMap new := by
    rw [distinctBy, distinctFrom_eq_filterMap]
    rfl
  refine ⟨(List.range items.length).filter fun k => ((new k).filter p).isSome, ?_, ?_, fun k => ?_⟩
  · exact List.pairwise_lt_range.filter _
  · rw [hall, List.filter_filterMap]
    exact filterMap_eq_of_isSome _ fun k a h => ((hkept k a).1 h).1.item
  · rw [List.mem_filter, List.mem_range, Option.isSome_iff_exists]
    constructor
    · rintro ⟨-, a, ha⟩
      exact ⟨a, (hkept k a).1 ha⟩
    · rintro ⟨a, ha⟩
      exact ⟨(List.getElem?_eq_some_iff.1 ha.1.item).1, a, (hkept k a).2 ha⟩

end ResourceFinder
