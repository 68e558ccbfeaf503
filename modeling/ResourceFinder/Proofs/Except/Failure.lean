import Mathlib

/-
Where a computation that can fail gets its failure from, and what it comes to otherwise.

The library is imported whole here and nowhere else: the modules above evaluate closed runs, and so
find the equations of core functions that the library has in place of making their own.
-/

namespace ResourceFinder

variable {ε ε' α β : Type}

theorem bind_eq_error {x : Except ε α} {f : α → Except ε β} {e : ε} :
    x >>= f = .error e ↔ x = .error e ∨ ∃ a, x = .ok a ∧ f a = .error e := by
  cases x with
  | error e' => simp [bind, Except.bind]
  | ok a => simp [bind, Except.bind]

theorem bind_eq_ok {x : Except ε α} {f : α → Except ε β} {b : β} :
    x >>= f = .ok b ↔ ∃ a, x = .ok a ∧ f a = .ok b := by
  cases x <;> simp [bind, Except.bind]

theorem map_eq_error {x : Except ε α} {f : α → β} {e : ε} :
    x.map f = .error e ↔ x = .error e := by
  cases x <;> simp [Except.map]

theorem map_eq_ok {x : Except ε α} {f : α → β} {b : β} :
    x.map f = .ok b ↔ ∃ a, x = .ok a ∧ f a = b := by
  cases x <;> simp [Except.map]

theorem mapError_eq_error {x : Except ε α} {f : ε → ε'} {e' : ε'} (h : x.mapError f = .error e') :
    ∃ e, x = .error e ∧ f e = e' := by
  cases x with
  | error e => exact ⟨e, rfl, Except.error.inj h⟩
  | ok a => cases h

theorem mapError_eq_ok {x : Except ε α} {f : ε → ε'} {a : α} (h : x.mapError f = .ok a) :
    x = .ok a := by
  cases x with
  | error e => cases h
  | ok a' => exact congrArg Except.ok (Except.ok.inj h)

/-- A test before a computation fails by itself or leaves the rest to fail. -/
theorem guard_eq_error {c : Prop} [Decidable c] {x : Except ε α} {e e' : ε} :
    (if c then .error e' else x) = .error e ↔ c ∧ e' = e ∨ ¬c ∧ x = .error e := by
  by_cases hc : c
  · simp [hc]
  · simp [hc]

/-- What fails over a list fails at the first of its items that does, and with what that one fails
with. -/
theorem mapM_eq_error_iff {f : α → Except ε β} {items : List α} {e : ε} :
    items.mapM f = .error e ↔ ∃ before a after, items = before ++ a :: after ∧
      (∀ b ∈ before, ∃ c, f b = .ok c) ∧ f a = .error e := by
  induction items with
  | nil => simp [pure, Except.pure]
  | cons b items ih =>
    rw [List.mapM_cons]
    constructor
    · intro h
      obtain hhead | ⟨c, hc, htail⟩ := bind_eq_error.1 h
      · exact ⟨[], b, items, rfl, by simp, hhead⟩
      · obtain hrest | ⟨cs, -, hdone⟩ := bind_eq_error.1 htail
        · obtain ⟨before, a, after, hitems, hbefore, ha⟩ := ih.1 hrest
          exact ⟨b :: before, a, after, by rw [hitems, List.cons_append],
            List.forall_mem_cons.2 ⟨⟨c, hc⟩, hbefore⟩, ha⟩
        · cases hdone
    · intro ⟨before, a, after, hitems, hbefore, ha⟩
      cases before with
      | nil =>
        obtain ⟨rfl, rfl⟩ := List.cons.inj hitems
        rw [ha]
        rfl
      | cons b' before =>
        obtain ⟨rfl, hrest⟩ := List.cons.inj hitems
        obtain ⟨⟨c, hc⟩, hbefore⟩ := List.forall_mem_cons.1 hbefore
        rw [hc, ih.2 ⟨before, a, after, hrest, hbefore, ha⟩]
        rfl

/-- What fails over a list fails at one of its items. -/
theorem mapM_eq_error {f : α → Except ε β} {items : List α} {e : ε}
    (h : items.mapM f = .error e) : ∃ a ∈ items, f a = .error e := by
  obtain ⟨before, a, after, rfl, -, ha⟩ := mapM_eq_error_iff.1 h
  exact ⟨a, by simp, ha⟩

/-- What succeeds over a list succeeds at each of its items. -/
theorem mapM_eq_ok_iff {f : α → Except ε β} {items : List α} {bs : List β} :
    items.mapM f = .ok bs ↔ List.Forall₂ (fun a b => f a = .ok b) items bs := by
  induction items generalizing bs with
  | nil =>
    rw [List.mapM_nil, List.forall₂_nil_left_iff]
    exact ⟨fun h => (Except.ok.inj h).symm, fun h => congrArg Except.ok h.symm⟩
  | cons a items ih =>
    rw [List.mapM_cons, List.forall₂_cons_left_iff]
    constructor
    · intro h
      cases hhead : f a with
      | error e =>
        rw [hhead] at h
        cases h
      | ok b =>
        cases htail : items.mapM f with
        | error e =>
          rw [hhead, htail] at h
          cases h
        | ok bs' =>
          rw [hhead, htail] at h
          exact ⟨b, bs', rfl, ih.1 htail, (Except.ok.inj h).symm⟩
    · intro ⟨b, bs', hhead, htail, hbs⟩
      rw [hhead, ih.2 htail, hbs]
      rfl

/-- What is found over a list is found at one of its items. -/
theorem mem_of_mapM {f : α → Except ε β} {items : List α} {bs : List β}
    (h : items.mapM f = .ok bs) {b : β} (hb : b ∈ bs) : ∃ a ∈ items, f a = .ok b := by
  have hitems := mapM_eq_ok_iff.1 h
  obtain ⟨k, hk, rfl⟩ := List.mem_iff_getElem.1 hb
  have hk' : k < items.length := hitems.length_eq ▸ hk
  exact ⟨items[k], List.getElem_mem hk', hitems.get hk' hk⟩

/-- What succeeds over two lists together succeeds over each of them. -/
theorem mapM_append_eq_ok {f : α → Except ε β} {items more : List α} {bs : List β}
    (h : (items ++ more).mapM f = .ok bs) :
    ∃ first last, items.mapM f = .ok first ∧ more.mapM f = .ok last ∧ bs = first ++ last := by
  have hitems := mapM_eq_ok_iff.1 h
  refine ⟨bs.take items.length, bs.drop items.length, mapM_eq_ok_iff.2 ?_, mapM_eq_ok_iff.2 ?_,
    (List.take_append_drop _ bs).symm⟩
  · simpa using List.forall₂_take items.length hitems
  · simpa using List.forall₂_drop items.length hitems

theorem exists_mapM_eq_error_iff {f : α → Except ε β} {items : List α} :
    (∃ e, items.mapM f = .error e) ↔ ∃ a ∈ items, ∃ e, f a = .error e := by
  constructor
  · intro ⟨e, he⟩
    obtain ⟨a, ha, hfails⟩ := mapM_eq_error he
    exact ⟨a, ha, e, hfails⟩
  · intro ⟨a, ha, e, he⟩
    cases hall : items.mapM f with
    | error e => exact ⟨e, rfl⟩
    | ok bs =>
      obtain ⟨k, hk, rfl⟩ := List.mem_iff_getElem.1 ha
      have hitems := mapM_eq_ok_iff.1 hall
      have hok := hitems.get hk (hitems.length_eq ▸ hk)
      rw [List.get_eq_getElem, he] at hok
      cases hok

theorem mapM_congr_left {f g : α → Except ε β} {items : List α} (h : ∀ a ∈ items, f a = g a) :
    items.mapM f = items.mapM g := by
  induction items with
  | nil => rfl
  | cons a items ih =>
    obtain ⟨hhead, htail⟩ := List.forall_mem_cons.1 h
    rw [List.mapM_cons, List.mapM_cons, hhead, ih htail]

theorem mapM_map_right {γ : Type} (f : α → Except ε β) (items : List α) (g : β → γ) :
    (items.mapM fun a => (f a).map g) = (items.mapM f).map (·.map g) := by
  induction items with
  | nil => rfl
  | cons a items ih =>
    rw [List.mapM_cons, List.mapM_cons, ih]
    cases f a with
    | error e => rfl
    | ok b => cases items.mapM f <;> rfl

theorem mapM_eq_ok_iff_exists [Inhabited β] {f : α → Except ε β} {items : List α} {bs : List β} :
    items.mapM f = .ok bs ↔ ∃ g : α → β, (∀ a ∈ items, f a = .ok (g a)) ∧ items.map g = bs := by
  rw [mapM_eq_ok_iff]
  constructor
  · intro h
    obtain ⟨g, hg⟩ : ∃ g : α → β, ∀ a b, f a = .ok b → g a = b :=
      ⟨fun a => (f a).toOption.getD default, fun a b hab => by simp [hab, Except.toOption]⟩
    refine ⟨g, ?_⟩
    induction h with
    | nil => simp
    | cons hab _ ih =>
      refine ⟨List.forall_mem_cons.2 ⟨?_, ih.1⟩, ?_⟩
      · rw [hg _ _ hab, hab]
      · rw [List.map_cons, hg _ _ hab, ih.2]
  · intro ⟨g, hg, hbs⟩
    rw [← hbs, List.forall₂_map_right_iff, List.forall₂_same]
    exact hg

/-! ## Leaving failures out -/

theorem toOption_eq_some {x : Except ε α} {a : α} (h : a ∈ x.toOption) : x = .ok a := by
  cases x with
  | error e => cases h
  | ok b => exact congrArg Except.ok (Option.some.inj h)

theorem any_of_mapM {f : α → Except ε β} {items : List α} {bs : List β}
    (h : items.mapM f = .ok bs) (p : β → Bool) :
    bs.any p = items.any fun a => (f a).toOption.any p := by
  have hitems := mapM_eq_ok_iff.1 h
  clear h
  induction hitems with
  | nil => rfl
  | cons hab _ ih => simp [ih, hab, Except.toOption]

theorem any_of_optionMapM {f : α → Except ε β} {a? : Option α} {b? : Option β}
    (h : a?.mapM f = .ok b?) (p : β → Bool) :
    b?.any p = a?.any fun a => (f a).toOption.any p := by
  cases a? with
  | none =>
    obtain rfl : none = b? := Except.ok.inj h
    rfl
  | some a =>
    obtain ⟨b, hb, rfl⟩ := map_eq_ok.1 h
    simp [hb, Except.toOption]

theorem toOption_mapError (g : ε → ε') (x : Except ε α) :
    (x.mapError g).toOption = x.toOption := by
  cases x <;> rfl

end ResourceFinder
