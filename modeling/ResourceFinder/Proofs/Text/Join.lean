import ResourceFinder.Text.Basic

/-
Texts joined by a separator, and that splitting undoes joining where the separator is in none of
them.
-/

namespace ResourceFinder
namespace Text

theorem join_cons_cons (separator t t' : Text) (texts : List Text) :
    join separator (t :: t' :: texts) = t ++ separator ++ join separator (t' :: texts) := rfl

theorem join_cons_append (separator u t : Text) (texts : List Text) :
    join separator ((u ++ t) :: texts) = u ++ join separator (t :: texts) := by
  cases texts with
  | nil => rfl
  | cons t' texts => simp [join]

theorem mem_join {separator : Text} {texts : List Text} {c : CodePoint}
    (h : c ∈ join separator texts) : c ∈ separator ∨ ∃ t ∈ texts, c ∈ t := by
  induction texts with
  | nil => cases h
  | cons t texts ih =>
    cases texts with
    | nil => exact .inr ⟨t, List.mem_cons_self, h⟩
    | cons t' texts =>
      rw [join_cons_cons, List.mem_append, List.mem_append] at h
      rcases h with (h | h) | h
      · exact .inr ⟨t, List.mem_cons_self, h⟩
      · exact .inl h
      · exact (ih h).imp_right fun ⟨u, hu, hc⟩ => ⟨u, List.mem_cons_of_mem _ hu, hc⟩

theorem mem_join_of_mem {separator : Text} {texts : List Text} {t : Text} {c : CodePoint}
    (ht : t ∈ texts) (hc : c ∈ t) : c ∈ join separator texts := by
  induction texts with
  | nil => cases ht
  | cons u texts ih =>
    cases texts with
    | nil =>
      obtain rfl := List.mem_singleton.1 ht
      exact hc
    | cons u' texts =>
      rw [join_cons_cons, List.mem_append]
      rcases List.mem_cons.1 ht with rfl | ht
      · exact .inl (List.mem_append_left _ hc)
      · exact .inr (ih ht)

section

variable {separator : Char}

theorem splitAt_of_not_mem {t : Text} (h : .char separator ∉ t) : splitAt separator t = [t] := by
  induction t with
  | nil => rfl
  | cons c t ih =>
    obtain ⟨hc, ht⟩ := not_or.1 (mt List.mem_cons.2 h)
    rw [splitAt, if_neg (Ne.symm hc), ih ht]

theorem splitAt_append {t : Text} (h : .char separator ∉ t) (u : Text) :
    splitAt separator (t ++ .char separator :: u) = t :: splitAt separator u := by
  induction t with
  | nil =>
    rw [List.nil_append, splitAt, if_pos rfl]
  | cons c t ih =>
    obtain ⟨hc, ht⟩ := not_or.1 (mt List.mem_cons.2 h)
    rw [List.cons_append, splitAt, if_neg (Ne.symm hc), ih ht]

/-- What is before the first separator ends there, and what is after it follows. -/
theorem eq_of_append_separator {t t' u u' : Text} (ht : .char separator ∉ t)
    (ht' : .char separator ∉ t') (heq : t ++ .char separator :: u = t' ++ .char separator :: u') :
    t = t' ∧ u = u' := by
  have hsplit := congrArg (splitAt separator) heq
  rw [splitAt_append ht, splitAt_append ht'] at hsplit
  obtain ⟨rfl, -⟩ := List.cons.inj hsplit
  exact ⟨rfl, (List.cons.inj (List.append_cancel_left heq)).2⟩

/-- A separator cuts a text in two, whatever other ones there are. -/
theorem splitAt_append_separator (t u : Text) :
    splitAt separator (t ++ .char separator :: u) = splitAt separator t ++ splitAt separator u := by
  induction t with
  | nil => simp [splitAt]
  | cons c t ih =>
    by_cases hc : c = .char separator
    · simp [splitAt, hc, ih]
    · obtain ⟨piece, pieces, hpieces⟩ := List.exists_cons_of_ne_nil (splitAt_ne_nil separator t)
      simp [splitAt, hc, ih, hpieces]

theorem splitAt_join {texts : List Text} (hne : texts ≠ [])
    (h : ∀ t ∈ texts, .char separator ∉ t) :
    splitAt separator (join [.char separator] texts) = texts := by
  induction texts with
  | nil => contradiction
  | cons t texts ih =>
    obtain ⟨ht, htexts⟩ := List.forall_mem_cons.1 h
    cases texts with
    | nil => exact splitAt_of_not_mem ht
    | cons t' texts =>
      rw [join_cons_cons, List.append_assoc, List.singleton_append, splitAt_append ht,
        ih (by simp) htexts]

theorem join_inj {texts texts' : List Text} (hne : texts ≠ []) (hne' : texts' ≠ [])
    (h : ∀ t ∈ texts, .char separator ∉ t) (h' : ∀ t ∈ texts', .char separator ∉ t)
    (heq : join [.char separator] texts = join [.char separator] texts') : texts = texts' := by
  rw [← splitAt_join hne h, heq, splitAt_join hne' h']

end

end Text
end ResourceFinder
