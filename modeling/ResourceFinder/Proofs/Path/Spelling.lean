import ResourceFinder.Path.Basic
import ResourceFinder.Proofs.Text.Join

/-
Paths and the texts that spell them.

Several texts spell one path, but the text of a path that was read from a text is read as that path
again.  Names that stand for themselves can be added to such a path, and it stays one.
-/

namespace ResourceFinder

namespace Text

theorem not_mem_of_mem_splitAt {separator : Char} {t piece : Text}
    (h : piece ∈ splitAt separator t) : .char separator ∉ piece := by
  induction t generalizing piece with
  | nil =>
    obtain rfl := List.mem_singleton.1 h
    simp
  | cons c t ih =>
    rw [splitAt] at h
    split at h
    case isTrue =>
      rcases List.mem_cons.1 h with rfl | h
      · simp
      · exact ih h
    case isFalse hc =>
      split at h
      case h_1 hnil => exact absurd hnil (splitAt_ne_nil separator t)
      case h_2 first pieces hpieces =>
        rw [hpieces] at ih
        rcases List.mem_cons.1 h with rfl | h
        · intro hmem
          rcases List.mem_cons.1 hmem with hhead | hrest
          · exact hc hhead.symm
          · exact ih List.mem_cons_self hrest
        · exact ih (List.mem_cons_of_mem first h)

theorem mem_of_mem_splitAt {separator : Char} {t piece : Text} (h : piece ∈ splitAt separator t)
    {c : CodePoint} (hc : c ∈ piece) : c ∈ t := by
  induction t generalizing piece with
  | nil =>
    obtain rfl := List.mem_singleton.1 h
    exact hc
  | cons d t ih =>
    rw [splitAt] at h
    split at h
    case isTrue =>
      rcases List.mem_cons.1 h with rfl | h
      · cases hc
      · exact List.mem_cons_of_mem d (ih h hc)
    case isFalse =>
      split at h
      case h_1 hnil => exact absurd hnil (splitAt_ne_nil separator t)
      case h_2 first pieces hpieces =>
        rw [hpieces] at ih
        rcases List.mem_cons.1 h with rfl | h
        · exact (List.mem_cons.1 hc).elim (fun hd => hd ▸ List.mem_cons_self)
            fun hc => List.mem_cons_of_mem d (ih List.mem_cons_self hc)
        · exact List.mem_cons_of_mem d (ih (List.mem_cons_of_mem first h) hc)

theorem head?_join {separator : Text} {t : Text} (ht : t ≠ []) (texts : List Text) :
    (join separator (t :: texts)).head? = t.head? := by
  cases texts with
  | nil => rfl
  | cons t' texts =>
    obtain ⟨c, t, rfl⟩ := List.exists_cons_of_ne_nil ht
    rfl

theorem getLast?_join {separator : Text} {texts : List Text} {t : Text} (ht : t ≠ []) :
    (join separator (texts ++ [t])).getLast? = t.getLast? := by
  induction texts with
  | nil => rfl
  | cons t' texts ih =>
    obtain ⟨t'', rest, hrest⟩ : ∃ t'' rest, texts ++ [t] = t'' :: rest :=
      List.exists_cons_of_ne_nil (by simp)
    obtain ⟨c, hc⟩ : ∃ c, t.getLast? = some c := ⟨_, List.getLast?_eq_some_getLast ht⟩
    rw [List.cons_append, hrest, join_cons_cons, ← hrest, List.getLast?_append, ih, hc]
    rfl

end Text

namespace Path

/-- A segment that stands for itself in a text: it is not empty, no single dot, and holds no
slash. -/
structure IsSegment (s : Text) : Prop where
  ne_nil : s ≠ []
  ne_here : s ≠ here
  slash : .char '/' ∉ s

def IsSpelt (p : Path) : Prop := ∀ s ∈ p.segments, IsSegment s

/-- Every path that a text spells is spelt by its own text too. -/
theorem isSpelt_ofText (t : Text) : (ofText t).IsSpelt := by
  intro s hs
  obtain ⟨hsplit, hkept⟩ := List.mem_filter.1 hs
  have hkept : s ≠ [] ∧ s ≠ here := by simpa using hkept
  exact ⟨hkept.1, hkept.2, Text.not_mem_of_mem_splitAt hsplit⟩

theorem IsSpelt.below {p : Path} (h : p.IsSpelt) {names : List Text}
    (hnames : ∀ s ∈ names, IsSegment s) : (p.below names).IsSpelt :=
  List.forall_mem_append.2 ⟨h, hnames⟩

theorem segmentsOf_slash (t : Text) : segmentsOf (.char '/' :: t) = segmentsOf t := by
  rw [segmentsOf, Text.splitAt, if_pos rfl]
  rfl

theorem segmentsOf_join {segments : List Text} (h : ∀ s ∈ segments, IsSegment s) :
    segmentsOf (Text.join "/" segments) = segments := by
  by_cases hnil : segments = []
  · subst hnil
    rfl
  · have hsplit : Text.splitAt '/' (Text.join "/" segments) = segments :=
      Text.splitAt_join hnil fun s hs => (h s hs).slash
    rw [segmentsOf, hsplit, List.filter_eq_self]
    intro s hs
    simpa using ⟨(h s hs).ne_nil, (h s hs).ne_here⟩

theorem head?_join_ne_slash {segments : List Text} (h : ∀ s ∈ segments, IsSegment s) :
    (Text.join "/" segments).head? ≠ some (.char '/') := by
  cases segments with
  | nil => simp [Text.join]
  | cons s segments =>
    obtain ⟨hs, -⟩ := List.forall_mem_cons.1 h
    rw [Text.head?_join hs.ne_nil]
    exact fun hhead => hs.slash (List.mem_of_head? hhead)

end Path

namespace Anchor

/-- The slashes of a start are read as that start if no more of them follow. -/
theorem ofText_text_append (a : Anchor) {t : Text} (h : t.head? ≠ some (.char '/')) :
    ofText (a.text ++ t) = a := by
  cases t with
  | nil => cases a <;> rfl
  | cons c t =>
    have hc : c ≠ .char '/' := fun hc => h (by rw [hc]; rfl)
    cases a with
    | relative =>
      show ofText (c :: t) = relative
      simp [ofText, hc]
    | root =>
      show ofText (.char '/' :: c :: t) = root
      simp [ofText, hc]
    | doubleRoot =>
      show ofText (.char '/' :: .char '/' :: c :: t) = doubleRoot
      simp [ofText, hc]

end Anchor

namespace Path

theorem segmentsOf_anchor_append (a : Anchor) (t : Text) :
    segmentsOf (a.text ++ t) = segmentsOf t := by
  cases a with
  | relative => rfl
  | root => exact segmentsOf_slash t
  | doubleRoot => exact (segmentsOf_slash _).trans (segmentsOf_slash t)

theorem ofText_text {p : Path} (h : p.IsSpelt) : ofText p.text = p := by
  unfold text
  split
  case isTrue hhere =>
    obtain ⟨hrelative, hsegments⟩ : p.anchor = .relative ∧ p.segments = [] := by simpa using hhere
    obtain ⟨anchor, segments⟩ := p
    subst hrelative hsegments
    rfl
  case isFalse =>
    rw [ofText, Anchor.ofText_text_append _ (head?_join_ne_slash h), segmentsOf_anchor_append,
      segmentsOf_join h]

theorem mem_text {p : Path} {c : CodePoint} (hslash : c ≠ .char '/') (hdot : c ≠ .char '.') :
    c ∈ p.text ↔ ∃ s ∈ p.segments, c ∈ s := by
  unfold text
  split
  case isTrue hhere =>
    obtain ⟨-, hsegments⟩ : p.anchor = .relative ∧ p.segments = [] := by simpa using hhere
    refine iff_of_false (fun hc => hdot (List.mem_singleton.1 hc)) ?_
    simp [hsegments]
  case isFalse =>
    rw [List.mem_append]
    constructor
    · rintro (hanchor | hjoin)
      · cases hp : p.anchor <;> simp [hp, Anchor.text, Text.ofString, hslash] at hanchor
      · rcases Text.mem_join hjoin with hc | hc
        · exact absurd (List.mem_singleton.1 hc) hslash
        · exact hc
    · rintro ⟨s, hs, hc⟩
      exact .inr (Text.mem_join_of_mem hs hc)

/-! ### Absolute paths -/

theorem isAbsolute_join {base p : Path} (h : base.isAbsolute = true) :
    (base.join p).isAbsolute = true := by
  unfold join
  split
  case isTrue hp => exact hp
  case isFalse => exact h

/-- A path starts at the root if its text starts with a slash. -/
theorem isAbsolute_ofText {t : Text} :
    (ofText t).isAbsolute = true ↔ t.head? = some (.char '/') := by
  have hstart : (ofText t).isAbsolute = (Anchor.ofText t != .relative) := rfl
  rw [hstart]
  cases t with
  | nil => decide
  | cons c t =>
    by_cases hc : c = .char '/'
    · subst hc
      refine iff_of_true ?_ rfl
      unfold Anchor.ofText
      split
      · rfl
      · rfl
      · rfl
      case h_4 hother => exact absurd rfl (hother t)
    · simp [Anchor.ofText, hc]

theorem isAbsolute_ofText_text {p : Path} (h : p.isAbsolute = true) :
    (ofText p.text).isAbsolute = true := by
  obtain ⟨anchor, segments⟩ := p
  rw [isAbsolute_ofText]
  cases anchor with
  | relative => cases h
  | root => rfl
  | doubleRoot => rfl

end Path
end ResourceFinder
