import ResourceFinder.Proofs.Text.Join
import ResourceFinder.Text.Lines

/-
Natural lines of texts that are put together.

All line ends are made line feeds first, and only there a carriage return can have to do with the
character after it.
-/

namespace ResourceFinder
namespace Text

theorem unifyLineEnds_of_not_mem {t : Text} (h : .char '\r' ∉ t) : t.unifyLineEnds = t := by
  induction t with
  | nil => rfl
  | cons c t ih =>
    obtain ⟨hc, ht⟩ := not_or.1 (mt List.mem_cons.2 h)
    rw [unifyLineEnds.eq_3 _ _ (fun _ e _ => hc e.symm) (fun e => hc e.symm), ih ht]

theorem not_mem_unifyLineEnds (t : Text) : .char '\r' ∉ t.unifyLineEnds := by
  induction t using unifyLineEnds.induct with
  | case1 t ih => simpa [unifyLineEnds] using ih
  | case2 t hne ih => simpa [unifyLineEnds.eq_2 t hne] using ih
  | case3 c t hpair hreturn ih =>
    have hc : .char '\r' ≠ c := fun h => hreturn h.symm
    rw [unifyLineEnds.eq_3 c t hpair hreturn, List.mem_cons, not_or]
    exact ⟨hc, ih⟩
  | case4 => exact List.not_mem_nil

/-- A line feed is a line end of its own behind what ends in no carriage return. -/
theorem unifyLineEnds_append {t : Text} (h : t.getLast? ≠ some (.char '\r')) (u : Text) :
    unifyLineEnds (t ++ .char '\n' :: u) = unifyLineEnds t ++ .char '\n' :: unifyLineEnds u := by
  have htail {c : CodePoint} {t : Text} (h : (c :: t).getLast? ≠ some (.char '\r')) :
      t.getLast? ≠ some (.char '\r') := by
    intro ht
    apply h
    rw [List.getLast?_cons, ht]
    rfl
  induction t using unifyLineEnds.induct with
  | case1 t ih =>
    rw [List.cons_append, List.cons_append, unifyLineEnds, unifyLineEnds, ih (htail (htail h))]
    rfl
  | case2 t hne ih =>
    have hmore : ∀ t', t ++ .char '\n' :: u = .char '\n' :: t' → False := by
      cases t with
      | nil => exact absurd rfl h
      | cons c t =>
        intro t' heq
        exact hne t (by rw [(List.cons.inj heq).1])
    rw [List.cons_append, unifyLineEnds.eq_2 _ hmore, unifyLineEnds.eq_2 _ hne, ih (htail h)]
    rfl
  | case3 c t hpair hreturn ih =>
    rw [List.cons_append, unifyLineEnds.eq_3 c _ (fun _ hc => absurd hc hreturn) hreturn,
      unifyLineEnds.eq_3 c t hpair hreturn, ih (htail h)]
    rfl
  | case4 => rfl

/-- Lines without line ends in them are the natural lines of the text that joins them. -/
theorem naturalLines_join {lines : List Text} (hne : lines ≠ [])
    (h : ∀ line ∈ lines, .char '\n' ∉ line ∧ .char '\r' ∉ line) :
    naturalLines (join [.char '\n'] lines) = lines := by
  rw [naturalLines, unifyLineEnds_of_not_mem, splitAt_join hne fun line hline => (h line hline).1]
  intro hmem
  rcases mem_join hmem with hend | ⟨line, hline, hin⟩
  · simp at hend
  · exact (h line hline).2 hin

/-- The natural lines of two texts with a line feed between them. -/
theorem naturalLines_append {t : Text} (h : t.getLast? ≠ some (.char '\r')) (u : Text) :
    naturalLines (t ++ .char '\n' :: u) = naturalLines t ++ naturalLines u := by
  rw [naturalLines, unifyLineEnds_append h, splitAt_append_separator]
  rfl

theorem unifyLineEnds_append_of_not_mem {line : Text} (h : .char '\r' ∉ line) (t : Text) :
    unifyLineEnds (line ++ t) = line ++ unifyLineEnds t := by
  induction line with
  | nil => rfl
  | cons c line ih =>
    obtain ⟨hc, hline⟩ := not_or.1 (mt List.mem_cons.2 h)
    rw [List.cons_append, unifyLineEnds.eq_3 _ _ (fun _ e _ => hc e.symm) (fun e => hc e.symm),
      ih hline]
    rfl

/-- A line that is ended by one line end is the first natural line. -/
theorem naturalLines_line {line : Text} (h : .char '\n' ∉ line ∧ .char '\r' ∉ line)
    {lineEnd : Text} (hend : lineEnd = [.char '\n'] ∨ lineEnd = [.char '\r', .char '\n'])
    (t : Text) : naturalLines (line ++ (lineEnd ++ t)) = line :: naturalLines t := by
  have hunify : unifyLineEnds (lineEnd ++ t) = .char '\n' :: unifyLineEnds t := by
    rcases hend with hfeed | hboth
    · rw [hfeed, List.singleton_append, unifyLineEnds.eq_3 _ _ (by simp) (by simp)]
    · rw [hboth]
      rfl
  rw [naturalLines, unifyLineEnds_append_of_not_mem h.2, hunify, splitAt_append h.1]
  rfl

end Text
end ResourceFinder
