import Mathlib.Data.List.TakeWhile
import ResourceFinder.Text.Basic

/-
Runs of characters at the ends of a text.
-/

namespace ResourceFinder
namespace Text

variable {p : CodePoint → Bool} {run t : Text}

theorem dropWhile_append_of_head? (hrun : ∀ c ∈ run, p c = true)
    (ht : ∀ c ∈ t.head?, p c = false) : (run ++ t).dropWhile p = t := by
  rw [List.dropWhile_append_of_pos hrun]
  cases t with
  | nil => rfl
  | cons c t => exact List.dropWhile_cons_of_neg (by simp [ht c rfl])

theorem head?_dropWhile (p : CodePoint → Bool) (t : Text) :
    ∀ c ∈ (t.dropWhile p).head?, p c = false := by
  intro c hc
  have hnot := List.head?_dropWhile_not p t
  rw [hc] at hnot
  simpa using hnot

theorem dropEndWhile_append_of_getLast? (hrun : ∀ c ∈ run, p c = true)
    (ht : ∀ c ∈ t.getLast?, p c = false) : (t ++ run).dropEndWhile p = t := by
  have hdrop : (run.reverse ++ t.reverse).dropWhile p = t.reverse := by
    apply dropWhile_append_of_head?
    · intro c hc
      exact hrun c (List.mem_reverse.1 hc)
    · intro c hc
      rw [List.head?_reverse] at hc
      exact ht c hc
  rw [dropEndWhile, List.reverse_append, hdrop, List.reverse_reverse]

theorem exists_append_dropEndWhile (p : CodePoint → Bool) (t : Text) :
    ∃ run, t = t.dropEndWhile p ++ run ∧ ∀ c ∈ run, p c = true := by
  refine ⟨(t.reverse.takeWhile p).reverse, ?_, ?_⟩
  · rw [dropEndWhile, ← List.reverse_append, List.takeWhile_append_dropWhile, List.reverse_reverse]
  · intro c hc
    exact List.mem_takeWhile_imp (List.mem_reverse.1 hc)

theorem getLast?_dropEndWhile (p : CodePoint → Bool) (t : Text) :
    ∀ c ∈ (t.dropEndWhile p).getLast?, p c = false := by
  rw [dropEndWhile, List.getLast?_reverse]
  exact head?_dropWhile p t.reverse

end Text
end ResourceFinder
