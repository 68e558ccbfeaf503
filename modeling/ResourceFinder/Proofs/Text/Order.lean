import Mathlib.Data.List.Sort
import Mathlib.Data.List.Lex
import ResourceFinder.Text.Basic

/-
The order of texts is the one of the numbers of their code points, so sorting names of which no two
are the same leaves one order possible.
-/

namespace ResourceFinder
namespace Text

/-- The numbers of the code points. -/
def codes (t : Text) : List Nat := t.map CodePoint.code

theorem codes_injective : Function.Injective codes :=
  List.map_injective_iff.2 fun _ _ => CodePoint.code_inj

theorem le_iff {s t : Text} : le s t = true ↔ s.codes ≤ t.codes := by
  induction s generalizing t with
  | nil => exact iff_of_true rfl (not_lt.1 (List.not_lt_nil _))
  | cons a s ih =>
    cases t with
    | nil => exact iff_of_false Bool.false_ne_true (not_le.2 (List.nil_lt_cons _ _))
    | cons b t =>
      rw [le, Bool.or_eq_true, Bool.and_eq_true, decide_eq_true_eq, decide_eq_true_eq, ih]
      simp only [codes, List.map_cons, le_iff_eq_or_lt, List.cons.injEq, List.cons_lt_cons_iff]
      tauto

/-- Names in strictly ascending order of their code points. -/
def Ascending (names : List Text) : Prop := names.Pairwise fun s t => s.codes < t.codes

theorem Ascending.eq_of_mem_iff {names names' : List Text} (h : Ascending names)
    (h' : Ascending names') (hmem : ∀ t, t ∈ names ↔ t ∈ names') : names = names' := by
  refine List.map_injective_iff.2 codes_injective
    (List.SortedLT.eq_of_mem_iff (List.pairwise_map.2 h).sortedLT
      (List.pairwise_map.2 h').sortedLT fun cs => ?_)
  rw [List.mem_map, List.mem_map]
  simp only [hmem]

theorem ascending_mergeSort {names : List Text} (h : names.Nodup) :
    Ascending (names.mergeSort le) := by
  have htrans : ∀ s t u : Text, le s t = true → le t u = true → le s u = true := by
    intro s t u hst htu
    exact le_iff.2 (le_trans (le_iff.1 hst) (le_iff.1 htu))
  have htotal : ∀ s t : Text, (le s t || le t s) = true := by
    intro s t
    rw [Bool.or_eq_true, le_iff, le_iff]
    exact le_total _ _
  have hle := List.pairwise_mergeSort htrans htotal names
  refine (hle.and ((List.mergeSort_perm names le).nodup_iff.2 h)).imp fun ⟨hle, hne⟩ => ?_
  exact lt_of_le_of_ne (le_iff.1 hle) (codes_injective.ne hne)

/-- Sorting values by names of their own sorts the names. -/
theorem ascending_map_mergeSort {α : Type} {items : List (Text × α)}
    (h : (items.map (·.1)).Nodup) :
    Ascending ((items.mergeSort fun a b => le a.1 b.1).map (·.1)) := by
  rw [List.map_mergeSort (s := le) fun a _ b _ => rfl]
  exact ascending_mergeSort h

end Text
end ResourceFinder
