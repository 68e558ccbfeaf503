import Mathlib.Computability.Language
import ResourceFinder.Regex.Matcher

/-
The languages that parts of expressions recognise.

`run` hands the places it reaches to a continuation, so a part is known by the words it gets over:
`Recognises body L` says that `body` gets through to its continuation at the ends of the words of
`L`, wherever the rest of the text begins with one, and nowhere else.  Backtracking does not show in
it: all that is asked is whether some choice goes through.
-/

namespace ResourceFinder
namespace Regex

open Computability

namespace Cursor

/-- The place after a word that `rest` follows. -/
def after (s : Cursor) (word rest : Text) : Cursor := ⟨word.reverse ++ s.before, rest, s.groups⟩

@[simp] theorem rest_after (s : Cursor) (word rest : Text) : (s.after word rest).rest = rest := rfl

theorem after_after (s : Cursor) (u v rest rest' : Text) :
    (s.after u rest').after v rest = s.after (u ++ v) rest := by
  simp [after]

end Cursor

/-- Getting over exactly the words of a language. -/
def Recognises (body : Continuation → Continuation) (L : Language CodePoint) : Prop :=
  ∀ next s, (body next s).isSome ↔
    ∃ word ∈ L, ∃ rest, s.rest = word ++ rest ∧ (next (s.after word rest)).isSome

/-- The words of one letter. -/
def letters (p : CodePoint → Prop) : Language CodePoint := {w | ∃ c, p c ∧ w = [c]}

theorem mem_letters {p : CodePoint → Prop} {w : Text} :
    w ∈ letters p ↔ ∃ c, p c ∧ w = [c] := Iff.rfl

/-- The words of one of the languages. -/
def union {α : Type} (L : α → Language CodePoint) (xs : List α) : Language CodePoint :=
  {w | ∃ x ∈ xs, w ∈ L x}

theorem mem_union {α : Type} {L : α → Language CodePoint} {xs : List α} {w : Text} :
    w ∈ union L xs ↔ ∃ x ∈ xs, w ∈ L x := Iff.rfl

theorem mem_kstar_letters {p : CodePoint → Prop} {w : Text} :
    w ∈ (letters p)∗ ↔ ∀ c ∈ w, p c := by
  constructor
  · rintro ⟨words, rfl, hwords⟩ c hc
    obtain ⟨word, hword, hcw⟩ := List.mem_flatten.1 hc
    obtain ⟨d, hd, rfl⟩ := hwords word hword
    rw [List.mem_singleton.1 hcw]
    exact hd
  · intro h
    refine ⟨w.map ([·]), ?_, ?_⟩
    · rw [← List.flatMap_def, List.flatMap_singleton']
    · intro word hword
      obtain ⟨c, hc, rfl⟩ := List.mem_map.1 hword
      exact ⟨c, h c hc, rfl⟩

namespace Node

theorem recognises_empty : Recognises empty.run 1 := by
  intro next s
  constructor
  · intro h
    exact ⟨[], rfl, s.rest, rfl, h⟩
  · rintro ⟨word, rfl, rest, hs, h⟩
    have hr : s.rest = rest := hs
    subst hr
    exact h

theorem recognises_one (flags : Flags) (test : Test) :
    Recognises (one flags test).run (letters fun c => test.accepts flags c = true) := by
  intro next s
  obtain ⟨before, rest, groups⟩ := s
  cases rest with
  | nil =>
    constructor
    · intro h
      cases h
    · rintro ⟨word, ⟨c, -, rfl⟩, rest, hs, -⟩
      cases hs
  | cons c rest =>
    by_cases hc : test.accepts flags c = true
    · simp only [run, hc, if_true]
      constructor
      · intro h
        exact ⟨[c], ⟨c, hc, rfl⟩, rest, rfl, h⟩
      · rintro ⟨word, ⟨d, -, rfl⟩, rest', hs, h⟩
        obtain ⟨rfl, rfl⟩ := List.cons.inj hs
        exact h
    · simp only [run, hc, if_false, Bool.false_eq_true, Option.isSome_none, false_iff]
      rintro ⟨word, ⟨d, hd, rfl⟩, rest', hs, -⟩
      obtain ⟨rfl, rfl⟩ := List.cons.inj hs
      exact hc hd

theorem recognises_sequence {a b : Node} {L M : Language CodePoint}
    (ha : Recognises a.run L) (hb : Recognises b.run M) :
    Recognises (sequence a b).run (L * M) := by
  intro next s
  simp only [run]
  rw [ha]
  constructor
  · rintro ⟨u, hu, rest, hs, h⟩
    obtain ⟨v, hv, rest', hr, h⟩ := (hb _ _).1 h
    refine ⟨u ++ v, Language.append_mem_mul hu hv, rest', ?_, ?_⟩
    · rw [hs, List.append_assoc, ← hr, Cursor.rest_after]
    · rwa [Cursor.after_after] at h
  · rintro ⟨word, hword, rest, hs, h⟩
    obtain ⟨u, hu, v, hv, rfl⟩ := Language.mem_mul.1 hword
    refine ⟨u, hu, v ++ rest, by rw [hs, List.append_assoc], (hb _ _).2 ⟨v, hv, rest, rfl, ?_⟩⟩
    rwa [Cursor.after_after]

theorem recognises_either {a b : Node} {L M : Language CodePoint}
    (ha : Recognises a.run L) (hb : Recognises b.run M) :
    Recognises (either a b).run (L + M) := by
  intro next s
  simp only [run, Option.isSome_or, Bool.or_eq_true]
  rw [ha, hb]
  constructor
  · rintro (⟨w, hw, h⟩ | ⟨w, hw, h⟩)
    · exact ⟨w, Or.inl hw, h⟩
    · exact ⟨w, Or.inr hw, h⟩
  · rintro ⟨w, hw | hw, h⟩
    · exact Or.inl ⟨w, hw, h⟩
    · exact Or.inr ⟨w, hw, h⟩

end Node

/-- Rounds as long as there are letters get over the words of the star: one more round than letters
is never needed, since every round but the last shortens the rest. -/
theorem isSome_greedily {body : Continuation → Continuation} {L : Language CodePoint}
    (hbody : Recognises body L) (next : Continuation) {n : Nat} {s : Cursor}
    (hn : s.rest.length < n) :
    (greedily body next n s).isSome ↔
      ∃ word ∈ L∗, ∃ rest, s.rest = word ++ rest ∧ (next (s.after word rest)).isSome := by
  induction n generalizing s with
  | zero => omega
  | succ n ih =>
    simp only [greedily, Option.isSome_or, Bool.or_eq_true]
    rw [hbody]
    constructor
    · rintro (⟨u, hu, rest, hs, h⟩ | h)
      · by_cases hlt : (s.after u rest).rest.length < s.rest.length
        · rw [if_pos hlt, ih (by omega)] at h
          obtain ⟨v, hv, rest', hr, h⟩ := h
          refine ⟨u ++ v, ?_, rest', ?_, ?_⟩
          · obtain ⟨words, rfl, hwords⟩ := hv
            refine ⟨u :: words, rfl, fun w hw => ?_⟩
            rcases List.mem_cons.1 hw with rfl | hw
            · exact hu
            · exact hwords w hw
          · rw [hs, List.append_assoc, ← hr, Cursor.rest_after]
          · rwa [Cursor.after_after] at h
        · rw [if_neg hlt] at h
          exact ⟨u, ⟨[u], by simp, by simpa using hu⟩, rest, hs, h⟩
      · exact ⟨[], Language.nil_mem_kstar L, s.rest, rfl, h⟩
    · rintro ⟨word, hword, rest, hs, h⟩
      obtain ⟨words, rfl, hwords⟩ := Language.mem_kstar_iff_exists_nonempty.1 hword
      cases words with
      | nil =>
        have hr : s.rest = rest := hs
        subst hr
        exact Or.inr h
      | cons u words =>
        obtain ⟨hu, hne⟩ := hwords u List.mem_cons_self
        have hs' : s.rest = u ++ (words.flatten ++ rest) := by
          rw [hs, List.flatten_cons, List.append_assoc]
        have hlt : (words.flatten ++ rest).length < s.rest.length := by
          have hpos := List.length_pos_iff.2 hne
          have hlen := congrArg List.length hs'
          rw [List.length_append] at hlen
          omega
        refine Or.inl ⟨u, hu, words.flatten ++ rest, hs', ?_⟩
        rw [if_pos (by rwa [Cursor.rest_after]), ih (by rw [Cursor.rest_after]; omega)]
        refine ⟨words.flatten, ⟨words, rfl, fun w hw => ?_⟩, rest, rfl, ?_⟩
        · exact (hwords w (List.mem_cons_of_mem u hw)).1
        · rwa [Cursor.after_after, ← List.flatten_cons]

theorem Node.recognises_star {body : Node} {L : Language CodePoint} (h : Recognises body.run L) :
    Recognises (Node.repeated 0 none .greedy body).run L∗ := by
  intro next s
  simp only [Node.run, rounds, further]
  exact isSome_greedily h next (Nat.lt_succ_self _)

theorem Node.recognises_sequenceOf {α : Type} {f : α → Node} {L : α → Language CodePoint}
    {xs : List α} (h : ∀ x ∈ xs, Recognises (f x).run (L x)) :
    Recognises (Node.sequenceOf (xs.map f)).run (xs.map L).prod := by
  induction xs with
  | nil => exact recognises_empty
  | cons x xs ih =>
    have hx := h x List.mem_cons_self
    have hxs := ih fun y hy => h y (List.mem_cons_of_mem x hy)
    cases xs with
    | nil =>
      have hprod : ([x].map L).prod = L x := mul_one (L x)
      rw [hprod]
      exact hx
    | cons y ys => exact recognises_sequence hx hxs

theorem Node.recognises_eitherOf {α : Type} {f : α → Node} {L : α → Language CodePoint}
    {xs : List α} (hne : xs ≠ []) (h : ∀ x ∈ xs, Recognises (f x).run (L x)) :
    Recognises (Node.eitherOf (xs.map f)).run (union L xs) := by
  induction xs with
  | nil => contradiction
  | cons x xs ih =>
    have hx := h x List.mem_cons_self
    cases xs with
    | nil =>
      have hunion : union L [x] = L x := by
        ext w
        rw [mem_union]
        simp
      rw [hunion]
      exact hx
    | cons y ys =>
      have hunion : union L (x :: y :: ys) = L x + union L (y :: ys) := by
        ext w
        rw [Language.mem_add, mem_union, mem_union, List.exists_mem_cons_iff]
      rw [hunion]
      exact recognises_either hx (ih (by simp) fun z hz => h z (List.mem_cons_of_mem x hz))

/-- Matching a whole text is membership in the language. -/
theorem fullMatch_iff {n : Node} {L : Language CodePoint} (h : Recognises n.run L) (t : Text) :
    fullMatch n t = true ↔ t ∈ L := by
  unfold fullMatch
  rw [h]
  constructor
  · rintro ⟨word, hword, rest, hs, hend⟩
    have ht : t = word ++ rest := hs
    cases rest with
    | nil => rwa [ht, List.append_nil]
    | cons c rest => simp at hend
  · intro ht
    exact ⟨t, ht, [], (List.append_nil t).symm, rfl⟩

end Regex
end ResourceFinder
