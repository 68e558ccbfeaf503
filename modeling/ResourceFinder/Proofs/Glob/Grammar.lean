import Mathlib.Data.List.Forall2
import ResourceFinder.Glob.Parser
import ResourceFinder.Proofs.Text.Join

/-
The grammar of glob patterns, and that reading a pattern follows it.

The grammar has two layers: a pattern is a run of atoms with groups in it, and an alternative of a
group is a run of atoms, in which a comma and a closing brace are marks as well.  Stars go in pairs
from the left, so a star that stands for one segment has no star after it.  Reading goes from the
left and keeps the open group on the side; `parse_eq_ok_iff` says that it accepts exactly the
patterns of the grammar and gives their items.
-/

namespace ResourceFinder
namespace Glob

/-- The characters that do not stand for themselves, in a group or outside of one. -/
def marks (inGroup : Bool) : List Char :=
  ['\\', '*', '?', '\x7b'] ++ if inGroup then [',', '\x7d'] else []

/-- A spelling of one atom in front of a text. -/
inductive SpellsAtom (inGroup : Bool) (following : Text) : Text → Atom → Prop where
  | escaped (c : CodePoint) : SpellsAtom inGroup following [.char '\\', c] (.literal c)
  | anything : SpellsAtom inGroup following [.char '*', .char '*'] .anything
  | anySegment (h : following.head? ≠ some (.char '*')) :
      SpellsAtom inGroup following [.char '*'] .anySegment
  | anyChar : SpellsAtom inGroup following [.char '?'] .anyChar
  | itself (c : CodePoint) (h : c.isOneOf (marks inGroup) = false) :
      SpellsAtom inGroup following [c] (.literal c)

inductive SpellsAtoms (inGroup : Bool) : Text → List Atom → Prop where
  | nil : SpellsAtoms inGroup [] []
  | cons {w t a as} (h : SpellsAtom inGroup t w a) (hs : SpellsAtoms inGroup t as) :
      SpellsAtoms inGroup (w ++ t) (a :: as)

/-- A spelling of a pattern: atoms, and groups of one alternative at least between them. -/
inductive Spells : Text → Glob → Prop where
  | atoms {t as} (h : SpellsAtoms false t as) : Spells t (as.map .atom)
  | group {t as texts alternatives rest g} (h : SpellsAtoms false t as)
      (hgroup : List.Forall₂ (SpellsAtoms true) texts alternatives) (hne : texts ≠ [])
      (hrest : Spells rest g) :
      Spells (t ++ .char '\x7b' :: (Text.join "," texts ++ .char '\x7d' :: rest))
        (as.map .atom ++ .group alternatives :: g)

/-! ## One atom at a time -/

/-- Of what follows an atom only a star at its head matters. -/
theorem SpellsAtom.of_head {inGroup : Bool} {t t' w : Text} {a : Atom}
    (h : SpellsAtom inGroup t w a)
    (hhead : t.head? ≠ some (.char '*') → t'.head? ≠ some (.char '*')) :
    SpellsAtom inGroup t' w a := by
  cases h with
  | escaped c => exact .escaped c
  | anything => exact .anything
  | anySegment h => exact .anySegment (hhead h)
  | anyChar => exact .anyChar
  | itself c h => exact .itself c h

theorem ne_of_isOneOf_marks {inGroup : Bool} {c : CodePoint}
    (h : c.isOneOf (marks inGroup) = false) {d : Char} (hd : d ∈ marks inGroup) : c ≠ .char d := by
  rintro rfl
  simp only [CodePoint.isOneOf, List.contains_eq_mem, decide_eq_false_iff_not] at h
  exact h hd

theorem parseFrom_atom (group : Option OpenGroup) {t w : Text} {a : Atom}
    (h : SpellsAtom group.isSome t w a) (position : Nat) :
    parseFrom position group (w ++ t) =
      place a group fun g => parseFrom (position + w.length) g t := by
  cases h with
  | escaped c => exact parseFrom.eq_4 position group c t
  | anything => exact parseFrom.eq_5 position group t
  | anySegment h =>
    exact parseFrom.eq_6 position group t fun t' ht => h (by rw [ht]; rfl)
  | anyChar => exact parseFrom.eq_7 position group t
  | itself c h =>
    -- Outside of a group a comma and a closing brace have cases of their own, with the same result.
    have hplain (hcomma : c ≠ .char ',') (hbrace : c ≠ .char '\x7d') :
        parseFrom position group (c :: t) =
          place (.literal c) group fun g => parseFrom (position + 1) g t := by
      have hne {d : Char} (hd : d ∈ marks group.isSome) := ne_of_isOneOf_marks h hd
      have hback : c ≠ .char '\\' := hne (by simp [marks])
      have hstar : c ≠ .char '*' := hne (by simp [marks])
      exact parseFrom.eq_14 position group c t (fun e _ => hback e) (fun _ _ e _ => hback e)
        (fun _ e _ => hstar e) hstar (hne (by simp [marks])) (hne (by simp [marks])) hcomma hbrace
    cases group with
    | none =>
      by_cases hcomma : c = .char ','
      · subst hcomma
        exact parseFrom.eq_10 position t
      · by_cases hbrace : c = .char '\x7d'
        · subst hbrace
          exact parseFrom.eq_12 position t
        · exact hplain hcomma hbrace
    | some g =>
      have hne {d : Char} (hd : d ∈ marks true) := ne_of_isOneOf_marks h hd
      exact hplain (hne (by simp [marks])) (hne (by simp [marks]))

/-! ## What is spelled is read -/

theorem head?_append_ne_star {t tail : Text} (htail : tail.head? ≠ some (.char '*'))
    (h : t.head? ≠ some (.char '*')) : (t ++ tail).head? ≠ some (.char '*') := by
  cases t with
  | nil => exact htail
  | cons c t => exact h

theorem parseFrom_atoms {t tail : Text} {as : List Atom} (h : SpellsAtoms false t as)
    (htail : tail.head? ≠ some (.char '*')) {g : Glob}
    (hrest : ∀ position, parseFrom position none tail = .ok g) (position : Nat) :
    parseFrom position none (t ++ tail) = .ok (as.map .atom ++ g) := by
  induction h generalizing position with
  | nil => exact hrest position
  | @cons w t a as h _ ih =>
    rw [List.append_assoc, parseFrom_atom none (h.of_head (head?_append_ne_star htail))]
    simp only [place, ih]
    rfl

theorem parseFrom_atoms_inGroup {t tail : Text} {as : List Atom} (h : SpellsAtoms true t as)
    (htail : tail.head? ≠ some (.char '*')) {opened : OpenGroup} {g : Glob}
    (hrest : ∀ position, parseFrom position
      (some { opened with current := as.reverse ++ opened.current }) tail = .ok g)
    (position : Nat) : parseFrom position (some opened) (t ++ tail) = .ok g := by
  induction h generalizing position opened with
  | nil => exact hrest position
  | @cons w t a as h _ ih =>
    rw [List.append_assoc,
      parseFrom_atom (some opened) (h.of_head (head?_append_ne_star htail))]
    refine ih (fun position => ?_) _
    simpa [OpenGroup.push] using hrest position

theorem parseFrom_alternatives {text rest : Text} {texts : List Text} {as : List Atom}
    {alternatives : List (List Atom)} {items : Glob}
    (h : List.Forall₂ (SpellsAtoms true) (text :: texts) (as :: alternatives))
    (hrest : ∀ position, parseFrom position none rest = .ok items) (opened : OpenGroup)
    (position : Nat) :
    parseFrom position (some opened) (Text.join "," (text :: texts) ++ .char '\x7d' :: rest) =
      .ok (.group (opened.finished.reverse ++ (opened.current.reverse ++ as) :: alternatives) ::
        items) := by
  induction texts generalizing text as alternatives opened position with
  | nil =>
    obtain ⟨hfirst, hothers⟩ := List.forall₂_cons.1 h
    obtain rfl := List.forall₂_nil_left_iff.1 hothers
    refine parseFrom_atoms_inGroup hfirst (by simp) (fun position => ?_) position
    rw [parseFrom.eq_13, hrest]
    simp [Except.map, OpenGroup.close, OpenGroup.alternative]
  | cons text' texts ih =>
    obtain ⟨hfirst, hothers⟩ := List.forall₂_cons.1 h
    obtain ⟨as', alternatives', hsecond, hothers', rfl⟩ := List.forall₂_cons_left_iff.1 hothers
    rw [Text.join_cons_cons, List.append_assoc, List.append_assoc]
    refine parseFrom_atoms_inGroup hfirst (by simp [Text.ofString]) (fun position => ?_) position
    refine (parseFrom.eq_11 position _ _).trans ((ih (.cons hsecond hothers') _ _).trans ?_)
    simp [OpenGroup.alternative]

theorem parseFrom_of_spells {t : Text} {g : Glob} (h : Spells t g) (position : Nat) :
    parseFrom position none t = .ok g := by
  induction h generalizing position with
  | @atoms t as h =>
    have hend : ([] : Text).head? ≠ some (.char '*') := by simp
    simpa using parseFrom_atoms h hend (fun p => parseFrom.eq_1 p) position
  | @group t as texts alternatives rest g h hgroup hne _ ih =>
    refine parseFrom_atoms h (by simp) (fun position => ?_) position
    rw [parseFrom.eq_8]
    cases hgroup with
    | nil => exact absurd rfl hne
    | cons hfirst hothers =>
      exact parseFrom_alternatives (.cons hfirst hothers) ih .start (position + 1)

/-! ## What is read is spelled -/

/-- A text that goes on with a pattern where a group may be open: in a group it holds the rest of
the current alternative, further ones, and what comes after the group. -/
def Continues (group : Option OpenGroup) (t : Text) (g : Glob) : Prop :=
  match group with
  | none => Spells t g
  | some opened => ∃ text texts as alternatives rest items,
      List.Forall₂ (SpellsAtoms true) (text :: texts) (as :: alternatives) ∧ Spells rest items ∧
      t = Text.join "," (text :: texts) ++ .char '\x7d' :: rest ∧
      g = .group (opened.finished.reverse ++ (opened.current.reverse ++ as) :: alternatives) ::
        items

theorem Spells.cons {t w : Text} {a : Atom} {g : Glob} (h : SpellsAtom false t w a)
    (hg : Spells t g) : Spells (w ++ t) (.atom a :: g) := by
  cases hg with
  | atoms hs => exact .atoms (.cons h hs)
  | @group t as texts alternatives rest g hs hgroup hne hrest =>
    rw [← List.append_assoc]
    refine .group (.cons (h.of_head fun hhead => ?_) hs) hgroup hne hrest
    cases t with
    | nil => simp
    | cons c t => exact hhead

theorem continues_of_place {group : Option OpenGroup} {t w : Text} {a : Atom} {g : Glob}
    {position : Nat} (hw : SpellsAtom group.isSome t w a)
    (ih : ∀ group' g', parseFrom position group' t = .ok g' → Continues group' t g')
    (h : place a group (fun group' => parseFrom position group' t) = .ok g) :
    Continues group (w ++ t) g := by
  cases group with
  | none =>
    cases hrest : parseFrom position none t with
    | error e => simp [place, hrest, Except.map] at h
    | ok items =>
      simp only [place, hrest, Except.map, Except.ok.injEq] at h
      subst h
      exact Spells.cons hw (ih none items hrest)
  | some opened =>
    obtain ⟨text, texts, as, alternatives, rest, items, hgroup, hrest, rfl, rfl⟩ :=
      ih (some (opened.push a)) g h
    obtain ⟨hfirst, hothers⟩ := List.forall₂_cons.1 hgroup
    refine ⟨w ++ text, texts, a :: as, alternatives, rest, items,
      .cons (.cons (hw.of_head fun hhead => ?_) hfirst) hothers, hrest, ?_, ?_⟩
    · intro htext
      refine hhead ?_
      cases text with
      | nil => cases htext
      | cons c text =>
        rw [← htext]
        cases texts <;> rfl
    · rw [Text.join_cons_append, List.append_assoc]
    · simp [OpenGroup.push]

theorem continues_of_parseFrom {group : Option OpenGroup} {t : Text} {g : Glob} {position : Nat}
    (h : parseFrom position group t = .ok g) : Continues group t g := by
  induction position, group, t using parseFrom.induct generalizing g with
  | case1 position =>
    obtain rfl := Except.ok.inj h
    exact Spells.atoms .nil
  | case2 position opened => cases h
  | case3 position group => cases h
  | case4 position group c t ih => exact continues_of_place (.escaped c) (fun _ _ => ih _) h
  | case5 position group t ih => exact continues_of_place .anything (fun _ _ => ih _) h
  | case6 position group t hstar ih =>
    rw [parseFrom.eq_6 position group t hstar] at h
    refine continues_of_place (.anySegment fun hhead => ?_) (fun _ _ => ih _) h
    obtain ⟨t', rfl⟩ := List.head?_eq_some_iff.1 hhead
    exact hstar t' rfl
  | case7 position group t ih => exact continues_of_place .anyChar (fun _ _ => ih _) h
  | case8 position t ih =>
    obtain ⟨text, texts, as, alternatives, rest, items, hgroup, hrest, rfl, rfl⟩ := ih h
    exact Spells.group .nil hgroup (List.cons_ne_nil _ _) hrest
  | case9 position t opened => cases h
  | case10 position t ih =>
    exact continues_of_place (.itself _ (by decide)) (fun _ _ => ih _) h
  | case11 position t opened ih =>
    obtain ⟨text, texts, as, alternatives, rest, items, hgroup, hrest, rfl, rfl⟩ := ih h
    refine ⟨[], text :: texts, [], as :: alternatives, rest, items, .cons .nil hgroup, hrest,
      rfl, ?_⟩
    simp [OpenGroup.alternative]
  | case12 position t ih =>
    exact continues_of_place (.itself _ (by decide)) (fun _ _ => ih _) h
  | case13 position t opened ih =>
    cases hrest : parseFrom (position + 1) none t with
    | error e => simp [parseFrom, hrest, Except.map] at h
    | ok items =>
      simp only [parseFrom, hrest, Except.map, Except.ok.injEq] at h
      subst h
      refine ⟨[], [], [], [], t, items, .cons .nil .nil, ih hrest, rfl, ?_⟩
      simp [OpenGroup.close, OpenGroup.alternative]
  | case14 position group c t h1 h2 h3 hstar hquestion hopen hcomma hclose ih =>
    rw [parseFrom.eq_14 position group c t h1 h2 h3 hstar hquestion hopen hcomma hclose] at h
    by_cases hback : c = .char '\\'
    · subst hback
      cases t with
      | nil => exact absurd rfl (h1 rfl)
      | cons d t => exact absurd rfl (h2 d t rfl)
    · refine continues_of_place (.itself c ?_) (fun _ _ => ih _) h
      cases c with
      | surrogate i => rfl
      | char c =>
        rw [CodePoint.char.injEq] at hback hstar hquestion hopen hcomma hclose
        cases hgroup : group.isSome with
        | false =>
          simp only [CodePoint.isOneOf, marks, List.contains_eq_mem, decide_eq_false_iff_not]
          simpa [hback] using ⟨hstar, hquestion, hopen⟩
        | true =>
          simp only [CodePoint.isOneOf, marks, List.contains_eq_mem, decide_eq_false_iff_not]
          simpa [hback] using ⟨hstar, hquestion, hopen, hcomma, hclose⟩

/-- Reading a pattern follows the grammar. -/
theorem parse_eq_ok_iff {pattern : Text} {g : Glob} : parse pattern = .ok g ↔ Spells pattern g := by
  unfold parse
  constructor
  · intro h
    cases hp : parseFrom 0 none pattern with
    | error e => simp [hp, Except.mapError] at h
    | ok g' =>
      rw [hp] at h
      obtain rfl := Except.ok.inj h
      exact continues_of_parseFrom hp
  · intro h
    rw [parseFrom_of_spells h]
    rfl

end Glob
end ResourceFinder
