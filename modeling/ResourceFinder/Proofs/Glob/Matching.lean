import ResourceFinder.Proofs.Glob.Expression
import ResourceFinder.Proofs.Glob.Grammar
import ResourceFinder.Proofs.Glob.Language
import ResourceFinder.Proofs.Regex.Language

/-
Matching a name is membership in the language of the pattern.

The tree of a pattern's expression has a node for every item, and a node recognises the language of
its item, so the tree recognises the language of the pattern, whatever the backtracking does.
-/

namespace ResourceFinder
namespace Glob

open Regex
open Computability

/-! ## Nodes and languages -/

theorem accepts_single (negated : Bool) (code : Nat) (c : CodePoint) :
    (Test.set negated [.single code]).accepts flags c = (decide (c.code = code) != negated) := by
  simp [Test.accepts, variants, flags, Member.contains]

theorem accepts_any (c : CodePoint) : Test.any.accepts flags c = true := rfl

theorem recognises_notSlash : Recognises notSlash.run (letters (· ≠ .char '/')) := by
  have hletters : (letters fun c =>
      (Test.set true [.single '/'.toNat]).accepts flags c = true) = letters (· ≠ .char '/') := by
    congr
    funext c
    have hcode : c.code = '/'.toNat ↔ c = .char '/' := CodePoint.code_eq_iff c (.char '/')
    rw [accepts_single, Bool.bne_true, Bool.not_eq_true', decide_eq_false_iff_not, hcode]
  rw [← hletters]
  exact Regex.Node.recognises_one flags _

theorem Atom.recognises_node (a : Atom) : Recognises a.node.run a.language := by
  cases a with
  | literal c =>
    have hlanguage : (literal c).language = letters fun d =>
        (Test.set false [.single c.code]).accepts flags d = true := by
      ext t
      simp only [mem_letters, accepts_single, Bool.bne_false, decide_eq_true_eq,
        CodePoint.code_eq_iff, exists_eq_left]
      exact Iff.rfl
    rw [hlanguage]
    exact Regex.Node.recognises_one flags _
  | anyChar => exact recognises_notSlash
  | anySegment =>
    have hlanguage : anySegment.language = (letters (· ≠ .char '/'))∗ := by
      ext t
      exact mem_kstar_letters.symm
    rw [hlanguage]
    exact Regex.Node.recognises_star recognises_notSlash
  | anything =>
    have hlanguage : anything.language = (letters fun c => Test.any.accepts flags c = true)∗ := by
      ext t
      rw [mem_kstar_letters]
      exact ⟨fun _ c _ => accepts_any c, fun _ => trivial⟩
    rw [hlanguage]
    exact Regex.Node.recognises_star (Regex.Node.recognises_one flags .any)

theorem recognises_atomsNode (as : List Atom) :
    Recognises (atomsNode as).run (as.map Atom.language).prod :=
  Regex.Node.recognises_sequenceOf fun a _ => a.recognises_node

theorem Item.recognises_node {i : Item} (h : i.IsProper) : Recognises i.node.run i.language := by
  cases i with
  | atom a => exact a.recognises_node
  | group alternatives => exact Regex.Node.recognises_eitherOf h fun as _ => recognises_atomsNode as

theorem recognises_node {g : Glob} (h : ∀ i ∈ g, i.IsProper) :
    Recognises (node g).run (language g) :=
  Regex.Node.recognises_sequenceOf fun i hi => Item.recognises_node (h i hi)

/-! ## Patterns -/

theorem Spells.isProper {t : Text} {g : Glob} (h : Spells t g) : ∀ i ∈ g, i.IsProper := by
  induction h with
  | atoms h =>
    intro i hi
    obtain ⟨a, -, rfl⟩ := List.mem_map.1 hi
    trivial
  | @group t as texts alternatives rest g h hgroup hne _ ih =>
    intro i hi
    rcases List.mem_append.1 hi with hi | hi
    · obtain ⟨a, -, rfl⟩ := List.mem_map.1 hi
      trivial
    · rcases List.mem_cons.1 hi with rfl | hi
      · show alternatives ≠ []
        intro hnil
        subst hnil
        exact hne (List.forall₂_nil_right_iff.1 hgroup)
      · exact ih i hi

theorem compile_of_spells {pattern : Text} {g : Glob} (h : Spells pattern g) :
    compile pattern = .ok ⟨pattern, node g⟩ := by
  have hregex : Regex.parse { dotAll := true } (regexText g) = .ok (node g) :=
    parse_regexText h.isProper
  simp only [compile, toRegexText, parse_eq_ok_iff.2 h]
  show (Except.mapError _ (Regex.parse _ (regexText g)) >>= _) = _
  rw [hregex]
  rfl

/-- Every pattern of the grammar gives a matcher, and the matcher accepts the names of the pattern's
language. -/
theorem accepts_iff_mem_language {pattern : Text} {g : Glob} (h : Spells pattern g) :
    ∃ m, compile pattern = .ok m ∧ ∀ name, m.accepts name = true ↔ name ∈ language g := by
  refine ⟨⟨pattern, node g⟩, compile_of_spells h, fun name => ?_⟩
  exact fullMatch_iff (recognises_node h.isProper) name

/-- A group with an empty alternative, a dot that stands for itself, and a star. -/
theorem accepts_iff_mem_language_group :
    Spells "\x7ba,\x7d.*" [.group [[.literal (.char 'a')], []], .atom (.literal (.char '.')),
      .atom .anySegment] ∧
    ∃ m, compile "\x7ba,\x7d.*" = .ok m ∧ ∀ name, m.accepts name = true ↔
      name ∈ language [.group [[.literal (.char 'a')], []], .atom (.literal (.char '.')),
        .atom .anySegment] := by
  have hspells : Spells "\x7ba,\x7d.*" [.group [[.literal (.char 'a')], []],
      .atom (.literal (.char '.')), .atom .anySegment] := parse_eq_ok_iff.1 (by decide)
  exact ⟨hspells, accepts_iff_mem_language hspells⟩

end Glob
end ResourceFinder
