import ResourceFinder.Glob.Basic
import Mathlib.Computability.Language

/-
The names that a glob pattern denotes, said on its items.
-/

namespace ResourceFinder
namespace Glob

/-- The texts that an atom stands for: the character itself, one character that is no slash, any
run of these, or any run at all. -/
def Atom.language : Atom → Language CodePoint
  | literal c => {[c]}
  | anyChar => {t | ∃ c, c ≠ .char '/' ∧ t = [c]}
  | anySegment => {t | ∀ c ∈ t, c ≠ .char '/'}
  | anything => ⊤

/-- The texts that an item stands for; those of a group are the texts of its alternatives. -/
def Item.language : Item → Language CodePoint
  | atom a => a.language
  | group alternatives => {t | ∃ as ∈ alternatives, t ∈ (as.map Atom.language).prod}

/-- The names that a pattern denotes: texts of its items, one after the other. -/
def language (g : Glob) : Language CodePoint := (g.map Item.language).prod

end Glob
end ResourceFinder
