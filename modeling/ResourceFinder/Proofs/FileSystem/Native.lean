import ResourceFinder.Proofs.FileSystem.Named
import ResourceFinder.Proofs.Path.Octets

/-
File systems that tell their names as the texts of octets.

Then whatever leads somewhere is spelt by such texts, and so is what it is resolved to.
-/

namespace ResourceFinder

mutual

/-- The names in a tree, and the pieces of the texts of its links. -/
def Node.names : Node → List Text
  | .file _ => []
  | .link target => Text.splitAt '/' target
  | .directory entries => namesIn entries

def namesIn : List (Text × Node) → List Text
  | [] => []
  | (name, n) :: rest => name :: n.names ++ namesIn rest

end

theorem names_subset_of_mem {entries : List (Text × Node)} {e : Text × Node} (he : e ∈ entries) :
    e.1 ∈ namesIn entries ∧ e.2.names ⊆ namesIn entries := by
  induction entries with
  | nil => cases he
  | cons x entries ih =>
    obtain ⟨name, n⟩ := x
    rw [namesIn]
    rcases List.mem_cons.1 he with rfl | he
    · exact ⟨List.mem_cons_self, fun s hs => List.mem_cons_of_mem _ (List.mem_append_left _ hs)⟩
    · obtain ⟨hname, hnames⟩ := ih he
      exact ⟨List.mem_cons_of_mem _ (List.mem_append_right _ hname),
        fun s hs => List.mem_cons_of_mem _ (List.mem_append_right _ (hnames hs))⟩

theorem Node.names_subset_of_at {n m : Node} {way : Place} (h : n.at? way = some m) :
    m.names ⊆ n.names ∧ way ⊆ n.names := by
  induction way generalizing n with
  | nil =>
    obtain rfl := Option.some.inj h
    exact ⟨List.Subset.refl _, List.nil_subset _⟩
  | cons name way ih =>
    cases n with
    | file content => cases h
    | link target => cases h
    | directory entries =>
      obtain ⟨below, hbelow, hat⟩ := Option.bind_eq_some_iff.1 h
      obtain ⟨hname, hnames⟩ := names_subset_of_mem (mem_of_lookup hbelow)
      obtain ⟨hm, hway⟩ := ih hat
      exact ⟨List.Subset.trans hm hnames,
        List.cons_subset.2 ⟨hname, List.Subset.trans hway hnames⟩⟩

namespace FileSystem

/-- Whether all names in a file system, and those on the way to its working directory, are texts
that their octets stand for. -/
structure IsNative (fs : FileSystem) : Prop where
  names : ∀ s ∈ fs.root.names, Uri.IsNative s
  current : ∀ s ∈ fs.current, Uri.IsNative s

variable {fs : FileSystem}

theorem IsNative.keeps (h : fs.IsNative) : fs.Keeps Uri.IsNative Uri.IsNative where
  here := Uri.isNative_here
  up := Uri.isNative_up
  listed := by
    intro place entries name n hnode hlookup
    have hbelow := (Node.names_subset_of_at hnode).1
    exact h.names name (hbelow (names_subset_of_mem (mem_of_lookup hlookup)).1)
  linked := by
    intro place target hnode piece hpiece
    have hbelow := (Node.names_subset_of_at hnode).1
    exact h.names piece (hbelow hpiece)
  adds := fun hs _ _ _ => hs

/-- What a path that leads somewhere is resolved to is native. -/
theorem IsNative.resolve (h : fs.IsNative) {p : Path} {place : Place}
    (hlocate : fs.locate p = .ok place) : ∀ s ∈ (fs.resolve p).segments, Uri.IsNative s :=
  h.keeps.resolve h.current hlocate

/-- A file system as a system keeps one: no directory lists a name twice, and its names are ones
that entries can have and that octets stand for. -/
structure IsRegular (fs : FileSystem) : Prop where
  tree : fs.root.isTree = true
  named : fs.isNamed = true
  native : fs.IsNative

end FileSystem
end ResourceFinder
