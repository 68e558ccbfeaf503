import ResourceFinder.FileSystem.RealPath
import ResourceFinder.Proofs.FileSystem.Plain

/-
Paths that stay within a directory.

Reading a text as a path drops the segments that lead nowhere, and keeps each pair of dots and the
slash at the start.  So a text that has neither is read as a way down, whatever else is in it.
-/

namespace ResourceFinder

namespace Path

theorem mem_segmentsOf {s t : Text} :
    s ∈ segmentsOf t ↔ s ∈ Text.splitAt '/' t ∧ s ≠ [] ∧ s ≠ here := by
  simp [segmentsOf, List.mem_filter]

theorem up_mem_segmentsOf {t : Text} : up ∈ segmentsOf t ↔ up ∈ Text.splitAt '/' t := by
  have hkept : up ≠ [] ∧ up ≠ here := by decide
  rw [mem_segmentsOf, and_iff_left hkept]

theorem joinText_of_relative {t : Text} (h : (ofText t).isAbsolute = false) (dir : Path) :
    dir.joinText t = dir.below (segmentsOf t) := by
  rw [joinText, join, h]
  rfl

end Path

namespace FileSystem

variable {fs : FileSystem}

theorem prefix_appendPlainly {way : List Text} (h : Path.up ∉ way) (place : Place) :
    place <+: appendPlainly place way := by
  induction way generalizing place with
  | nil => exact List.prefix_refl place
  | cons name way ih =>
    obtain ⟨hname, hway⟩ := not_or.1 (mt List.mem_cons.2 h)
    rw [appendPlainly, List.foldl_cons, if_neg (Ne.symm hname)]
    split
    · exact ih hway place
    · exact (List.prefix_append place [name]).trans (ih hway _)

/-- Without links below a place, only a pair of dots leads out of it. -/
theorem Leads.prefix_of_noLinks {links : Nat} {place p start : Place} {way : List Text}
    (h : fs.Leads links place way p) (hstart : start <+: place) (hup : Path.up ∉ way)
    (hlinks : ∀ below target, fs.nodeAt? (start ++ below) ≠ some (.link target)) : start <+: p := by
  induction h with
  | done links place => exact hstart
  | here _ _ ih => exact ih hstart (mt (List.mem_cons_of_mem _) hup)
  | up => exact absurd List.mem_cons_self hup
  | @link links place p name way entries target hnode _ _ hlookup _ _ =>
    obtain ⟨below, rfl⟩ := hstart
    have hat : fs.nodeAt? (start ++ (below ++ [name])) = some (.link target) := by
      rw [← List.append_assoc, nodeAt?_child hnode, hlookup]
    exact absurd hat (hlinks _ target)
  | inside _ _ _ _ _ _ ih =>
    exact ih (hstart.trans (List.prefix_append _ _)) (mt (List.mem_cons_of_mem _) hup)

end FileSystem

namespace Path

/-- A path that leads to no place outside of a directory: not if it is read by its spelling alone,
and not if it is followed in a file system, unless by way of a link below the directory. -/
structure IsWithin (dir p : Path) : Prop where
  bySpelling (fs : FileSystem) :
    FileSystem.appendPlainly (fs.startOf dir) dir.segments <+:
      FileSystem.appendPlainly (fs.startOf p) p.segments
  followed (fs : FileSystem) (start place : Place) (hstart : fs.locate dir = .ok start)
    (hlinks : ∀ below target, fs.nodeAt? (start ++ below) ≠ some (.link target))
    (hplace : fs.locate p = .ok place) : start <+: place

theorem isWithin_below (dir : Path) {names : List Text} (h : up ∉ names) :
    dir.IsWithin (dir.below names) where
  bySpelling fs := by
    show _ <+: FileSystem.appendPlainly (fs.startOf dir) (dir.segments ++ names)
    rw [FileSystem.appendPlainly, FileSystem.appendPlainly, List.foldl_append]
    exact FileSystem.prefix_appendPlainly h _
  followed fs start place hstart hlinks hplace := by
    obtain ⟨links, hrest⟩ := FileSystem.follow_append_ok hstart
    have hnames : fs.follow links start names = .ok place := (hrest names).symm.trans hplace
    exact (FileSystem.leads_of_follow hnames).prefix_of_noLinks (List.prefix_refl start) h hlinks

/-- A text with no slash at its start and no pair of dots among its segments, joined to a
directory. -/
theorem isWithin_joinText (dir : Path) {t : Text} (hhead : t.head? ≠ some (.char '/'))
    (hup : up ∉ Text.splitAt '/' t) : dir.IsWithin (dir.joinText t) := by
  have hrelative : (ofText t).isAbsolute = false := by
    rw [← Bool.not_eq_true, isAbsolute_ofText]
    exact hhead
  rw [joinText_of_relative hrelative]
  exact isWithin_below dir (mt up_mem_segmentsOf.1 hup)

end Path
end ResourceFinder
