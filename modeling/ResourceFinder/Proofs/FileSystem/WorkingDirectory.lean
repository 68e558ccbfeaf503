import ResourceFinder.FileSystem.Folder
import ResourceFinder.Proofs.FileSystem.Named
import ResourceFinder.Proofs.Path.Spelling
import ResourceFinder.Root.Read

/-
What does not depend on the working directory.

Only a relative path starts there.  Whatever is asked of an absolute path, and of what it leads to,
has one answer from everywhere, and so has the reading of what is below an absolute root.
-/

namespace ResourceFinder
namespace FileSystem

/-- The same files seen from a working directory. -/
def seenFrom (fs : FileSystem) (place : Place) : FileSystem := { fs with current := place }

variable (fs : FileSystem) (place : Place)

@[simp]
theorem nodeAt?_seenFrom (p : Place) : (fs.seenFrom place).nodeAt? p = fs.nodeAt? p := rfl

@[simp]
theorem follow_seenFrom (links : Nat) (p : Place) (way : List Text) :
    (fs.seenFrom place).follow links p way = fs.follow links p way := by
  induction links, p, way using follow.induct fs with
  | case1 links p => rw [follow.eq_1, follow.eq_1]
  | case2 links p rest entries hnode ih =>
    have hseen : (fs.seenFrom place).nodeAt? p = some (.directory entries) := hnode
    rw [follow_here hseen, follow_here hnode, ih]
  | case3 links p rest entries hnode hup ih =>
    have hseen : (fs.seenFrom place).nodeAt? p = some (.directory entries) := hnode
    rw [follow_up hseen, follow_up hnode, ih]
  | case4 links p name rest entries hnode hhere hup hlookup =>
    rw [follow.eq_2, follow.eq_2]
    simp only [nodeAt?_seenFrom, hnode, hhere, hup, hlookup, if_false]
  | case5 p name rest entries hnode hhere hup target hlookup =>
    rw [follow.eq_2, follow.eq_2]
    simp only [nodeAt?_seenFrom, hnode, hhere, hup, hlookup, if_false]
  | case6 p name rest entries hnode hhere hup target hlookup links ih =>
    have hseen : (fs.seenFrom place).nodeAt? p = some (.directory entries) := hnode
    rw [follow_link hseen hhere hup hlookup,
      follow_link hnode hhere hup hlookup, ih]
  | case7 links p name rest entries hnode hhere hup n hlink hlookup ih =>
    have hseen : (fs.seenFrom place).nodeAt? p = some (.directory entries) := hnode
    rw [follow_inside hseen hhere hup hlookup hlink,
      follow_inside hnode hhere hup hlookup hlink, ih]
  | case8 links p name rest n hdirectory hnode =>
    rw [follow.eq_2, follow.eq_2]
    simp only [nodeAt?_seenFrom, hnode]
  | case9 links p name rest hnode =>
    rw [follow.eq_2, follow.eq_2]
    simp only [nodeAt?_seenFrom, hnode]

@[simp]
theorem resolveFrom_seenFrom (fuel : Nat) (active : List Standing) (s : Standing)
    (way : List Text) :
    (fs.seenFrom place).resolveFrom fuel active s way = fs.resolveFrom fuel active s way := by
  have hlinkAt (p : Place) : (fs.seenFrom place).linkAt? p = fs.linkAt? p := rfl
  induction fuel, active, s, way using resolveFrom.induct fs with
  | case1 fuel active s => rw [resolveFrom, resolveFrom]
  | case2 fuel active s name rest hhere ih =>
    rw [resolveFrom, resolveFrom, if_pos hhere, if_pos hhere, ih]
  | case3 fuel active s rest hhere ih =>
    rw [resolveFrom, resolveFrom, if_neg hhere, if_neg hhere, if_pos rfl, if_pos rfl, ih]
  | case4 fuel active s name rest hhere hup next hlink ih =>
    rw [resolveFrom, resolveFrom, if_neg hhere, if_neg hhere, if_neg hup, if_neg hup]
    simp only [hlinkAt, hlink, next]
    exact ih
  | case5 fuel active s name rest hhere hup next target hlink hactive =>
    rw [resolveFrom, resolveFrom, if_neg hhere, if_neg hhere, if_neg hup, if_neg hup]
    simp only [hlinkAt, hlink, hactive, next, if_true]
  | case6 active s name rest hhere hup next target hlink hactive =>
    rw [resolveFrom, resolveFrom, if_neg hhere, if_neg hhere, if_neg hup, if_neg hup]
    simp only [hlinkAt, hlink, hactive, next, Bool.false_eq_true, if_false]
  | case7 active s name rest hhere hup next target hlink hactive fuel p herror ih =>
    rw [resolveFrom, resolveFrom, if_neg hhere, if_neg hhere, if_neg hup, if_neg hup]
    simp only [hlinkAt, hlink, hactive, next, ih.trans herror, herror, Bool.false_eq_true, if_false]
  | case8 active s name rest hhere hup next target hlink hactive fuel s' hok ih ih' =>
    rw [resolveFrom, resolveFrom, if_neg hhere, if_neg hhere, if_neg hup, if_neg hup]
    simp only [hlinkAt, hlink, hactive, next, ih.trans hok, hok, Bool.false_eq_true, if_false]
    exact ih'

theorem isAbsolute_resolve (p : Path) : (fs.resolve p).isAbsolute = true := by
  rw [Path.isAbsolute, anchor_resolve]
  rfl

section

variable {fs place} {p : Path} (h : p.isAbsolute = true)
include h

theorem locate_seenFrom : (fs.seenFrom place).locate p = fs.locate p := by
  rw [locate, locate, follow_seenFrom, startOf, startOf, if_pos h, if_pos h]

theorem find_seenFrom : (fs.seenFrom place).find p = fs.find p := by
  rw [find, find, locate_seenFrom h]
  rfl

theorem test_seenFrom (r : Refusals) (kind : Node → Bool) :
    (fs.seenFrom place).test r kind p = fs.test r kind p := by
  simp only [test, examine, find_seenFrom h]

theorem open?_seenFrom (r : Refusals) : (fs.seenFrom place).open? r p = fs.open? r p := by
  rw [open?, open?, find_seenFrom h]

theorem isFile_seenFrom : (fs.seenFrom place).isFile p = fs.isFile p := by
  rw [isFile, isFile, find_seenFrom h]

theorem size?_seenFrom : (fs.seenFrom place).size? p = fs.size? p := by
  rw [size?, size?, find_seenFrom h]

theorem read_seenFrom : (fs.seenFrom place).read p = fs.read p := by
  rw [read, read, find_seenFrom h]

theorem readText_seenFrom : (fs.seenFrom place).readText p = fs.readText p := by
  rw [readText, readText, read_seenFrom h]

theorem resolve_seenFrom : (fs.seenFrom place).resolve p = fs.resolve p := by
  simp only [resolve, resolveFrom_seenFrom, startOf, h, if_true]
  rfl

theorem realPath_seenFrom : (fs.seenFrom place).realPath p = fs.realPath p := by
  simp only [realPath, resolve_seenFrom h, locate_seenFrom (isAbsolute_resolve fs p)]

end

/-! ## Folders -/

@[simp]
theorem fileNames_seenFrom (p : Place) (entries : List (Text × Node)) :
    (fs.seenFrom place).fileNames p entries = fs.fileNames p entries := by
  simp only [fileNames, leadsToDirectory, follow_seenFrom, nodeAt?_seenFrom]

mutual

theorem folderOf_seenFrom (p : Place) :
    (n : Node) → (fs.seenFrom place).folderOf p n = fs.folderOf p n
  | .file _ => rfl
  | .link _ => rfl
  | .directory entries => by
    rw [folderOf, folderOf, fileNames_seenFrom, foldersOf_seenFrom p entries]

theorem foldersOf_seenFrom (p : Place) :
    (entries : List (Text × Node)) →
      (fs.seenFrom place).foldersOf p entries = fs.foldersOf p entries
  | [] => rfl
  | (name, .directory below) :: rest => by
    rw [foldersOf, foldersOf, folderOf_seenFrom (p ++ [name]) (.directory below),
      foldersOf_seenFrom p rest]
  | (_, .file _) :: rest => by
    rw [foldersOf, foldersOf, foldersOf_seenFrom p rest] <;> nofun
  | (_, .link _) :: rest => by
    rw [foldersOf, foldersOf, foldersOf_seenFrom p rest] <;> nofun

end

variable {fs place}

theorem folder_seenFrom {p : Path} (h : p.isAbsolute = true) :
    (fs.seenFrom place).folder p = fs.folder p := by
  have hfolderOf (q : Place) : (fs.seenFrom place).folderOf q = fs.folderOf q :=
    funext (folderOf_seenFrom fs place q)
  simp only [folder, locate_seenFrom h, nodeAt?_seenFrom, hfolderOf]

end FileSystem

/-! ## Roots and locations -/

section

variable {fs : FileSystem} {place : Place}

theorem archiveEntries_seenFrom {p : Path} (h : p.isAbsolute = true) :
    archiveEntries (fs.seenFrom place) p = archiveEntries fs p := by
  rw [archiveEntries, archiveEntries, FileSystem.read_seenFrom h]

namespace Root

variable {shown : Text} (h : (Path.ofText shown).isAbsolute = true)
include h

theorem ofDirectory_seenFrom : ofDirectory (fs.seenFrom place) shown = ofDirectory fs shown := by
  rw [ofDirectory, ofDirectory, FileSystem.test_seenFrom h, FileSystem.resolve_seenFrom h]

theorem ofArchive_seenFrom : ofArchive (fs.seenFrom place) shown = ofArchive fs shown := by
  rw [ofArchive, ofArchive, FileSystem.test_seenFrom h, FileSystem.open?_seenFrom h,
    FileSystem.resolve_seenFrom h]

/-- A path that is absolute is the same root. -/
theorem ofPath_seenFrom : ofPath (fs.seenFrom place) shown = ofPath fs shown := by
  have htext := Path.isAbsolute_ofText_text h
  rw [ofPath, ofPath, FileSystem.test_seenFrom h, FileSystem.test_seenFrom h,
    ofDirectory_seenFrom htext, ofArchive_seenFrom htext]

end Root

namespace Location

variable {l : Location} (h : l.root.path.isAbsolute = true)
include h

theorem read_seenFrom : l.read (fs.seenFrom place) = l.read fs := by
  have hpath : l.path.isAbsolute = true := Path.isAbsolute_join h
  rw [read, read, FileSystem.read_seenFrom hpath, readEntry, readEntry, archiveEntries_seenFrom h]

theorem readText_seenFrom (encoding : Text) :
    l.readText (fs.seenFrom place) encoding = l.readText fs encoding := by
  rw [readText, readText, read_seenFrom h]

end Location
end
end ResourceFinder
