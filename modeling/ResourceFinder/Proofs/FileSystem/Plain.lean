import ResourceFinder.Proofs.FileSystem.Folder
import ResourceFinder.Proofs.FileSystem.Lookup
import ResourceFinder.Proofs.Path.Spelling

/-
Directories without links.

Below a directory that holds no links, names lead where they say, and what is found there is what is
at their place in the tree.
-/

namespace ResourceFinder

/-- A name that a directory can list: a segment that leads into it. -/
structure Path.IsName (s : Text) : Prop extends IsSegment s where
  ne_up : s ≠ up

namespace FileSystem

variable {fs : FileSystem}

theorem follow_name {links : Nat} {place : Place} {entries : List (Text × Node)} {name : Text}
    {n : Node} (hnode : fs.nodeAt? place = some (.directory entries)) (hname : Path.IsName name)
    (hn : entries.lookup name = some n) (hlink : ∀ target, n ≠ .link target) (way : List Text) :
    fs.follow links place (name :: way) = fs.follow links (place ++ [name]) way :=
  follow_inside hnode hname.ne_here hname.ne_up hn hlink way

theorem follow_missing {links : Nat} {place : Place} {entries : List (Text × Node)} {name : Text}
    (hnode : fs.nodeAt? place = some (.directory entries)) (hname : Path.IsName name)
    (hn : entries.lookup name = none) (way : List Text) :
    fs.follow links place (name :: way) = .error (absence name) := by
  rw [follow.eq_2]
  simp only [hnode, hname.ne_here, hname.ne_up, hn, if_false]

theorem nodeAt?_child {place : Place} {entries : List (Text × Node)}
    (h : fs.nodeAt? place = some (.directory entries)) (name : Text) :
    fs.nodeAt? (place ++ [name]) = entries.lookup name := by
  rw [nodeAt?_append, h]
  exact Option.bind_fun_some _

theorem directory_of_child {place : Place} {name : Text} {n : Node}
    (h : fs.nodeAt? (place ++ [name]) = some n) :
    ∃ entries, fs.nodeAt? place = some (.directory entries) ∧ entries.lookup name = some n := by
  rw [nodeAt?_append] at h
  obtain ⟨m, hm, hat⟩ := Option.bind_eq_some_iff.1 h
  cases m with
  | directory entries =>
    exact ⟨entries, hm, (Option.bind_fun_some _).symm.trans hat⟩
  | file content => cases hat
  | link target => cases hat

theorem directory_above {start : Place} {above below : List Text} (hne : below ≠ []) {n : Node}
    (hn : fs.nodeAt? (start ++ (above ++ below)) = some n) :
    ∃ entries, fs.nodeAt? (start ++ above) = some (.directory entries) := by
  rw [← List.append_assoc, nodeAt?_append] at hn
  obtain ⟨m, hm, hat⟩ := Option.bind_eq_some_iff.1 hn
  obtain ⟨name, below, rfl⟩ := List.exists_cons_of_ne_nil hne
  cases m with
  | directory entries => exact ⟨entries, hm⟩
  | file content => cases hat
  | link target => cases hat

/-- Names lead to the place that they spell where there is no link on the way. -/
theorem follow_plain {links : Nat} {place : Place} {way : List Text} {n : Node}
    (hn : fs.nodeAt? (place ++ way) = some n) (hnames : ∀ name ∈ way, Path.IsName name)
    (hlinks : ∀ above below target, way = above ++ below →
      fs.nodeAt? (place ++ above) ≠ some (.link target)) (rest : List Text) :
    fs.follow links place (way ++ rest) = fs.follow links (place ++ way) rest := by
  induction way generalizing place with
  | nil => rw [List.append_nil, List.nil_append]
  | cons name way ih =>
    obtain ⟨hname, hnames⟩ := List.forall_mem_cons.1 hnames
    have hplace : place ++ name :: way = place ++ [name] ++ way := by simp
    rw [hplace] at hn ⊢
    obtain ⟨m, hm, -⟩ := Option.bind_eq_some_iff.1 ((fs.nodeAt?_append _ way).symm.trans hn)
    obtain ⟨entries, hdirectory, hlookup⟩ := directory_of_child hm
    have hplain : ∀ target, m ≠ .link target := by
      rintro target rfl
      exact hlinks [name] way target rfl hm
    rw [List.cons_append, follow_name hdirectory hname hlookup hplain]
    refine ih hn hnames fun above below target hway => ?_
    have hbelow := hlinks (name :: above) below target (by rw [hway, List.cons_append])
    rwa [List.append_assoc]

/-- The directory at a place, which a path leads to, holds no links, and its names are ones that a
directory can list. -/
structure IsPlain (fs : FileSystem) (base : Path) (start : Place) : Prop where
  located : fs.locate base = .ok start
  directory : ∃ entries, fs.nodeAt? start = some (.directory entries)
  noLinks : ∀ way target, fs.nodeAt? (start ++ way) ≠ some (.link target)
  names : ∀ way n, fs.nodeAt? (start ++ way) = some n → ∀ name ∈ way, Path.IsName name

namespace IsPlain

variable {base : Path} {start : Place} (h : fs.IsPlain base start)
include h

theorem follow_below {links : Nat} {way : List Text} {n : Node}
    (hn : fs.nodeAt? (start ++ way) = some n) (rest : List Text) :
    fs.follow links start (way ++ rest) = fs.follow links (start ++ way) rest :=
  follow_plain hn (h.names way n hn) (fun above _ target _ => h.noLinks above target) rest

theorem locate_below {way : List Text} {n : Node} (hn : fs.nodeAt? (start ++ way) = some n)
    (rest : List Text) :
    ∃ links, fs.locate (base.below (way ++ rest)) = fs.follow links (start ++ way) rest := by
  obtain ⟨links, hbase⟩ := follow_append_ok h.located
  exact ⟨links, (hbase (way ++ rest)).trans (h.follow_below hn rest)⟩

theorem find_below {way : List Text} {n : Node} (hn : fs.nodeAt? (start ++ way) = some n) :
    fs.find (base.below way) = .ok n := by
  obtain ⟨links, hlocate⟩ := h.locate_below hn []
  rw [List.append_nil, follow.eq_1] at hlocate
  unfold find
  simp only [hlocate, bind, Except.bind, hn]

theorem find_missing {dirs : List Text} {entries : List (Text × Node)}
    (hdirectory : fs.nodeAt? (start ++ dirs) = some (.directory entries)) {name : Text}
    (hname : Path.IsName name) (hn : entries.lookup name = none) :
    fs.find (base.below (dirs ++ [name])) = .error (absence name) := by
  obtain ⟨links, hlocate⟩ := h.locate_below hdirectory [name]
  unfold find
  rw [hlocate, follow_missing hdirectory hname hn]
  rfl

theorem leadsToDirectory_eq {dirs : List Text} {entries : List (Text × Node)}
    (hdirectory : fs.nodeAt? (start ++ dirs) = some (.directory entries)) {name : Text} {n : Node}
    (hn : fs.nodeAt? (start ++ dirs ++ [name]) = some n) :
    fs.leadsToDirectory (start ++ dirs) name = n.isDirectory := by
  have hway : start ++ dirs ++ [name] = start ++ (dirs ++ [name]) := by simp
  have hname : Path.IsName name := h.names (dirs ++ [name]) n (hway ▸ hn) name (by simp)
  have hfollow : fs.follow linkLimit (start ++ dirs) [name] = .ok (start ++ dirs ++ [name]) := by
    have hlookup : entries.lookup name = some n := (nodeAt?_child hdirectory name).symm.trans hn
    have hplain : ∀ target, n ≠ .link target := by
      rintro target rfl
      exact h.noLinks (dirs ++ [name]) target (hway ▸ hn)
    rw [follow_name hdirectory hname hlookup hplain, follow.eq_1]
  rw [leadsToDirectory, hfollow]
  simp only [hn, Option.any_some]

theorem hasDirectory_iff {dirs : List Text} {place : Place} {entries : List (Text × Node)} :
    fs.HasDirectory base dirs place entries ↔
      place = start ++ dirs ∧ fs.nodeAt? (start ++ dirs) = some (.directory entries) := by
  constructor
  · rintro ⟨start', hstart, rfl, hnode⟩
    obtain rfl := Except.ok.inj (h.located.symm.trans hstart)
    exact ⟨rfl, hnode⟩
  · rintro ⟨rfl, hnode⟩
    exact ⟨start, h.located, rfl, hnode⟩

end IsPlain
end FileSystem
end ResourceFinder
