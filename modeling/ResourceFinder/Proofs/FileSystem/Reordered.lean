import Mathlib.Algebra.BigOperators.Group.List.Basic
import Mathlib.Algebra.GroupWithZero.Nat
import ResourceFinder.FileSystem.RealPath
import ResourceFinder.FileSystem.TextFile
import ResourceFinder.Proofs.FileSystem.Folder
import ResourceFinder.Root.Read

/-
File systems that differ in nothing but the order in which their directories list what is in them.

Whatever is looked up by its name is the same in both: a path leads to the same place, and what is
there is the same file or a directory of the same entries.
-/

namespace ResourceFinder

section

variable {α β : Type} {r : α → β → Prop} {x : Option α} {y : Option β}

theorem exists_of_rel (h : Option.Rel r x y) {a : α} (hx : x = some a) :
    ∃ b, y = some b ∧ r a b := by
  cases h with
  | none => cases hx
  | some h => exact ⟨_, rfl, Option.some.inj hx ▸ h⟩

theorem none_of_rel (h : Option.Rel r x y) (hx : x = none) : y = none := by
  cases h with
  | none => rfl
  | some h => cases hx

theorem rel_bind {γ δ : Type} {q : γ → δ → Prop} {f : α → Option γ} {g : β → Option δ}
    (h : Option.Rel r x y) (hfg : ∀ {a b}, r a b → Option.Rel q (f a) (g b)) :
    Option.Rel q (x.bind f) (y.bind g) := by
  cases h with
  | none => exact .none
  | some h => exact hfg h

end

theorem Node.isTree_of_entries {entries : List (Text × Node)} (hnames : (entries.map (·.1)).Nodup)
    (hslash : ∀ e ∈ entries, .char '/' ∉ e.1) (htrees : ∀ e ∈ entries, e.2.isTree = true) :
    (Node.directory entries).isTree = true := by
  have hall : areTrees entries = true := by
    clear hnames hslash
    induction entries with
    | nil => rfl
    | cons e entries ih =>
      obtain ⟨he, hentries⟩ := List.forall_mem_cons.1 htrees
      rw [areTrees, he, ih hentries]
      rfl
  rw [isTree, Bool.and_eq_true, Bool.and_eq_true, decide_eq_true_eq, List.all_eq_true]
  exact ⟨⟨hnames, fun e he => by simpa using hslash e he⟩, hall⟩

theorem FileSystem.linkCountAll_eq (entries : List (Text × Node)) :
    linkCountAll entries = (entries.map (linkCount ·.2)).sum := by
  induction entries with
  | nil => rfl
  | cons e entries ih => rw [linkCountAll, List.map_cons, List.sum_cons, ih]

/-- The same file or link, or directories with the same names in any order, each of which stands for
such nodes in turn. -/
inductive Node.Reordered : Node → Node → Prop where
  | file (content : Bytes) : Reordered (.file content) (.file content)
  | link (target : Text) : Reordered (.link target) (.link target)
  | directory {entries entries' : List (Text × Node)}
      (names : (entries.map (·.1)).Perm (entries'.map (·.1)))
      (below : ∀ name n n', (name, n) ∈ entries → (name, n') ∈ entries' → Reordered n n') :
      Reordered (.directory entries) (.directory entries')

namespace Node.Reordered

variable {n n' : Node} {entries entries' : List (Text × Node)}

theorem symm (h : Reordered n n') : Reordered n' n := by
  induction h with
  | file content => exact .file content
  | link target => exact .link target
  | directory names _ ih => exact .directory names.symm fun name n' n hn' hn => ih name n n' hn hn'

theorem refl {m : Node} (h : m.isTree = true) : Reordered m m := by
  match m with
  | .file content => exact .file content
  | .link target => exact .link target
  | .directory entries =>
    obtain ⟨hnodup, -, htrees⟩ := Node.isTree_directory h
    refine .directory (.refl _) fun name n n' hn hn' => ?_
    obtain rfl : n = n' :=
      Option.some.inj ((lookup_of_mem hnodup hn).symm.trans (lookup_of_mem hnodup hn'))
    have hsize := List.sizeOf_lt_of_mem hn
    exact refl (htrees _ hn)
termination_by sizeOf m
decreasing_by
  simp at hsize ⊢
  omega

/-- Listing the entries of one directory in another order. -/
theorem of_perm (h : (Node.directory entries).isTree = true) (hperm : entries.Perm entries') :
    Reordered (.directory entries) (.directory entries') := by
  cases refl h with
  | directory _ below =>
    exact .directory (hperm.map _) fun name n n' hn hn' =>
      below name n n' hn (hperm.mem_iff.2 hn')

theorem isFile_eq (h : Reordered n n') : n'.isFile = n.isFile := by
  cases h <;> rfl

theorem isDirectory_eq (h : Reordered n n') : n'.isDirectory = n.isDirectory := by
  cases h <;> rfl

/-- An entry of one directory is one of the other. -/
theorem entry (h : Reordered (.directory entries) (.directory entries')) {name : Text}
    (hn : (name, n) ∈ entries) : ∃ n', (name, n') ∈ entries' ∧ Reordered n n' := by
  cases h with
  | directory names below =>
    have hname : name ∈ entries'.map (·.1) := names.mem_iff.1 (List.mem_map.2 ⟨_, hn, rfl⟩)
    obtain ⟨⟨name', n'⟩, hn', rfl⟩ := List.mem_map.1 hname
    exact ⟨n', hn', below _ _ _ hn hn'⟩

theorem mem_names (h : Reordered (.directory entries) (.directory entries')) {name : Text} :
    name ∈ entries.map (·.1) ↔ name ∈ entries'.map (·.1) := by
  cases h with
  | directory names below => exact names.mem_iff

theorem mem_directory (h : Reordered (.directory entries) (.directory entries')) {name : Text} :
    (∃ inside, (name, Node.directory inside) ∈ entries) ↔
      ∃ inside, (name, Node.directory inside) ∈ entries' := by
  constructor
  · rintro ⟨inside, hinside⟩
    obtain ⟨n', hn', hbelow⟩ := h.entry hinside
    cases hbelow
    exact ⟨_, hn'⟩
  · rintro ⟨inside, hinside⟩
    obtain ⟨n, hn, hbelow⟩ := h.symm.entry hinside
    cases hbelow
    exact ⟨_, hn⟩

theorem lookup (h : Reordered (.directory entries) (.directory entries')) (name : Text) :
    Option.Rel Reordered (entries.lookup name) (entries'.lookup name) := by
  cases hn : entries.lookup name with
  | some n =>
    cases hn' : entries'.lookup name with
    | some n' =>
      cases h with
      | directory names below => exact .some (below _ _ _ (mem_of_lookup hn) (mem_of_lookup hn'))
    | none =>
      obtain ⟨n', hmem, -⟩ := h.entry (mem_of_lookup hn)
      simpa using List.lookup_eq_none_iff.1 hn' _ hmem
  | none =>
    cases hn' : entries'.lookup name with
    | none => exact .none
    | some n' =>
      obtain ⟨n, hmem, -⟩ := h.symm.entry (mem_of_lookup hn')
      simpa using List.lookup_eq_none_iff.1 hn _ hmem

theorem at? (h : Reordered n n') (place : Place) :
    Option.Rel Reordered (n.at? place) (n'.at? place) := by
  induction place generalizing n n' with
  | nil => exact .some h
  | cons name place ih =>
    cases h with
    | file content => exact .none
    | link target => exact .none
    | directory names below =>
      have hentry := lookup (.directory names below) name
      rw [Node.at?, Node.at?, Node.entry?, Node.entry?]
      exact rel_bind hentry fun h => ih h

/-- The order of the entries does not make a tree. -/
theorem isTree (h : Reordered n n') (htree : n.isTree = true) : n'.isTree = true := by
  induction h with
  | file content => rfl
  | link target => rfl
  | @directory entries entries' names below ih =>
    obtain ⟨hnodup, hslash, htrees⟩ := Node.isTree_directory htree
    have hentry : ∀ e' ∈ entries', ∃ e ∈ entries, e.1 = e'.1 ∧ e'.2.isTree = true := by
      rintro ⟨name, n'⟩ hn'
      obtain ⟨n, hn, -⟩ := (directory names below).symm.entry hn'
      exact ⟨_, hn, rfl, ih name n n' hn hn' (htrees _ hn)⟩
    refine Node.isTree_of_entries (names.nodup_iff.1 hnodup) (fun e' he' => ?_) fun e' he' => ?_
    · obtain ⟨e, he, hname, -⟩ := hentry e' he'
      exact hname ▸ hslash e he
    · obtain ⟨-, -, -, h⟩ := hentry e' he'
      exact h

theorem linkCount_eq (h : Reordered n n') (htree : n.isTree = true) :
    FileSystem.linkCount n' = FileSystem.linkCount n := by
  induction h with
  | file content => rfl
  | link target => rfl
  | @directory entries entries' names below ih =>
    obtain ⟨hnodup, -, htrees⟩ := Node.isTree_directory htree
    -- The count by name, which the order of the names cannot change.
    let count (name : Text) : Nat := ((entries.lookup name).map FileSystem.linkCount).getD 0
    have hcount : ∀ {e}, e ∈ entries → count e.1 = FileSystem.linkCount e.2 := by
      intro e he
      show ((entries.lookup e.1).map FileSystem.linkCount).getD 0 = _
      rw [lookup_of_mem hnodup he]
      rfl
    have hentries : entries.map (FileSystem.linkCount ·.2) = (entries.map (·.1)).map count := by
      rw [List.map_map]
      exact List.map_congr_left fun e he => (hcount he).symm
    have hentries' : entries'.map (FileSystem.linkCount ·.2) = (entries'.map (·.1)).map count := by
      rw [List.map_map]
      refine List.map_congr_left fun ⟨name, n'⟩ hn' => ?_
      obtain ⟨n, hn, -⟩ := (directory names below).symm.entry hn'
      exact (ih name n n' hn hn' (htrees _ hn)).trans (hcount hn).symm
    rw [FileSystem.linkCount, FileSystem.linkCount, FileSystem.linkCountAll_eq,
      FileSystem.linkCountAll_eq, hentries, hentries']
    exact ((names.map count).sum_eq).symm

end Node.Reordered

/-- The same entries in any order, seen from the same working directory. -/
structure FileSystem.Reordered (fs fs' : FileSystem) : Prop where
  root : fs.root.Reordered fs'.root
  current : fs'.current = fs.current

namespace FileSystem.Reordered

variable {fs fs' : FileSystem}

theorem symm (h : fs.Reordered fs') : fs'.Reordered fs := ⟨h.root.symm, h.current.symm⟩

theorem nodeAt? (h : fs.Reordered fs') (place : Place) :
    Option.Rel Node.Reordered (fs.nodeAt? place) (fs'.nodeAt? place) :=
  h.root.at? place

theorem directoryAt (h : fs.Reordered fs') {place : Place} {entries : List (Text × Node)}
    (hn : fs.nodeAt? place = some (.directory entries)) :
    ∃ entries', fs'.nodeAt? place = some (.directory entries') ∧
      Node.Reordered (.directory entries) (.directory entries') := by
  obtain ⟨n', hn', hreordered⟩ := exists_of_rel (h.nodeAt? place) hn
  cases hreordered with
  | directory names below => exact ⟨_, hn', .directory names below⟩

/-- Links are followed by their names. -/
theorem follow_eq (h : fs.Reordered fs') (links : Nat) (place : Place) (way : List Text) :
    fs'.follow links place way = fs.follow links place way := by
  induction links, place, way using follow.induct fs with
  | case1 links place => rw [follow.eq_1, follow.eq_1]
  | case2 links place rest entries hnode ih =>
    obtain ⟨entries', hnode', -⟩ := h.directoryAt hnode
    rw [follow.eq_2, follow.eq_2]
    simp only [hnode, hnode', if_true]
    exact ih
  | case3 links place rest entries hnode hup ih =>
    obtain ⟨entries', hnode', -⟩ := h.directoryAt hnode
    rw [follow.eq_2, follow.eq_2]
    simp only [hnode, hnode', hup, if_true, if_false]
    exact ih
  | case4 links place name rest entries hnode hhere hup hlookup =>
    obtain ⟨entries', hnode', hentries⟩ := h.directoryAt hnode
    rw [follow.eq_2, follow.eq_2]
    simp only [hnode, hnode', hhere, hup, hlookup, none_of_rel (hentries.lookup name) hlookup,
      if_false]
  | case5 place name rest entries hnode hhere hup target hlookup =>
    obtain ⟨entries', hnode', hentries⟩ := h.directoryAt hnode
    obtain ⟨_, hlookup', hlink⟩ := exists_of_rel (hentries.lookup name) hlookup
    cases hlink
    rw [follow.eq_2, follow.eq_2]
    simp only [hnode, hnode', hhere, hup, hlookup, hlookup', if_false]
  | case6 place name rest entries hnode hhere hup target hlookup links ih =>
    obtain ⟨entries', hnode', hentries⟩ := h.directoryAt hnode
    obtain ⟨_, hlookup', hlink⟩ := exists_of_rel (hentries.lookup name) hlookup
    cases hlink
    rw [follow.eq_2, follow.eq_2]
    simp only [hnode, hnode', hhere, hup, hlookup, hlookup', if_false]
    exact ih
  | case7 links place name rest entries hnode hhere hup n hlink hlookup ih =>
    obtain ⟨entries', hnode', hentries⟩ := h.directoryAt hnode
    obtain ⟨n', hlookup', hn⟩ := exists_of_rel (hentries.lookup name) hlookup
    rw [follow.eq_2, follow.eq_2]
    cases hn with
    | link target => exact absurd rfl (hlink target)
    | file content =>
      simp only [hnode, hnode', hhere, hup, hlookup, hlookup', if_false]
      exact ih
    | directory names below =>
      simp only [hnode, hnode', hhere, hup, hlookup, hlookup', if_false]
      exact ih
  | case8 links place name rest n hdirectory hnode =>
    obtain ⟨n', hnode', hn⟩ := exists_of_rel (h.nodeAt? place) hnode
    rw [follow.eq_2, follow.eq_2]
    cases hn with
    | directory names below => exact absurd rfl (hdirectory _)
    | file content => simp only [hnode, hnode']
    | link target => simp only [hnode, hnode']
  | case9 links place name rest hnode =>
    rw [follow.eq_2, follow.eq_2]
    simp only [hnode, none_of_rel (h.nodeAt? place) hnode]

theorem locate_eq (h : fs.Reordered fs') (p : Path) : fs'.locate p = fs.locate p := by
  rw [locate, locate, h.follow_eq, startOf, startOf, h.current]

theorem leadsToDirectory_eq (h : fs.Reordered fs') (place : Place) (name : Text) :
    fs'.leadsToDirectory place name = fs.leadsToDirectory place name := by
  rw [leadsToDirectory, leadsToDirectory, h.follow_eq]
  cases fs.follow linkLimit place [name] with
  | error problem => rfl
  | ok place' =>
    simp only
    cases hn : fs.nodeAt? place' with
    | none => rw [none_of_rel (h.nodeAt? place') hn]
    | some n =>
      obtain ⟨n', hn', hreordered⟩ := exists_of_rel (h.nodeAt? place') hn
      rw [hn']
      exact hreordered.isDirectory_eq

/-- What is found under a path: the same problem, or nodes that are the same up to the order. -/
theorem find_cases (h : fs.Reordered fs') (p : Path) :
    (∃ problem, fs.find p = .error problem ∧ fs'.find p = .error problem) ∨
      ∃ n n', fs.find p = .ok n ∧ fs'.find p = .ok n' ∧ n.Reordered n' := by
  unfold find
  rw [h.locate_eq]
  cases fs.locate p with
  | error problem => exact .inl ⟨problem, rfl, rfl⟩
  | ok place =>
    simp only [bind, Except.bind]
    cases hn : fs.nodeAt? place with
    | none =>
      rw [none_of_rel (h.nodeAt? place) hn]
      exact .inl ⟨.missing, rfl, rfl⟩
    | some n =>
      obtain ⟨n', hn', hreordered⟩ := exists_of_rel (h.nodeAt? place) hn
      rw [hn']
      exact .inr ⟨n, n', rfl, rfl, hreordered⟩

theorem test_eq (h : fs.Reordered fs') {kind : Node → Bool}
    (hkind : ∀ {n n' : Node}, n.Reordered n' → kind n' = kind n) (r : Refusals) (p : Path) :
    fs'.test r kind p = fs.test r kind p := by
  unfold test examine
  rcases h.find_cases p with ⟨problem, hp, hp'⟩ | ⟨n, n', hn, hn', hreordered⟩
  · rw [hp, hp']
  · rw [hn, hn']
    cases p.octets? with
    | none => rfl
    | some octets =>
      cases r.examining p with
      | some problem => rfl
      | none =>
        by_cases hlong : pathLimit ≤ octets.length
        · simp only [if_pos hlong]
        · simp only [if_neg hlong, hkind hreordered]

theorem open?_eq (h : fs.Reordered fs') (r : Refusals) (p : Path) :
    fs'.open? r p = fs.open? r p := by
  unfold open?
  rcases h.find_cases p with ⟨problem, hp, hp'⟩ | ⟨n, n', hn, hn', hreordered⟩
  · rw [hp, hp']
  · rw [hn, hn']
    cases r.opening p <;> cases hreordered <;> rfl

theorem isFile_eq (h : fs.Reordered fs') (p : Path) : fs'.isFile p = fs.isFile p := by
  unfold isFile
  rcases h.find_cases p with ⟨problem, hp, hp'⟩ | ⟨n, n', hn, hn', hreordered⟩
  · rw [hp, hp']
  · rw [hn, hn']
    cases hreordered <;> rfl

theorem size?_eq (h : fs.Reordered fs') (p : Path) : fs'.size? p = fs.size? p := by
  unfold size?
  rcases h.find_cases p with ⟨problem, hp, hp'⟩ | ⟨n, n', hn, hn', hreordered⟩
  · rw [hp, hp']
  · rw [hn, hn']
    cases hreordered <;> rfl

theorem read_eq (h : fs.Reordered fs') (p : Path) : fs'.read p = fs.read p := by
  unfold read
  rcases h.find_cases p with ⟨problem, hp, hp'⟩ | ⟨n, n', hn, hn', hreordered⟩
  · rw [hp, hp']
  · rw [hn, hn']
    cases hreordered <;> rfl

theorem readText_eq (h : fs.Reordered fs') (p : Path) : fs'.readText p = fs.readText p := by
  rw [readText, readText, h.read_eq]

theorem linkAt?_eq (h : fs.Reordered fs') (place : Place) :
    fs'.linkAt? place = fs.linkAt? place := by
  unfold linkAt?
  cases hn : fs.nodeAt? place with
  | none => rw [none_of_rel (h.nodeAt? place) hn]
  | some n =>
    obtain ⟨n', hn', hreordered⟩ := exists_of_rel (h.nodeAt? place) hn
    rw [hn']
    cases hreordered <;> rfl

theorem resolveFrom_eq (h : fs.Reordered fs') (fuel : Nat) (active : List Standing) (s : Standing)
    (way : List Text) : fs'.resolveFrom fuel active s way = fs.resolveFrom fuel active s way := by
  induction fuel, active, s, way using resolveFrom.induct fs with
  | case1 fuel active s => rw [resolveFrom, resolveFrom]
  | case2 fuel active s name rest hhere ih =>
    rw [resolveFrom, resolveFrom]
    simp only [hhere, if_true]
    exact ih
  | case3 fuel active s rest hhere ih =>
    rw [resolveFrom, resolveFrom]
    simp only [hhere, if_true]
    exact ih
  | case4 fuel active s name rest hhere hup next hlink ih =>
    rw [resolveFrom, resolveFrom]
    simp only [hhere, hup, h.linkAt?_eq, hlink, next, Bool.false_eq_true, if_false]
    exact ih
  | case5 fuel active s name rest hhere hup next target hlink hactive =>
    rw [resolveFrom, resolveFrom]
    simp only [hhere, hup, h.linkAt?_eq, hlink, hactive, next, Bool.false_eq_true,
      if_true, if_false]
  | case6 active s name rest hhere hup next target hlink hactive =>
    rw [resolveFrom, resolveFrom]
    simp only [hhere, hup, h.linkAt?_eq, hlink, hactive, next, Bool.false_eq_true,
      if_false]
  | case7 active s name rest hhere hup next target hlink hactive fuel place herror ih =>
    rw [resolveFrom, resolveFrom]
    simp only [hhere, hup, h.linkAt?_eq, hlink, hactive, next, herror, ih.trans herror,
      Bool.false_eq_true, if_false]
  | case8 active s name rest hhere hup next target hlink hactive fuel s' hok ih ih' =>
    rw [resolveFrom, resolveFrom]
    simp only [hhere, hup, h.linkAt?_eq, hlink, hactive, next, hok, ih.trans hok,
      Bool.false_eq_true, if_false]
    exact ih'

theorem resolve_eq (h : fs.Reordered fs') (htree : fs.root.isTree = true) (p : Path) :
    fs'.resolve p = fs.resolve p := by
  have hcount : linkCountAll fs'.entries = linkCountAll fs.entries := h.root.linkCount_eq htree
  simp only [resolve, hcount, h.resolveFrom_eq, startOf, h.current]

/-- The directory that names lead to, with the same entries. -/
theorem hasDirectory (h : fs.Reordered fs') {base : Path} {dirs : List Text} {place : Place}
    {entries : List (Text × Node)} (hhas : fs.HasDirectory base dirs place entries) :
    ∃ entries', fs'.HasDirectory base dirs place entries' ∧
      Node.Reordered (.directory entries) (.directory entries') := by
  obtain ⟨start, hstart, hplace, hnode⟩ := hhas
  obtain ⟨entries', hnode', hentries⟩ := h.directoryAt hnode
  exact ⟨entries', ⟨start, (h.locate_eq base).trans hstart, hplace, hnode'⟩, hentries⟩

end FileSystem.Reordered

section

variable {fs fs' : FileSystem}

theorem archiveEntries_eq (h : fs.Reordered fs') (p : Path) :
    archiveEntries fs' p = archiveEntries fs p := by
  rw [archiveEntries, archiveEntries, h.read_eq]

namespace Root

theorem ofDirectory_eq (h : fs.Reordered fs') (htree : fs.root.isTree = true) (shown : Text) :
    ofDirectory fs' shown = ofDirectory fs shown := by
  rw [ofDirectory, ofDirectory, h.test_eq Node.Reordered.isDirectory_eq, h.resolve_eq htree]

theorem ofArchive_eq (h : fs.Reordered fs') (htree : fs.root.isTree = true) (shown : Text) :
    ofArchive fs' shown = ofArchive fs shown := by
  rw [ofArchive, ofArchive, h.test_eq Node.Reordered.isFile_eq, h.open?_eq, h.resolve_eq htree]

/-- A path is the same root. -/
theorem ofPath_eq (h : fs.Reordered fs') (htree : fs.root.isTree = true) (shown : Text) :
    ofPath fs' shown = ofPath fs shown := by
  rw [ofPath, ofPath, h.test_eq Node.Reordered.isDirectory_eq, h.test_eq Node.Reordered.isFile_eq,
    ofDirectory_eq h htree, ofArchive_eq h htree]

end Root
end
end ResourceFinder
