import ResourceFinder.FileSystem.Folder
import ResourceFinder.Proofs.List.Lookup

/-
The directories that a walk can come to.

A walk sees a directory as a folder.  The folders that it reaches from there are the directories
below, links not followed, and the files it sees in each of them are the entries that are no
directories.
-/

namespace ResourceFinder

/-! ## Trees -/

mutual

/-- Whether the entries of every directory of a tree have names of their own, without slashes. -/
def Node.isTree : Node → Bool
  | .directory entries =>
    (entries.map (·.1)).Nodup && entries.all (fun e => !e.1.contains (.char '/')) &&
      areTrees entries
  | _ => true

def areTrees : List (Text × Node) → Bool
  | [] => true
  | (_, n) :: rest => n.isTree && areTrees rest

end

theorem isTree_of_mem {entries : List (Text × Node)} (h : areTrees entries = true)
    {e : Text × Node} (he : e ∈ entries) : e.2.isTree = true := by
  induction entries with
  | nil => cases he
  | cons x entries ih =>
    obtain ⟨name, n⟩ := x
    rw [areTrees, Bool.and_eq_true] at h
    rcases List.mem_cons.1 he with rfl | he
    · exact h.1
    · exact ih h.2 he

theorem Node.isTree_directory {entries : List (Text × Node)}
    (h : (Node.directory entries).isTree = true) :
    (entries.map (·.1)).Nodup ∧ (∀ e ∈ entries, .char '/' ∉ e.1) ∧
      ∀ e ∈ entries, e.2.isTree = true := by
  rw [isTree, Bool.and_eq_true, Bool.and_eq_true, decide_eq_true_eq, List.all_eq_true] at h
  refine ⟨h.1.1, fun e he => ?_, fun e he => isTree_of_mem h.2 he⟩
  simpa using h.1.2 e he

/-- A part of a tree is a tree. -/
theorem Node.isTree_at {n m : Node} (h : n.isTree = true) {way : Place} (hm : n.at? way = some m) :
    m.isTree = true := by
  induction way generalizing n with
  | nil =>
    obtain rfl := Option.some.inj hm
    exact h
  | cons name way ih =>
    cases n with
    | file content => cases hm
    | link target => cases hm
    | directory entries =>
      obtain ⟨below, hbelow, hat⟩ := Option.bind_eq_some_iff.1 hm
      exact ih ((isTree_directory h).2.2 _ (mem_of_lookup hbelow)) hat

theorem Node.slash_not_mem_of_at {n m : Node} (h : n.isTree = true) {way : Place}
    (hm : n.at? way = some m) : ∀ t ∈ way, .char '/' ∉ t := by
  induction way generalizing n with
  | nil => simp
  | cons name way ih =>
    cases n with
    | file content => cases hm
    | link target => cases hm
    | directory entries =>
      obtain ⟨below, hbelow, hat⟩ := Option.bind_eq_some_iff.1 hm
      obtain ⟨-, hslash, htrees⟩ := isTree_directory h
      have hmem : (name, below) ∈ entries := mem_of_lookup hbelow
      exact List.forall_mem_cons.2 ⟨hslash _ hmem, ih (htrees _ hmem) hat⟩

/-! ## Folders -/

section

variable {motive : Folder → Prop}

mutual

/-- Induction over a folder with a hypothesis for each folder in it. -/
theorem Folder.induct
    (mk : ∀ files folders, (∀ x ∈ folders, motive x.2) → motive (.mk files folders)) :
    (folder : Folder) → motive folder
  | .mk files folders => mk files folders (Folder.inductAll mk folders)

theorem Folder.inductAll
    (mk : ∀ files folders, (∀ x ∈ folders, motive x.2) → motive (.mk files folders)) :
    (folders : List (Text × Folder)) → ∀ x ∈ folders, motive x.2
  | [] => by
    intro x hx
    cases hx
  | (name, folder) :: rest => by
    intro x hx
    rcases List.mem_cons.1 hx with rfl | hx
    · exact Folder.induct mk folder
    · exact Folder.inductAll mk rest x hx

end

end

/-- The folders that a walk comes to from one of them, with the names on the way. -/
inductive Folder.Reaches : Folder → List Text → Folder → Prop where
  | here (folder : Folder) : Reaches folder [] folder
  | down {files folders name below way folder} (hname : (name, below) ∈ folders)
      (h : Reaches below way folder) : Reaches (.mk files folders) (name :: way) folder

namespace Folder

theorem reaches_nil {f g : Folder} : f.Reaches [] g ↔ g = f := by
  constructor
  · intro h
    cases h
    rfl
  · rintro rfl
    exact .here g

theorem reaches_cons {f g : Folder} {name : Text} {way : List Text} :
    f.Reaches (name :: way) g ↔ ∃ below, (name, below) ∈ f.folders ∧ below.Reaches way g := by
  constructor
  · intro h
    cases h with
    | down hname h => exact ⟨_, hname, h⟩
  · rintro ⟨below, hname, h⟩
    cases f with
    | mk files folders => exact .down hname h

theorem reaches_empty {g : Folder} {way : List Text} (h : empty.Reaches way g) :
    way = [] ∧ g = empty := by
  cases way with
  | nil => exact ⟨rfl, reaches_nil.1 h⟩
  | cons name way =>
    obtain ⟨below, hname, -⟩ := reaches_cons.1 h
    cases hname

end Folder

theorem Node.directory_of_at {n : Node} {way : Place} {below : List (Text × Node)}
    (h : n.at? way = some (.directory below)) : ∃ entries, n = .directory entries := by
  cases way with
  | nil => exact ⟨below, Option.some.inj h⟩
  | cons name way =>
    cases n with
    | file content => cases h
    | link target => cases h
    | directory entries => exact ⟨entries, rfl⟩

theorem Node.at?_append (n : Node) (way way' : Place) :
    n.at? (way ++ way') = (n.at? way).bind (·.at? way') := by
  induction way generalizing n with
  | nil => rfl
  | cons name way ih =>
    show (n.entry? name).bind (fun m => m.at? (way ++ way')) = _
    rw [at?, Option.bind_assoc]
    congr
    funext m
    exact ih m

namespace FileSystem

variable {fs : FileSystem}

theorem mem_foldersOf {place : Place} {entries : List (Text × Node)} {name : Text}
    {folder : Folder} : (name, folder) ∈ fs.foldersOf place entries ↔
      ∃ below, (name, .directory below) ∈ entries ∧
        folder = fs.folderOf (place ++ [name]) (.directory below) := by
  induction entries with
  | nil => simp [foldersOf]
  | cons x entries ih =>
    obtain ⟨name', n⟩ := x
    cases n with
    | file content => simp [foldersOf, ih]
    | link target => simp [foldersOf, ih]
    | directory below' =>
      rw [foldersOf, List.mem_cons, ih]
      constructor
      · rintro (heq | ⟨below, hbelow, rfl⟩)
        · obtain ⟨rfl, rfl⟩ := Prod.mk.inj heq
          exact ⟨below', List.mem_cons_self, rfl⟩
        · exact ⟨below, List.mem_cons_of_mem _ hbelow, rfl⟩
      · rintro ⟨below, hbelow, rfl⟩
        rcases List.mem_cons.1 hbelow with heq | hbelow
        · obtain ⟨rfl, hnode⟩ := Prod.mk.inj heq
          obtain rfl := Node.directory.inj hnode
          exact Or.inl rfl
        · exact Or.inr ⟨below, hbelow, rfl⟩

theorem map_foldersOf_sublist (fs : FileSystem) (place : Place) (entries : List (Text × Node)) :
    ((fs.foldersOf place entries).map (·.1)).Sublist (entries.map (·.1)) := by
  induction entries with
  | nil => exact .slnil
  | cons x entries ih =>
    obtain ⟨name, n⟩ := x
    cases n with
    | file content => exact ih.cons name
    | link target => exact ih.cons name
    | directory below => exact ih.cons_cons name

theorem mem_folders_folderOf {place : Place} {entries : List (Text × Node)} {x : Text × Folder} :
    x ∈ (fs.folderOf place (.directory entries)).folders ↔ x ∈ fs.foldersOf place entries := by
  rw [folderOf, Folder.folders]
  exact (List.mergeSort_perm _ _).mem_iff

theorem mem_files_folderOf {place : Place} {entries : List (Text × Node)} {name : Text} :
    name ∈ (fs.folderOf place (.directory entries)).files ↔
      name ∈ entries.map (·.1) ∧ fs.leadsToDirectory place name = false := by
  rw [folderOf, Folder.files, (List.mergeSort_perm _ _).mem_iff, fileNames, List.mem_filter]
  simp

theorem nodup_folderOf {place : Place} {entries : List (Text × Node)}
    (h : (entries.map (·.1)).Nodup) :
    (fs.folderOf place (.directory entries)).files.Nodup ∧
      ((fs.folderOf place (.directory entries)).folders.map (·.1)).Nodup := by
  rw [folderOf, Folder.files, Folder.folders]
  constructor
  · rw [(List.mergeSort_perm _ _).nodup_iff]
    exact h.filter _
  · rw [((List.mergeSort_perm _ _).map _).nodup_iff]
    exact h.sublist (map_foldersOf_sublist fs place entries)

/-- The folders that a walk comes to are the directories below, with what it sees of them. -/
theorem reaches_folderOf {place : Place} {entries : List (Text × Node)}
    (htree : (Node.directory entries).isTree = true) {way : List Text} {folder : Folder} :
    (fs.folderOf place (.directory entries)).Reaches way folder ↔
      ∃ below, (Node.directory entries).at? way = some (.directory below) ∧
        folder = fs.folderOf (place ++ way) (.directory below) := by
  induction way generalizing place entries with
  | nil =>
    rw [Folder.reaches_nil, List.append_nil]
    constructor
    · rintro rfl
      exact ⟨entries, rfl, rfl⟩
    · rintro ⟨below, hbelow, rfl⟩
      obtain rfl := Node.directory.inj (Option.some.inj hbelow)
      rfl
  | cons name way ih =>
    obtain ⟨hnodup, -, htrees⟩ := Node.isTree_directory htree
    rw [Folder.reaches_cons]
    have hplace : place ++ name :: way = place ++ [name] ++ way := by simp
    constructor
    · rintro ⟨below, hname, hreaches⟩
      obtain ⟨entries', hmem, rfl⟩ := mem_foldersOf.1 (mem_folders_folderOf.1 hname)
      obtain ⟨below, hat, rfl⟩ := (ih (htrees _ hmem)).1 hreaches
      refine ⟨below, ?_, by rw [hplace]⟩
      show (entries.lookup name).bind _ = _
      rw [lookup_of_mem hnodup hmem]
      exact hat
    · rintro ⟨below, hat, rfl⟩
      obtain ⟨n, hn, hat⟩ := Option.bind_eq_some_iff.1 hat
      obtain ⟨entries', rfl⟩ := Node.directory_of_at hat
      have hmem : (name, Node.directory entries') ∈ entries := mem_of_lookup hn
      refine ⟨_, mem_folders_folderOf.2 (mem_foldersOf.2 ⟨entries', hmem, rfl⟩), ?_⟩
      exact (ih (htrees _ hmem)).2 ⟨below, hat, by rw [hplace]⟩

/-- The directory that names lead to from the one that a path leads to, no links among them: its
place and its entries. -/
def HasDirectory (fs : FileSystem) (base : Path) (dirs : List Text) (place : Place)
    (entries : List (Text × Node)) : Prop :=
  ∃ start, fs.locate base = .ok start ∧ place = start ++ dirs ∧
    fs.nodeAt? place = some (.directory entries)

theorem nodeAt?_append (fs : FileSystem) (place way : Place) :
    fs.nodeAt? (place ++ way) = (fs.nodeAt? place).bind (·.at? way) :=
  fs.root.at?_append place way

theorem HasDirectory.base {base : Path} {dirs : List Text} {place : Place}
    {below : List (Text × Node)} (h : fs.HasDirectory base dirs place below) :
    ∃ start entries, fs.HasDirectory base [] start entries := by
  obtain ⟨start, hstart, rfl, hnode⟩ := h
  rw [nodeAt?_append] at hnode
  obtain ⟨n, hn, hat⟩ := Option.bind_eq_some_iff.1 hnode
  obtain ⟨entries, rfl⟩ := Node.directory_of_at hat
  exact ⟨start, entries, start, hstart, (List.append_nil start).symm, hn⟩

theorem HasDirectory.slash_not_mem (htree : fs.root.isTree = true) {base : Path}
    {dirs : List Text} {place : Place} {entries : List (Text × Node)}
    (h : fs.HasDirectory base dirs place entries) {file : Text}
    (hfile : file ∈ entries.map (·.1)) : ∀ t ∈ dirs ++ [file], .char '/' ∉ t := by
  obtain ⟨start, -, rfl, hnode⟩ := h
  have hentries := (Node.isTree_directory (Node.isTree_at htree hnode)).2.1
  rw [nodeAt?_append] at hnode
  obtain ⟨n, hn, hat⟩ := Option.bind_eq_some_iff.1 hnode
  refine List.forall_mem_append.2 ⟨?_, List.forall_mem_singleton.2 ?_⟩
  · exact Node.slash_not_mem_of_at (Node.isTree_at htree hn) hat
  · obtain ⟨e, he, rfl⟩ := List.mem_map.1 hfile
    exact hentries e he

theorem folder_of_hasDirectory {base : Path} {place : Place} {entries : List (Text × Node)}
    (h : fs.HasDirectory base [] place entries) :
    fs.folder base = fs.folderOf place (.directory entries) := by
  obtain ⟨start, hstart, hplace, hnode⟩ := h
  rw [List.append_nil] at hplace
  subst hplace
  simp only [folder, hstart, hnode]
  rfl

/-- A path that leads to no directory has nothing below it. -/
theorem folder_of_not_hasDirectory {base : Path}
    (h : ∀ place entries, ¬ fs.HasDirectory base [] place entries) : fs.folder base = .empty := by
  cases hstart : fs.locate base with
  | error problem => simp only [folder, hstart]
  | ok start =>
    cases hnode : fs.nodeAt? start with
    | none => simp [folder, hstart, hnode]
    | some n =>
      cases n with
      | file content => simp [folder, hstart, hnode, folderOf]
      | link target => simp [folder, hstart, hnode, folderOf]
      | directory entries =>
        exact absurd ⟨start, hstart, (List.append_nil start).symm, hnode⟩ (h start entries)

/-- From the directory that a path leads to, a walk comes to the directories below it. -/
theorem reaches_folder (htree : fs.root.isTree = true) {base : Path} {start : Place}
    {entries : List (Text × Node)} (hbase : fs.HasDirectory base [] start entries)
    {way : List Text} {folder : Folder} :
    (fs.folder base).Reaches way folder ↔ ∃ place below, fs.HasDirectory base way place below ∧
      folder = fs.folderOf place (.directory below) := by
  rw [folder_of_hasDirectory hbase]
  obtain ⟨start', hstart, hplace, hnode⟩ := hbase
  rw [List.append_nil] at hplace
  subst hplace
  rw [reaches_folderOf (Node.isTree_at htree hnode)]
  constructor
  · rintro ⟨below, hat, rfl⟩
    refine ⟨start ++ way, below, ⟨start, hstart, rfl, ?_⟩, rfl⟩
    rw [nodeAt?_append, hnode]
    exact hat
  · rintro ⟨place, below, ⟨start', hstart', rfl, hat⟩, rfl⟩
    obtain rfl := Except.ok.inj (hstart.symm.trans hstart')
    rw [nodeAt?_append, hnode] at hat
    exact ⟨below, hat, rfl⟩

/-- The folders that a walk comes to from a path: the directories below, or one without entries. -/
theorem reaches_folder_cases (htree : fs.root.isTree = true) {base : Path} {way : List Text}
    {folder : Folder} (h : (fs.folder base).Reaches way folder) :
    (∃ place below, fs.HasDirectory base way place below ∧
      folder = fs.folderOf place (.directory below)) ∨
    ((∀ place entries, ¬ fs.HasDirectory base [] place entries) ∧ way = [] ∧
      folder = .empty) := by
  by_cases hbase : ∃ place entries, fs.HasDirectory base [] place entries
  · obtain ⟨start, entries, hbase⟩ := hbase
    exact Or.inl ((reaches_folder htree hbase).1 h)
  · have hnone : ∀ place entries, ¬ fs.HasDirectory base [] place entries :=
      fun place entries hhas => hbase ⟨place, entries, hhas⟩
    rw [folder_of_not_hasDirectory hnone] at h
    exact Or.inr ⟨hnone, Folder.reaches_empty h⟩

/-- The files in the folders that a walk comes to are the entries that are no directories. -/
theorem mem_files_below_folder (htree : fs.root.isTree = true) {base : Path} {dirs : List Text}
    {file : Text} :
    (∃ g, (fs.folder base).Reaches dirs g ∧ file ∈ g.files) ↔
      ∃ place entries, fs.HasDirectory base dirs place entries ∧ file ∈ entries.map (·.1) ∧
        fs.leadsToDirectory place file = false := by
  constructor
  · rintro ⟨g, hreaches, hfile⟩
    rcases reaches_folder_cases htree hreaches with ⟨place, below, hhas, rfl⟩ | ⟨-, -, rfl⟩
    · exact ⟨place, below, hhas, mem_files_folderOf.1 hfile⟩
    · cases hfile
  · rintro ⟨place, entries, hhas, hentry⟩
    obtain ⟨start, entries', hbase⟩ := hhas.base
    exact ⟨_, (reaches_folder htree hbase).2 ⟨place, entries, hhas, rfl⟩,
      mem_files_folderOf.2 hentry⟩

/-- The folders that a walk comes to have names of their own for what is in them. -/
theorem nodup_of_reaches_folder (htree : fs.root.isTree = true) {base : Path} {way : List Text}
    {g : Folder} (h : (fs.folder base).Reaches way g) :
    g.files.Nodup ∧ (g.folders.map (·.1)).Nodup := by
  rcases reaches_folder_cases htree h with ⟨place, below, hhas, rfl⟩ | ⟨-, -, rfl⟩
  · obtain ⟨start, -, rfl, hnode⟩ := hhas
    exact nodup_folderOf (Node.isTree_directory (Node.isTree_at htree hnode)).1
  · exact ⟨List.nodup_nil, List.nodup_nil⟩

end FileSystem
end ResourceFinder
