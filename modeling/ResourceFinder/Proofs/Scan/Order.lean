import ResourceFinder.Proofs.FileSystem.Reordered
import ResourceFinder.Proofs.Scan.Listing
import ResourceFinder.Proofs.Text.Order

/-
The order in which a scan of a directory yields what it finds.

The order is said directory by directory: the files that count, by their names, and then what the
directories below come to, by theirs.  That leaves one scan possible, and none of it asks in which
order a directory lists its entries.
-/

namespace ResourceFinder

namespace FileSystem

variable {fs : FileSystem} {base : Path} {dirs : List Text} {place place' : Place}
  {entries entries' : List (Text × Node)}

theorem HasDirectory.unique (h : fs.HasDirectory base dirs place entries)
    (h' : fs.HasDirectory base dirs place' entries') : place = place' ∧ entries = entries' := by
  obtain ⟨start, hstart, rfl, hnode⟩ := h
  obtain ⟨start', hstart', rfl, hnode'⟩ := h'
  obtain rfl := Except.ok.inj (hstart.symm.trans hstart')
  exact ⟨rfl, Node.directory.inj (Option.some.inj (hnode.symm.trans hnode'))⟩

theorem HasDirectory.child (htree : fs.root.isTree = true)
    (h : fs.HasDirectory base dirs place entries) {name : Text} {below : List (Text × Node)}
    (hname : (name, .directory below) ∈ entries) :
    fs.HasDirectory base (dirs ++ [name]) (place ++ [name]) below := by
  obtain ⟨start, hstart, rfl, hnode⟩ := h
  have hnodup := (Node.isTree_directory (Node.isTree_at htree hnode)).1
  refine ⟨start, hstart, List.append_assoc _ _ _, ?_⟩
  rw [nodeAt?_append, hnode]
  show (entries.lookup name).bind _ = _
  rw [lookup_of_mem hnodup hname]
  rfl

theorem HasDirectory.nodup (htree : fs.root.isTree = true)
    (h : fs.HasDirectory base dirs place entries) : (entries.map (·.1)).Nodup := by
  obtain ⟨start, -, rfl, hnode⟩ := h
  exact (Node.isTree_directory (Node.isTree_at htree hnode)).1

/-- A walk sees files and directories in the order of their names. -/
theorem ascending_folderOf (h : (entries.map (·.1)).Nodup) :
    Text.Ascending (fs.folderOf place (.directory entries)).files ∧
      Text.Ascending ((fs.folderOf place (.directory entries)).folders.map (·.1)) := by
  rw [folderOf, Folder.files, Folder.folders]
  exact ⟨Text.ascending_mergeSort (h.filter _),
    Text.ascending_map_mergeSort (h.sublist (map_foldersOf_sublist fs place entries))⟩

theorem mem_map_folders_folderOf {name : Text} :
    name ∈ (fs.folderOf place (.directory entries)).folders.map (·.1) ↔
      ∃ inside, (name, .directory inside) ∈ entries := by
  rw [List.mem_map]
  constructor
  · rintro ⟨⟨name, g⟩, hg, rfl⟩
    obtain ⟨inside, hinside, -⟩ := mem_foldersOf.1 (mem_folders_folderOf.1 hg)
    exact ⟨inside, hinside⟩
  · rintro ⟨inside, hinside⟩
    exact ⟨_, mem_folders_folderOf.2 (mem_foldersOf.2 ⟨inside, hinside, rfl⟩), rfl⟩

end FileSystem

namespace Scan

/-- Scans one after the other. -/
def concat (scans : List Scan) : Scan := scans.foldr append (ofCandidates [])

/-- Whether an entry of a directory is a file that counts, given the directory's place and the names
on the way to it. -/
structure AdmittedFile (fs : FileSystem) (config : ScanConfig) (base : Path) (place : Place)
    (dirs : List Text) (file : Text) : Prop where
  notDirectory : fs.leadsToDirectory place file = false
  notIgnoreFile : base.below (dirs ++ [file]) ≠ base.joinText config.ignoreFileName
  notExcluded : ¬ Excluded fs config base (dirs ++ [file]) false
  notTooLarge : ∀ size, fs.size? (base.below (dirs ++ [file])) = some size →
    config.filesMaxSize = 0 ∨ (size : Int) ≤ config.filesMaxSize

/-- What a scan comes to in the directory that names lead to: the failure for an ignore file that
cannot be read; or first its files that count, and then what the scan comes to in those directories
in it that are not excluded, both in ascending order of their names. -/
inductive Walked (fs : FileSystem) (config : ScanConfig) (base : Path) :
    List Text → Scan → Prop where
  | unreadable {dirs : List Text} {e : Ignore.FileError} (hrespect : config.respectGitignore = true)
      (hrules : rulesIn fs base dirs = .error e) :
      Walked fs config base dirs (.ofFault (.ofIgnoreFile e))
  | entered {dirs : List Text} {place : Place} {entries : List (Text × Node)} {files : List Text}
      {below : List (Text × Scan)}
      (hrules : config.respectGitignore = true → ∃ rules, rulesIn fs base dirs = .ok rules)
      (hhas : fs.HasDirectory base dirs place entries)
      (hfiles : Text.Ascending files)
      (hadmitted : ∀ file, file ∈ files ↔
        file ∈ entries.map (·.1) ∧ AdmittedFile fs config base place dirs file)
      (hfolders : Text.Ascending (below.map (·.1)))
      (hopen : ∀ name, name ∈ below.map (·.1) ↔
        (∃ inside, (name, .directory inside) ∈ entries) ∧
          ¬ Excluded fs config base (dirs ++ [name]) true)
      (hbelow : ∀ x ∈ below, Walked fs config base (dirs ++ [x.1]) x.2) :
      Walked fs config base dirs ((ofCandidates (files.map fun file =>
        ⟨Text.join "/" (dirs ++ [file]), (base.below (dirs ++ [file])).text⟩)).append
          (concat (below.map (·.2))))

/-! ## One scan alone -/

theorem eq_of_keys {α β : Type} {l l' : List (α × β)} (hkeys : l.map (·.1) = l'.map (·.1))
    (h : ∀ x ∈ l, ∀ x' ∈ l', x.1 = x'.1 → x.2 = x'.2) : l = l' := by
  induction l generalizing l' with
  | nil => exact (List.map_eq_nil_iff.1 hkeys.symm).symm
  | cons x l ih =>
    cases l' with
    | nil => cases hkeys
    | cons x' l' =>
      obtain ⟨hx, hl⟩ := List.cons.inj hkeys
      have hhead : x = x' := Prod.ext hx (h x List.mem_cons_self x' List.mem_cons_self hx)
      have htail : l = l' := ih hl fun y hy y' hy' =>
        h y (List.mem_cons_of_mem _ hy) y' (List.mem_cons_of_mem _ hy')
      rw [hhead, htail]

variable {fs : FileSystem} {config : ScanConfig} {base : Path} {dirs : List Text}

/-- Which files and directories there are, and that their order ascends, leaves one scan. -/
theorem Walked.unique {scan scan' : Scan} (h : Walked fs config base dirs scan)
    (h' : Walked fs config base dirs scan') : scan = scan' := by
  induction h generalizing scan' with
  | unreadable hrespect hrules =>
    cases h' with
    | unreadable _ hrules' => rw [Except.error.inj (hrules.symm.trans hrules')]
    | entered hrules' =>
      obtain ⟨rules, hok⟩ := hrules' hrespect
      cases hrules.symm.trans hok
  | entered hrules hhas hfiles hadmitted hfolders hopen _ ih =>
    cases h' with
    | unreadable hrespect hrules' =>
      obtain ⟨rules, hok⟩ := hrules hrespect
      cases hok.symm.trans hrules'
    | entered _ hhas' hfiles' hadmitted' hfolders' hopen' hbelow' =>
      obtain ⟨rfl, rfl⟩ := hhas.unique hhas'
      obtain rfl := hfiles.eq_of_mem_iff hfiles' fun file =>
        (hadmitted file).trans (hadmitted' file).symm
      have hnames := hfolders.eq_of_mem_iff hfolders' fun name =>
        (hopen name).trans (hopen' name).symm
      obtain rfl := eq_of_keys hnames fun x hx x' hx' heq =>
        ih x hx (heq ▸ hbelow' x' hx')
      rfl

/-! ## The scan of a folder -/

theorem chainOf_eq_error {ways : List (List Text)} {names : List Text} {cache : RuleCache}
    {e : Ignore.FileError} (hcache : CacheSound fs base cache)
    (h : ∀ way ∈ ways, ∃ rules, rulesIn fs base way = .ok rules)
    (hnames : rulesIn fs base names = .error e) :
    chainOf fs base cache (ways ++ [names]) = .error e := by
  have hanew : chainAnew fs base (ways ++ [names]) = .error e := by
    refine map_eq_error.2 (mapM_eq_error_iff.2 ⟨ways, names, [], rfl, fun way hway => ?_, ?_⟩)
    · obtain ⟨rules, hrules⟩ := h way hway
      exact ⟨_, congrArg (Except.map _) hrules⟩
    · rw [hnames]
      rfl
  exact map_eq_error.1 ((chainOf_map_fst hcache _).trans hanew)

theorem waysTo_eq (names : List Text) :
    waysTo names = (List.range names.length).map names.take ++ [names] := by
  rw [waysTo, List.range_succ, List.map_append, List.map_singleton, List.take_length]

namespace DirectoryScan

variable {d : DirectoryScan} {names : List Text} {place : Place} {entries : List (Text × Node)}

theorem chain_eq_error {cache : RuleCache} {e : Ignore.FileError}
    (hcache : CacheSound d.fs d.base cache)
    (habove : ∀ way, way <+: names → way ≠ names → d.HasRules way)
    (hrespect : d.config.respectGitignore = true) (hnames : rulesIn d.fs d.base names = .error e) :
    d.chain cache names = .error e := by
  rw [chain, if_pos hrespect, chainTo, waysTo_eq]
  refine chainOf_eq_error hcache (fun way hway => ?_) hnames
  obtain ⟨n, hn, rfl⟩ := List.mem_map.1 hway
  refine habove _ (List.take_prefix n names) (fun heq => ?_) hrespect
  have hlength := congrArg List.length heq
  rw [List.length_take] at hlength
  have hlt := List.mem_range.1 hn
  omega

/-- A folder comes to a scan, whatever a sound cache holds. -/
def ScansTo (d : DirectoryScan) (names : List Text) (folder : Folder) (scan : Scan) : Prop :=
  ∀ cache, CacheSound d.fs d.base cache →
    ∃ cache', d.scanFolder names cache folder = (scan, cache') ∧ CacheSound d.fs d.base cache'

/-- What the directories in one directory come to, those that are hidden left out. -/
theorem scanFolders_scansTo {folders : List (Text × Folder)}
    (h : ∀ x ∈ folders, ∃ scan, Walked d.fs d.config d.base (names ++ [x.1]) scan ∧
      d.ScansTo (names ++ [x.1]) x.2 scan) :
    ∃ below : List (Text × Scan),
      below.map (·.1) =
        (folders.map (·.1)).filter (fun name => !d.hides (names ++ [name]) true) ∧
      (∀ x ∈ below, Walked d.fs d.config d.base (names ++ [x.1]) x.2) ∧
      ∀ cache, CacheSound d.fs d.base cache → ∃ cache',
        d.scanFolders (d.ignoreChain names) names cache folders =
          (concat (below.map (·.2)), cache') ∧ CacheSound d.fs d.base cache' := by
  induction folders with
  | nil => exact ⟨[], rfl, by simp, fun cache hcache => ⟨cache, rfl, hcache⟩⟩
  | cons x rest ih =>
    obtain ⟨name, folder⟩ := x
    obtain ⟨⟨scan, hwalked, hscan⟩, hrest⟩ := List.forall_mem_cons.1 h
    obtain ⟨below, hnames, hbelow, hscans⟩ := ih hrest
    by_cases hhidden : d.hides (names ++ [name]) true = true
    · refine ⟨below, ?_, hbelow, fun cache hcache => ?_⟩
      · rw [List.map_cons, List.filter_cons_of_neg (by simp [hhidden]), hnames]
      · rw [scanFolders, excludes_ignoreChain, if_pos hhidden]
        exact hscans cache hcache
    · refine ⟨(name, scan) :: below, ?_, List.forall_mem_cons.2 ⟨hwalked, hbelow⟩,
        fun cache hcache => ?_⟩
      · rw [List.map_cons, List.map_cons, List.filter_cons_of_pos (by simp [hhidden]), hnames]
      · obtain ⟨cache₁, hfirst, hcache₁⟩ := hscan cache hcache
        obtain ⟨cache₂, hmore, hcache₂⟩ := hscans cache₁ hcache₁
        refine ⟨cache₂, ?_, hcache₂⟩
        rw [scanFolders, excludes_ignoreChain, if_neg hhidden]
        simp only [hfirst, hmore]
        rfl

theorem admittedFile_iff (hpatterns : Scanner.patternsOf d.config = .ok d.patterns)
    (htool : Ignore.load d.fs (d.base.joinText d.config.ignoreFileName) = .ok d.toolRules)
    {file : Text} :
    AdmittedFile d.fs d.config d.base place names file ↔
      d.fs.leadsToDirectory place file = false ∧ d.lists (names ++ [file]) = true := by
  rw [lists_iff hpatterns htool (by simp)]
  constructor
  · intro h
    exact ⟨h.notDirectory, h.notIgnoreFile, h.notExcluded, h.notTooLarge⟩
  · rintro ⟨hdirectory, hfile, hexcluded, hsize⟩
    exact ⟨hdirectory, hfile, hexcluded, hsize⟩

theorem scanFolder_scansTo (htree : d.fs.root.isTree = true)
    (hpatterns : Scanner.patternsOf d.config = .ok d.patterns)
    (htool : Ignore.load d.fs (d.base.joinText d.config.ignoreFileName) = .ok d.toolRules)
    {folder : Folder} (hhas : d.fs.HasDirectory d.base names place entries)
    (hfolder : folder = d.fs.folderOf place (.directory entries))
    (habove : ∀ way, way <+: names → way ≠ names → d.HasRules way) :
    ∃ scan, Walked d.fs d.config d.base names scan ∧ d.ScansTo names folder scan := by
  induction folder using Folder.induct generalizing names place entries with
  | mk files folders ih =>
    by_cases hrules : d.HasRules names
    · have hall : ∀ way, way <+: names → d.HasRules way := by
        intro way hway
        by_cases heq : way = names
        · exact heq ▸ hrules
        · exact habove way hway heq
      have hbelow : ∀ x ∈ folders, ∃ scan, Walked d.fs d.config d.base (names ++ [x.1]) scan ∧
          d.ScansTo (names ++ [x.1]) x.2 scan := by
        rintro ⟨name, g⟩ hx
        have hg : (name, g) ∈ (d.fs.folderOf place (.directory entries)).folders := hfolder ▸ hx
        obtain ⟨inside, hinside, heq⟩ :=
          FileSystem.mem_foldersOf.1 (FileSystem.mem_folders_folderOf.1 hg)
        refine ih _ hx (hhas.child htree hinside) heq fun way hway hne => ?_
        exact hall way ((List.prefix_concat_iff.1 hway).resolve_left hne)
      obtain ⟨below, hnames, hwalked, hscans⟩ := scanFolders_scansTo hbelow
      have hfiles : (d.fs.folderOf place (.directory entries)).files = files :=
        congrArg Folder.files hfolder.symm
      have hfolders : (d.fs.folderOf place (.directory entries)).folders = folders :=
        congrArg Folder.folders hfolder.symm
      obtain ⟨hascending, hascending'⟩ :
          Text.Ascending files ∧ Text.Ascending (folders.map (·.1)) := by
        rw [← hfiles, ← hfolders]
        exact FileSystem.ascending_folderOf (hhas.nodup htree)
      refine ⟨_, .entered hrules hhas (hascending.filter fun file => d.lists (names ++ [file]))
        (fun file => ?_) (hnames ▸ hascending'.filter _) (fun name => ?_) hwalked,
        fun cache hcache => ?_⟩
      · rw [List.mem_filter, ← hfiles, FileSystem.mem_files_folderOf,
          admittedFile_iff hpatterns htool, and_assoc]
      · rw [hnames, List.mem_filter, ← hfolders, FileSystem.mem_map_folders_folderOf,
          ← hides_iff hpatterns htool (by simp), Bool.not_eq_true', Bool.not_eq_true]
      · obtain ⟨cache₁, hchain, hcache₁⟩ := chain_eq hcache hall
        obtain ⟨cache₂, hscan, hcache₂⟩ := hscans cache₁ hcache₁
        refine ⟨cache₂, ?_, hcache₂⟩
        rw [scanFolder, hchain]
        simp only [hscan, filter_admits_ignoreChain]
        rw [List.filter_map, List.map_map]
        rfl
    · obtain ⟨hrespect, hnone⟩ := Classical.not_imp.1 hrules
      cases hread : rulesIn d.fs d.base names with
      | ok rules => exact absurd ⟨rules, hread⟩ hnone
      | error e =>
        refine ⟨_, .unreadable hrespect hread, fun cache hcache => ⟨cache, ?_, hcache⟩⟩
        rw [scanFolder, chain_eq_error hcache habove hrespect hread]

end DirectoryScan

section

variable {patterns : Ignore.Rules} {toolRules : Option Ignore.Rules}

theorem ofDirectory_walked (htree : fs.root.isTree = true)
    (hpatterns : Scanner.patternsOf config = .ok patterns)
    (htool : Ignore.load fs (base.joinText config.ignoreFileName) = .ok toolRules) {place : Place}
    {entries : List (Text × Node)} (hhas : fs.HasDirectory base [] place entries) :
    Walked fs config base [] (ofDirectory fs config patterns base) := by
  let d : DirectoryScan := ⟨fs, config, patterns, base, toolRules⟩
  have habove : ∀ way, way <+: [] → way ≠ [] → d.HasRules way :=
    fun way hway hne => absurd (List.prefix_nil.1 hway) hne
  obtain ⟨scan, hwalked, hscan⟩ := DirectoryScan.scanFolder_scansTo (d := d) htree hpatterns htool
    hhas (FileSystem.folder_of_hasDirectory hhas) habove
  obtain ⟨cache, heq, -⟩ := hscan [] cacheSound_nil
  have hdone : ofDirectory fs config patterns base = scan := by
    rw [ofDirectory, htool]
    exact congrArg Prod.fst heq
  rw [hdone]
  exact hwalked

theorem ofDirectory_of_not_hasDirectory (htree : fs.root.isTree = true)
    (htool : Ignore.load fs (base.joinText config.ignoreFileName) = .ok toolRules)
    (hnone : ∀ place entries, ¬ fs.HasDirectory base [] place entries) :
    ofDirectory fs config patterns base = ofCandidates [] := by
  rw [ofDirectory_eq htree htool fun _ dirs place entries hhas => ?_,
    FileSystem.folder_of_not_hasDirectory hnone]
  · rfl
  · obtain ⟨start, entries, hbase⟩ := hhas.base
    exact absurd hbase (hnone start entries)

end

/-! ## Directories in another order -/

section

variable {fs' : FileSystem}

theorem load_eq (h : fs.Reordered fs') (p : Path) : Ignore.load fs' p = Ignore.load fs p := by
  rw [Ignore.load, Ignore.load, h.isFile_eq, h.readText_eq]

theorem rulesIn_eq (h : fs.Reordered fs') (names : List Text) :
    rulesIn fs' base names = rulesIn fs base names :=
  load_eq h _

theorem excluded_iff (h : fs.Reordered fs') {names : List Text} {isDirectory : Bool} :
    Excluded fs' config base names isDirectory ↔ Excluded fs config base names isDirectory := by
  constructor
  · rintro (⟨hrules, hx⟩ | ⟨hrules, hx⟩ | ⟨hrespect, hnames, hbelow, hrules, hx⟩)
    · exact .byPatterns hrules hx
    · exact .byToolFile ((load_eq h _).symm.trans hrules) hx
    · exact .byIgnoreFile hrespect hnames hbelow ((rulesIn_eq h _).symm.trans hrules) hx
  · rintro (⟨hrules, hx⟩ | ⟨hrules, hx⟩ | ⟨hrespect, hnames, hbelow, hrules, hx⟩)
    · exact .byPatterns hrules hx
    · exact .byToolFile ((load_eq h _).trans hrules) hx
    · exact .byIgnoreFile hrespect hnames hbelow ((rulesIn_eq h _).trans hrules) hx

theorem admittedFile_iff (h : fs.Reordered fs') {place : Place} {file : Text} :
    AdmittedFile fs' config base place dirs file ↔ AdmittedFile fs config base place dirs file := by
  constructor
  · rintro ⟨hdirectory, hfile, hexcluded, hsize⟩
    exact ⟨(h.leadsToDirectory_eq _ _).symm.trans hdirectory, hfile,
      fun hx => hexcluded ((excluded_iff h).2 hx),
      fun size hs => hsize size ((h.size?_eq _).trans hs)⟩
  · rintro ⟨hdirectory, hfile, hexcluded, hsize⟩
    exact ⟨(h.leadsToDirectory_eq _ _).trans hdirectory, hfile,
      fun hx => hexcluded ((excluded_iff h).1 hx),
      fun size hs => hsize size ((h.size?_eq _).symm.trans hs)⟩

/-- What a scan comes to in a directory does not depend on the order of any entries. -/
theorem Walked.reordered (h : fs.Reordered fs') {scan : Scan}
    (hscan : Walked fs config base dirs scan) : Walked fs' config base dirs scan := by
  induction hscan with
  | unreadable hrespect hrules => exact .unreadable hrespect ((rulesIn_eq h _).trans hrules)
  | @entered dirs place entries files below hrules hhas hfiles hadmitted hfolders hopen _ ih =>
    obtain ⟨entries', hhas', hentries⟩ := h.hasDirectory hhas
    refine .entered (fun hrespect => ?_) hhas' hfiles (fun file => ?_) hfolders (fun name => ?_) ih
    · obtain ⟨rules, hok⟩ := hrules hrespect
      exact ⟨rules, (rulesIn_eq h _).trans hok⟩
    · rw [hadmitted, hentries.mem_names, admittedFile_iff h]
    · rw [hopen, hentries.mem_directory, excluded_iff h]

theorem ofDirectory_reordered (h : fs.Reordered fs') (htree : fs.root.isTree = true)
    {patterns : Ignore.Rules} (hpatterns : Scanner.patternsOf config = .ok patterns) :
    ofDirectory fs' config patterns base = ofDirectory fs config patterns base := by
  have htree' : fs'.root.isTree = true := h.root.isTree htree
  cases htool : Ignore.load fs (base.joinText config.ignoreFileName) with
  | error e => rw [ofDirectory, ofDirectory, load_eq h, htool]
  | ok toolRules =>
    have htool' := (load_eq h _).trans htool
    by_cases hbase : ∃ place entries, fs.HasDirectory base [] place entries
    · obtain ⟨place, entries, hhas⟩ := hbase
      obtain ⟨entries', hhas', -⟩ := h.hasDirectory hhas
      exact (ofDirectory_walked htree' hpatterns htool' hhas').unique
        ((ofDirectory_walked htree hpatterns htool hhas).reordered h)
    · have hnone : ∀ place entries, ¬ fs.HasDirectory base [] place entries :=
        fun place entries hhas => hbase ⟨place, entries, hhas⟩
      have hnone' : ∀ place entries, ¬ fs'.HasDirectory base [] place entries := by
        intro place entries' hhas'
        obtain ⟨entries, hhas, -⟩ := h.symm.hasDirectory hhas'
        exact hnone place entries hhas
      rw [ofDirectory_of_not_hasDirectory htree' htool' hnone',
        ofDirectory_of_not_hasDirectory htree htool hnone]

end
end Scan
end ResourceFinder
