import ResourceFinder.Proofs.FileSystem.Plain
import ResourceFinder.Proofs.Index.ArchiveNames
import ResourceFinder.Proofs.Scan.Listing

/-
The same files in a directory and in an archive.

The patterns of a configuration see the same names in both.  But a directory that they exclude is not
entered, whatever they say about what is in it, while an archive has no directories to enter: each of
its entries is judged by its own name.  So an index of the archive holds what an index of the
directory does, and those files that are only kept out by a directory above them.
-/

namespace ResourceFinder

section

variable {fs : FileSystem} {config : ScanConfig} {base : Path} {start : Place}
  {patterns : Ignore.Rules}

structure HasNoIgnoreFile (fs : FileSystem) (config : ScanConfig) (base : Path) (start : Place) :
    Prop where
  below : ∀ dirs content,
    fs.nodeAt? (start ++ (dirs ++ [Scan.gitignoreName])) ≠ some (.file content)
  top : fs.isFile (base.joinText config.ignoreFileName) = false

theorem HasNoIgnoreFile.load_top (hnone : HasNoIgnoreFile fs config base start) :
    Ignore.load fs (base.joinText config.ignoreFileName) = .ok none := by
  rw [Ignore.load, hnone.top]
  rfl

/-- The files below a place that are kept for what they are themselves: by name and by size. -/
structure KeptFile (fs : FileSystem) (config : ScanConfig) (patterns : Ignore.Rules) (start : Place)
    (way : List Text) : Prop where
  file : ∃ content, fs.nodeAt? (start ++ way) = some (.file content) ∧
    (config.filesMaxSize = 0 ∨ (content.length : Int) ≤ config.filesMaxSize)
  notExcluded : patterns.excludes (Text.join "/" way) = false

/-- Whether patterns exclude a directory above a file. -/
def ExcludesAbove (patterns : Ignore.Rules) (way : List Text) : Prop :=
  ∃ above below, way = above ++ below ∧ above ≠ [] ∧ below ≠ [] ∧
    patterns.excludes (Scan.entryText above true) = true

/-- An archive of the files below a place: an entry for each of them under its path, and otherwise
entries for directories at most. -/
structure ArchivesFiles (fs : FileSystem) (start : Place) (entries : List Archive.Entry) : Prop where
  each : ∀ e ∈ entries, e.isDirectory = true ∨ ∃ way content,
    fs.nodeAt? (start ++ way) = some (.file content) ∧ e.name = Text.join "/" way ∧
      e.size = content.length
  every : ∀ way content, fs.nodeAt? (start ++ way) = some (.file content) →
    ∃ e ∈ entries, e.name = Text.join "/" way

/-! ## The directory -/

namespace FileSystem.IsPlain

variable (h : fs.IsPlain base start)
include h

theorem rulesIn_eq_none (hnone : HasNoIgnoreFile fs config base start) {dirs : List Text}
    {entries : List (Text × Node)}
    (hdirectory : fs.nodeAt? (start ++ dirs) = some (.directory entries)) :
    Scan.rulesIn fs base dirs = .ok none := by
  have hchild : (base.below dirs).child Scan.gitignoreName =
      base.below (dirs ++ [Scan.gitignoreName]) := by
    simp [Path.below, Path.child]
  have hplace : start ++ (dirs ++ [Scan.gitignoreName]) =
      start ++ dirs ++ [Scan.gitignoreName] := by simp
  have hfile : fs.isFile ((base.below dirs).child Scan.gitignoreName) = false := by
    rw [hchild, isFile]
    cases hn : entries.lookup Scan.gitignoreName with
    | none =>
      have hname : Path.IsName Scan.gitignoreName :=
        ⟨⟨by decide, by decide, by decide⟩, by decide⟩
      rw [h.find_missing hdirectory hname hn]
    | some n =>
      have hat : fs.nodeAt? (start ++ (dirs ++ [Scan.gitignoreName])) = some n := by
        rw [hplace, nodeAt?_child hdirectory, hn]
      rw [h.find_below hat]
      cases n with
      | file content => exact absurd hat (hnone.below dirs content)
      | _ => rfl
  rw [Scan.rulesIn, Ignore.load, hfile]
  rfl

theorem excluded_iff (hnone : HasNoIgnoreFile fs config base start)
    (hpatterns : Scanner.patternsOf config = .ok patterns) {names : List Text} {n : Node}
    (hn : fs.nodeAt? (start ++ names) = some n) {isDirectory : Bool} :
    Scan.Excluded fs config base names isDirectory ↔
      patterns.excludes (Scan.entryText names isDirectory) = true := by
  constructor
  · rintro (⟨hrules, h'⟩ | ⟨hrules, h'⟩ | ⟨hrespect, rfl, hbelow, hrules, h'⟩)
    · obtain rfl := Except.ok.inj (hpatterns.symm.trans hrules)
      exact h'
    · cases hnone.load_top.symm.trans hrules
    · obtain ⟨entries, hdirectory⟩ := directory_above hbelow hn
      cases (h.rulesIn_eq_none hnone hdirectory).symm.trans hrules
  · exact .byPatterns hpatterns

theorem isFile_below {way : List Text} {content : Bytes}
    (hn : fs.nodeAt? (start ++ way) = some (.file content)) : fs.isFile (base.below way) = true := by
  rw [isFile, h.find_below hn]
  rfl

theorem size_below {way : List Text} {content : Bytes}
    (hn : fs.nodeAt? (start ++ way) = some (.file content)) :
    fs.size? (base.below way) = some content.length := by
  rw [size?, h.find_below hn]

theorem exists_file_iff (htree : fs.root.isTree = true) {dirs : List Text} {file : Text} :
    (∃ place entries, fs.HasDirectory base dirs place entries ∧ file ∈ entries.map (·.1) ∧
      fs.leadsToDirectory place file = false) ↔
      ∃ content, fs.nodeAt? (start ++ (dirs ++ [file])) = some (.file content) := by
  have hplace : start ++ (dirs ++ [file]) = start ++ dirs ++ [file] := by simp
  constructor
  · rintro ⟨place, entries, hhas, hfile, hleads⟩
    obtain ⟨rfl, hdirectory⟩ := h.hasDirectory_iff.1 hhas
    obtain ⟨⟨name, n⟩, hmem, rfl⟩ := List.mem_map.1 hfile
    have hnodup := (Node.isTree_directory (Node.isTree_at htree hdirectory)).1
    have hn : fs.nodeAt? (start ++ dirs ++ [name]) = some n := by
      rw [nodeAt?_child hdirectory, lookup_of_mem hnodup hmem]
    rw [h.leadsToDirectory_eq hdirectory hn] at hleads
    rw [hplace, hn]
    cases n with
    | file content => exact ⟨content, rfl⟩
    | directory entries => cases hleads
    | link target => exact absurd (hplace ▸ hn) (h.noLinks (dirs ++ [name]) target)
  · rintro ⟨content, hn⟩
    obtain ⟨entries, hdirectory⟩ := directory_above (List.cons_ne_nil _ _) hn
    rw [hplace] at hn
    refine ⟨_, entries, h.hasDirectory_iff.2 ⟨rfl, hdirectory⟩, ?_,
      h.leadsToDirectory_eq hdirectory hn⟩
    rw [nodeAt?_child hdirectory] at hn
    exact List.mem_map.2 ⟨_, mem_of_lookup hn, rfl⟩

theorem listed_iff (htree : fs.root.isTree = true) (hnone : HasNoIgnoreFile fs config base start)
    (hpatterns : Scanner.patternsOf config = .ok patterns) {dirs : List Text} {file : Text} :
    Scan.Listed fs config base dirs file ↔
      KeptFile fs config patterns start (dirs ++ [file]) ∧
        ¬ExcludesAbove patterns (dirs ++ [file]) := by
  have htext : Scan.entryText (dirs ++ [file]) false = Text.join "/" (dirs ++ [file]) := by
    simp [Scan.entryText]
  constructor
  · intro hlisted
    obtain ⟨content, hn⟩ := (h.exists_file_iff htree).1 hlisted.entry
    refine ⟨⟨⟨content, hn, hlisted.notTooLarge _ (h.size_below hn)⟩, ?_⟩, ?_⟩
    · rw [← htext, ← Bool.not_eq_true, ← h.excluded_iff hnone hpatterns hn]
      exact hlisted.notExcluded
    · rintro ⟨above, below, hway, habove, hbelow, hexcludes⟩
      rw [hway] at hn
      obtain ⟨entries, hdirectory⟩ := directory_above hbelow hn
      have hdirs : dirs = above ++ below.dropLast := by
        rw [← List.dropLast_append_of_ne_nil hbelow, ← hway, List.dropLast_concat]
      exact hlisted.entered above below.dropLast hdirs habove
        ((h.excluded_iff hnone hpatterns hdirectory).2 hexcludes)
  · rintro ⟨⟨⟨content, hn, hsize⟩, hkept⟩, habove⟩
    refine ⟨(h.exists_file_iff htree).2 ⟨content, hn⟩, fun above below hdirs hne => ?_, ?_, ?_, ?_⟩
    · have hway : dirs ++ [file] = above ++ (below ++ [file]) := by simp [hdirs]
      rw [hway] at hn
      obtain ⟨entries, hdirectory⟩ := directory_above (by simp) hn
      rw [h.excluded_iff hnone hpatterns hdirectory]
      exact fun hexcludes => habove ⟨above, below ++ [file], hway, hne, by simp, hexcludes⟩
    · rw [h.excluded_iff hnone hpatterns hn, htext, hkept]
      exact Bool.false_ne_true
    · intro heq
      have hfile := h.isFile_below hn
      rw [heq, hnone.top] at hfile
      cases hfile
    · intro size hfileSize
      obtain rfl := Option.some.inj ((h.size_below hn).symm.trans hfileSize)
      exact hsize

theorem way_of_file {way : List Text} {content : Bytes}
    (hn : fs.nodeAt? (start ++ way) = some (.file content)) :
    ∃ dirs file, way = dirs ++ [file] := by
  rcases List.eq_nil_or_concat' way with rfl | hway
  · obtain ⟨entries, hdirectory⟩ := h.directory
    rw [List.append_nil, hdirectory] at hn
    cases hn
  · exact hway

theorem way_inj {way way' : List Text} {content content' : Bytes}
    (hn : fs.nodeAt? (start ++ way) = some (.file content))
    (hn' : fs.nodeAt? (start ++ way') = some (.file content'))
    (heq : Text.join "/" way = Text.join "/" way') : way = way' := by
  obtain ⟨dirs, file, rfl⟩ := h.way_of_file hn
  obtain ⟨dirs', file', rfl⟩ := h.way_of_file hn'
  exact Text.join_inj (by simp) (by simp) (fun t ht => (h.names _ _ hn t ht).slash)
    (fun t ht => (h.names _ _ hn' t ht).slash) heq

/-- The index of a directory holds the files that are kept and that no directory above keeps out. -/
theorem names_directory (hspelt : base.IsSpelt) (htree : fs.root.isTree = true)
    (hnone : HasNoIgnoreFile fs config base start)
    (hpatterns : Scanner.patternsOf config = .ok patterns) :
    ∃ i, (((Builder.ofScanner (.ofFileSystem config patterns)).addRoot
        ⟨.directory, base⟩).build fs).result = .ok i ∧
      ∀ name, name ∈ i.names ↔ ∃ way, name = Text.join "/" way ∧
        KeptFile fs config patterns start way ∧ ¬ExcludesAbove patterns way := by
  let root : Root := ⟨.directory, base⟩
  let d : Scan.DirectoryScan := ⟨fs, config, patterns, base, none⟩
  have hscan : (Scanner.ofFileSystem config patterns fs).scan root =
      Scan.ofCandidates ((d.listed [] (fs.folder base)).map d.candidate) := by
    refine Scan.ofDirectory_eq htree hnone.load_top fun _ dirs place entries hhas => ⟨none, ?_⟩
    exact h.rulesIn_eq_none hnone (h.hasDirectory_iff.1 hhas).2
  have hsound : (Scanner.ofFileSystem config patterns fs).IsSound root := by
    refine ⟨by rw [hscan]; rfl, fun c _ f => Scanner.resolve_ofFileSystem⟩
  have hlisted : ∀ {way}, way ∈ d.listed [] (fs.folder base) ↔ ∃ dirs file, way = dirs ++ [file] ∧
      Scan.Listed fs config base dirs file :=
    Scan.DirectoryScan.mem_listed_folder htree hpatterns hnone.load_top
  obtain ⟨i, hi, hnames⟩ := Builder.build_addRoot (.ofFileSystem config patterns) fs hsound
  refine ⟨i, hi, fun name => (hnames name).trans ?_⟩
  rw [hscan, Scan.ofCandidates]
  constructor
  · rintro ⟨c, hc, rfl, -⟩
    obtain ⟨way, hway, rfl⟩ := List.mem_map.1 hc
    obtain ⟨dirs, file, rfl, hfile⟩ := hlisted.1 hway
    exact ⟨dirs ++ [file], rfl, (h.listed_iff htree hnone hpatterns).1 hfile⟩
  · rintro ⟨way, rfl, hkept, habove⟩
    obtain ⟨content, hn, -⟩ := hkept.file
    obtain ⟨dirs, file, rfl⟩ := h.way_of_file hn
    have hfile := (h.listed_iff htree hnone hpatterns).2 ⟨hkept, habove⟩
    refine ⟨_, List.mem_map.2 ⟨_, hlisted.2 ⟨dirs, file, rfl, hfile⟩, rfl⟩, rfl,
      ⟨root, Text.join "/" (dirs ++ [file])⟩, ?_⟩
    have hpath : Path.ofText (base.below (dirs ++ [file])).text = base.below (dirs ++ [file]) :=
      Path.ofText_text (hspelt.below fun s hs => (h.names _ _ hn s hs).toIsSegment)
    have hreadable : fs.isFile (Path.ofText (d.candidate (dirs ++ [file])).raw) = true := by
      rw [Scan.DirectoryScan.candidate, hpath]
      exact h.isFile_below hn
    exact if_pos hreadable

end FileSystem.IsPlain

/-! ## The archive -/

section

variable {dirs : List Text} {file : Text} (hnames : ∀ name ∈ dirs ++ [file], Path.IsName name)
include hnames

theorem getLast?_join_ne_slash : (Text.join "/" (dirs ++ [file])).getLast? ≠ some (.char '/') := by
  have hfile := hnames file (by simp)
  rw [Text.getLast?_join hfile.ne_nil]
  exact fun hlast => hfile.slash (List.mem_of_getLast? hlast)

/-- The path of a file is one that an entry can be a resource under. -/
theorem isResourceName_join : IsResourceName (Text.join "/" (dirs ++ [file])) where
  noDirectory := getLast?_join_ne_slash hnames
  relative := Path.head?_join_ne_slash fun s hs => (hnames s hs).toIsSegment
  down := by
    have hsplit : Text.splitAt '/' (Text.join "/" (dirs ++ [file])) = dirs ++ [file] :=
      Text.splitAt_join (by simp) fun s hs => (hnames s hs).slash
    rw [hsplit]
    exact fun hmem => (hnames _ hmem).ne_up rfl

end

namespace FileSystem.IsPlain

variable (h : fs.IsPlain base start) {entries : List Archive.Entry}
  (hfiles : ArchivesFiles fs start entries)
include h hfiles

/-- Of the entries under the path of a file, the first one has its size. -/
theorem exists_entry {way : List Text} {content : Bytes}
    (hn : fs.nodeAt? (start ++ way) = some (.file content)) :
    ∃ k e, FirstAt Archive.Entry.name entries k e ∧ e.name = Text.join "/" way ∧
      e.size = content.length := by
  obtain ⟨e₀, he₀, hname₀⟩ := hfiles.every way content hn
  obtain ⟨k, e, hfirst, hsame⟩ := exists_firstAt Archive.Entry.name he₀
  have hname : e.name = Text.join "/" way := hsame.trans hname₀
  refine ⟨k, e, hfirst, hname, ?_⟩
  rcases hfiles.each e (List.mem_of_getElem? hfirst.item) with hdirectory |
    ⟨way', content', hn', hname', hsize⟩
  · have hlast : e.name.getLast? = some (.char '/') := of_decide_eq_true hdirectory
    obtain ⟨dirs, file, rfl⟩ := h.way_of_file hn
    rw [hname] at hlast
    exact absurd hlast (getLast?_join_ne_slash (h.names _ _ hn))
  · rw [h.way_inj hn' hn (hname'.symm.trans hname), hn] at hn'
    rw [hsize, Node.file.inj (Option.some.inj hn')]

/-- The index of an archive holds the files that are kept. -/
theorem names_archive (config : ScanConfig) (patterns : Ignore.Rules) {fs' : FileSystem} {p : Path}
    {octets : Bytes}
    (harchive : archiveEntries fs' p = .ok (octets, entries)) :
    ∃ i, (((Builder.ofScanner (.ofFileSystem config patterns)).addRoot
        ⟨.archive, p⟩).build fs').result = .ok i ∧
      ∀ name, name ∈ i.names ↔ ∃ way, name = Text.join "/" way ∧
        KeptFile fs config patterns start way := by
  obtain ⟨i, hi, hnames⟩ := Builder.names_archiveRoot config patterns harchive
  refine ⟨i, hi, fun name => (hnames name).trans ?_⟩
  constructor
  · rintro ⟨⟨k, e, hfirst, rfl, hadmitted⟩, hresource⟩
    rcases hfiles.each e (List.mem_of_getElem? hfirst.item) with hdirectory |
      ⟨way, content, hn, hname, hsize⟩
    · exact absurd (of_decide_eq_true hdirectory) hresource.noDirectory
    · refine ⟨way, hname, ⟨content, hn, ?_⟩, ?_⟩
      · rw [← hsize]
        exact hadmitted.notTooLarge
      · rw [← hname]
        exact hadmitted.notExcluded
  · rintro ⟨way, rfl, hkept⟩
    obtain ⟨content, hn, hsize⟩ := hkept.file
    obtain ⟨k, e, hfirst, hname, hentrySize⟩ := h.exists_entry hfiles hn
    have hadmitted : Scan.Admitted config patterns e :=
      ⟨by rw [hname]; exact hkept.notExcluded, by rw [hentrySize]; exact hsize⟩
    obtain ⟨dirs, file, rfl⟩ := h.way_of_file hn
    exact ⟨⟨k, e, hfirst, hname, hadmitted⟩, isResourceName_join (h.names _ _ hn)⟩

end FileSystem.IsPlain

/-! ## Both -/

/-- The same files indexed from a directory without links and ignore files, and from an archive of
them.  Both indexes can be built.  The archive's holds the files that neither their names nor their
sizes keep out; the directory's holds those of them that are in no directory which the patterns
exclude.  So the two hold the same names just where there is no kept file below an excluded
directory. -/
theorem directory_and_archive_names {fs fs' : FileSystem} {config : ScanConfig} {base p : Path}
    {start : Place} {patterns : Ignore.Rules} {octets : Bytes} {entries : List Archive.Entry}
    (htree : fs.root.isTree = true) (hspelt : base.IsSpelt) (hplain : fs.IsPlain base start)
    (hnone : HasNoIgnoreFile fs config base start)
    (hpatterns : Scanner.patternsOf config = .ok patterns)
    (harchive : archiveEntries fs' p = .ok (octets, entries))
    (hfiles : ArchivesFiles fs start entries) :
    ∃ b inDirectory inArchive, Builder.ofConfig config = .ok b ∧
      ((b.addRoot ⟨.directory, base⟩).build fs).result = .ok inDirectory ∧
      ((b.addRoot ⟨.archive, p⟩).build fs').result = .ok inArchive ∧
      (∀ name, name ∈ inArchive.names ↔ ∃ way, name = Text.join "/" way ∧
        KeptFile fs config patterns start way) ∧
      (∀ name, name ∈ inDirectory.names ↔ ∃ way, name = Text.join "/" way ∧
        KeptFile fs config patterns start way ∧ ¬ExcludesAbove patterns way) ∧
      (∀ name ∈ inDirectory.names, name ∈ inArchive.names) ∧
      ((∀ name, name ∈ inDirectory.names ↔ name ∈ inArchive.names) ↔
        ¬∃ way, KeptFile fs config patterns start way ∧ ExcludesAbove patterns way) := by
  obtain ⟨inDirectory, hdirectory, hinDirectory⟩ :=
    hplain.names_directory hspelt htree hnone hpatterns
  obtain ⟨inArchive, harchived, hinArchive⟩ :=
    hplain.names_archive hfiles config patterns harchive
  have hsubset : ∀ name ∈ inDirectory.names, name ∈ inArchive.names := by
    intro name hname
    obtain ⟨way, rfl, hkept, -⟩ := (hinDirectory name).1 hname
    exact (hinArchive _).2 ⟨way, rfl, hkept⟩
  refine ⟨_, inDirectory, inArchive, ?_, hdirectory, harchived, hinArchive, hinDirectory, hsubset,
    ⟨?_, ?_⟩⟩
  · rw [Builder.ofConfig, hpatterns]
    rfl
  · rintro hsame ⟨way, hkept, habove⟩
    obtain ⟨way', hway, hkept', hnot⟩ :=
      (hinDirectory _).1 ((hsame _).2 ((hinArchive _).2 ⟨way, rfl, hkept⟩))
    obtain ⟨content, hn, -⟩ := hkept.file
    obtain ⟨content', hn', -⟩ := hkept'.file
    rw [hplain.way_inj hn hn' hway] at habove
    exact hnot habove
  · intro hnever name
    refine ⟨hsubset name, fun hname => ?_⟩
    obtain ⟨way, rfl, hkept⟩ := (hinArchive name).1 hname
    exact (hinDirectory _).2 ⟨way, rfl, hkept, fun habove => hnever ⟨way, hkept, habove⟩⟩

end

/-! ## A file below an excluded directory -/

/-- One file, below a directory and in an archive. -/
def oneFileTree : FileSystem :=
  ⟨[("t", .directory [("d", .directory [("x", .file [])])]),
    ("z", .file (Archive.pack [⟨[100, 47, 120], 0, []⟩]))], []⟩

def oneFileEntry : Archive.Entry := ⟨"d/x", 0, 0, 0, 0, 0, 0, 0, none⟩

/-- The pattern `/*` excludes what is at the top, but not what is below that. -/
def topConfig : ScanConfig := { exclude := some ["/*"] }

def topPatterns : Ignore.Rules := ((Scanner.patternsOf topConfig).toOption).getD []

theorem Node.at?_single {name name' : Text} {m n : Node} {way : Place}
    (h : (directory [(name', m)]).at? (name :: way) = some n) :
    name = name' ∧ m.at? way = some n := by
  obtain ⟨m', hm, hat⟩ := Option.bind_eq_some_iff.1 h
  obtain ⟨rfl, rfl⟩ := Prod.mk.inj (List.mem_singleton.1 (mem_of_lookup hm))
  exact ⟨rfl, hat⟩

theorem oneFile_cases {way : List Text} {n : Node}
    (h : oneFileTree.nodeAt? ([("t" : Text)] ++ way) = some n) :
    (way = [] ∧ ∃ entries, n = .directory entries) ∨
      (way = ["d"] ∧ ∃ entries, n = .directory entries) ∨ (way = ["d", "x"] ∧ n = .file []) := by
  match way, h with
  | [], h => exact .inl ⟨rfl, _, (Option.some.inj h).symm⟩
  | [_], h =>
    obtain ⟨rfl, hd⟩ := Node.at?_single (show (Node.directory _).at? _ = _ from h)
    exact .inr (.inl ⟨rfl, _, (Option.some.inj hd).symm⟩)
  | _ :: _ :: way, h =>
    obtain ⟨rfl, hd⟩ := Node.at?_single (show (Node.directory _).at? _ = _ from h)
    obtain ⟨rfl, hx⟩ := Node.at?_single hd
    cases way with
    | nil => exact .inr (.inr ⟨rfl, (Option.some.inj hx).symm⟩)
    | cons name way => cases hx

theorem isSpelt_oneFile : (⟨.root, ["t"]⟩ : Path).IsSpelt :=
  Path.isSpelt_ofText "/t"

theorem isPlain_oneFile : oneFileTree.IsPlain ⟨.root, ["t"]⟩ ["t"] where
  located := by cbv
  directory := ⟨_, rfl⟩
  noLinks way target h := by
    rcases oneFile_cases h with ⟨-, entries, hn⟩ | ⟨-, entries, hn⟩ | ⟨-, hn⟩ <;> cases hn
  names way n h := by
    have hd : Path.IsName "d" := ⟨⟨by decide, by decide, by decide⟩, by decide⟩
    have hx : Path.IsName "x" := ⟨⟨by decide, by decide, by decide⟩, by decide⟩
    rcases oneFile_cases h with ⟨rfl, -⟩ | ⟨rfl, -⟩ | ⟨rfl, -⟩
    · simp
    · simpa using hd
    · simpa using ⟨hd, hx⟩

theorem hasNoIgnoreFile_oneFile :
    HasNoIgnoreFile oneFileTree topConfig ⟨.root, ["t"]⟩ ["t"] where
  below dirs content h := by
    have hlast : ∀ names : List Text, dirs ++ [Scan.gitignoreName] = names →
        names.getLast? = some Scan.gitignoreName := by
      rintro names rfl
      exact List.getLast?_concat
    rcases oneFile_cases h with ⟨-, entries, hn⟩ | ⟨-, entries, hn⟩ | ⟨hway, -⟩
    · cases hn
    · cases hn
    · exact absurd (hlast _ hway) (by decide)
  top := by cbv

theorem archivesFiles_oneFile : ArchivesFiles oneFileTree ["t"] [oneFileEntry] where
  each e he := by
    obtain rfl := List.mem_singleton.1 he
    exact .inr ⟨["d", "x"], [], rfl, rfl, rfl⟩
  every way content h := by
    rcases oneFile_cases h with ⟨-, entries, hn⟩ | ⟨-, entries, hn⟩ | ⟨rfl, -⟩
    · cases hn
    · cases hn
    · exact ⟨oneFileEntry, List.mem_singleton_self _, rfl⟩

theorem patternsOf_topConfig : Scanner.patternsOf topConfig = .ok topPatterns := by
  cbv

set_option maxRecDepth 8000 in
theorem archiveEntries_oneFile :
    ∃ octets, archiveEntries oneFileTree ⟨.root, ["z"]⟩ = .ok (octets, [oneFileEntry]) := by
  refine ⟨Archive.pack [⟨[100, 47, 120], 0, []⟩], ?_⟩
  cbv

/-- The pattern does not match the file, but the directory that it is in. -/
theorem excludes_topPatterns :
    KeptFile oneFileTree topConfig topPatterns ["t"] ["d", "x"] ∧
      ExcludesAbove topPatterns ["d", "x"] := by
  have hfile : topPatterns.excludes (Text.join "/" [("d" : Text), "x"]) = false := by cbv
  have habove : topPatterns.excludes (Scan.entryText ["d"] true) = true := by cbv
  exact ⟨⟨⟨[], rfl, .inl rfl⟩, hfile⟩, ["d"], ["x"], rfl, by simp, by simp, habove⟩

theorem names_differ_oneFile :
    oneFileTree.root.isTree = true ∧ oneFileTree.IsPlain ⟨.root, ["t"]⟩ ["t"] ∧
    HasNoIgnoreFile oneFileTree topConfig ⟨.root, ["t"]⟩ ["t"] ∧
    (∃ octets, archiveEntries oneFileTree ⟨.root, ["z"]⟩ = .ok (octets, [oneFileEntry])) ∧
    ArchivesFiles oneFileTree ["t"] [oneFileEntry] ∧
    ∃ b inDirectory inArchive, Builder.ofConfig topConfig = .ok b ∧
      ((b.addRoot ⟨.directory, ⟨.root, ["t"]⟩⟩).build oneFileTree).result = .ok inDirectory ∧
      ((b.addRoot ⟨.archive, ⟨.root, ["z"]⟩⟩).build oneFileTree).result = .ok inArchive ∧
      ("d/x" : Text) ∈ inArchive.names ∧ ("d/x" : Text) ∉ inDirectory.names := by
  have htree : oneFileTree.root.isTree = true := by decide
  obtain ⟨octets, harchive⟩ := archiveEntries_oneFile
  obtain ⟨hkept, habove⟩ := excludes_topPatterns
  obtain ⟨inDirectory, hdirectory, hinDirectory⟩ := isPlain_oneFile.names_directory
    isSpelt_oneFile htree hasNoIgnoreFile_oneFile patternsOf_topConfig
  obtain ⟨inArchive, harchived, hinArchive⟩ := isPlain_oneFile.names_archive
    archivesFiles_oneFile topConfig topPatterns harchive
  refine ⟨htree, isPlain_oneFile, hasNoIgnoreFile_oneFile, ⟨octets, harchive⟩,
    archivesFiles_oneFile, _, inDirectory, inArchive, ?_, hdirectory, harchived,
    (hinArchive _).2 ⟨_, rfl, hkept⟩, fun hmem => ?_⟩
  · rw [Builder.ofConfig, patternsOf_topConfig]
    rfl
  · obtain ⟨way, hway, hkept', hnot⟩ := (hinDirectory _).1 hmem
    obtain ⟨content, hn, -⟩ := hkept.file
    obtain ⟨content', hn', -⟩ := hkept'.file
    rw [isPlain_oneFile.way_inj hn hn' hway] at habove
    exact hnot habove

theorem directory_and_archive_names_oneFile :
    oneFileTree.root.isTree = true ∧ (⟨.root, ["t"]⟩ : Path).IsSpelt ∧
    oneFileTree.IsPlain ⟨.root, ["t"]⟩ ["t"] ∧
    HasNoIgnoreFile oneFileTree topConfig ⟨.root, ["t"]⟩ ["t"] ∧
    Scanner.patternsOf topConfig = .ok topPatterns ∧
    (∃ octets, archiveEntries oneFileTree ⟨.root, ["z"]⟩ = .ok (octets, [oneFileEntry])) ∧
    ArchivesFiles oneFileTree ["t"] [oneFileEntry] ∧
    ∃ b inDirectory inArchive, Builder.ofConfig topConfig = .ok b ∧
      ((b.addRoot ⟨.directory, ⟨.root, ["t"]⟩⟩).build oneFileTree).result = .ok inDirectory ∧
      ((b.addRoot ⟨.archive, ⟨.root, ["z"]⟩⟩).build oneFileTree).result = .ok inArchive ∧
      (∀ name ∈ inDirectory.names, name ∈ inArchive.names) ∧
      ¬∀ name, name ∈ inDirectory.names ↔ name ∈ inArchive.names := by
  have htree : oneFileTree.root.isTree = true := by decide
  obtain ⟨octets, harchive⟩ := archiveEntries_oneFile
  obtain ⟨b, inDirectory, inArchive, hb, hdirectory, harchived, -, -, hsubset, hsame⟩ :=
    directory_and_archive_names htree isSpelt_oneFile isPlain_oneFile hasNoIgnoreFile_oneFile
      patternsOf_topConfig harchive archivesFiles_oneFile
  exact ⟨htree, isSpelt_oneFile, isPlain_oneFile, hasNoIgnoreFile_oneFile, patternsOf_topConfig,
    ⟨octets, harchive⟩, archivesFiles_oneFile, b, inDirectory, inArchive, hb, hdirectory, harchived,
    hsubset, fun h => hsame.1 h ⟨_, excludes_topPatterns⟩⟩

end ResourceFinder
