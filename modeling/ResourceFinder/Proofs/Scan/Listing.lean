import ResourceFinder.Proofs.FileSystem.Lookup
import ResourceFinder.Proofs.Scan.Directory
import ResourceFinder.Proofs.Text.Join

/-
Which files of a directory root a scan yields.

A file is one by what stands on its way alone: real directories that nothing excludes, and at the
end an entry that is no directory, that nothing excludes and that is not too large.  The order of
the walk and the rules it has met before do not come into it.
-/

namespace ResourceFinder
namespace Scan

/-- The files below a base that count as resources: the names of the directories on the way to one
of them, and its own. -/
structure Listed (fs : FileSystem) (config : ScanConfig) (base : Path) (dirs : List Text)
    (file : Text) : Prop where
  entry : ∃ place entries, fs.HasDirectory base dirs place entries ∧
    file ∈ entries.map (·.1) ∧ fs.leadsToDirectory place file = false
  entered : ∀ above below, dirs = above ++ below → above ≠ [] →
    ¬ Excluded fs config base above true
  notExcluded : ¬ Excluded fs config base (dirs ++ [file]) false
  notIgnoreFile : base.below (dirs ++ [file]) ≠ base.joinText config.ignoreFileName
  notTooLarge : ∀ size, fs.size? (base.below (dirs ++ [file])) = some size →
    config.filesMaxSize = 0 ∨ (size : Int) ≤ config.filesMaxSize

/-- A base that is no directory has no ignore file in it. -/
theorem rulesIn_of_not_hasDirectory {fs : FileSystem} {base : Path}
    (h : ∀ place entries, ¬ fs.HasDirectory base [] place entries) :
    rulesIn fs base [] = .ok none := by
  have hbase : base.below [] = base := by
    rw [Path.below, List.append_nil]
  have hfile : fs.isFile (base.child gitignoreName) = false := by
    refine eq_false_of_ne_true fun hfile => ?_
    obtain ⟨place, entries, hplace, hnode⟩ := FileSystem.locate_of_isFile_child hfile
    exact h place entries ⟨place, hplace, (List.append_nil place).symm, hnode⟩
  rw [rulesIn, hbase, Ignore.load, hfile]
  rfl

namespace DirectoryScan

variable {d : DirectoryScan}

theorem isTooLarge_eq_false {p : Path} : d.isTooLarge p = false ↔
    ∀ size, d.fs.size? p = some size →
      d.config.filesMaxSize = 0 ∨ (size : Int) ≤ d.config.filesMaxSize := by
  rw [isTooLarge]
  cases hsize : d.fs.size? p with
  | none => simp
  | some size =>
    simp only [Option.some.injEq, forall_eq', ScanConfig.isTooLarge]
    rw [Bool.and_eq_false_iff, decide_eq_false_iff_not, decide_eq_false_iff_not]
    omega

theorem lists_iff (hpatterns : Scanner.patternsOf d.config = .ok d.patterns)
    (htool : Ignore.load d.fs (d.base.joinText d.config.ignoreFileName) = .ok d.toolRules)
    {names : List Text} (hne : names ≠ []) :
    d.lists names = true ↔ d.base.below names ≠ d.base.joinText d.config.ignoreFileName ∧
      ¬ Excluded d.fs d.config d.base names false ∧
      ∀ size, d.fs.size? (d.base.below names) = some size →
        d.config.filesMaxSize = 0 ∨ (size : Int) ≤ d.config.filesMaxSize := by
  rw [lists, Bool.and_eq_true, Bool.and_eq_true, bne_iff_ne, Bool.not_eq_true', Bool.not_eq_true',
    isTooLarge_eq_false, and_assoc, ← hides_iff hpatterns htool hne, Bool.not_eq_true]

/-- What the walk lists from the base down. -/
theorem mem_listed_folder (htree : d.fs.root.isTree = true)
    (hpatterns : Scanner.patternsOf d.config = .ok d.patterns)
    (htool : Ignore.load d.fs (d.base.joinText d.config.ignoreFileName) = .ok d.toolRules)
    {way : List Text} :
    way ∈ d.listed [] (d.fs.folder d.base) ↔
      ∃ dirs file, way = dirs ++ [file] ∧ Listed d.fs d.config d.base dirs file := by
  have hopen : ∀ above, above ≠ [] →
      (d.hides ([] ++ above) true = false ↔ ¬ Excluded d.fs d.config d.base above true) := by
    intro above hne
    rw [List.nil_append, ← hides_iff hpatterns htool hne, Bool.not_eq_true]
  have hlists : ∀ dirs file, dirs ++ [file] ≠ ([] : List Text) := by simp
  rw [mem_listed]
  constructor
  · rintro ⟨dirs, file, g, rfl, hreaches, hfile, habove, hlisted⟩
    rw [List.nil_append] at hlisted ⊢
    obtain ⟨htoolFile, hexcluded, hsize⟩ := (lists_iff hpatterns htool (hlists _ _)).1 hlisted
    refine ⟨dirs, file, rfl, ?_, fun above below hdirs hne => ?_, hexcluded, htoolFile, hsize⟩
    · exact (FileSystem.mem_files_below_folder htree).1 ⟨g, hreaches, hfile⟩
    · exact (hopen above hne).1 (habove above below hdirs hne)
  · rintro ⟨dirs, file, rfl, h⟩
    obtain ⟨g, hreaches, hfile⟩ := (FileSystem.mem_files_below_folder htree).2 h.entry
    refine ⟨dirs, file, g, rfl, hreaches, hfile, fun above below hdirs hne => ?_, ?_⟩
    · exact (hopen above hne).2 (h.entered above below hdirs hne)
    · exact (lists_iff hpatterns htool (hlists _ _)).2
        ⟨h.notIgnoreFile, h.notExcluded, h.notTooLarge⟩

end DirectoryScan

theorem Listed.slash_not_mem {fs : FileSystem} (htree : fs.root.isTree = true)
    {config : ScanConfig} {base : Path} {dirs : List Text} {file : Text}
    (h : Listed fs config base dirs file) : ∀ t ∈ dirs ++ [file], .char '/' ∉ t := by
  obtain ⟨place, entries, hhas, hfile, -⟩ := h.entry
  exact hhas.slash_not_mem htree hfile

/-- The path of a listed file tells its names. -/
theorem Listed.eq_of_join {fs : FileSystem} (htree : fs.root.isTree = true) {config : ScanConfig}
    {base : Path} {dirs dirs' : List Text} {file file' : Text} (h : Listed fs config base dirs file)
    (hslash : ∀ t ∈ dirs' ++ [file'], .char '/' ∉ t)
    (heq : Text.join "/" (dirs ++ [file]) = Text.join "/" (dirs' ++ [file'])) :
    dirs ++ [file] = dirs' ++ [file'] :=
  Text.join_inj (by simp) (by simp) (h.slash_not_mem htree) hslash heq

/-- Where every ignore file of a directory root can be read, the scan of it is its walk. -/
theorem ofDirectory_eq {fs : FileSystem} {config : ScanConfig} {base : Path}
    {patterns : Ignore.Rules} {toolRules : Option Ignore.Rules} (htree : fs.root.isTree = true)
    (htool : Ignore.load fs (base.joinText config.ignoreFileName) = .ok toolRules)
    (hignore : config.respectGitignore = true → ∀ dirs place entries,
      fs.HasDirectory base dirs place entries → ∃ rules, rulesIn fs base dirs = .ok rules) :
    let d : DirectoryScan := ⟨fs, config, patterns, base, toolRules⟩
    ofDirectory fs config patterns base =
      ofCandidates ((d.listed [] (fs.folder base)).map d.candidate) := by
  intro d
  have hrules : ∀ way g, (fs.folder base).Reaches way g → d.HasRules way := by
    intro way g hreaches hrespect
    rcases FileSystem.reaches_folder_cases htree hreaches with ⟨place, below, hhas, -⟩ |
      ⟨hnone, rfl, -⟩
    · exact hignore hrespect way place below hhas
    · exact ⟨none, rulesIn_of_not_hasDirectory hnone⟩
  have habove : ∀ way, way <+: [] → d.HasRules way := by
    intro way hway
    obtain rfl := List.prefix_nil.1 hway
    exact hrules [] _ (.here _)
  obtain ⟨cache, hscan, -⟩ := DirectoryScan.scanFolder_eq habove hrules [] cacheSound_nil
  rw [ofDirectory, htool]
  exact congrArg Prod.fst hscan

end Scan
end ResourceFinder
