import Mathlib.Data.List.Induction
import ResourceFinder.Proofs.Scan.Ended

/-
Which of several ignore files decides.

Of the patterns of one ignore file the last one that matches decides.  A scan asks each file on the
way to an entry for its own decision, and one that excludes is enough.  Reading the files as one
sequence of patterns, from the top down, would let the last pattern of all decide.  The two differ
where the last of the files that have something to say takes back what one above it excludes.
-/

namespace ResourceFinder

namespace Ignore

def Rule.matches (r : Rule) (path : Text) : Bool := Regex.search r.regex (dropHere path)

theorem Rules.verdict?_eq (rules : Rules) (path : Text) :
    rules.verdict? path = ((rules.filter (·.matches path)).getLast?).map (!·.negated) := by
  rw [verdict?, List.getLast?_filter]
  rfl

theorem Rules.excludes_iff {rules : Rules} {path : Text} :
    rules.excludes path = true ↔ rules.verdict? path = some true := by
  rw [excludes]
  cases rules.verdict? path <;> simp

end Ignore

/-- The last of the items that some lists hold, by what is last in each of them. -/
theorem getLast?_flatMap {α β : Type} (f : α → List β) (xs : List α) :
    (xs.flatMap f).getLast? = (xs.filterMap fun x => (f x).getLast?).getLast? := by
  induction xs using List.reverseRecOn with
  | nil => rfl
  | append_singleton xs x ih =>
    rw [List.flatMap_append, List.filterMap_append, List.getLast?_append, List.getLast?_append, ih]
    simp only [List.flatMap_cons, List.flatMap_nil, List.append_nil, List.filterMap_cons]
    cases (f x).getLast? <;> rfl

namespace Scan

section

variable (fs : FileSystem) (base : Path) (names : List Text) (isDirectory : Bool)

/-- The rules that match an entry below a base, from the ignore files in the directories on the way
to it: those from the base down, and each from its first line on. -/
def matchingRules : Ignore.Rules :=
  (ignoreFiles fs base (waysTo names.dropLast)).flatMap fun (above, rules) =>
    rules.filter (·.matches (entryText (names.drop above.length) isDirectory))

/-- What the ignore files on the way to an entry say about it, each on its own: whether it excludes
the entry, if there is a rule in it that matches. -/
def ignoreVerdicts : List Bool :=
  (ignoreFiles fs base (waysTo names.dropLast)).filterMap fun (above, rules) =>
    rules.verdict? (entryText (names.drop above.length) isDirectory)

/-- The last rule that matches is in the last file that has something to say. -/
theorem getLast?_matchingRules :
    ((matchingRules fs base names isDirectory).getLast?).map (!·.negated) =
      (ignoreVerdicts fs base names isDirectory).getLast? := by
  rw [matchingRules, getLast?_flatMap, ← List.getLast?_map, List.map_filterMap, ignoreVerdicts]
  simp only [Ignore.Rules.verdict?_eq]

end

section

variable {fs : FileSystem} {config : ScanConfig} {base : Path} {names : List Text}
  {isDirectory : Bool}

/-- Neither the patterns of the configuration nor the ignore file at the top exclude an entry. -/
structure KeptByOthers (fs : FileSystem) (config : ScanConfig) (base : Path) (names : List Text)
    (isDirectory : Bool) : Prop where
  patterns : ∀ rules, Scanner.patternsOf config = .ok rules →
    rules.excludes (entryText names isDirectory) = false
  toolFile : ∀ rules, Ignore.load fs (base.joinText config.ignoreFileName) = .ok (some rules) →
    rules.excludes (entryText names isDirectory) = false

/-- What nothing else excludes is excluded where one of the ignore files on the way excludes it. -/
theorem excluded_iff_true_mem (hrespect : config.respectGitignore = true) (hne : names ≠ [])
    (hkept : KeptByOthers fs config base names isDirectory) :
    Excluded fs config base names isDirectory ↔
      true ∈ ignoreVerdicts fs base names isDirectory := by
  rw [ignoreVerdicts, List.mem_filterMap]
  constructor
  · rintro (⟨hrules, h⟩ | ⟨hrules, h⟩ | @⟨above, below, rules, -, rfl, hbelow, hrules, h⟩)
    · rw [hkept.patterns _ hrules] at h
      cases h
    · rw [hkept.toolFile _ hrules] at h
      cases h
    · refine ⟨(above, rules), mem_ignoreFiles.2 ⟨mem_waysTo.2 ?_, hrules⟩, ?_⟩
      · rw [List.dropLast_append_of_ne_nil hbelow]
        exact List.prefix_append _ _
      · simp only [List.drop_left]
        exact Ignore.Rules.excludes_iff.1 h
  · rintro ⟨⟨above, rules⟩, hmem, h⟩
    obtain ⟨hway, hrules⟩ := mem_ignoreFiles.1 hmem
    obtain ⟨middle, hmiddle⟩ := mem_waysTo.1 hway
    have hnames : names = above ++ (middle ++ [names.getLast hne]) := by
      rw [← List.append_assoc, hmiddle, List.dropLast_concat_getLast]
    refine .byIgnoreFile hrespect hnames (by simp) hrules ?_
    rw [hnames] at h
    simp only [List.drop_left] at h
    exact Ignore.Rules.excludes_iff.2 h

theorem not_listed_of_excluded (hne : names ≠ [])
    (hexcluded : Excluded fs config base names true) {dirs : List Text} (hbelow : names <+: dirs)
    (file : Text) : ¬Listed fs config base dirs file := by
  obtain ⟨below, rfl⟩ := hbelow
  exact fun h => h.entered names below rfl hne hexcluded

/-- The last pattern of all excludes where the last file that has something to say does. -/
theorem last_excludes_iff :
    (∃ r, (matchingRules fs base names isDirectory).getLast? = some r ∧ r.negated = false) ↔
      (ignoreVerdicts fs base names isDirectory).getLast? = some true := by
  rw [← getLast?_matchingRules, Option.map_eq_some_iff]
  simp only [Bool.not_eq_true']

/-- A file on an entered way is left out for being excluded, for being the ignore file at the top,
or for its size. -/
theorem not_listed_iff {dirs : List Text} {file : Text} {place : Place}
    {entries : List (Text × Node)} (hhas : fs.HasDirectory base dirs place entries)
    (hfile : file ∈ entries.map (·.1)) (hleads : fs.leadsToDirectory place file = false)
    (hentered : ∀ above below, dirs = above ++ below → above ≠ [] →
      ¬Excluded fs config base above true) :
    ¬Listed fs config base dirs file ↔ Excluded fs config base (dirs ++ [file]) false ∨
      base.below (dirs ++ [file]) = base.joinText config.ignoreFileName ∨
      ∃ size, fs.size? (base.below (dirs ++ [file])) = some size ∧ config.filesMaxSize ≠ 0 ∧
        config.filesMaxSize < size := by
  constructor
  · intro hnot
    by_contra hkeeps
    obtain ⟨hnotExcluded, hnotTool, hsize⟩ := by simpa only [not_or] using hkeeps
    refine hnot ⟨⟨place, entries, hhas, hfile, hleads⟩, hentered, hnotExcluded, hnotTool, ?_⟩
    intro size hfileSize
    by_contra hlarge
    exact hsize ⟨size, hfileSize, by omega, by omega⟩
  · rintro (h | h | ⟨size, hfileSize, hlimit, hlarge⟩) hlisted
    · exact hlisted.notExcluded h
    · exact hlisted.notIgnoreFile h
    · rcases hlisted.notTooLarge size hfileSize with hnone | hsmall
      · exact hlimit hnone
      · omega

end

theorem last_not_true_iff {verdicts : List Bool} :
    true ∈ verdicts ∧ verdicts.getLast? ≠ some true ↔
      ∃ before, verdicts = before ++ [false] ∧ true ∈ before := by
  constructor
  · rintro ⟨hmem, hlast⟩
    rcases List.eq_nil_or_concat' verdicts with rfl | ⟨before, last, rfl⟩
    · cases hmem
    rw [List.getLast?_concat, ne_eq, Option.some.injEq, Bool.not_eq_true] at hlast
    subst hlast
    exact ⟨before, rfl, by simpa using hmem⟩
  · rintro ⟨before, rfl, hmem⟩
    exact ⟨List.mem_append_left _ hmem, by simp⟩

/-- How the ignore files on the way to an entry decide about it, where the directories on the way
are entered and no other pattern excludes it.  A file is left out of the scan, and a directory not
entered, if one of the ignore files excludes it by itself, which is to say by its last pattern that
matches.  (A file is also left out for its size, and the ignore file at the top is.)  That is so if
the last pattern of all that matches is not negated.  It is also so if that one is negated and an
ignore file further up excludes the entry: a negated pattern takes back only what stands before it
in its own file. -/
theorem ignoreFiles_precedence (fs : FileSystem) (config : ScanConfig) (base : Path)
    (patterns : Ignore.Rules) (htree : fs.root.isTree = true)
    (hpatterns : Scanner.patternsOf config = .ok patterns)
    (hrespect : config.respectGitignore = true)
    (hend : ((Scanner.ofFileSystem config patterns fs).scan ⟨.directory, base⟩).failure = none)
    (dirs : List Text) (name : Text) (isDirectory : Bool)
    (hentered : ∀ above below, dirs = above ++ below → above ≠ [] →
      ¬Excluded fs config base above true)
    (hkept : KeptByOthers fs config base (dirs ++ [name]) isDirectory) :
    let listed := ((Scanner.ofFileSystem config patterns fs).scan
      ⟨.directory, base⟩).candidates.map Candidate.name
    let names := dirs ++ [name]
    let verdicts := ignoreVerdicts fs base names isDirectory
    let gitIgnored := ∃ r, (matchingRules fs base names isDirectory).getLast? = some r ∧
      r.negated = false
    (isDirectory = false → ∀ place entries, fs.HasDirectory base dirs place entries →
      name ∈ entries.map (·.1) → fs.leadsToDirectory place name = false →
      (Text.join "/" names ∉ listed ↔ true ∈ verdicts ∨
        base.below names = base.joinText config.ignoreFileName ∨
        ∃ size, fs.size? (base.below names) = some size ∧ config.filesMaxSize ≠ 0 ∧
          config.filesMaxSize < size)) ∧
    (isDirectory = true → (Excluded fs config base names true ↔ true ∈ verdicts) ∧
      (true ∈ verdicts → ∀ way file, names <+: way → (∀ t ∈ way ++ [file], .char '/' ∉ t) →
        Text.join "/" (way ++ [file]) ∉ listed)) ∧
    (gitIgnored → true ∈ verdicts) ∧
    (true ∈ verdicts ∧ ¬gitIgnored ↔ ∃ before, verdicts = before ++ [false] ∧ true ∈ before) := by
  intro listed names verdicts gitIgnored
  have hne : names ≠ [] := by simp [names]
  have hlisted : ∀ {way file}, (∀ t ∈ way ++ [file], .char '/' ∉ t) →
      (Text.join "/" (way ++ [file]) ∈ listed ↔ Listed fs config base way file) :=
    mem_names_of_end htree hpatterns hend
  have hexcluded : Excluded fs config base names isDirectory ↔ true ∈ verdicts :=
    excluded_iff_true_mem hrespect hne hkept
  refine ⟨?_, ?_, fun hgit => ?_, ?_⟩
  · rintro rfl place entries hhas hname hfile
    rw [← hexcluded, hlisted (hhas.slash_not_mem htree hname)]
    exact not_listed_iff hhas hname hfile hentered
  · rintro rfl
    refine ⟨hexcluded, fun h way file hway hslash => ?_⟩
    rw [hlisted hslash]
    exact not_listed_of_excluded hne (hexcluded.2 h) hway file
  · exact List.mem_of_getLast? (last_excludes_iff.1 hgit)
  · have hgit : gitIgnored ↔ verdicts.getLast? = some true := last_excludes_iff
    rw [hgit]
    exact last_not_true_iff

/-! ## A file that a directory's own ignore file takes back -/

/-- The ignore file at the top excludes `x`, and the one in `d` takes that back. -/
def takenBackTree : FileSystem :=
  ⟨[(".gitignore", .file [120]),
    ("d", .directory [(".gitignore", .file [33, 120]), ("x", .file [])])], []⟩

def plainConfig : ScanConfig := { exclude := some [] }

theorem keptByOthers_takenBack (names : List Text) (isDirectory : Bool) :
    KeptByOthers takenBackTree plainConfig ⟨.root, []⟩ names isDirectory where
  patterns rules hrules := by
    obtain rfl := Except.ok.inj hrules
    rfl
  toolFile rules hrules := by
    have hnone : Ignore.load takenBackTree ((⟨.root, []⟩ : Path).joinText
        plainConfig.ignoreFileName) = .ok none := by cbv
    cases hnone.symm.trans hrules

theorem verdicts_takenBack :
    ignoreVerdicts takenBackTree ⟨.root, []⟩ ["d"] true = [] ∧
      ignoreVerdicts takenBackTree ⟨.root, []⟩ ["d", "x"] false = [true, false] := by
  constructor <;> cbv

theorem entered_takenBack (above below : List Text) (h : [("d" : Text)] = above ++ below)
    (hne : above ≠ []) : ¬Excluded takenBackTree plainConfig ⟨.root, []⟩ above true := by
  obtain rfl : above = [("d" : Text)] := by
    cases above with
    | nil => exact absurd rfl hne
    | cons name above =>
      obtain ⟨rfl, hrest⟩ := List.cons.inj h
      rw [(List.append_eq_nil_iff.1 hrest.symm).1]
  rw [excluded_iff_true_mem rfl (by simp) (keptByOthers_takenBack _ _), verdicts_takenBack.1]
  simp

theorem scan_takenBack :
    (Scanner.ofFileSystem plainConfig [] takenBackTree).scan ⟨.directory, ⟨.root, []⟩⟩ =
      ofCandidates [⟨".gitignore", "/.gitignore"⟩, ⟨"d/.gitignore", "/d/.gitignore"⟩] := by
  cbv

/-- The last pattern that matches the file is negated, and yet the scan leaves it out. -/
theorem takenBack_left_out :
    let scan := (Scanner.ofFileSystem plainConfig [] takenBackTree).scan ⟨.directory, ⟨.root, []⟩⟩
    scan.failure = none ∧
      (∀ above below, [("d" : Text)] = above ++ below → above ≠ [] →
        ¬Excluded takenBackTree plainConfig ⟨.root, []⟩ above true) ∧
      KeptByOthers takenBackTree plainConfig ⟨.root, []⟩ ["d", "x"] false ∧
      ((matchingRules takenBackTree ⟨.root, []⟩ ["d", "x"] false).getLast?).map (!·.negated) =
        some false ∧
      ("d/x" : Text) ∉ scan.candidates.map Candidate.name := by
  intro scan
  have hscan : scan = _ := scan_takenBack
  refine ⟨by rw [hscan]; rfl, entered_takenBack, keptByOthers_takenBack _ _, ?_, ?_⟩
  · rw [getLast?_matchingRules, verdicts_takenBack.2]
    rfl
  · rw [hscan]
    decide

theorem ignoreFiles_precedence_takenBack :
    takenBackTree.root.isTree = true ∧ Scanner.patternsOf plainConfig = .ok [] ∧
    plainConfig.respectGitignore = true ∧
    ((Scanner.ofFileSystem plainConfig [] takenBackTree).scan
      ⟨.directory, ⟨.root, []⟩⟩).failure = none ∧
    (∀ above below, [("d" : Text)] = above ++ below → above ≠ [] →
      ¬Excluded takenBackTree plainConfig ⟨.root, []⟩ above true) ∧
    KeptByOthers takenBackTree plainConfig ⟨.root, []⟩ ["d", "x"] false ∧
    (Text.join "/" [("d" : Text), "x"] ∉ ((Scanner.ofFileSystem plainConfig [] takenBackTree).scan
      ⟨.directory, ⟨.root, []⟩⟩).candidates.map Candidate.name) ∧
    ¬∃ r, (matchingRules takenBackTree ⟨.root, []⟩ ["d", "x"] false).getLast? = some r ∧
      r.negated = false := by
  have htree : takenBackTree.root.isTree = true := by decide
  have hend : ((Scanner.ofFileSystem plainConfig [] takenBackTree).scan
      ⟨.directory, ⟨.root, []⟩⟩).failure = none := by
    rw [scan_takenBack]
    rfl
  have hroot : takenBackTree.locate ⟨.root, []⟩ = .ok [] := by cbv
  have hleads : takenBackTree.leadsToDirectory ["d"] "x" = false := by cbv
  obtain ⟨hfile, -, -, hdiffer⟩ := ignoreFiles_precedence takenBackTree plainConfig ⟨.root, []⟩ []
    htree rfl rfl hend ["d"] "x" false entered_takenBack (keptByOthers_takenBack _ _)
  obtain ⟨htrue, hgit⟩ := hdiffer.2 ⟨[true], verdicts_takenBack.2, by simp⟩
  refine ⟨htree, rfl, rfl, hend, entered_takenBack, keptByOthers_takenBack _ _, ?_, hgit⟩
  exact (hfile rfl ["d"] [(".gitignore", .file [33, 120]), ("x", .file [])]
    ⟨[], hroot, rfl, rfl⟩ (by simp) hleads).2 (.inl htrue)

end Scan
end ResourceFinder
