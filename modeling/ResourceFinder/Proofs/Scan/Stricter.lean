import ResourceFinder.Proofs.Except.Failure
import ResourceFinder.Proofs.Scan.Archive
import ResourceFinder.Proofs.Scan.Precedence
import ResourceFinder.Proofs.Text.Trim

/-
Scans that leave out more.

A pattern that is added at the end and takes nothing back only excludes more, and so do ignore files
that did not count before; a lower limit keeps more files out for their size.  What is listed with
all of that was listed without it: a directory that was not entered is not entered now, and of an
archive it is still the first entry of a name that decides.
-/

namespace ResourceFinder

namespace Ignore

theorem trimLine_prefix (line : Text) : trimLine line <+: line := by
  unfold trimLine
  split
  case isTrue => exact List.prefix_refl line
  case isFalse =>
    obtain ⟨run, hrun, -⟩ := Text.exists_append_dropEndWhile CodePoint.isBlank line
    exact ⟨run, hrun.symm⟩

theorem Pattern.negated_of_ofLine {line : Text} {p : Pattern}
    (hline : line.head? ≠ some (.char '!')) (h : ofLine line = .ok (some p)) :
    p.negated = false := by
  have hmark : ∀ rest, trimLine line ≠ .char '!' :: rest := by
    intro rest hrest
    obtain ⟨run, hrun⟩ := trimLine_prefix line
    rw [← hrun, hrest] at hline
    exact hline rfl
  unfold ofLine at h
  split at h
  case h_1 => cases h
  case h_2 => cases h
  case h_3 =>
    split at h
    case h_1 t negated body heq =>
      have hnegated : negated = false := by
        split at heq
        case h_1 rest hrest => exact absurd hrest (hmark rest)
        case h_2 => exact (Prod.mk.inj heq).1.symm
      split at h
      case h_1 => cases h
      case h_2 => cases h
      case h_3 =>
        obtain rfl := Option.some.inj (Except.ok.inj h)
        exact hnegated

theorem Rule.negated_of_ofLine {line : Text} {r : Rule} (hline : line.head? ≠ some (.char '!'))
    (h : ofLine line = .ok (some r)) : r.negated = false := by
  unfold ofLine at h
  cases hpattern : Pattern.ofLine line with
  | error e =>
    rw [hpattern] at h
    cases h
  | ok p? =>
    rw [hpattern] at h
    cases p? with
    | none => cases h
    | some p =>
      obtain ⟨regex, -, hr⟩ := map_eq_ok.1 h
      obtain rfl := Option.some.inj hr
      exact Pattern.negated_of_ofLine hline hpattern

namespace Rules

variable {lines more : List Text} {rules : Rules}

theorem negated_of_ofLines (hlines : ∀ line ∈ lines, line.head? ≠ some (.char '!'))
    (h : ofLines lines = .ok rules) : ∀ r ∈ rules, r.negated = false := by
  intro r hr
  obtain ⟨found, hfound, rfl⟩ := map_eq_ok.1 h
  obtain ⟨r?, hr?, rfl⟩ := List.mem_filterMap.1 hr
  obtain ⟨line, hline, hrule⟩ := mem_of_mapM hfound hr?
  exact Rule.negated_of_ofLine (hlines line hline) hrule

theorem ofLines_append (h : ofLines (lines ++ more) = .ok rules) :
    ∃ first last, ofLines lines = .ok first ∧ ofLines more = .ok last ∧ rules = first ++ last := by
  obtain ⟨found, hfound, rfl⟩ := map_eq_ok.1 h
  obtain ⟨first, last, hfirst, hlast, rfl⟩ := mapM_append_eq_ok hfound
  exact ⟨_, _, map_eq_ok.2 ⟨first, hfirst, rfl⟩, map_eq_ok.2 ⟨last, hlast, rfl⟩,
    List.filterMap_append⟩

/-- A rule at the end that takes nothing back decides only where it matches, and excludes there. -/
theorem excludes_append {last : Rules} {path : Text} (hlast : ∀ r ∈ last, r.negated = false)
    (h : rules.excludes path = true) : Rules.excludes (rules ++ last) path = true := by
  rw [excludes_iff, verdict?_eq, List.filter_append, List.getLast?_append]
  cases hdecides : (last.filter (·.matches path)).getLast? with
  | none =>
    rw [excludes_iff, verdict?_eq] at h
    exact h
  | some r =>
    have hr : r ∈ last := (List.mem_filter.1 (List.mem_of_getLast? hdecides)).1
    show some (!r.negated) = some true
    rw [hlast r hr]
    rfl

end Rules
end Ignore

/-- The second configuration leaves out what the first one does, and perhaps more: by further
patterns that take nothing back, by the ignore files in directories, or by a lower limit for the
size of files. -/
structure ScanConfig.Stricter (config config' : ScanConfig) : Prop where
  toolName : config'.toolName = config.toolName
  exclude : config'.exclude = config.exclude
  patterns : ∃ more, config'.extendExclude = config.extendExclude ++ more ∧
    ∀ line ∈ more, line.head? ≠ some (.char '!')
  ignoreFiles : config.respectGitignore = true → config'.respectGitignore = true
  size : config'.filesMaxSize = config.filesMaxSize ∨
    0 < config'.filesMaxSize ∧
      (config.filesMaxSize = 0 ∨ config'.filesMaxSize < config.filesMaxSize)

namespace Scan

section

variable {config config' : ScanConfig} {patterns patterns' : Ignore.Rules} {fs : FileSystem}

theorem excludes_of_stricter (h : config.Stricter config')
    (hpatterns : Scanner.patternsOf config = .ok patterns)
    (hpatterns' : Scanner.patternsOf config' = .ok patterns') {path : Text}
    (hexcludes : patterns.excludes path = true) : patterns'.excludes path = true := by
  obtain ⟨more, hmore, hplain⟩ := h.patterns
  have heffective : config'.effectiveExclude = config.effectiveExclude ++ more := by
    rw [ScanConfig.effectiveExclude, ScanConfig.effectiveExclude, h.exclude, hmore,
      List.append_assoc]
  have hlines : Ignore.Rules.ofLines (config.effectiveExclude ++ more) = .ok patterns' :=
    heffective ▸ mapError_eq_ok hpatterns'
  obtain ⟨first, last, hfirst, hlast, rfl⟩ := Ignore.Rules.ofLines_append hlines
  obtain rfl := Except.ok.inj (hfirst.symm.trans (mapError_eq_ok hpatterns))
  exact Ignore.Rules.excludes_append (Ignore.Rules.negated_of_ofLines hplain hlast) hexcludes

theorem isTooLarge_of_stricter (h : config.Stricter config') {size : Nat}
    (hlarge : config.isTooLarge size = true) : config'.isTooLarge size = true := by
  unfold ScanConfig.isTooLarge at hlarge ⊢
  rw [Bool.and_eq_true, decide_eq_true_iff, decide_eq_true_iff] at hlarge ⊢
  obtain hsame | ⟨hpositive, hzero | hlower⟩ := h.size
  · rw [hsame]
    exact hlarge
  · exact absurd hzero hlarge.1
  · omega

/-! ## Directories -/

namespace DirectoryScan

variable {d d' : DirectoryScan}

/-- The second scan is one of the same directory that leaves out more. -/
structure Stricter (d d' : DirectoryScan) : Prop where
  fs : d'.fs = d.fs
  base : d'.base = d.base
  toolRules : d'.toolRules = d.toolRules
  config : d.config.Stricter d'.config
  patterns : ∀ path, d.patterns.excludes path = true → d'.patterns.excludes path = true

theorem Stricter.hides (h : d.Stricter d') {names : List Text} {isDirectory : Bool}
    (hhidden : d.hides names isDirectory = true) : d'.hides names isDirectory = true := by
  unfold DirectoryScan.hides exclusion at hhidden ⊢
  rw [Exclusion.excludes_iff] at hhidden ⊢
  obtain hexcluded | ⟨rules, hrules, hexcluded⟩ | ⟨above, rules, hmem, hexcluded⟩ := hhidden
  · exact .inl (h.patterns _ hexcluded)
  · exact .inr (.inl ⟨rules, h.toolRules.trans hrules, hexcluded⟩)
  · obtain ⟨hrespect, habove, hrules⟩ := mem_ignoreChain.1 hmem
    refine .inr (.inr ⟨above, rules, mem_ignoreChain.2 ⟨?_, habove, ?_⟩, hexcluded⟩)
    · exact h.config.ignoreFiles hrespect
    · rw [h.fs, h.base]
      exact hrules

theorem Stricter.isTooLarge (h : d.Stricter d') {p : Path} (hlarge : d.isTooLarge p = true) :
    d'.isTooLarge p = true := by
  unfold DirectoryScan.isTooLarge at hlarge ⊢
  rw [h.fs]
  cases hsize : d.fs.size? p with
  | none =>
    rw [hsize] at hlarge
    cases hlarge
  | some size =>
    rw [hsize] at hlarge
    exact isTooLarge_of_stricter h.config hlarge

theorem Stricter.lists (h : d.Stricter d') {names : List Text} (hlists : d'.lists names = true) :
    d.lists names = true := by
  have htool : d'.config.ignoreFileName = d.config.ignoreFileName := by
    rw [ScanConfig.ignoreFileName, ScanConfig.ignoreFileName, h.config.toolName]
  unfold DirectoryScan.lists at hlists ⊢
  rw [h.base, htool] at hlists
  simp only [Bool.and_eq_true, Bool.not_eq_true', ← Bool.not_eq_true] at hlists ⊢
  obtain ⟨⟨hnotTool, hkept⟩, hsmall⟩ := hlists
  exact ⟨⟨hnotTool, fun hhidden => hkept (h.hides hhidden)⟩,
    fun hlarge => hsmall (h.isTooLarge hlarge)⟩

/-- The ways of the stricter walk are ways of the other one: what is above them is entered there
too. -/
theorem Stricter.listed (h : d.Stricter d') {folder : Folder} {names way : List Text}
    (hway : way ∈ d'.listed names folder) : way ∈ d.listed names folder := by
  obtain ⟨dirs, file, g, heq, hreaches, hfile, hopen, hlists⟩ := mem_listed.1 hway
  refine mem_listed.2 ⟨dirs, file, g, heq, hreaches, hfile, fun above below hdirs hne => ?_,
    h.lists hlists⟩
  have hentered := hopen above below hdirs hne
  rw [← Bool.not_eq_true] at hentered ⊢
  exact fun hhidden => hentered (h.hides hhidden)

end DirectoryScan

/-- Of two scans of a directory that have come to their end, the stricter one lists nothing that the
other one does not. -/
theorem ofDirectory_subset (h : config.Stricter config')
    (hpatterns : Scanner.patternsOf config = .ok patterns)
    (hpatterns' : Scanner.patternsOf config' = .ok patterns') {base : Path}
    (hend : (ofDirectory fs config patterns base).failure = none)
    (hend' : (ofDirectory fs config' patterns' base).failure = none) :
    (ofDirectory fs config' patterns' base).candidates ⊆
      (ofDirectory fs config patterns base).candidates := by
  obtain ⟨toolRules, htool, hscan⟩ := ofDirectory_of_end hend
  obtain ⟨toolRules', htool', hscan'⟩ := ofDirectory_of_end hend'
  have hname : config'.ignoreFileName = config.ignoreFileName := by
    rw [ScanConfig.ignoreFileName, ScanConfig.ignoreFileName, h.toolName]
  obtain rfl := Except.ok.inj (htool.symm.trans (hname ▸ htool'))
  have hstricter : DirectoryScan.Stricter ⟨fs, config, patterns, base, toolRules⟩
      ⟨fs, config', patterns', base, toolRules⟩ :=
    ⟨rfl, rfl, rfl, h, fun _ => excludes_of_stricter h hpatterns hpatterns'⟩
  intro c hc
  rw [hscan'] at hc
  rw [hscan]
  obtain ⟨way, hway, rfl⟩ := List.mem_map.1 hc
  exact List.mem_map.2 ⟨way, hstricter.listed hway, rfl⟩

/-! ## Archives -/

theorem Admitted.of_stricter (h : config.Stricter config')
    (hpatterns : Scanner.patternsOf config = .ok patterns)
    (hpatterns' : Scanner.patternsOf config' = .ok patterns') {e : Archive.Entry}
    (hadmitted : Admitted config' patterns' e) : Admitted config patterns e := by
  rw [← admitsEntry_iff, admitsEntry] at hadmitted ⊢
  simp only [Bool.and_eq_true, Bool.not_eq_true', ← Bool.not_eq_true] at hadmitted ⊢
  exact ⟨fun hexcludes => hadmitted.1 (excludes_of_stricter h hpatterns hpatterns' hexcludes),
    fun hlarge => hadmitted.2 (isTooLarge_of_stricter h hlarge)⟩

theorem ofArchive_subset (h : config.Stricter config')
    (hpatterns : Scanner.patternsOf config = .ok patterns)
    (hpatterns' : Scanner.patternsOf config' = .ok patterns') {p : Path} :
    (ofArchive fs config' patterns' p).candidates ⊆ (ofArchive fs config patterns p).candidates := by
  unfold ofArchive
  cases archiveEntries fs p with
  | error f => exact List.Subset.refl _
  | ok found =>
    intro c hc
    obtain ⟨k, e, hfirst, hadmitted, hlisting⟩ := mem_entryCandidates.1 hc
    exact mem_entryCandidates.2 ⟨k, e, hfirst, hadmitted.of_stricter h hpatterns hpatterns', hlisting⟩

end

end Scan

/-- Of two scans of a root that have come to their end, the stricter one lists nothing that the other
one does not. -/
theorem Scanner.scan_subset {config config' : ScanConfig} {patterns patterns' : Ignore.Rules}
    {fs : FileSystem} (h : config.Stricter config') (hpatterns : patternsOf config = .ok patterns)
    (hpatterns' : patternsOf config' = .ok patterns') {root : Root}
    (hend : ((ofFileSystem config patterns fs).scan root).failure = none)
    (hend' : ((ofFileSystem config' patterns' fs).scan root).failure = none) :
    ((ofFileSystem config' patterns' fs).scan root).candidates ⊆
      ((ofFileSystem config patterns fs).scan root).candidates := by
  obtain ⟨kind, p⟩ := root
  cases kind with
  | directory => exact Scan.ofDirectory_subset h hpatterns hpatterns' hend hend'
  | archive => exact Scan.ofArchive_subset h hpatterns hpatterns'

end ResourceFinder
