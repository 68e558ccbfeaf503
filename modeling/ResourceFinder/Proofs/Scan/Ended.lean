import ResourceFinder.Proofs.Scan.Listing

/-
Scans that come to their end.

Where a scan has not failed, every ignore file that it asked for could be read, whatever is in those
that it did not ask for.  Then its walk is the one without a cache, and it lists the files that count
as resources.
-/

namespace ResourceFinder
namespace Scan

theorem failure_append_eq_none {a b : Scan} (h : (a.append b).failure = none) :
    a.failure = none ∧ b.failure = none := by
  unfold append at h
  cases ha : a.failure with
  | none =>
    simp only [ha] at h
    exact ⟨rfl, h⟩
  | some f =>
    simp only [ha] at h
    cases h

namespace DirectoryScan

variable {d : DirectoryScan} {cache : RuleCache}

/-- What a scan of one folder comes to from any sound cache, if it comes to its end. -/
def ListsAtEnd (d : DirectoryScan) (names : List Text) (folder : Folder) : Prop :=
  ∀ cache, CacheSound d.fs d.base cache → (d.scanFolder names cache folder).1.failure = none →
    (d.scanFolder names cache folder).1 = ofCandidates ((d.listed names folder).map d.candidate) ∧
      CacheSound d.fs d.base (d.scanFolder names cache folder).2

theorem scanFolders_of_end {names : List Text} {folders : List (Text × Folder)}
    (h : ∀ x ∈ folders, d.ListsAtEnd (names ++ [x.1]) x.2) (hcache : CacheSound d.fs d.base cache)
    (hend : (d.scanFolders (d.ignoreChain names) names cache folders).1.failure = none) :
    (d.scanFolders (d.ignoreChain names) names cache folders).1 =
        ofCandidates ((d.listedBelow names folders).map d.candidate) ∧
      CacheSound d.fs d.base (d.scanFolders (d.ignoreChain names) names cache folders).2 := by
  induction folders generalizing cache with
  | nil => exact ⟨rfl, hcache⟩
  | cons x rest ih =>
    obtain ⟨name, folder⟩ := x
    obtain ⟨hfolder, hrest⟩ := List.forall_mem_cons.1 h
    rw [scanFolders, excludes_ignoreChain] at hend ⊢
    rw [listedBelow]
    by_cases hhidden : d.hides (names ++ [name]) true = true
    · rw [if_pos hhidden] at hend ⊢
      rw [if_pos hhidden]
      exact ih hrest hcache hend
    · rw [if_neg hhidden] at hend ⊢
      rw [if_neg hhidden]
      obtain ⟨hhere, hmore⟩ := failure_append_eq_none hend
      obtain ⟨hscan, hcache₁⟩ := hfolder cache hcache hhere
      obtain ⟨hscan', hcache₂⟩ := ih hrest hcache₁ hmore
      refine ⟨?_, hcache₂⟩
      simp only [hscan, hscan', ofCandidates_append, List.map_append]

theorem scanFolder_of_end (folder : Folder) (names : List Text) : d.ListsAtEnd names folder := by
  induction folder using Folder.induct generalizing names with
  | mk files folders ih =>
    intro cache hcache hend
    rw [scanFolder] at hend ⊢
    cases hchain : d.chain cache names with
    | error e =>
      rw [hchain] at hend
      cases hend
    | ok found =>
      obtain ⟨chain, cache₁⟩ := found
      obtain ⟨rfl, hcache₁⟩ := chain_eq_ok hcache hchain
      rw [hchain] at hend
      simp only at hend ⊢
      obtain ⟨-, hbelow⟩ := failure_append_eq_none hend
      obtain ⟨hscan, hcache₂⟩ := scanFolders_of_end (fun x hx => ih x hx _) hcache₁ hbelow
      refine ⟨?_, hcache₂⟩
      rw [hscan, listed, filter_admits_ignoreChain, ofCandidates_append, List.map_append]

end DirectoryScan

section

variable {fs : FileSystem} {config : ScanConfig} {base : Path} {patterns : Ignore.Rules}

/-- The scan of a directory that has come to its end is its walk, and the ignore file at the top has
been read. -/
theorem ofDirectory_of_end (hend : (ofDirectory fs config patterns base).failure = none) :
    ∃ toolRules, Ignore.load fs (base.joinText config.ignoreFileName) = .ok toolRules ∧
      let d : DirectoryScan := ⟨fs, config, patterns, base, toolRules⟩
      ofDirectory fs config patterns base =
        ofCandidates ((d.listed [] (fs.folder base)).map d.candidate) := by
  unfold ofDirectory at hend ⊢
  cases htool : Ignore.load fs (base.joinText config.ignoreFileName) with
  | error e =>
    rw [htool] at hend
    cases hend
  | ok toolRules =>
    rw [htool] at hend
    exact ⟨toolRules, rfl,
      (DirectoryScan.scanFolder_of_end (fs.folder base) [] [] cacheSound_nil hend).1⟩

/-- What a scan that has come to its end lists are the files that count. -/
theorem mem_names_of_end (htree : fs.root.isTree = true)
    (hpatterns : Scanner.patternsOf config = .ok patterns)
    (hend : (ofDirectory fs config patterns base).failure = none) {dirs : List Text} {file : Text}
    (hslash : ∀ t ∈ dirs ++ [file], .char '/' ∉ t) :
    Text.join "/" (dirs ++ [file]) ∈
        (ofDirectory fs config patterns base).candidates.map Candidate.name ↔
      Listed fs config base dirs file := by
  obtain ⟨toolRules, htool, hscan⟩ := ofDirectory_of_end hend
  have hmem : ∀ {way}, way ∈ DirectoryScan.listed ⟨fs, config, patterns, base, toolRules⟩ []
      (fs.folder base) ↔ ∃ dirs file, way = dirs ++ [file] ∧ Listed fs config base dirs file :=
    DirectoryScan.mem_listed_folder htree hpatterns htool
  rw [hscan, ofCandidates, List.map_map, List.mem_map]
  constructor
  · rintro ⟨way, hway, heq⟩
    obtain ⟨dirs', file', rfl, h⟩ := hmem.1 hway
    obtain ⟨rfl, hfile⟩ := List.append_inj' (h.eq_of_join htree hslash heq) rfl
    obtain rfl := List.singleton_inj.1 hfile
    exact h
  · intro h
    exact ⟨dirs ++ [file], hmem.2 ⟨dirs, file, rfl, h⟩, rfl⟩

end

end Scan
end ResourceFinder
