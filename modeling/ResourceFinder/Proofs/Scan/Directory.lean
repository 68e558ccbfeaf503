import ResourceFinder.Proofs.FileSystem.Folder
import ResourceFinder.Proofs.Scan.Exclusion

/-
The walk of a scan through a directory, without its cache.

Where every ignore file on the way can be read, a scan lists the same files whatever its cache
holds, as long as that is sound.  Which files these are can then be said without following the walk:
those in the folders that it reaches and none of whose ancestors is hidden.
-/

namespace ResourceFinder
namespace Scan
namespace DirectoryScan

variable {d : DirectoryScan}

/-- Whether a scan lists a file, given the names from the root to it. -/
def lists (d : DirectoryScan) (names : List Text) : Bool :=
  let p := d.base.below names
  p != d.base.joinText d.config.ignoreFileName && !d.hides names false && !d.isTooLarge p

theorem admits_ignoreChain {names : List Text} (file : Text) :
    d.admits (d.ignoreChain names) (names ++ [file]) = d.lists (names ++ [file]) := by
  rw [admits, lists, hides, List.dropLast_concat]

theorem excludes_ignoreChain {names : List Text} (name : Text) (isDirectory : Bool) :
    (d.exclusion (d.ignoreChain names)).excludes (names ++ [name]) isDirectory =
      d.hides (names ++ [name]) isDirectory := by
  rw [hides, List.dropLast_concat]

theorem filter_admits_ignoreChain (names files : List Text) :
    (files.map (names ++ [·])).filter (d.admits (d.ignoreChain names)) =
      (files.map (names ++ [·])).filter d.lists := by
  refine List.filter_congr fun way hway => ?_
  obtain ⟨file, -, rfl⟩ := List.mem_map.1 hway
  exact admits_ignoreChain file

mutual

/-- The ways to the files that a scan lists below a directory. -/
def listed (d : DirectoryScan) (names : List Text) : Folder → List (List Text)
  | .mk files folders =>
    (files.map (names ++ [·])).filter d.lists ++ listedBelow d names folders

def listedBelow (d : DirectoryScan) (names : List Text) : List (Text × Folder) → List (List Text)
  | [] => []
  | (name, folder) :: rest =>
    if d.hides (names ++ [name]) true then listedBelow d names rest
    else listed d (names ++ [name]) folder ++ listedBelow d names rest

end

/-! ## The scan -/

theorem ofCandidates_append (as bs : List Candidate) :
    (ofCandidates as).append (ofCandidates bs) = ofCandidates (as ++ bs) := rfl

/-- What a scan of one folder comes to, from any sound cache. -/
def Lists (d : DirectoryScan) (names : List Text) (folder : Folder) : Prop :=
  ∀ cache, CacheSound d.fs d.base cache →
    ∃ cache', d.scanFolder names cache folder =
        (ofCandidates ((d.listed names folder).map d.candidate), cache') ∧
      CacheSound d.fs d.base cache'

theorem scanFolders_eq {names : List Text} {folders : List (Text × Folder)}
    (h : ∀ x ∈ folders, d.Lists (names ++ [x.1]) x.2) {cache : RuleCache}
    (hcache : CacheSound d.fs d.base cache) :
    ∃ cache', d.scanFolders (d.ignoreChain names) names cache folders =
        (ofCandidates ((d.listedBelow names folders).map d.candidate), cache') ∧
      CacheSound d.fs d.base cache' := by
  induction folders generalizing cache with
  | nil => exact ⟨cache, rfl, hcache⟩
  | cons x rest ih =>
    obtain ⟨name, folder⟩ := x
    obtain ⟨hfolder, hrest⟩ := List.forall_mem_cons.1 h
    rw [scanFolders, listedBelow, excludes_ignoreChain]
    by_cases hhidden : d.hides (names ++ [name]) true = true
    · rw [if_pos hhidden, if_pos hhidden]
      exact ih hrest hcache
    · rw [if_neg hhidden, if_neg hhidden]
      obtain ⟨cache₁, hscan, hcache₁⟩ := hfolder cache hcache
      obtain ⟨cache₂, hmore, hcache₂⟩ := ih hrest hcache₁
      refine ⟨cache₂, ?_, hcache₂⟩
      simp only [hscan, hmore, ofCandidates_append, List.map_append]

/-- A scan lists the same files whatever a sound cache holds, and leaves it sound. -/
theorem scanFolder_eq {folder : Folder} {names : List Text}
    (habove : ∀ way, way <+: names → d.HasRules way)
    (hbelow : ∀ way g, folder.Reaches way g → d.HasRules (names ++ way)) :
    d.Lists names folder := by
  induction folder using Folder.induct generalizing names with
  | mk files folders ih =>
    intro cache hcache
    obtain ⟨cache₁, hchain, hcache₁⟩ := chain_eq hcache habove
    have hfolders : ∀ x ∈ folders, d.Lists (names ++ [x.1]) x.2 := by
      intro x hx
      have hdown : ∀ way g, x.2.Reaches way g → d.HasRules (names ++ [x.1] ++ way) := by
        intro way g hreaches
        rw [List.append_assoc]
        exact hbelow _ g (.down hx hreaches)
      -- A way to the folder below is one to this folder or the whole way there.
      refine ih x hx (fun way hway => ?_) hdown
      rcases List.prefix_concat_iff.1 hway with rfl | hway
      · simpa using hdown [] x.2 (.here x.2)
      · exact habove way hway
    obtain ⟨cache₂, hscan, hcache₂⟩ := scanFolders_eq hfolders hcache₁
    refine ⟨cache₂, ?_, hcache₂⟩
    rw [scanFolder, hchain, listed]
    simp only [hscan, filter_admits_ignoreChain, ofCandidates_append, List.map_append]

/-! ## The files listed -/

theorem mem_listedBelow {names : List Text} {folders : List (Text × Folder)} {way : List Text} :
    way ∈ d.listedBelow names folders ↔ ∃ name folder, (name, folder) ∈ folders ∧
      d.hides (names ++ [name]) true = false ∧ way ∈ d.listed (names ++ [name]) folder := by
  induction folders with
  | nil => simp [listedBelow]
  | cons x rest ih =>
    obtain ⟨name, folder⟩ := x
    rw [listedBelow]
    constructor
    · intro h
      by_cases hhidden : d.hides (names ++ [name]) true = true
      · rw [if_pos hhidden, ih] at h
        obtain ⟨name', folder', hmem, h⟩ := h
        exact ⟨name', folder', List.mem_cons_of_mem _ hmem, h⟩
      · rw [if_neg hhidden, List.mem_append, ih] at h
        rcases h with h | ⟨name', folder', hmem, h⟩
        · exact ⟨name, folder, List.mem_cons_self, eq_false_of_ne_true hhidden, h⟩
        · exact ⟨name', folder', List.mem_cons_of_mem _ hmem, h⟩
    · rintro ⟨name', folder', hmem, hhidden, h⟩
      rcases List.mem_cons.1 hmem with heq | hmem
      · obtain ⟨rfl, rfl⟩ := Prod.mk.inj heq
        rw [if_neg (by simp [hhidden])]
        exact List.mem_append_left _ h
      · have hrest := ih.2 ⟨name', folder', hmem, hhidden, h⟩
        split
        · exact hrest
        · exact List.mem_append_right _ hrest

/-- The files listed are those of the folders reached by ways that nothing hides. -/
theorem mem_listed {folder : Folder} {names way : List Text} :
    way ∈ d.listed names folder ↔ ∃ dirs file g, way = names ++ dirs ++ [file] ∧
      folder.Reaches dirs g ∧ file ∈ g.files ∧
      (∀ above below, dirs = above ++ below → above ≠ [] → d.hides (names ++ above) true = false) ∧
      d.lists way = true := by
  induction folder using Folder.induct generalizing names with
  | mk files folders ih =>
    rw [listed, List.mem_append, List.mem_filter, List.mem_map, mem_listedBelow]
    constructor
    · rintro (⟨⟨file, hfile, rfl⟩, hlists⟩ | ⟨name, folder, hmem, hhidden, h⟩)
      · refine ⟨[], file, .mk files folders, by simp, .here _, hfile, ?_, hlists⟩
        intro above below hdirs hne
        exact absurd (List.append_eq_nil_iff.1 hdirs.symm).1 hne
      · obtain ⟨dirs, file, g, rfl, hreaches, hfile, hopen, hlists⟩ := (ih _ hmem).1 h
        refine ⟨name :: dirs, file, g, by simp, .down hmem hreaches, hfile, ?_, hlists⟩
        intro above below hdirs hne
        obtain ⟨name', above, rfl⟩ := List.exists_cons_of_ne_nil hne
        obtain ⟨rfl, hrest⟩ := List.cons.inj hdirs
        by_cases habove : above = []
        · subst habove
          exact hhidden
        · have hnext := hopen above below hrest habove
          rw [List.append_assoc] at hnext
          exact hnext
    · rintro ⟨dirs, file, g, rfl, hreaches, hfile, hopen, hlists⟩
      cases hreaches with
      | here =>
        rw [List.append_nil] at hlists ⊢
        exact Or.inl ⟨⟨file, hfile, rfl⟩, hlists⟩
      | @down _ _ name below dirs _ hmem hreaches =>
        refine Or.inr ⟨name, below, hmem, hopen [name] dirs rfl (by simp), ?_⟩
        refine (ih _ hmem).2 ⟨dirs, file, g, by simp, hreaches, hfile, ?_, hlists⟩
        intro above below hdirs hne
        rw [List.append_assoc]
        exact hopen (name :: above) below (by rw [hdirs, List.cons_append]) (by simp)

/-! ## Each file once -/

theorem listed_extends {folder : Folder} {names way : List Text}
    (h : way ∈ d.listed names folder) : ∃ rest, rest ≠ [] ∧ way = names ++ rest := by
  obtain ⟨dirs, file, g, rfl, -⟩ := mem_listed.1 h
  exact ⟨dirs ++ [file], by simp, by simp⟩

theorem nodup_listedBelow {names : List Text} {folders : List (Text × Folder)}
    (hnames : (folders.map (·.1)).Nodup)
    (h : ∀ x ∈ folders, (d.listed (names ++ [x.1]) x.2).Nodup) :
    (d.listedBelow names folders).Nodup := by
  induction folders with
  | nil => exact List.nodup_nil
  | cons x rest ih =>
    obtain ⟨name, folder⟩ := x
    rw [List.map_cons, List.nodup_cons] at hnames
    obtain ⟨hfolder, hrest⟩ := List.forall_mem_cons.1 h
    rw [listedBelow]
    split
    · exact ih hnames.2 hrest
    · refine List.nodup_append.2 ⟨hfolder, ih hnames.2 hrest, ?_⟩
      rintro way hway _ hway' rfl
      obtain ⟨tail, -, heq⟩ := listed_extends hway
      obtain ⟨name', folder', hmem, -, hlisted⟩ := mem_listedBelow.1 hway'
      obtain ⟨tail', -, heq'⟩ := listed_extends hlisted
      rw [heq', List.append_assoc, List.append_assoc, List.append_cancel_left_eq] at heq
      obtain rfl := (List.cons.inj heq).1
      exact hnames.1 (List.mem_map.2 ⟨_, hmem, rfl⟩)

/-- In folders whose names are distinct, no file is listed twice. -/
theorem nodup_listed {folder : Folder} {names : List Text}
    (h : ∀ way g, folder.Reaches way g → g.files.Nodup ∧ (g.folders.map (·.1)).Nodup) :
    (d.listed names folder).Nodup := by
  induction folder using Folder.induct generalizing names with
  | mk files folders ih =>
    obtain ⟨hfiles, hfolders⟩ := h [] _ (.here _)
    rw [listed]
    refine List.nodup_append.2 ⟨?_, ?_, ?_⟩
    · refine List.Nodup.filter _ (hfiles.map fun a b heq => ?_)
      exact List.singleton_inj.1 (List.append_cancel_left heq)
    · exact nodup_listedBelow hfolders fun x hx =>
        ih x hx fun way g hreaches => h _ g (.down hx hreaches)
    · -- A file below has a longer way to it.
      rintro way hway _ hway' rfl
      obtain ⟨file, -, rfl⟩ := List.mem_map.1 (List.mem_filter.1 hway).1
      obtain ⟨name, folder, -, -, hlisted⟩ := mem_listedBelow.1 hway'
      obtain ⟨rest, hrest, heq⟩ := listed_extends hlisted
      rw [List.append_assoc, List.append_cancel_left_eq] at heq
      exact hrest (List.cons.inj heq).2.symm

end DirectoryScan
end Scan
end ResourceFinder
