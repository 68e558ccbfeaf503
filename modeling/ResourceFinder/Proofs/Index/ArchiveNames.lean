import ResourceFinder.Proofs.Index.Origin
import ResourceFinder.Proofs.Path.Within

/-
The names that an archive gives to an index.

An archive can have entries of any name.  Each name is taken for its first entry, and is left out for
its own spelling alone: if it ends or starts with a slash, or has a pair of dots between slashes.
What is left leads down from wherever it is joined to.
-/

namespace ResourceFinder

/-- A name under which an entry can be a resource. -/
structure IsResourceName (name : Text) : Prop where
  noDirectory : name.getLast? ≠ some (.char '/')
  relative : name.head? ≠ some (.char '/')
  down : Path.up ∉ Text.splitAt '/' name

theorem Scanner.exists_resolveEntry {root : Root} {c : Candidate} :
    (∃ l, resolveEntry root c = .ok l) ↔ IsResourceName c.raw := by
  have hunsafe : ((Path.ofText c.raw).isAbsolute ||
      (Path.ofText c.raw).segments.contains Path.up) = true ↔
      c.raw.head? = some (.char '/') ∨ Path.up ∈ Text.splitAt '/' c.raw := by
    have hsegments : (Path.ofText c.raw).segments = Path.segmentsOf c.raw := rfl
    rw [Bool.or_eq_true, Path.isAbsolute_ofText, List.contains_iff_mem, hsegments,
      Path.up_mem_segmentsOf]
  unfold resolveEntry
  constructor
  · intro hresolves
    obtain ⟨l, h⟩ := hresolves
    simp only at h
    split at h
    case isTrue => cases h
    case isFalse hlast =>
      split at h
      case isTrue => cases h
      case isFalse hsafe =>
        obtain ⟨hhead, hup⟩ := not_or.1 (mt hunsafe.2 hsafe)
        exact ⟨hlast, hhead, hup⟩
  · intro h
    have hsafe := mt hunsafe.1 (not_or.2 ⟨h.relative, h.down⟩)
    simp only [if_neg h.noDirectory, if_neg hsafe]
    exact ⟨_, rfl⟩

section

variable {fs : FileSystem} {config : ScanConfig} {patterns : Ignore.Rules}

/-- The index of an archive holds the names of its first entries that are kept and resolve. -/
theorem Builder.names_archiveRoot (config : ScanConfig) (patterns : Ignore.Rules) {p : Path}
    {octets : Bytes} {entries : List Archive.Entry}
    (harchive : archiveEntries fs p = .ok (octets, entries)) :
    ∃ i, (((ofScanner (.ofFileSystem config patterns)).addRoot ⟨.archive, p⟩).build fs).result =
        .ok i ∧
      ∀ name, name ∈ i.names ↔
        (∃ k e, FirstAt Archive.Entry.name entries k e ∧ e.name = name ∧
          Scan.Admitted config patterns e) ∧ IsResourceName name := by
  let root : Root := ⟨.archive, p⟩
  have hscan : (Scanner.ofFileSystem config patterns fs).scan root =
      Scan.ofCandidates (Scan.entryCandidates config patterns entries) :=
    Scan.ofArchive_eq harchive
  have hsound : (Scanner.ofFileSystem config patterns fs).IsSound root := by
    refine ⟨?_, fun c _ f => Scanner.resolve_ofFileSystem⟩
    rw [hscan]
    rfl
  obtain ⟨i, hi, hnames⟩ := build_addRoot (.ofFileSystem config patterns) fs hsound
  refine ⟨i, hi, fun name => (hnames name).trans ?_⟩
  have hresolve (c : Candidate) :
      (∃ l, (Scanner.ofFileSystem config patterns fs).resolve root c = .ok l) ↔
        IsResourceName c.raw := Scanner.exists_resolveEntry
  simp only [hscan, Scan.ofCandidates, hresolve, Scan.mem_entryCandidates]
  constructor
  · intro hlisted
    obtain ⟨c, ⟨k, e, hfirst, hadmitted, hlisting⟩, hname, hresource⟩ := hlisted
    subst hlisting hname
    exact ⟨⟨k, e, hfirst, rfl, hadmitted⟩, hresource⟩
  · intro hkept
    obtain ⟨⟨k, e, hfirst, hname, hadmitted⟩, hresource⟩ := hkept
    subst hname
    exact ⟨Scan.listing e, ⟨k, e, hfirst, hadmitted, rfl⟩, rfl, hresource⟩

/-- Whatever roots an index has, its resources in archives have such names. -/
theorem Builder.isResourceName_of_archive {b : Builder} {index : Index}
    (hscanner : b.scanner = .ofFileSystem config patterns)
    (hbuild : (b.build fs).result = .ok index) {r : Resource} (hr : r ∈ index.resources)
    (hkind : r.location.root.kind = .archive) : IsResourceName r.name := by
  obtain ⟨⟨kind, p⟩, hroot, c, hc, hresolve, hname⟩ := candidate_of_build hbuild hr
  rw [hscanner] at hc hresolve
  rw [Scanner.location_of_resolve hresolve] at hkind
  obtain rfl : kind = .archive := hkind
  have hraw : c.raw = c.name := by
    have hcandidates : c ∈ (Scan.ofArchive fs config patterns p).candidates := hc
    unfold Scan.ofArchive at hcandidates
    split at hcandidates
    case h_1 =>
      obtain ⟨k, e, -, -, hlisting⟩ := Scan.mem_entryCandidates.1 hcandidates
      rw [← hlisting]
      rfl
    case h_2 => cases hcandidates
  rw [hname, ← hraw]
  exact Scanner.exists_resolveEntry.1 ⟨_, hresolve⟩

end

/-- The index of an archive alone can be built if the directory of the archive can be read.  A name
is in it just if the first entry of the name is neither excluded nor too large, and the name does not
end or start with a slash and has no pair of dots among its segments.  And whatever roots an index
has, each name in it that an archive gave, joined to any directory, leads to no place outside of
that directory. -/
theorem archive_names_lead_down {config : ScanConfig} {b : Builder}
    (hconfig : Builder.ofConfig config = .ok b) (fs : FileSystem) :
    (∀ p octets entries, archiveEntries fs p = .ok (octets, entries) →
      ∃ patterns i, Scanner.patternsOf config = .ok patterns ∧
        ((b.addRoot ⟨.archive, p⟩).build fs).result = .ok i ∧
        ∀ name, name ∈ i.names ↔
          (∃ k e, FirstAt Archive.Entry.name entries k e ∧ e.name = name ∧
            Scan.Admitted config patterns e) ∧
          name.getLast? ≠ some (.char '/') ∧ name.head? ≠ some (.char '/') ∧
          Path.up ∉ Text.splitAt '/' name) ∧
    ∀ (roots : List Root) (i : Index), ((roots.foldl Builder.addRoot b).build fs).result = .ok i →
      ∀ r ∈ i.resources, r.location.root.kind = .archive →
        ∀ dir : Path, dir.IsWithin (dir.joinText r.name) := by
  have hofConfig : Builder.ofConfig config = (Scanner.patternsOf config).map fun patterns =>
      Builder.ofScanner (.ofFileSystem config patterns) := rfl
  obtain ⟨patterns, hpatterns, rfl⟩ := map_eq_ok.1 (hofConfig.symm.trans hconfig)
  constructor
  · intro p octets entries harchive
    obtain ⟨i, hi, hnames⟩ := Builder.names_archiveRoot config patterns harchive
    refine ⟨patterns, i, hpatterns, hi, fun name => (hnames name).trans (and_congr_right' ?_)⟩
    exact ⟨fun h => ⟨h.noDirectory, h.relative, h.down⟩, fun ⟨hlast, hhead, hup⟩ =>
      ⟨hlast, hhead, hup⟩⟩
  · intro roots i hbuild r hr hkind dir
    have hscanner := Builder.scanner_foldl_addRoot
      (.ofScanner (.ofFileSystem config patterns)) roots
    have hname := Builder.isResourceName_of_archive hscanner hbuild hr hkind
    exact dir.isWithin_joinText hname.relative hname.down

/-! ## An archive with names that lead elsewhere -/

def hostileArchive : Bytes :=
  Archive.pack [⟨[46, 47, 98], 0, [120]⟩, ⟨[46, 47, 46, 46, 47, 98], 0, []⟩, ⟨[47, 98], 0, []⟩,
    ⟨[98, 47], 0, []⟩, ⟨[98], 0, [120, 121]⟩, ⟨[98], 0, []⟩]

def hostileTree : FileSystem := ⟨[("z", .file hostileArchive)], []⟩

def hostileConfig : ScanConfig := { exclude := some [], filesMaxSize := 1 }

def hostileEntries : List Archive.Entry :=
  [⟨"./b", 0, 0, 2363233923, 1, 1, 0, 0, none⟩, ⟨"./../b", 0, 0, 0, 0, 0, 0, 34, none⟩,
    ⟨"/b", 0, 0, 0, 0, 0, 0, 70, none⟩, ⟨"b/", 0, 0, 0, 0, 0, 0, 102, none⟩,
    ⟨"b", 0, 0, 2414225561, 2, 2, 0, 134, none⟩, ⟨"b", 0, 0, 0, 0, 0, 0, 167, none⟩]

set_option maxRecDepth 8000 in
theorem archiveEntries_hostile :
    archiveEntries hostileTree ⟨.root, ["z"]⟩ = .ok (hostileArchive, hostileEntries) := by
  cbv

/-- Of the names only `./b` is a resource: the others lead elsewhere, or their first entry is too
large. -/
theorem archive_names_lead_down_hostile :
    let b := Builder.ofScanner (.ofFileSystem hostileConfig [])
    Builder.ofConfig hostileConfig = .ok b ∧
    archiveEntries hostileTree ⟨.root, ["z"]⟩ = .ok (hostileArchive, hostileEntries) ∧
    ∃ i, ((b.addRoot ⟨.archive, ⟨.root, ["z"]⟩⟩).build hostileTree).result = .ok i ∧
      ("./b" : Text) ∈ i.names ∧ ("./../b" : Text) ∉ i.names ∧ ("/b" : Text) ∉ i.names ∧
      ("b/" : Text) ∉ i.names ∧ ("b" : Text) ∉ i.names ∧
      ∀ r ∈ i.resources, r.location.root.kind = .archive →
        (⟨.root, ["t"]⟩ : Path).IsWithin ((⟨.root, ["t"]⟩ : Path).joinText r.name) := by
  intro b
  have hconfig : Builder.ofConfig hostileConfig = .ok b := rfl
  have hsmall : FirstAt Archive.Entry.name hostileEntries 0
      ⟨"./b", 0, 0, 2363233923, 1, 1, 0, 0, none⟩ :=
    ⟨rfl, fun j hj => absurd hj (Nat.not_lt_zero j)⟩
  have hlarge :
      FirstAt Archive.Entry.name hostileEntries 4 ⟨"b", 0, 0, 2414225561, 2, 2, 0, 134, none⟩ :=
    ⟨rfl, by decide⟩
  obtain ⟨hspec, hwithin⟩ := archive_names_lead_down hconfig hostileTree
  obtain ⟨patterns, i, hpatterns, hi, hnames⟩ := hspec _ _ _ archiveEntries_hostile
  obtain rfl : patterns = [] := (Except.ok.inj hpatterns).symm
  refine ⟨hconfig, archiveEntries_hostile, i, hi, ?_, ?_, ?_, ?_, ?_, ?_⟩
  · exact (hnames _).2 ⟨⟨0, _, hsmall, rfl, rfl, by decide⟩, by decide, by decide, by decide⟩
  · intro hmem
    exact ((hnames _).1 hmem).2.2.2 (by decide)
  · intro hmem
    exact ((hnames _).1 hmem).2.2.1 rfl
  · intro hmem
    exact ((hnames _).1 hmem).2.1 rfl
  · intro hmem
    obtain ⟨⟨k, e, hfirst, hname, hadmitted⟩, -⟩ := (hnames _).1 hmem
    have hsize := hadmitted.notTooLarge
    rw [hfirst.eq_of_name hlarge hname] at hsize
    exact absurd hsize (by decide)
  · intro r hr hkind
    exact hwithin [⟨.archive, ⟨.root, ["z"]⟩⟩] i hi r hr hkind ⟨.root, ["t"]⟩

end ResourceFinder
