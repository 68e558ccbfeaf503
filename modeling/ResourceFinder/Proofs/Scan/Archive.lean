import ResourceFinder.Proofs.Archive.Packed
import ResourceFinder.Proofs.Archive.Reading
import ResourceFinder.Proofs.Index.Distinct
import ResourceFinder.Scan.FileSystem

/-
Which entries of an archive a scan lists, and what is read under their names.

An archive may hold several entries of one name.  Scanning it and reading from it go through its
entries separately, and both settle on the first one: a name is listed for its first entry, by what
that one is, and what is read under the name is what that one holds.
-/

namespace ResourceFinder
namespace Scan

/-- Whether an entry counts as a resource. -/
structure Admitted (config : ScanConfig) (patterns : Ignore.Rules) (e : Archive.Entry) : Prop where
  notExcluded : patterns.excludes e.name = false
  notTooLarge : config.filesMaxSize = 0 ∨ (e.size : Int) ≤ config.filesMaxSize

theorem admitsEntry_iff {config : ScanConfig} {patterns : Ignore.Rules} {e : Archive.Entry} :
    admitsEntry config patterns e = true ↔ Admitted config patterns e := by
  have hsize : config.isTooLarge e.size = false ↔
      config.filesMaxSize = 0 ∨ (e.size : Int) ≤ config.filesMaxSize := by
    rw [ScanConfig.isTooLarge, Bool.and_eq_false_iff, decide_eq_false_iff_not,
      decide_eq_false_iff_not]
    omega
  rw [admitsEntry, Bool.and_eq_true, Bool.not_eq_true', Bool.not_eq_true', hsize]
  exact ⟨fun h => ⟨h.1, h.2⟩, fun h => ⟨h.notExcluded, h.notTooLarge⟩⟩

/-- What a scan lists for an entry. -/
def listing (e : Archive.Entry) : Candidate := ⟨e.name, e.name⟩

section

variable {config : ScanConfig} {patterns : Ignore.Rules} {entries : List Archive.Entry}

theorem ofArchive_eq {fs : FileSystem} {p : Path} {octets : Bytes}
    (harchive : archiveEntries fs p = .ok (octets, entries)) :
    ofArchive fs config patterns p = ofCandidates (entryCandidates config patterns entries) := by
  rw [ofArchive, harchive]

/-- What is listed comes from places in the archive, in their order: those of the first entries that
count. -/
theorem exists_listed_places (config : ScanConfig) (patterns : Ignore.Rules)
    (entries : List Archive.Entry) :
    ∃ places : List Nat, places.Pairwise (· < ·) ∧
      entryCandidates config patterns entries =
        places.filterMap (fun k => entries[k]?.map listing) ∧
      ∀ k, k ∈ places ↔
        ∃ e, FirstAt Archive.Entry.name entries k e ∧ Admitted config patterns e := by
  obtain ⟨places, hascending, hkept, hplaces⟩ :=
    exists_places Archive.Entry.name entries (admitsEntry config patterns)
  simp only [admitsEntry_iff] at hplaces
  refine ⟨places, hascending, ?_, hplaces⟩
  show ((distinctBy _ entries).filter _).map listing = _
  rw [hkept, List.map_filterMap]

theorem mem_entryCandidates {c : Candidate} :
    c ∈ entryCandidates config patterns entries ↔
      ∃ k e, FirstAt Archive.Entry.name entries k e ∧ Admitted config patterns e ∧
        listing e = c := by
  obtain ⟨places, -, hcandidates, hplaces⟩ := exists_listed_places config patterns entries
  rw [hcandidates, List.mem_filterMap]
  constructor
  · rintro ⟨k, hk, hc⟩
    obtain ⟨e, hfirst, hadmitted⟩ := (hplaces k).1 hk
    rw [hfirst.item] at hc
    exact ⟨k, e, hfirst, hadmitted, Option.some.inj hc⟩
  · rintro ⟨k, e, hfirst, hadmitted, rfl⟩
    refine ⟨k, (hplaces k).2 ⟨e, hfirst, hadmitted⟩, ?_⟩
    rw [hfirst.item]
    rfl

/-- A name is listed for what its first entry is. -/
theorem mem_names_entryCandidates {k : Nat} {e : Archive.Entry}
    (hfirst : FirstAt Archive.Entry.name entries k e) :
    e.name ∈ (entryCandidates config patterns entries).map Candidate.name ↔
      Admitted config patterns e := by
  rw [List.mem_map]
  constructor
  · rintro ⟨c, hc, hname⟩
    obtain ⟨k', e', hfirst', hadmitted, rfl⟩ := mem_entryCandidates.1 hc
    rwa [hfirst'.eq_of_name hfirst hname] at hadmitted
  · intro hadmitted
    exact ⟨listing e, mem_entryCandidates.2 ⟨k, e, hfirst, hadmitted, rfl⟩, rfl⟩

theorem nodup_names_entryCandidates :
    ((entryCandidates config patterns entries).map Candidate.name).Nodup := by
  have hnames : (entryCandidates config patterns entries).map Candidate.name =
      ((distinctBy Archive.Entry.name entries).filter (admitsEntry config patterns)).map
        Archive.Entry.name := by
    rw [entryCandidates, List.map_map]
    rfl
  rw [hnames]
  exact (nodup_map_distinctBy _ _).sublist (List.filter_sublist.map _)

end

theorem resolveEntry_eq_ok {root : Root} {c : Candidate} {l : Location}
    (h : Scanner.resolveEntry root c = .ok l) : l = ⟨root, c.name⟩ := by
  simp only [Scanner.resolveEntry] at h
  split at h
  case isTrue => cases h
  case isFalse =>
    split at h
    case isTrue => cases h
    case isFalse => exact (Except.ok.inj h).symm

/-- The scan of an archive and reading from it agree on the entries that names stand for.  The scan
lists, in the order of the archive, the first entry of each name, if that one is neither excluded
nor too large; if it is, a later entry of the name does not take its place.  What is read at the
location of a listed name, as long as the archive stays as it is, is what its first entry holds, or
fails as that one does. -/
theorem archive_scan_reads_listed (fs : FileSystem) (config : ScanConfig)
    (patterns : Ignore.Rules) (p : Path) {octets : Bytes} {entries : List Archive.Entry}
    (harchive : archiveEntries fs p = .ok (octets, entries)) :
    let scanner := Scanner.ofFileSystem config patterns fs
    let scan := scanner.scan ⟨.archive, p⟩
    scan.failure = none ∧
    (scan.candidates.map Candidate.name).Nodup ∧
    (∃ places : List Nat, places.Pairwise (· < ·) ∧
      scan.candidates = places.filterMap (fun k => entries[k]?.map listing) ∧
      ∀ k, k ∈ places ↔
        ∃ e, FirstAt Archive.Entry.name entries k e ∧ Admitted config patterns e) ∧
    ∀ k e, FirstAt Archive.Entry.name entries k e →
      (e.name ∈ scan.candidates.map Candidate.name ↔ Admitted config patterns e) ∧
      ∀ c ∈ scan.candidates, c.name = e.name → ∀ l, scanner.resolve ⟨.archive, p⟩ c = .ok l →
        ∀ fs' : FileSystem, fs'.read p = fs.read p → l.read fs' = contentAt p octets e := by
  intro scanner scan
  have hscan : scan = ofCandidates (entryCandidates config patterns entries) :=
    ofArchive_eq harchive
  obtain ⟨places, hascending, hcandidates, hplaces⟩ :=
    exists_listed_places config patterns entries
  rw [hscan]
  refine ⟨rfl, nodup_names_entryCandidates, ⟨places, hascending, hcandidates, hplaces⟩,
    fun k e hfirst => ⟨mem_names_entryCandidates hfirst, ?_⟩⟩
  intro c _ hname l hresolve fs' hread
  obtain rfl : l = ⟨⟨.archive, p⟩, c.name⟩ := resolveEntry_eq_ok hresolve
  have harchive' : archiveEntries fs' p = .ok (octets, entries) := by
    rw [archiveEntries, hread]
    exact harchive
  show readEntry fs' p c.name = contentAt p octets e
  rw [hname]
  exact readEntry_eq harchive' hfirst.find?_eq

/-! ## An archive with two entries of a name -/

def twoCopies : Bytes :=
  Archive.pack [⟨[98], 0, [120, 121]⟩, ⟨[97], 0, [120]⟩, ⟨[98], 0, [122]⟩, ⟨[97], 0, []⟩]

def twoCopiesTree : FileSystem := ⟨[("z", .file twoCopies)], []⟩

def copyEntry (name : Text) (checksum size : Nat) (place : Int) : Archive.Entry :=
  ⟨name, 0, 0, checksum, size, size, 0, place, none⟩

def twoCopiesEntries : List Archive.Entry :=
  [copyEntry "b" 2414225561 2 0, copyEntry "a" 2363233923 1 33, copyEntry "b" 1657960367 1 65,
    copyEntry "a" 0 0 97]

set_option maxRecDepth 8000 in
theorem archiveEntries_twoCopies :
    archiveEntries twoCopiesTree ⟨.root, ["z"]⟩ = .ok (twoCopies, twoCopiesEntries) := by
  cbv

set_option maxRecDepth 8000 in
theorem contentAt_twoCopies :
    contentAt ⟨.root, ["z"]⟩ twoCopies (copyEntry "a" 2363233923 1 33) = .ok [120] := by
  cbv

/-- With a limit of one octet, the large first entry hides the small one of its name. -/
theorem archive_scan_reads_listed_twoCopies :
    let root : Root := ⟨.archive, ⟨.root, ["z"]⟩⟩
    let scanner := Scanner.ofFileSystem { exclude := some [], filesMaxSize := 1 } [] twoCopiesTree
    archiveEntries twoCopiesTree root.path = .ok (twoCopies, twoCopiesEntries) ∧
    ("b" : Text) ∉ (scanner.scan root).candidates.map Candidate.name ∧
    ⟨"a", "a"⟩ ∈ (scanner.scan root).candidates ∧
    ∃ l, scanner.resolve root ⟨"a", "a"⟩ = .ok l ∧ l.read twoCopiesTree = .ok [120] := by
  intro root scanner
  have hlarge : FirstAt Archive.Entry.name twoCopiesEntries 0 (copyEntry "b" 2414225561 2 0) :=
    ⟨rfl, fun j hj => absurd hj (Nat.not_lt_zero j)⟩
  have hsmall : FirstAt Archive.Entry.name twoCopiesEntries 1 (copyEntry "a" 2363233923 1 33) := by
    refine ⟨rfl, fun j hj b hb => ?_⟩
    obtain rfl : j = 0 := by omega
    obtain rfl := Option.some.inj hb
    decide
  obtain ⟨-, -, ⟨places, -, hcandidates, hplaces⟩, hread⟩ := archive_scan_reads_listed twoCopiesTree
    { exclude := some [], filesMaxSize := 1 } [] ⟨.root, ["z"]⟩ archiveEntries_twoCopies
  have ha : ⟨"a", "a"⟩ ∈ (scanner.scan root).candidates := by
    rw [hcandidates, List.mem_filterMap]
    exact ⟨1, (hplaces 1).2 ⟨_, hsmall, rfl, by decide⟩, rfl⟩
  refine ⟨archiveEntries_twoCopies, fun hb => ?_, ha, ⟨root, "a"⟩, rfl, ?_⟩
  · have hsize := (((hread 0 _ hlarge).1).1 hb).notTooLarge
    exact absurd hsize (by decide)
  · rw [(hread 1 _ hsmall).2 _ ha rfl _ rfl twoCopiesTree rfl]
    exact contentAt_twoCopies

end Scan
end ResourceFinder
