import ResourceFinder.Proofs.Index.Origin

/-
How much is read of a resource.

A scan leaves files and entries out by the sizes that are told of them, and reading goes to what is
there by way of the names alone.  Both come to one file, links followed, and to one entry of an
archive, and of an entry no more is read than its size tells.  So a limit for the scan is one for
what is read.
-/

namespace ResourceFinder

section

variable {fs : FileSystem} {p : Path} {content : Bytes}

theorem FileSystem.size?_of_read (h : fs.read p = .ok content) :
    fs.size? p = some content.length := by
  rw [size?, (read_eq_ok.1 h).2]

/-- What is read of a file of a directory has the size by which the scan judged it. -/
theorem Location.size?_of_read {base : Path} {names : List Text}
    (hnames : ∀ s ∈ names, Path.IsEntryName s)
    (h : Location.read fs ⟨⟨.directory, base⟩, Text.join "/" names⟩ = .ok content) :
    fs.size? (base.below names) = some content.length := by
  have hread : (fs.read (base.joinText (Text.join "/" names))).mapError Fault.path = .ok content :=
    h
  rw [Path.joinText_join base fun s hs => (hnames s hs).toIsSegment] at hread
  exact FileSystem.size?_of_read (mapError_eq_ok hread)

/-- What is read under a name in an archive is no longer than its first entry tells. -/
theorem length_le_of_readEntry {octets : Bytes} {entries : List Archive.Entry}
    (harchive : archiveEntries fs p = .ok (octets, entries)) {k : Nat} {e : Archive.Entry}
    (hfirst : FirstAt Archive.Entry.name entries k e)
    (h : readEntry fs p e.name = .ok content) : content.length ≤ e.size := by
  rw [readEntry_eq harchive hfirst.find?_eq] at h
  exact (Archive.content_eq_ok (mapError_eq_ok h)).1

end

section

variable {fs : FileSystem} {config : ScanConfig} {patterns : Ignore.Rules} {p : Path}
  {c : Candidate} {content : Bytes}

theorem length_le_of_directory (htree : fs.root.isTree = true) (hnamed : fs.root.isNamed = true)
    (hend : (Scan.ofDirectory fs config patterns p).failure = none)
    (hc : c ∈ (Scan.ofDirectory fs config patterns p).candidates)
    (h : Location.read fs ⟨⟨.directory, p⟩, c.name⟩ = .ok content) :
    config.filesMaxSize = 0 ∨ (content.length : Int) ≤ config.filesMaxSize := by
  obtain ⟨dirs, file, place, entries, hentry, rfl, hsize⟩ := Scan.entry_of_candidate htree hend hc
  exact hsize _ (Location.size?_of_read (hentry.isEntryName hnamed) h)

theorem length_le_of_archive (hend : (Scan.ofArchive fs config patterns p).failure = none)
    (hc : c ∈ (Scan.ofArchive fs config patterns p).candidates)
    (h : Location.read fs ⟨⟨.archive, p⟩, c.name⟩ = .ok content) :
    config.filesMaxSize = 0 ∨ (content.length : Int) ≤ config.filesMaxSize := by
  cases harchive : archiveEntries fs p with
  | error f =>
    rw [Scan.ofArchive, harchive] at hend
    cases hend
  | ok found =>
    obtain ⟨octets, entries⟩ := found
    rw [Scan.ofArchive_eq harchive] at hc
    obtain ⟨k, e, hfirst, hadmitted, rfl⟩ := Scan.mem_entryCandidates.1 hc
    have hlength : content.length ≤ e.size := length_le_of_readEntry harchive hfirst h
    rcases hadmitted.notTooLarge with hzero | hle
    · exact .inl hzero
    · exact .inr (by omega)

end

namespace Builder

/-- Where the size of files is limited, no resource of the index reads as more octets than that,
whatever links lead to it, whatever other entries of an archive have its name, and whatever its
compressed octets could be inflated to. -/
theorem read_within_size_limit (fs : FileSystem) (config : ScanConfig) (patterns : Ignore.Rules)
    (b : Builder) (index : Index) (htree : fs.root.isTree = true)
    (hnamed : fs.root.isNamed = true) (hlimit : 0 < config.filesMaxSize)
    (hscanner : b.scanner = Scanner.ofFileSystem config patterns)
    (hbuild : (b.build fs).result = .ok index) :
    ∀ r ∈ index.resources, (∃ f, r.location.read fs = .error f) ∨
      ∃ content, r.location.read fs = .ok content ∧
        (content.length : Int) ≤ config.filesMaxSize := by
  intro r hr
  cases hread : r.location.read fs with
  | error f => exact .inl ⟨f, rfl⟩
  | ok content =>
    obtain ⟨⟨kind, p⟩, hroot, c, hc, hresolve, -⟩ := candidate_of_build hbuild hr
    have hend := ended_of_build hbuild _ hroot
    rw [hscanner] at hend hc hresolve
    rw [Scanner.location_of_resolve hresolve] at hread
    have hwithin : config.filesMaxSize = 0 ∨ (content.length : Int) ≤ config.filesMaxSize := by
      cases kind with
      | directory => exact length_le_of_directory htree hnamed hend hc hread
      | archive => exact length_le_of_archive hend hc hread
    exact .inr ⟨content, rfl, hwithin.resolve_left (Int.ne_of_gt hlimit)⟩

/-- A directory with links to a large file and to a small one, and an archive with two entries of a
name. -/
def limitedTree : FileSystem :=
  ⟨[("d", .directory [("large", .file [120, 121]), ("l", .link "large"), ("m", .link "../x")]),
    ("x", .file [120]), ("z", .file Scan.twoCopies)], []⟩

def limitedConfig : ScanConfig := { exclude := some [], filesMaxSize := 1 }

def limitedBuilder : Builder where
  scanner := .ofFileSystem limitedConfig []
  roots := [⟨.directory, ⟨.root, ["d"]⟩⟩, ⟨.archive, ⟨.root, ["z"]⟩⟩]
  distinct := by decide

set_option maxRecDepth 8000 in
theorem names_limitedTree :
    (limitedBuilder.build limitedTree).result.map Index.names = .ok ["m", "a"] := by
  cbv

theorem read_within_size_limit_limitedTree :
    limitedTree.root.isTree = true ∧ limitedTree.root.isNamed = true ∧
    0 < limitedConfig.filesMaxSize ∧
    ∃ index, (limitedBuilder.build limitedTree).result = .ok index ∧
      index.names = [("m" : Text), "a"] ∧
      ∀ r ∈ index.resources, (∃ f, r.location.read limitedTree = .error f) ∨
        ∃ content, r.location.read limitedTree = .ok content ∧ (content.length : Int) ≤ 1 := by
  have htree : limitedTree.root.isTree = true := by decide
  have hnamed : limitedTree.root.isNamed = true := by decide
  have hlimit : 0 < limitedConfig.filesMaxSize := by decide
  obtain ⟨index, hbuild, hnames⟩ := map_eq_ok.1 names_limitedTree
  exact ⟨htree, hnamed, hlimit, index, hbuild, hnames,
    read_within_size_limit limitedTree limitedConfig [] limitedBuilder index htree hnamed hlimit rfl
      hbuild⟩

end Builder
end ResourceFinder
