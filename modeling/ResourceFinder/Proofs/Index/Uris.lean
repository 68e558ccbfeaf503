import ResourceFinder.Proofs.FileSystem.Native
import ResourceFinder.Proofs.Index.Origin
import ResourceFinder.Proofs.Path.Uri

/-
The URIs of resources, and which of them have the same one.

The path of a root is what a path that led somewhere was resolved to, and the resources of a
directory are below it by names that were listed, so the octets of these paths stand for their texts
and a URI tells which path it was written for.  No path is written with an exclamation mark, so the
first one in the URI of an entry ends the path of its archive, whatever the name of the entry is.
-/

namespace ResourceFinder

/-! ## Paths that have been looked up -/

/-- An absolute path made of names as file systems tell them. -/
structure Path.IsTold (p : Path) : Prop where
  anchor : p.anchor = .root
  names : ∀ s ∈ p.segments, IsEntryName s
  native : ∀ s ∈ p.segments, Uri.IsNative s

namespace Path

variable {p p' : Path}

theorem IsTold.isSpelt (h : p.IsTold) : p.IsSpelt := fun s hs => (h.names s hs).toIsSegment

theorem IsTold.isAbsolute (h : p.IsTold) : p.isAbsolute = true := by
  rw [Path.isAbsolute, h.anchor]
  rfl

theorem IsTold.eq_of_text (h : p.IsTold) (h' : p'.IsTold) (htext : p.text = p'.text) : p = p' := by
  rw [← ofText_text h.isSpelt, htext, ofText_text h'.isSpelt]

theorem IsTold.below (h : p.IsTold) {names : List Text} (hnames : ∀ s ∈ names, IsEntryName s)
    (hnative : ∀ s ∈ names, Uri.IsNative s) : (p.below names).IsTold where
  anchor := h.anchor
  names := List.forall_mem_append.2 ⟨h.names, hnames⟩
  native := List.forall_mem_append.2 ⟨h.native, hnative⟩

theorem IsTold.exists_uri (h : p.IsTold) :
    ∃ uri, Uri.ofPath p = .ok uri ∧ ("file://" : Text).isPrefixOf uri = true ∧
      .char '!' ∉ uri ∧ Uri.pathText? uri = some p.text := by
  obtain ⟨anchor, segments⟩ := p
  obtain rfl : anchor = .root := h.anchor
  exact Uri.exists_ofPath rfl (Uri.isNative_text h.native)

end Path

theorem FileSystem.IsRegular.isTold_resolve {fs : FileSystem} (h : fs.IsRegular) {p : Path}
    {place : Place} (hlocate : fs.locate p = .ok place) : (fs.resolve p).IsTold where
  anchor := FileSystem.anchor_resolve fs p
  names := FileSystem.isEntryName_resolve h.named hlocate
  native := h.native.resolve hlocate

/-- A root that was made of a text when there was something for it. -/
inductive Root.IsValidated (root : Root) : Prop where
  | directory {fs : FileSystem} {shown : Text} (hfs : fs.IsRegular)
      (h : ofDirectory fs shown = .ok root)
  | archive {fs : FileSystem} {shown : Text} (hfs : fs.IsRegular)
      (h : ofArchive fs shown = .ok root)
  | path {fs : FileSystem} {shown : Text} (hfs : fs.IsRegular) (h : ofPath fs shown = .ok root)

theorem Root.IsValidated.isTold {root : Root} (h : root.IsValidated) : root.path.IsTold := by
  cases h with
  | directory hfs h =>
    obtain ⟨place, hplace, rfl⟩ := locate_of_ofDirectory h
    exact hfs.isTold_resolve hplace
  | archive hfs h =>
    obtain ⟨place, hplace, rfl⟩ := locate_of_ofArchive h
    exact hfs.isTold_resolve hplace
  | path hfs h =>
    obtain ⟨p, place, hplace, hresolve⟩ := exists_locate_of_ofPath h
    rw [hresolve]
    exact hfs.isTold_resolve hplace

/-! ## Resources -/

/-- The names on the way to an entry are ones that octets stand for. -/
theorem Scan.HasEntry.isNative {fs : FileSystem} (hnative : fs.IsNative) {base : Path}
    {dirs : List Text} {file : Text} {place : Place} {entries : List (Text × Node)}
    (h : HasEntry fs base dirs file place entries) : ∀ s ∈ dirs ++ [file], Uri.IsNative s := by
  obtain ⟨start, -, rfl, hnode⟩ := h.directory
  obtain ⟨hbelow, hway⟩ := Node.names_subset_of_at hnode
  obtain ⟨e, he, rfl⟩ := List.mem_map.1 h.entry
  have hfile := (names_subset_of_mem he).1
  refine List.forall_mem_append.2 ⟨fun s hs => ?_, List.forall_mem_singleton.2 ?_⟩
  · exact hnative.names s (hway (List.mem_append_right _ hs))
  · exact hnative.names e.1 (hbelow hfile)

/-- A resource of an index that was built of validated roots by the scanner of file systems. -/
inductive Resource.IsIndexed (r : Resource) : Prop where
  | intro {config : ScanConfig} {patterns : Ignore.Rules} {b : Builder} {fs : FileSystem}
      {index : Index} (hfs : fs.IsRegular) (hroots : ∀ root ∈ b.roots, root.IsValidated)
      (hscanner : b.scanner fs = Scanner.ofFileSystem config patterns fs)
      (hbuild : (b.build fs).result = .ok index) (hr : r ∈ index.resources)

namespace Resource

/-- The path of a resource in a directory: its name, followed from the root. -/
def path (r : Resource) : Path := r.location.root.path.joinText r.name

variable {r r' : Resource} {uri : Text}

theorem isIndexed_of_ofPaths {fs : FileSystem} (hfs : fs.IsRegular) {config : ScanConfig}
    {paths : List Text} {index : Index} (h : (Index.ofPaths fs config paths).result = .ok index)
    (hr : r ∈ index.resources) : r.IsIndexed := by
  obtain ⟨patterns, b, hscanner, hroots, hbuild⟩ := Index.ofPaths_eq_ok h
  refine ⟨hfs, fun root hroot => ?_, congrFun hscanner fs, hbuild, hr⟩
  obtain ⟨path, -, hpath⟩ := hroots root hroot
  exact .path hfs hpath

/-- A resource is at its root under its name, and what a directory's resource is read from is a path
that has been looked up. -/
theorem IsIndexed.isTold (h : r.IsIndexed) :
    r.location.name = r.name ∧ r.location.root.path.IsTold ∧
      (r.location.root.kind = .directory → r.path.IsTold) := by
  obtain ⟨hfs, hroots, hscanner, hbuild, hr⟩ := h
  obtain ⟨⟨kind, base⟩, hroot, c, hc, hresolve, hname⟩ := Builder.candidate_of_build hbuild hr
  have hend := Builder.ended_of_build hbuild _ hroot
  rw [hscanner] at hc hresolve hend
  have hbase := (hroots _ hroot).isTold
  rw [path, hname, Scanner.location_of_resolve hresolve]
  refine ⟨rfl, hbase, fun hkind => ?_⟩
  obtain rfl : kind = .directory := hkind
  obtain ⟨dirs, file, place, entries, hentry, rfl, -⟩ := Scan.entry_of_candidate hfs.tree hend hc
  have hnames := hentry.isEntryName (FileSystem.isNamed_iff.1 hfs.named).1
  rw [Path.joinText_join base fun s hs => (hnames s hs).toIsSegment]
  exact hbase.below hnames (hentry.isNative hfs.native)

/-! ## Their URIs -/

/-- What a URI of a resource looks like, and what is read from it: the path of a directory's
resource, or the path of an archive before the name of an entry. -/
inductive WrittenAs (r : Resource) : Text → Prop where
  | file {uri : Text} (hkind : r.location.root.kind = .directory)
      (hscheme : ("file://" : Text).isPrefixOf uri = true)
      (hread : Uri.pathText? uri = some r.path.text) : WrittenAs r uri
  | entry (u : Text) (hkind : r.location.root.kind = .archive) (hmark : .char '!' ∉ u)
      (hread : Uri.pathText? u = some r.location.root.path.text) :
      WrittenAs r (("zip:" : Text) ++ u ++ "!/" ++ r.name)

theorem IsIndexed.exists_uri (h : r.IsIndexed) :
    ∃ uri, r.location.writeUri = .ok uri ∧ r.WrittenAs uri := by
  obtain ⟨hname, hroot, hpath⟩ := h.isTold
  rw [Location.writeUri, Location.path, hname]
  cases hkind : r.location.root.kind with
  | directory =>
    obtain ⟨uri, hwrite, hscheme, -, hread⟩ := (hpath hkind).exists_uri
    exact ⟨uri, hwrite, .file hkind hscheme hread⟩
  | archive =>
    obtain ⟨u, hwrite, -, hmark, hread⟩ := hroot.exists_uri
    refine ⟨("zip:" : Text) ++ u ++ "!/" ++ r.name, ?_, .entry u hkind hmark hread⟩
    simp only [hwrite]
    rfl

/-- One file of directories, by the paths of the roots and the names below them, or one entry of an
archive. -/
inductive IsSame (r r' : Resource) : Prop where
  | file (hkind : r.location.root.kind = .directory) (hkind' : r'.location.root.kind = .directory)
      (hpath : r.path = r'.path)
  | entry (hkind : r.location.root.kind = .archive) (hkind' : r'.location.root.kind = .archive)
      (hroot : r.location.root.path = r'.location.root.path) (hname : r.name = r'.name)

theorem IsSame.writeUri_eq (hsame : r.IsSame r') (hname : r.location.name = r.name)
    (hname' : r'.location.name = r'.name) : r.location.writeUri = r'.location.writeUri := by
  rw [Location.writeUri, Location.writeUri, Location.path, Location.path, hname, hname']
  cases hsame with
  | file hkind hkind' hpath =>
    rw [hkind, hkind']
    exact congrArg Uri.ofPath hpath
  | entry hkind hkind' hroot heq => rw [hkind, hkind', hroot, heq]

/-- What is read from a URI tells whose it is. -/
theorem isSame_of_writtenAs (h : r.IsIndexed) (h' : r'.IsIndexed) (hwritten : r.WrittenAs uri)
    (hwritten' : r'.WrittenAs uri) : r.IsSame r' := by
  obtain ⟨-, hroot, hpath⟩ := h.isTold
  obtain ⟨-, hroot', hpath'⟩ := h'.isTold
  cases hwritten with
  | file hkind hscheme hread =>
    cases hwritten' with
    | file hkind' hscheme' hread' =>
      have htext := Option.some.inj (hread.symm.trans hread')
      exact .file hkind hkind' ((hpath hkind).eq_of_text (hpath' hkind') htext)
    | entry u' hkind' hmark' hread' => cases hscheme
  | entry u hkind hmark hread =>
    generalize huri : ("zip:" : Text) ++ u ++ "!/" ++ r.name = uri at hwritten'
    cases hwritten' with
    | file hkind' hscheme' hread' =>
      rw [← huri] at hscheme'
      cases hscheme'
    | entry u' hkind' hmark' hread' =>
      rw [List.append_assoc, List.append_assoc, List.append_assoc, List.append_assoc] at huri
      obtain ⟨rfl, hrest⟩ :=
        Text.eq_of_append_separator hmark hmark' (List.append_cancel_left huri)
      have htext := Option.some.inj (hread.symm.trans hread')
      exact .entry hkind hkind' (hroot.eq_of_text hroot' htext) (List.cons.inj hrest).2

/-- Two resources of indexes have one URI just if they are one file or one entry, whatever is in
their names, and none of the one kind has a URI of the other.  The path of a file is absolute and is
read back from its URI. -/
theorem uri_eq_iff (r r' : Resource) (h : r.IsIndexed) (h' : r'.IsIndexed) :
    ∃ uri uri', r.location.writeUri = .ok uri ∧ r'.location.writeUri = .ok uri' ∧
      (uri = uri' ↔ r.IsSame r') ∧
      (r.location.root.kind ≠ r'.location.root.kind → uri ≠ uri') ∧
      (r.location.root.kind = .directory →
        r.path.isAbsolute = true ∧ Uri.pathText? uri = some r.path.text) := by
  obtain ⟨uri, hwrite, hwritten⟩ := h.exists_uri
  obtain ⟨uri', hwrite', hwritten'⟩ := h'.exists_uri
  have hiff : uri = uri' ↔ r.IsSame r' := by
    constructor
    · intro heq
      exact isSame_of_writtenAs h h' hwritten (heq ▸ hwritten')
    · intro hsame
      have heq := hsame.writeUri_eq h.isTold.1 h'.isTold.1
      exact Except.ok.inj (hwrite.symm.trans (heq.trans hwrite'))
  refine ⟨uri, uri', hwrite, hwrite', hiff, fun hne heq => ?_, fun hdirectory => ?_⟩
  · cases hiff.1 heq with
    | file hkind hkind' => exact hne (hkind.trans hkind'.symm)
    | entry hkind hkind' => exact hne (hkind.trans hkind'.symm)
  · cases hwritten with
    | file hkind hscheme hread => exact ⟨(h.isTold.2.2 hkind).isAbsolute, hread⟩
    | entry u hkind => cases hdirectory.symm.trans hkind

/-! ### Names with percent signs, exclamation marks and octets that are no UTF-8 -/

def markedTree : FileSystem :=
  ⟨[("z!", .file (Archive.pack [⟨[33, 47, 97], 0, []⟩])),
    ("é", .directory [("%!", .file []), ([.surrogate ⟨0x4ff, by decide⟩], .file [])])], []⟩

def markedBuilder : Builder where
  scanner := .ofFileSystem { exclude := some [] } []
  roots := [⟨.directory, ⟨.root, ["é"]⟩⟩, ⟨.directory, ⟨.root, []⟩⟩, ⟨.archive, ⟨.root, ["z!"]⟩⟩]
  distinct := by decide

def markedFile : Resource := ⟨"%!", ⟨⟨.directory, ⟨.root, ["é"]⟩⟩, "%!"⟩⟩

def markedFileBelow : Resource := ⟨"é/%!", ⟨⟨.directory, ⟨.root, []⟩⟩, "é/%!"⟩⟩

def markedEntry : Resource := ⟨"!/a", ⟨⟨.archive, ⟨.root, ["z!"]⟩⟩, "!/a"⟩⟩

theorem isRegular_markedTree : markedTree.IsRegular where
  tree := by decide
  named := by decide
  native := by
    have hnames : ∀ s ∈ markedTree.root.names, decide (Uri.IsNative s) = true := by
      have hall : markedTree.root.names.all (fun s => decide (Uri.IsNative s)) = true := by cbv
      exact List.all_eq_true.1 hall
    exact ⟨fun s hs => of_decide_eq_true (hnames s hs), by simp [markedTree]⟩

theorem isValidated_markedBuilder : ∀ root ∈ markedBuilder.roots, root.IsValidated := by
  have hfirst : Root.ofPath markedTree "/é" = .ok ⟨.directory, ⟨.root, ["é"]⟩⟩ := by cbv
  have hsecond : Root.ofDirectory markedTree "/" = .ok ⟨.directory, ⟨.root, []⟩⟩ := by cbv
  have hthird : Root.ofArchive markedTree "/é/../z!" = .ok ⟨.archive, ⟨.root, ["z!"]⟩⟩ := by cbv
  exact List.forall_mem_cons.2 ⟨.path isRegular_markedTree hfirst,
    List.forall_mem_cons.2 ⟨.directory isRegular_markedTree hsecond,
      List.forall_mem_singleton.2 (.archive isRegular_markedTree hthird)⟩⟩

theorem isIndexed_marked :
    ∀ r ∈ [markedFile, markedFileBelow, markedEntry], r.IsIndexed := by
  have hbuilt : (markedBuilder.build markedTree).result.map (fun index =>
      [markedFile, markedFileBelow, markedEntry].all (index.resources.contains ·)) = .ok true := by
    cbv
  obtain ⟨index, hbuild, hall⟩ := map_eq_ok.1 hbuilt
  intro r hr
  have hmem : r ∈ index.resources := List.contains_iff_mem.1 (List.all_eq_true.1 hall r hr)
  exact ⟨isRegular_markedTree, isValidated_markedBuilder, rfl, hbuild, hmem⟩

/-- A file that is found at two roots has one URI, which an entry does not have. -/
theorem uri_eq_iff_marked :
    markedFile.IsIndexed ∧ markedFileBelow.IsIndexed ∧ markedEntry.IsIndexed ∧
    (∃ uri, markedFile.location.writeUri = .ok uri ∧ markedFileBelow.location.writeUri = .ok uri ∧
      Uri.pathText? uri = some "/é/%!") ∧
    ∃ uri uri', markedFile.location.writeUri = .ok uri ∧
      markedEntry.location.writeUri = .ok uri' ∧ uri ≠ uri' := by
  have hfile : markedFile.IsIndexed := isIndexed_marked _ (by simp)
  have hbelow : markedFileBelow.IsIndexed := isIndexed_marked _ (by simp)
  have hentry : markedEntry.IsIndexed := isIndexed_marked _ (by simp)
  refine ⟨hfile, hbelow, hentry, ?_, ?_⟩
  · obtain ⟨uri, uri', hwrite, hwrite', hiff, -, hread⟩ := uri_eq_iff _ _ hfile hbelow
    have hpath : markedFile.path = markedFileBelow.path := by cbv
    obtain rfl := hiff.2 (.file rfl rfl hpath)
    exact ⟨uri, hwrite, hwrite', (hread rfl).2⟩
  · obtain ⟨uri, uri', hwrite, hwrite', -, hne, -⟩ := uri_eq_iff _ _ hfile hentry
    exact ⟨uri, uri', hwrite, hwrite', hne (by decide)⟩

end Resource
end ResourceFinder
