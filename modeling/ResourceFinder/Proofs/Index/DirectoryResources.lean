import ResourceFinder.Proofs.Index.Origin

/-
The resources of a directory, from the walk that finds them to the reading of their content.

A name is made of the names on the way to a file and read back as them later, so the path that is
read is the one the walk came by, and what it leads to is the file there, or the one that a link
there leads to.  Files may come and go between the walk and the moment a candidate is resolved; what
is no file at that moment is left out.
-/

namespace ResourceFinder

/-! ## Names -/

/-- A name that leads downwards only: no segment of it is empty or made of dots. -/
structure Path.LeadsDown (name : Text) : Prop where
  ne_nil : name ≠ []
  relative : (ofText name).isAbsolute = false
  segments : ∀ s ∈ Text.splitAt '/' name, s ≠ [] ∧ s ≠ here ∧ s ≠ up

theorem Path.leadsDown_join {names : List Text} (hne : names ≠ [])
    (h : ∀ s ∈ names, IsEntryName s) : LeadsDown (Text.join "/" names) := by
  have hsegments : ∀ s ∈ names, IsSegment s := fun s hs => (h s hs).toIsSegment
  have hsplit : Text.splitAt '/' (Text.join "/" names) = names :=
    Text.splitAt_join hne fun s hs => (hsegments s hs).slash
  refine ⟨fun hnil => ?_, ?_, fun s hs => ?_⟩
  · have hjoined := segmentsOf_join hsegments
    rw [hnil] at hjoined
    exact hne hjoined.symm
  · have hanchor : Anchor.ofText (Text.join "/" names) = .relative :=
      Anchor.ofText_text_append .relative (head?_join_ne_slash hsegments)
    rw [isAbsolute, ofText, hanchor]
    rfl
  · rw [hsplit] at hs
    exact ⟨(h s hs).ne_nil, (h s hs).ne_here, (h s hs).ne_up⟩

/-- The root for a directory has an absolute path of names that have been looked up. -/
theorem Root.isEntryName_of_ofDirectory {fs : FileSystem} (hnamed : fs.isNamed = true)
    {shown : Text} {root : Root} (h : ofDirectory fs shown = .ok root) :
    root.kind = .directory ∧ ∀ s ∈ root.path.segments, Path.IsEntryName s := by
  obtain ⟨place, hplace, rfl⟩ := locate_of_ofDirectory h
  exact ⟨rfl, FileSystem.isEntryName_resolve hnamed hplace⟩

/-! ## Files and links to files -/

namespace FileSystem

/-- What a name in a directory stands for, where that is a file: the file of the name itself, or the
one that a link of the name leads to. -/
inductive Shows (fs : FileSystem) (place : Place) (name : Text) (content : Bytes) : Prop where
  | file (h : fs.nodeAt? (place ++ [name]) = some (.file content))
  | link {target : Text} {links : Nat} {p : Place}
      (h : fs.nodeAt? (place ++ [name]) = some (.link target))
      (hlink : fs.follow links (linkStart place target) (targetSegments target) = .ok p)
      (hfile : fs.nodeAt? p = some (.file content))

variable {fs : FileSystem}

theorem shows_of_follow {links : Nat} {place p : Place} {name : Text} {content : Bytes}
    (hname : Path.IsName name) (h : fs.follow links place [name] = .ok p)
    (hp : fs.nodeAt? p = some (.file content)) : fs.Shows place name content := by
  cases leads_of_follow h with
  | here => exact absurd rfl hname.ne_here
  | up => exact absurd rfl hname.ne_up
  | link hnode _ _ hlookup h =>
    rw [List.append_nil] at h
    exact .link ((nodeAt?_child hnode name).trans hlookup) h.follow_eq hp
  | inside hnode _ _ hlookup _ h =>
    cases h
    exact .file hp

/-- The names on the way to an entry lead to its directory, and the last one to what is shown
there. -/
theorem shows_of_find {base : Path} {dirs : List Text} {file : Text} {place : Place}
    {entries : List (Text × Node)} (hnames : ∀ s ∈ dirs ++ [file], Path.IsEntryName s)
    (hdirectory : fs.HasDirectory base dirs place entries) {content : Bytes}
    (h : fs.find (base.below (dirs ++ [file])) = .ok (.file content)) :
    fs.Shows place file content := by
  obtain ⟨start, hstart, rfl, hnode⟩ := hdirectory
  obtain ⟨links, hbelow⟩ := follow_append_ok hstart
  have hdirs : ∀ s ∈ dirs, Path.IsName s :=
    fun s hs => (hnames s (List.mem_append_left _ hs)).toIsName
  have hlinks : ∀ above below target, dirs = above ++ below →
      fs.nodeAt? (start ++ above) ≠ some (.link target) := by
    rintro above below target rfl hlink
    rw [← List.append_assoc, nodeAt?_append, hlink] at hnode
    cases below <;> cases hnode
  have hlocate : fs.locate (base.below (dirs ++ [file])) =
      fs.follow links (start ++ dirs) [file] :=
    (hbelow (dirs ++ [file])).trans (follow_plain hnode hdirs hlinks [file])
  unfold find at h
  rw [hlocate] at h
  cases hfollow : fs.follow links (start ++ dirs) [file] with
  | error problem =>
    rw [hfollow] at h
    cases h
  | ok p =>
    rw [hfollow] at h
    cases hp : fs.nodeAt? p with
    | none => simp [bind, Except.bind, hp] at h
    | some n =>
      simp only [bind, Except.bind, hp, Except.ok.injEq] at h
      subst h
      exact shows_of_follow (hnames file (by simp)).toIsName hfollow hp

end FileSystem

theorem Location.read_of_isFile {fs : FileSystem} {base : Path} {names : List Text}
    (hbase : ∀ s ∈ base.segments, Path.IsEntryName s) (hnames : ∀ s ∈ names, Path.IsEntryName s)
    (h : fs.isFile (base.below names) = true) :
    ∃ content, fs.find (base.below names) = .ok (.file content) ∧
      Location.read fs ⟨⟨.directory, base⟩, Text.join "/" names⟩ = .ok content := by
  obtain ⟨content, hfind⟩ := FileSystem.isFile_iff.1 h
  have hnull : .char '\x00' ∉ (base.below names).text := by
    rw [Path.mem_text (by decide) (by decide)]
    rintro ⟨s, hs, hmem⟩
    rcases List.mem_append.1 hs with hs | hs
    · exact (hbase s hs).null hmem
    · exact (hnames s hs).null hmem
  have hpath : Location.path ⟨⟨.directory, base⟩, Text.join "/" names⟩ = base.below names :=
    Path.joinText_join base fun s hs => (hnames s hs).toIsSegment
  refine ⟨content, hfind, ?_⟩
  show (fs.read _).mapError Fault.path = _
  rw [hpath, FileSystem.read_eq_ok.2 ⟨hnull, hfind⟩]
  rfl

/-! ## The index -/

/-- The scanner that goes through some files and resolves each candidate in the files as they are by
then. -/
def Scanner.ofChanging (config : ScanConfig) (patterns : Ignore.Rules) (fs : FileSystem)
    (later : Root → Candidate → FileSystem) : Scanner where
  scan := (ofFileSystem config patterns fs).scan
  resolve root c := (ofFileSystem config patterns (later root c)).resolve root c

theorem Scanner.ofChanging_const (config : ScanConfig) (patterns : Ignore.Rules)
    (fs : FileSystem) : ofChanging config patterns fs (fun _ _ => fs) =
      ofFileSystem config patterns fs := rfl

/-- A resource at a directory root is one of a candidate found there that was a file in the end. -/
theorem Builder.candidate_of_directory {b : Builder} {fs : FileSystem} {index : Index}
    {config : ScanConfig} {patterns : Ignore.Rules} {later : Root → Candidate → FileSystem}
    {base : Path} (hscanner : b.scanner fs = Scanner.ofChanging config patterns fs later)
    (hbuild : (b.build fs).result = .ok index) (r : Resource) (hr : r ∈ index.resources)
    (hroot : r.location.root = ⟨.directory, base⟩) :
    ∃ c ∈ (Scan.ofDirectory fs config patterns base).candidates, c.name = r.name ∧
      r.location = ⟨⟨.directory, base⟩, c.name⟩ ∧
      (later ⟨.directory, base⟩ c).isFile (Path.ofText c.raw) = true := by
  obtain ⟨⟨kind, p⟩, -, c, hc, hresolve, hname⟩ := candidate_of_build hbuild hr
  rw [hscanner] at hc hresolve
  cases kind with
  | directory =>
    obtain ⟨hfile, hlocation⟩ := Scanner.resolveFile_iff.1 hresolve
    obtain rfl : p = base := congrArg Root.path ((congrArg Location.root hlocation).symm.trans hroot)
    exact ⟨c, hc, hname.symm, hlocation, hfile⟩
  | archive =>
    rw [Scan.resolveEntry_eq_ok hresolve] at hroot
    cases congrArg Root.kind hroot

/-- The resources of a directory root, whatever links are below it and whatever happens to the files
before its candidates are resolved.  The names that are found lead downwards and are distinct.  A
name is joined to the root to the path that the walk came by, and that path leads to a file when the
candidate is resolved; a candidate of which this is not so is no resource.  As long as the files are
the ones that were walked through, reading gives the content of the file of that name, or of the one
that the link of that name leads to. -/
theorem directory_resources_read (fs₀ fs : FileSystem) (config : ScanConfig)
    (patterns : Ignore.Rules) (shown : Text) (root : Root) (b : Builder)
    (later : Root → Candidate → FileSystem) (index : Index) (hnamed₀ : fs₀.isNamed = true)
    (hroot : Root.ofDirectory fs₀ shown = .ok root) (htree : fs.root.isTree = true)
    (hnamed : fs.root.isNamed = true) (hmem : root ∈ b.roots)
    (hscanner : b.scanner fs = Scanner.ofChanging config patterns fs later)
    (hbuild : (b.build fs).result = .ok index) :
    let scan := (b.scanner fs).scan root
    (scan.candidates.map Candidate.name).Nodup ∧
    (∀ r ∈ index.resources, r.location.root = root →
      Path.LeadsDown r.name ∧ r.location.name = r.name ∧
      ∃ c ∈ scan.candidates, c.name = r.name ∧ (root.path.joinText r.name).text = c.raw ∧
        (later root c).isFile (Path.ofText c.raw) = true ∧
        (later root c = fs → ∃ dirs file place entries content,
          Scan.HasEntry fs root.path dirs file place entries ∧
          r.name = Text.join "/" (dirs ++ [file]) ∧ fs.Shows place file content ∧
          r.location.read fs = .ok content)) ∧
    ∀ c ∈ scan.candidates, (later root c).isFile (Path.ofText c.raw) = false →
      ∀ r ∈ index.resources, r.location ≠ ⟨root, c.name⟩ := by
  intro scan
  obtain ⟨hkind, hbase⟩ := Root.isEntryName_of_ofDirectory hnamed₀ hroot
  obtain ⟨kind, base⟩ := root
  subst hkind
  have hscan : scan = Scan.ofDirectory fs config patterns base := by
    show (b.scanner fs).scan _ = _
    rw [hscanner]
    rfl
  have hend : (Scan.ofDirectory fs config patterns base).failure = none :=
    hscan ▸ Builder.ended_of_build hbuild _ hmem
  have hnodup := Scan.nodup_names_of_end htree hend
  have hresource (r : Resource) (hr : r ∈ index.resources)
      (hroot : r.location.root = ⟨.directory, base⟩) :=
    Builder.candidate_of_directory hscanner hbuild r hr hroot
  rw [hscan]
  refine ⟨hnodup, fun r hr hroot => ?_, fun c hc hnofile r hr hlocation => ?_⟩
  · obtain ⟨c, hc, hname, hlocation, hfile⟩ := hresource r hr hroot
    obtain ⟨dirs, file, place, entries, hentry, rfl, -⟩ := Scan.entry_of_candidate htree hend hc
    have hnames := hentry.isEntryName hnamed
    have hraw : Path.ofText (base.below (dirs ++ [file])).text = base.below (dirs ++ [file]) :=
      Path.ofText_text (Path.IsSpelt.below (fun s hs => (hbase s hs).toIsSegment)
        fun s hs => (hnames s hs).toIsSegment)
    rw [hlocation, ← hname]
    refine ⟨Path.leadsDown_join (by simp) hnames, rfl, _, hc, rfl, ?_, hfile, fun hlater => ?_⟩
    · rw [Path.joinText_join base fun s hs => (hnames s hs).toIsSegment]
    · rw [hlater, hraw] at hfile
      obtain ⟨content, hfind, hread⟩ := Location.read_of_isFile hbase hnames hfile
      exact ⟨dirs, file, place, entries, content, hentry, rfl,
        FileSystem.shows_of_find hnames hentry.directory hfind, hread⟩
  · obtain ⟨c', hc', -, hlocation', hfile⟩ := hresource r hr (by rw [hlocation])
    -- The names of candidates are distinct, so the resource would be one of this candidate.
    have hname : c'.name = c.name := congrArg Location.name (hlocation'.symm.trans hlocation)
    obtain rfl := List.inj_on_of_nodup_map hnodup hc' hc hname
    rw [hfile] at hnofile
    cases hnofile

/-! ## A directory with links, of which one file goes away -/

def changingTree : FileSystem :=
  ⟨[("d", .directory [("away", .file []), ("k", .link "../x"), ("lost", .link "nowhere"),
      ("sub", .directory [("up", .link ".."), ("y", .file [121])])]),
    ("e", .link "d"), ("x", .file [120])], []⟩

def changingRoot : Root := ⟨.directory, ⟨.root, ["d"]⟩⟩

def changingLater (_ : Root) (c : Candidate) : FileSystem :=
  if c.name = "away" then ⟨[], []⟩ else changingTree

def changingBuilder : Builder where
  scanner fs := .ofChanging { exclude := some [] } [] fs changingLater
  roots := [changingRoot]
  distinct := by decide

theorem resources_changingTree :
    (changingBuilder.build changingTree).result.map Index.resources =
      .ok [⟨"k", changingRoot, "k"⟩, ⟨"sub/y", changingRoot, "sub/y"⟩] := by
  cbv

theorem candidates_changingTree :
    ((changingBuilder.scanner changingTree).scan changingRoot).candidates =
      [⟨"away", "/d/away"⟩, ⟨"k", "/d/k"⟩, ⟨"lost", "/d/lost"⟩, ⟨"sub/y", "/d/sub/y"⟩] := by
  cbv

/-- What has gone away is no resource, and a link is read as the file that it leads to. -/
theorem directory_resources_read_changingTree :
    changingTree.isNamed = true ∧ Root.ofDirectory changingTree "/e" = .ok changingRoot ∧
    changingTree.root.isTree = true ∧ changingTree.root.isNamed = true ∧
    changingRoot ∈ changingBuilder.roots ∧
    ∃ index, (changingBuilder.build changingTree).result = .ok index ∧
      (∀ r ∈ index.resources, r.location ≠ ⟨changingRoot, "away"⟩) ∧
      ∃ r ∈ index.resources, r.name = "k" ∧ Path.LeadsDown r.name ∧
        ∃ content, r.location.read changingTree = .ok content := by
  have hnamed : changingTree.isNamed = true := by decide
  have hroot : Root.ofDirectory changingTree "/e" = .ok changingRoot := by cbv
  have htree : changingTree.root.isTree = true := by decide
  have hnames : changingTree.root.isNamed = true := by decide
  have hmem : changingRoot ∈ changingBuilder.roots := List.mem_singleton_self _
  obtain ⟨index, hbuild, hresources⟩ := map_eq_ok.1 resources_changingTree
  obtain ⟨-, hread, hgone⟩ := directory_resources_read changingTree changingTree
    { exclude := some [] } [] "/e" changingRoot changingBuilder changingLater index hnamed hroot
    htree hnames hmem rfl hbuild
  refine ⟨hnamed, hroot, htree, hnames, hmem, index, hbuild, fun r hr hlocation => ?_, ?_⟩
  · have haway : ⟨"away", "/d/away"⟩ ∈
        ((changingBuilder.scanner changingTree).scan changingRoot).candidates := by
      rw [candidates_changingTree]
      exact List.mem_cons_self
    exact hgone _ haway (by cbv) r hr hlocation
  · have hr : ⟨"k", changingRoot, "k"⟩ ∈ index.resources := by
      rw [hresources]
      exact List.mem_cons_self
    obtain ⟨hdown, -, c, -, hname, -, -, hsame⟩ := hread _ hr rfl
    have hlater : changingLater changingRoot c = changingTree := by
      rw [changingLater, hname]
      exact if_neg (by decide)
    obtain ⟨-, -, -, -, content, -, -, -, hcontent⟩ := hsame hlater
    exact ⟨_, hr, rfl, hdown, content, hcontent⟩

end ResourceFinder
