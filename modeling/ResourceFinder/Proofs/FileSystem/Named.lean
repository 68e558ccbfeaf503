import ResourceFinder.FileSystem.RealPath
import ResourceFinder.Proofs.FileSystem.Plain

/-
Names that entries of directories have.

A file system refuses names that would stand for something else in a path, and every text with a
null character.  What a path leads to and what it is resolved to are then spelt by such names, since
what is in between has been looked up.
-/

namespace ResourceFinder
namespace Path

/-- A name that an entry of a directory can have. -/
structure IsEntryName (s : Text) : Prop extends IsName s where
  null : .char '\x00' ∉ s

theorem isEntryName_iff {s : Text} : IsEntryName s ↔
    (s ≠ [] ∧ s ≠ here ∧ s ≠ up) ∧ .char '/' ∉ s ∧ .char '\x00' ∉ s :=
  ⟨fun h => ⟨⟨h.ne_nil, h.ne_here, h.ne_up⟩, h.slash, h.null⟩,
    fun ⟨⟨hnil, hhere, hup⟩, hslash, hnull⟩ => ⟨⟨⟨hnil, hhere, hslash⟩, hup⟩, hnull⟩⟩

instance (s : Text) : Decidable (IsEntryName s) := decidable_of_iff _ isEntryName_iff.symm

end Path

/-! ## Trees -/

mutual

/-- Whether the entries of every directory of a tree have names that entries can have, and links
lead to texts that they can hold. -/
def Node.isNamed : Node → Bool
  | .file _ => true
  | .link target => !target.contains (.char '\x00')
  | .directory entries => areNamed entries

def areNamed : List (Text × Node) → Bool
  | [] => true
  | (name, n) :: rest => decide (Path.IsEntryName name) && n.isNamed && areNamed rest

end

theorem isNamed_of_mem {entries : List (Text × Node)} (h : areNamed entries = true)
    {e : Text × Node} (he : e ∈ entries) : Path.IsEntryName e.1 ∧ e.2.isNamed = true := by
  induction entries with
  | nil => cases he
  | cons x entries ih =>
    obtain ⟨name, n⟩ := x
    rw [areNamed, Bool.and_eq_true, Bool.and_eq_true, decide_eq_true_eq] at h
    rcases List.mem_cons.1 he with rfl | he
    · exact h.1
    · exact ih h.2 he

theorem Node.isNamed_at {n m : Node} (h : n.isNamed = true) {way : Place}
    (hm : n.at? way = some m) : m.isNamed = true ∧ ∀ s ∈ way, Path.IsEntryName s := by
  induction way generalizing n with
  | nil =>
    obtain rfl := Option.some.inj hm
    exact ⟨h, by simp⟩
  | cons name way ih =>
    cases n with
    | file content => cases hm
    | link target => cases hm
    | directory entries =>
      obtain ⟨below, hbelow, hat⟩ := Option.bind_eq_some_iff.1 hm
      obtain ⟨hname, hnode⟩ := isNamed_of_mem h (mem_of_lookup hbelow)
      obtain ⟨hm, hway⟩ := ih hnode hat
      exact ⟨hm, List.forall_mem_cons.2 ⟨hname, hway⟩⟩

namespace FileSystem

/-- Whether the names in a file system, and those on the way to its working directory, are ones that
entries can have. -/
def isNamed (fs : FileSystem) : Bool :=
  fs.root.isNamed && fs.current.all fun s => decide (Path.IsEntryName s)

variable {fs : FileSystem}

theorem isNamed_iff : fs.isNamed = true ↔
    fs.root.isNamed = true ∧ ∀ s ∈ fs.current, Path.IsEntryName s := by
  simp [isNamed]

theorem isEntryName_of_lookup (hnamed : fs.root.isNamed = true) {place : Place}
    {entries : List (Text × Node)} (hnode : fs.nodeAt? place = some (.directory entries))
    {name : Text} {n : Node} (hn : entries.lookup name = some n) : Path.IsEntryName name :=
  (isNamed_of_mem (Node.isNamed_at hnamed hnode).1 (mem_of_lookup hn)).1

/-- A file is read by a path that leads to it, if a file system can take the text of the path. -/
theorem read_eq_ok {p : Path} {content : Bytes} :
    fs.read p = .ok content ↔ .char '\x00' ∉ p.text ∧ fs.find p = .ok (.file content) := by
  unfold read
  split
  case isTrue hnull => exact iff_of_false nofun fun h => h.1 (List.contains_iff_mem.1 hnull)
  case isFalse hnull =>
    have hnull : .char '\x00' ∉ p.text := mt List.contains_iff_mem.2 hnull
    rcases fs.find p with problem | (content' | target | entries) <;> simp [hnull]

theorem exists_locate_of_find {p : Path} {n : Node} (h : fs.find p = .ok n) :
    ∃ place, fs.locate p = .ok place := by
  cases hplace : fs.locate p with
  | error problem => simp [find, hplace, bind, Except.bind] at h
  | ok place => exact ⟨place, rfl⟩

theorem isFile_iff {p : Path} :
    fs.isFile p = true ↔ ∃ content, fs.find p = .ok (.file content) := by
  unfold isFile
  rcases fs.find p with problem | (content | target | entries) <;> simp [Node.isFile]

theorem anchor_resolve (fs : FileSystem) (p : Path) : (fs.resolve p).anchor = .root := by
  unfold FileSystem.resolve
  simp only
  split <;> rfl

/-! ## Ways -/

/-- What stands between two slashes of a path that a file system takes. -/
structure IsPiece (s : Text) : Prop where
  slash : .char '/' ∉ s
  null : .char '\x00' ∉ s

theorem isPiece_of_mem_splitAt {t piece : Text} (ht : .char '\x00' ∉ t)
    (h : piece ∈ Text.splitAt '/' t) : IsPiece piece where
  slash := Text.not_mem_of_mem_splitAt h
  null := fun hmem => ht (Text.mem_of_mem_splitAt h hmem)

/-- What is so of the pieces of paths that lead somewhere, and of the names that places are made of:
it is so of dots, of what directories list and of the pieces of links, and a piece that adds a name
adds such a name. -/
structure Keeps (fs : FileSystem) (ofPiece ofName : Text → Prop) : Prop where
  here : ofPiece Path.here
  up : ofPiece Path.up
  listed : ∀ {place entries name n}, fs.nodeAt? place = some (.directory entries) →
    List.lookup name entries = some n → ofPiece name
  linked : ∀ {place target}, fs.nodeAt? place = some (.link target) →
    ∀ piece ∈ Text.splitAt '/' target, ofPiece piece
  adds : ∀ {s}, ofPiece s → s ≠ [] → s ≠ Path.here → s ≠ Path.up → ofName s

section

variable {ofPiece ofName : Text → Prop}

theorem Keeps.way (hkeeps : fs.Keeps ofPiece ofName) {links : Nat} {place p : Place}
    {way : List Text} (h : fs.Leads links place way p) : ∀ s ∈ way, ofPiece s := by
  induction h with
  | done => simp
  | here _ _ ih => exact List.forall_mem_cons.2 ⟨hkeeps.here, ih⟩
  | up _ _ ih => exact List.forall_mem_cons.2 ⟨hkeeps.up, ih⟩
  | link hnode _ _ hlookup _ ih =>
    exact List.forall_mem_cons.2
      ⟨hkeeps.listed hnode hlookup, fun s hs => ih s (List.mem_append_right _ hs)⟩
  | inside hnode _ _ hlookup _ _ ih =>
    exact List.forall_mem_cons.2 ⟨hkeeps.listed hnode hlookup, ih⟩

/-! ## Resolved paths -/

theorem forall_mem_linkStart {s : Standing} (h : ∀ name ∈ s.place, ofName name) (target : Text) :
    ∀ name ∈ (s.linkStart target).place, ofName name := by
  unfold Standing.linkStart
  split
  · simp
  · exact h

theorem Keeps.child (hkeeps : fs.Keeps ofPiece ofName) {place : Place}
    (hplace : ∀ s ∈ place, ofName s) {name : Text} (hname : ofPiece name)
    (hhere : ¬(name.isEmpty || name = Path.here) = true) (hup : name ≠ Path.up) :
    ∀ s ∈ place ++ [name], ofName s := by
  simp only [Bool.or_eq_true, List.isEmpty_iff, decide_eq_true_eq, not_or] at hhere
  exact List.forall_mem_append.2
    ⟨hplace, List.forall_mem_singleton.2 (hkeeps.adds hname hhere.1 hhere.2 hup)⟩

theorem Keeps.appendPlainly (hkeeps : fs.Keeps ofPiece ofName) {place : Place} {way : List Text}
    (hplace : ∀ s ∈ place, ofName s) (hway : ∀ s ∈ way, ofPiece s) :
    ∀ s ∈ FileSystem.appendPlainly place way, ofName s := by
  induction way generalizing place with
  | nil => exact hplace
  | cons name way ih =>
    obtain ⟨hname, hway⟩ := List.forall_mem_cons.1 hway
    rw [FileSystem.appendPlainly, List.foldl_cons]
    refine ih ?_ hway
    split
    case isTrue => exact hplace
    case isFalse hhere =>
      split
      case isTrue => exact fun s hs => hplace s (List.dropLast_subset _ hs)
      case isFalse hup => exact hkeeps.child hplace hname hhere hup

theorem Keeps.target (hkeeps : fs.Keeps ofPiece ofName) {place : Place} {target : Text}
    (h : fs.linkAt? place = some target) : ∀ piece ∈ Text.splitAt '/' target, ofPiece piece := by
  unfold linkAt? at h
  split at h
  case h_1 target' hnode =>
    obtain rfl := Option.some.inj h
    exact hkeeps.linked hnode
  case h_2 => cases h

/-- The place that resolving ends at, with a loop of links or without one. -/
def resolvedPlace (outcome : Except Place Standing) : Place :=
  match outcome with
  | .ok s => s.place
  | .error place => place

/-- The place is resolved to is one of names throughout. -/
theorem Keeps.resolveFrom (hkeeps : fs.Keeps ofPiece ofName) {fuel : Nat} {active : List Standing}
    {s : Standing} {way : List Text} (hplace : ∀ name ∈ s.place, ofName name)
    (hway : ∀ name ∈ way, ofPiece name) :
    ∀ name ∈ resolvedPlace (fs.resolveFrom fuel active s way), ofName name := by
  induction fuel, active, s, way using FileSystem.resolveFrom.induct fs with
  | case1 fuel active s =>
    rw [FileSystem.resolveFrom]
    exact hplace
  | case2 fuel active s name rest hhere ih =>
    obtain ⟨-, hrest⟩ := List.forall_mem_cons.1 hway
    rw [FileSystem.resolveFrom, if_pos hhere]
    exact ih hplace hrest
  | case3 fuel active s rest hhere ih =>
    obtain ⟨-, hrest⟩ := List.forall_mem_cons.1 hway
    rw [FileSystem.resolveFrom, if_neg hhere, if_pos rfl]
    exact ih (fun name hs => hplace name (List.dropLast_subset _ hs)) hrest
  | case4 fuel active s name rest hhere hup next hlink ih =>
    obtain ⟨hname, hrest⟩ := List.forall_mem_cons.1 hway
    rw [FileSystem.resolveFrom, if_neg hhere, if_neg hup]
    simp only [hlink, next]
    exact ih (hkeeps.child hplace hname hhere hup) hrest
  | case5 fuel active s name rest hhere hup next target hlink hactive =>
    obtain ⟨hname, hrest⟩ := List.forall_mem_cons.1 hway
    rw [FileSystem.resolveFrom, if_neg hhere, if_neg hup]
    simp only [hlink, hactive, next, if_true]
    exact hkeeps.appendPlainly (hkeeps.child hplace hname hhere hup) hrest
  | case6 active s name rest hhere hup next target hlink hactive =>
    obtain ⟨hname, hrest⟩ := List.forall_mem_cons.1 hway
    rw [FileSystem.resolveFrom, if_neg hhere, if_neg hup]
    simp only [hlink, hactive, next, Bool.false_eq_true, if_false]
    exact hkeeps.appendPlainly (hkeeps.child hplace hname hhere hup) hrest
  | case7 active s name rest hhere hup next target hlink hactive fuel place herror ih =>
    obtain ⟨-, hrest⟩ := List.forall_mem_cons.1 hway
    rw [FileSystem.resolveFrom, if_neg hhere, if_neg hup]
    simp only [hlink, hactive, next, herror, Bool.false_eq_true, if_false]
    rw [herror] at ih
    exact hkeeps.appendPlainly (ih (forall_mem_linkStart hplace target) (hkeeps.target hlink)) hrest
  | case8 active s name rest hhere hup next target hlink hactive fuel s' hok ih ih' =>
    obtain ⟨-, hrest⟩ := List.forall_mem_cons.1 hway
    rw [FileSystem.resolveFrom, if_neg hhere, if_neg hup]
    simp only [hlink, hactive, next, hok, Bool.false_eq_true, if_false]
    rw [hok] at ih
    exact ih' (ih (forall_mem_linkStart hplace target) (hkeeps.target hlink)) hrest

/-- What a path that leads somewhere is resolved to is made of such names. -/
theorem Keeps.resolve (hkeeps : fs.Keeps ofPiece ofName) (hcurrent : ∀ s ∈ fs.current, ofName s)
    {p : Path} {place : Place} (h : fs.locate p = .ok place) :
    ∀ name ∈ (fs.resolve p).segments, ofName name := by
  have hstart : ∀ name ∈ fs.startOf p, ofName name := by
    unfold startOf
    split
    · simp
    · exact hcurrent
  have hplace : ∀ name ∈ resolvedPlace (fs.resolveFrom (2 * linkCountAll fs.entries) []
      ⟨fs.startOf p, !p.isAbsolute⟩ p.segments), ofName name :=
    hkeeps.resolveFrom hstart (hkeeps.way (leads_of_follow h))
  unfold FileSystem.resolve
  simp only
  split
  case h_1 s hs =>
    rw [hs] at hplace
    exact hplace
  case h_2 place hs =>
    rw [hs] at hplace
    exact hplace

end

/-- What a file system with such names looks up can stand between two slashes, and what that adds
are names that entries can have. -/
theorem keeps_of_isNamed (hnamed : fs.root.isNamed = true) :
    fs.Keeps IsPiece Path.IsEntryName where
  here := ⟨by decide, by decide⟩
  up := ⟨by decide, by decide⟩
  listed := fun hnode hlookup =>
    ⟨(isEntryName_of_lookup hnamed hnode hlookup).slash,
      (isEntryName_of_lookup hnamed hnode hlookup).null⟩
  linked := by
    intro place target hnode piece
    have hlink := (Node.isNamed_at hnamed hnode).1
    rw [Node.isNamed, Bool.not_eq_true', ← Bool.not_eq_true, List.contains_iff_mem] at hlink
    exact isPiece_of_mem_splitAt hlink
  adds := fun hpiece hnil hhere hup =>
    Path.isEntryName_iff.2 ⟨⟨hnil, hhere, hup⟩, hpiece.slash, hpiece.null⟩

theorem isEntryName_resolve (hnamed : fs.isNamed = true) {p : Path} {place : Place}
    (h : fs.locate p = .ok place) : ∀ name ∈ (fs.resolve p).segments, Path.IsEntryName name := by
  obtain ⟨hroot, hcurrent⟩ := isNamed_iff.1 hnamed
  exact (keeps_of_isNamed hroot).resolve hcurrent h

/-! ### Directories without links on the way -/

/-- Names without links are resolved to the place that they spell. -/
theorem resolveFrom_plain {fuel : Nat} {active : List Standing} {s : Standing} {way : List Text}
    (hnames : ∀ name ∈ way, Path.IsEntryName name)
    (hlinks : ∀ above below, way = above ++ below → fs.linkAt? (s.place ++ above) = none) :
    fs.resolveFrom fuel active s way = .ok { s with place := s.place ++ way } := by
  induction way generalizing s with
  | nil => rw [resolveFrom, List.append_nil]
  | cons name way ih =>
    obtain ⟨hname, hnames⟩ := List.forall_mem_cons.1 hnames
    have hhere : ¬(name.isEmpty || name = Path.here) = true := by
      simp [hname.ne_nil, hname.ne_here]
    have hlink : fs.linkAt? (s.place ++ [name]) = none := hlinks [name] way rfl
    have hplace : s.place ++ name :: way = s.place ++ [name] ++ way := by simp
    rw [resolveFrom, if_neg hhere, if_neg hname.ne_up, hplace]
    simp only [hlink]
    refine ih (s := { s with place := s.place ++ [name] }) hnames fun above below hway => ?_
    rw [List.append_assoc]
    exact hlinks (name :: above) below (by rw [hway, List.cons_append])

theorem directory_of_prefix {above below : Place} {entries : List (Text × Node)}
    (h : fs.nodeAt? (above ++ below) = some (.directory entries)) :
    ∃ entries, fs.nodeAt? above = some (.directory entries) := by
  by_cases hbelow : below = []
  · rw [hbelow, List.append_nil] at h
    exact ⟨entries, h⟩
  · have hstart : fs.nodeAt? ([] ++ (above ++ below)) = some (.directory entries) := h
    exact directory_above hbelow hstart

theorem realPath_of_directory (hnamed : fs.root.isNamed = true) {place : Place}
    {entries : List (Text × Node)} (h : fs.nodeAt? place = some (.directory entries)) :
    fs.realPath ⟨.root, place⟩ = .ok ⟨.root, place⟩ := by
  have hnames := (Node.isNamed_at hnamed h).2
  have habove (above below : Place) (hplace : place = above ++ below) :
      ∃ entries, fs.nodeAt? above = some (.directory entries) :=
    directory_of_prefix (hplace ▸ h)
  have hresolve : fs.resolve ⟨.root, place⟩ = ⟨.root, place⟩ := by
    have hplain : fs.resolveFrom (2 * linkCountAll fs.entries) [] ⟨[], false⟩ place =
        .ok ⟨place, false⟩ := by
      refine resolveFrom_plain hnames fun above below hplace => ?_
      obtain ⟨entries, hentries⟩ := habove above below hplace
      rw [List.nil_append, linkAt?, hentries]
    show (match fs.resolveFrom (2 * linkCountAll fs.entries) [] ⟨[], false⟩ place with
      | .ok s => (⟨.root, s.place⟩ : Path)
      | .error place => ⟨.root, place⟩) = _
    rw [hplain]
  have hlocate : fs.locate ⟨.root, place⟩ = .ok place := by
    have hplain : fs.follow linkLimit [] (place ++ []) = fs.follow linkLimit ([] ++ place) [] := by
      refine follow_plain h (fun name hname => (hnames name hname).toIsName)
        (fun above below target hplace hlink => ?_) []
      obtain ⟨entries, hentries⟩ := habove above below hplace
      cases hentries.symm.trans hlink
    rw [List.append_nil, follow.eq_1] at hplain
    exact hplain
  rw [realPath, hresolve]
  simp only [hlocate]

end FileSystem
end ResourceFinder
