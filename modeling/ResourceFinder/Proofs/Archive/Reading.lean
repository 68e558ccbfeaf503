import ResourceFinder.Proofs.Except.Failure
import ResourceFinder.Root.Read

/-
What reading an entry of an archive comes to.

An entry is read by its name, which finds the first one of that name.  What is wrong with an archive
or with an entry is told as a failure that concerns the resource alone, but for a few reasons.  Each
of these is a property of the octets of the archive, and it is listed here.
-/

namespace ResourceFinder

namespace Archive

/-- Whether a fault is one that nothing tells a caller to be prepared for. -/
def Fault.isUnexpected : Fault → Bool
  | unsupported _ | encrypted _ | deflate _ | lzma _ | endOfFile => true
  | malformed _ | name _ | bzip2 | placeBeforeStart | placeTooFar => false

/-- The octets at the place of an entry's header begin like one. -/
def HasHeader (octets : Bytes) (e : Entry) : Prop :=
  ∃ header, octetsFrom octets e.headerPlace = .ok header ∧ headerLength ≤ header.length ∧
    headerSignature.isPrefixOf header = true

def methods : List Nat := [0, 8, 12, 14]

/-- What unpacking octets by a method gives, and whether they told where they end. -/
inductive Unpacks (packed : Bytes) : (method : Nat) → Bytes → Bool → Prop where
  | stored : Unpacks packed 0 packed false
  | deflate {unpacked : Bytes} {ended : Bool} (h : Deflate.inflate packed = .ok (unpacked, ended)) :
      Unpacks packed 8 unpacked ended
  | bzip2 {unpacked : Bytes} {ended : Bool}
      (h : Bzip2.decompress packed = some (unpacked, ended)) : Unpacks packed 12 unpacked ended
  | lzma {unpacked : Bytes} {ended : Bool} (h : Lzma.decompress packed = .ok (unpacked, ended)) :
      Unpacks packed 14 unpacked ended

/-- What is wrong with octets that a method does not unpack. -/
inductive Damaged (packed : Bytes) : (method : Nat) → Fault → Prop where
  | deflate {p : Deflate.Problem} (h : Deflate.inflate packed = .error p) :
      Damaged packed 8 (.deflate p)
  | bzip2 (h : Bzip2.decompress packed = none) : Damaged packed 12 .bzip2
  | lzma {p : Lzma.Problem} (h : Lzma.decompress packed = .error p) : Damaged packed 14 (.lzma p)

/-- The reasons for which an entry cannot be read that are no sign of damage, or are not told as
one. -/
inductive Unreadable (octets : Bytes) (e : Entry) : Fault → Prop where
  | patch (hheader : HasHeader octets e) (h : e.isPatch = true) :
      Unreadable octets e (.unsupported .patch)
  | strongEncryption (hheader : HasHeader octets e) (hplain : e.isPatch = false)
      (h : e.isStronglyEncrypted = true) : Unreadable octets e (.unsupported .strongEncryption)
  | encrypted {rest : Bytes} (hrest : afterHeader octets e = .ok rest)
      (h : e.isEncrypted = true) : Unreadable octets e (.encrypted e)
  | method {rest : Bytes} (hrest : afterHeader octets e = .ok rest)
      (hopen : e.isEncrypted = false) (h : e.method ∉ methods) :
      Unreadable octets e (.unsupported .method)
  | damaged {rest : Bytes} {a : Fault} (hrest : afterHeader octets e = .ok rest)
      (hopen : e.isEncrypted = false) (h : Damaged (rest.take e.storedSize) e.method a)
      (ha : a ≠ .bzip2) : Unreadable octets e a
  | endOfFile {rest unpacked : Bytes} {ended : Bool} (hrest : afterHeader octets e = .ok rest)
      (hopen : e.isEncrypted = false) (hshort : rest.length < e.storedSize)
      (hunpacks : Unpacks rest e.method unpacked ended)
      (h : rest = [] ∨ ended = false ∧ unpacked.length < e.size) :
      Unreadable octets e .endOfFile

/-! ## Headers -/

section

variable {octets : Bytes} {e : Entry} {a : Fault}

theorem isUnexpected_of_octetsFrom {place : Int} (h : octetsFrom octets place = .error a) :
    a.isUnexpected = false := by
  unfold octetsFrom at h
  split at h
  case h_1 =>
    split at h
    case isTrue => cases h
    case isFalse =>
      obtain rfl := Except.error.inj h
      rfl
  case h_2 =>
    obtain rfl := Except.error.inj h
    rfl

/-- The header of an entry is refused for two features, and otherwise for damage. -/
theorem unreadable_of_afterHeader (h : afterHeader octets e = .error a)
    (ha : a.isUnexpected = true) : Unreadable octets e a := by
  unfold afterHeader at h
  obtain hfrom | ⟨header, hheader, h⟩ := bind_eq_error.1 h
  · rw [isUnexpected_of_octetsFrom hfrom] at ha
    cases ha
  obtain ⟨-, rfl⟩ | ⟨hlength, h⟩ := guard_eq_error.1 h
  · cases ha
  obtain ⟨-, rfl⟩ | ⟨hsignature, h⟩ := guard_eq_error.1 h
  · cases ha
  have hhas : HasHeader octets e :=
    ⟨header, hheader, Nat.le_of_not_lt hlength, by simpa using hsignature⟩
  obtain ⟨hpatch, rfl⟩ | ⟨hpatch, h⟩ := guard_eq_error.1 h
  · exact .patch hhas hpatch
  obtain ⟨hstrong, rfl⟩ | ⟨-, h⟩ := guard_eq_error.1 h
  · exact .strongEncryption hhas (by simpa using hpatch) hstrong
  obtain hname | ⟨name, -, h⟩ := bind_eq_error.1 h
  · obtain ⟨e', -, rfl⟩ := mapError_eq_error hname
    cases ha
  obtain ⟨-, rfl⟩ | ⟨-, h⟩ := guard_eq_error.1 h
  · cases ha
  obtain ⟨-, rfl⟩ | ⟨-, h⟩ := guard_eq_error.1 h
  · cases ha
  · cases h

theorem afterHeader_of_isPatch (hheader : HasHeader octets e) (h : e.isPatch = true) :
    afterHeader octets e = .error (.unsupported .patch) := by
  obtain ⟨header, hfrom, hlength, hsignature⟩ := hheader
  simp only [afterHeader, hfrom, bind, Except.bind, Nat.not_lt.2 hlength, hsignature, h, if_false,
    if_true, Bool.not_true, Bool.false_eq_true]

theorem afterHeader_of_isStronglyEncrypted (hheader : HasHeader octets e)
    (hplain : e.isPatch = false) (h : e.isStronglyEncrypted = true) :
    afterHeader octets e = .error (.unsupported .strongEncryption) := by
  obtain ⟨header, hfrom, hlength, hsignature⟩ := hheader
  simp only [afterHeader, hfrom, bind, Except.bind, Nat.not_lt.2 hlength, hsignature, hplain, h,
    if_false, if_true, Bool.not_true, Bool.false_eq_true]

end

/-! ## Unpacking -/

section

variable {packed unpacked : Bytes} {method : Nat} {ended : Bool} {a : Fault}

theorem unpacked?_eq_none : unpacked? packed method = none ↔ method ∉ methods := by
  unfold unpacked?
  split
  case h_3 => cases Bzip2.decompress packed <;> simp [methods]
  case h_5 hstored hdeflate hbzip2 hlzma => simp_all [methods]
  all_goals simp [methods]

theorem unpacks_iff : unpacked? packed method = some (.ok (unpacked, ended)) ↔
    Unpacks packed method unpacked ended := by
  constructor
  · intro h
    unfold unpacked? at h
    split at h
    case h_1 =>
      obtain ⟨rfl, rfl⟩ := Prod.mk.inj (Except.ok.inj (Option.some.inj h))
      exact .stored
    case h_2 => exact .deflate (mapError_eq_ok (Option.some.inj h))
    case h_3 =>
      split at h
      case h_1 => cases h
      case h_2 hsome =>
        obtain rfl := Except.ok.inj (Option.some.inj h)
        exact .bzip2 hsome
    case h_4 => exact .lzma (mapError_eq_ok (Option.some.inj h))
    case h_5 => cases h
  · intro h
    cases h with
    | stored => rfl
    | deflate h | bzip2 h | lzma h =>
      simp only [unpacked?, h, Except.mapError]

theorem damaged_iff : unpacked? packed method = some (.error a) ↔ Damaged packed method a := by
  constructor
  · intro h
    unfold unpacked? at h
    split at h
    case h_1 => cases h
    case h_2 =>
      obtain ⟨p, hp, rfl⟩ := mapError_eq_error (Option.some.inj h)
      exact .deflate hp
    case h_3 =>
      split at h
      case h_1 hnone =>
        obtain rfl := Except.error.inj (Option.some.inj h)
        exact .bzip2 hnone
      case h_2 => cases h
    case h_4 =>
      obtain ⟨p, hp, rfl⟩ := mapError_eq_error (Option.some.inj h)
      exact .lzma hp
    case h_5 => cases h
  · intro h
    cases h with
    | deflate h | bzip2 h | lzma h =>
      simp only [unpacked?, h, Except.mapError]

/-- Damage of one kind is told as what it is. -/
theorem Damaged.isUnexpected_iff (h : Damaged packed method a) :
    a.isUnexpected = true ↔ a ≠ .bzip2 := by
  cases h <;> simp [Fault.isUnexpected]

end

section

variable {octets : Bytes} {e : Entry} {a : Fault} {rest : Bytes}

theorem Unreadable.isUnexpected (h : Unreadable octets e a) : a.isUnexpected = true := by
  cases h with
  | damaged hrest hopen h ha => exact h.isUnexpected_iff.2 ha
  | _ => rfl

theorem checked_eq_ok {content : Bytes} {b : Bytes} (h : checked e content = .ok b) :
    b.length ≤ e.size ∧ Checksum.ofBytes b = e.checksum := by
  simp only [checked] at h
  split at h
  case isTrue hchecksum =>
    obtain rfl := Except.ok.inj h
    exact ⟨List.length_take_le e.size content, hchecksum⟩
  case isFalse => cases h

theorem isUnexpected_of_checked {content : Bytes} (h : checked e content = .error a) :
    a.isUnexpected = false := by
  simp only [checked] at h
  split at h
  · cases h
  · obtain rfl := Except.error.inj h
    rfl

/-- What follows a good header is not read, or it is unpacked and then not all there, or checked. -/
theorem content_of_afterHeader (hrest : afterHeader octets e = .ok rest) :
    content octets e =
      if e.isEncrypted then .error (.encrypted e)
      else match unpacked? (rest.take e.storedSize) e.method with
        | none => .error (.unsupported .method)
        | some (.error a) => .error a
        | some (.ok (unpacked, ended)) =>
          if rest.length < e.storedSize ∧ (rest = [] ∨ ended = false ∧ unpacked.length < e.size) then
            .error .endOfFile
          else checked e unpacked := by
  rw [content, hrest]
  simp only [bind, Except.bind]
  split
  case isTrue => rfl
  case isFalse =>
    cases unpacked? (rest.take e.storedSize) e.method with
    | none => rfl
    | some outcome =>
      cases outcome with
      | error a => rfl
      | ok unpacked => simp

theorem unreadable_of_content (h : content octets e = .error a) (ha : a.isUnexpected = true) :
    Unreadable octets e a := by
  cases hrest : afterHeader octets e with
  | error a' =>
    rw [content, hrest] at h
    obtain rfl := Except.error.inj h
    exact unreadable_of_afterHeader hrest ha
  | ok rest =>
    rw [content_of_afterHeader hrest] at h
    obtain ⟨hencrypted, rfl⟩ | ⟨hopen, h⟩ := guard_eq_error.1 h
    · exact .encrypted hrest hencrypted
    have hopen : e.isEncrypted = false := by simpa using hopen
    split at h
    case h_1 hnone =>
      obtain rfl := Except.error.inj h
      exact .method hrest hopen (unpacked?_eq_none.1 hnone)
    case h_2 a' hdamaged =>
      obtain rfl := Except.error.inj h
      have hdamaged := damaged_iff.1 hdamaged
      exact .damaged hrest hopen hdamaged (hdamaged.isUnexpected_iff.1 ha)
    case h_3 unpacked ended hunpacked =>
      obtain ⟨⟨hshort, hend⟩, rfl⟩ | ⟨-, hchecked⟩ := guard_eq_error.1 h
      · rw [List.take_of_length_le (Nat.le_of_lt hshort)] at hunpacked
        exact .endOfFile hrest hopen hshort (unpacks_iff.1 hunpacked) hend
      · rw [isUnexpected_of_checked hchecked] at ha
        cases ha

theorem Unreadable.content_eq (h : Unreadable octets e a) : Archive.content octets e = .error a := by
  cases h with
  | patch hheader h => rw [Archive.content, afterHeader_of_isPatch hheader h]; rfl
  | strongEncryption hheader hplain h =>
    rw [Archive.content, afterHeader_of_isStronglyEncrypted hheader hplain h]
    rfl
  | encrypted hrest h => rw [content_of_afterHeader hrest, if_pos h]
  | method hrest hopen h =>
    rw [content_of_afterHeader hrest, if_neg (by simp [hopen]), unpacked?_eq_none.2 h]
  | damaged hrest hopen h ha =>
    rw [content_of_afterHeader hrest, if_neg (by simp [hopen]), damaged_iff.2 h]
  | endOfFile hrest hopen hshort hunpacks h =>
    rw [content_of_afterHeader hrest, if_neg (by simp [hopen]),
      List.take_of_length_le (Nat.le_of_lt hshort), unpacks_iff.2 hunpacks]
    exact if_pos ⟨hshort, h⟩

/-- The content of an entry, if there is any, is as long as it should be at most, and agrees with the
checksum. -/
theorem content_eq_ok {b : Bytes} (h : content octets e = .ok b) :
    b.length ≤ e.size ∧ Checksum.ofBytes b = e.checksum := by
  cases hrest : afterHeader octets e with
  | error a =>
    rw [content, hrest] at h
    cases h
  | ok rest =>
    rw [content_of_afterHeader hrest] at h
    split at h
    case isTrue => cases h
    case isFalse =>
      split at h
      case h_1 => cases h
      case h_2 => cases h
      case h_3 =>
        split at h
        case isTrue => cases h
        case isFalse => exact checked_eq_ok h

/-! ## The directory -/

/-- A fault that says which later version of the format an archive needs. -/
def Fault.IsVersion (a : Fault) : Prop := ∃ v, versionLimit < v ∧ a = .unsupported (.version v)

theorem isVersion_of_malformed {α : Type} {x : Except Malformation α}
    (h : x.mapError .malformed = .error a) (ha : a.isUnexpected = true) : a.IsVersion := by
  obtain ⟨m, -, rfl⟩ := mapError_eq_error h
  cases ha

theorem isVersion_of_entryOf {record : Bytes} (h : entryOf record = .error a)
    (ha : a.isUnexpected = true) : a.IsVersion := by
  unfold entryOf at h
  obtain ⟨-, rfl⟩ | ⟨-, h⟩ := guard_eq_error.1 h
  · cases ha
  obtain ⟨-, rfl⟩ | ⟨-, h⟩ := guard_eq_error.1 h
  · cases ha
  obtain hname | ⟨name, -, h⟩ := bind_eq_error.1 h
  · obtain ⟨e', -, rfl⟩ := mapError_eq_error hname
    cases ha
  obtain ⟨hversion, rfl⟩ | ⟨-, h⟩ := guard_eq_error.1 h
  · exact ⟨_, hversion, rfl⟩
  obtain hextra | ⟨_, -, hdone⟩ := bind_eq_error.1 h
  · exact isVersion_of_malformed hextra ha
  · cases hdone

theorem isVersion_of_entriesOf {fuel : Nat} {records : Bytes}
    (h : entriesOf fuel records = .error a) (ha : a.isUnexpected = true) : a.IsVersion := by
  induction fuel generalizing records with
  | zero => cases h
  | succ fuel ih =>
    rw [entriesOf] at h
    split at h
    case isTrue => cases h
    case isFalse =>
      obtain hentry | ⟨⟨e, length⟩, -, h⟩ := bind_eq_error.1 h
      · exact isVersion_of_entryOf hentry ha
      · obtain hrest | ⟨es, -, hdone⟩ := bind_eq_error.1 h
        · exact ih hrest
        · cases hdone

/-- The directory of an archive is refused for the version it needs, and otherwise for damage. -/
theorem isVersion_of_entries {overlap : Overlap} (h : entries octets overlap = .error a)
    (ha : a.isUnexpected = true) : a.IsVersion := by
  unfold entries at h
  obtain hextent | ⟨_, -, h⟩ := bind_eq_error.1 h
  · exact isVersion_of_malformed hextent ha
  obtain ⟨-, rfl⟩ | ⟨-, h⟩ := guard_eq_error.1 h
  · cases ha
  obtain hrecords | ⟨es, -, hdone⟩ := bind_eq_error.1 h
  · exact isVersion_of_entriesOf hrecords ha
  · cases hdone

end

/-- The reasons for which a name of an archive cannot be read and that are not told as damage: the
directory needs a later version of the format, or the first entry of the name cannot be read. -/
inductive Escapes (overlap : Overlap) (octets : Bytes) (name : Text) : Fault → Prop where
  | version {v : Nat} (hversion : versionLimit < v)
      (h : entries octets overlap = .error (.unsupported (.version v))) :
      Escapes overlap octets name (.unsupported (.version v))
  | entry {es : List Entry} {e : Entry} {a : Fault} (hentries : entries octets overlap = .ok es)
      (hfind : find? es name = some e) (h : Unreadable octets e a) : Escapes overlap octets name a

end Archive

def toldFault (p : Path) : Archive.Fault → Fault
  | .malformed m => .corruptArchive p.text m
  | a => .archive a

theorem isRecoverable_toldFault (p : Path) (a : Archive.Fault) :
    (toldFault p a).isRecoverable = !a.isUnexpected := by
  cases a <;> rfl

theorem toldFault_of_isUnexpected (p : Path) {a : Archive.Fault} (h : a.isUnexpected = true) :
    toldFault p a = .archive a := by
  cases a with
  | malformed m => cases h
  | _ => rfl

/-- The content of an entry of the archive under a path, or why there is none. -/
def contentAt (p : Path) (octets : Bytes) (e : Archive.Entry) : Except Fault Bytes :=
  (Archive.content octets e).mapError (toldFault p)

section

variable {fs : FileSystem} {p : Path} {name : Text} {octets : Bytes}
  {entries : List Archive.Entry} {overlap : Archive.Overlap}

/-- Reading an entry opens the archive, finds the entry and takes its content; each step may be the
one that fails. -/
theorem readEntry_eq_read (fs : FileSystem) (p : Path) (name : Text) (overlap : Archive.Overlap) :
    readEntry fs p name overlap = (fs.read p).mapError .path >>= fun octets =>
      (Archive.entries octets overlap).mapError (toldFault p) >>= fun entries =>
        match Archive.find? entries name with
        | none => .error (.noEntry name p.text)
        | some e => contentAt p octets e := by
  unfold readEntry archiveEntries
  cases fs.read p with
  | error e => rfl
  | ok octets =>
    simp only [Except.mapError, bind, Except.bind]
    cases Archive.entries octets overlap with
    | error a => cases a <;> rfl
    | ok entries =>
      simp only [pure, Except.pure]
      cases Archive.find? entries name with
      | none => rfl
      | some e =>
        simp only [contentAt]
        cases Archive.content octets e with
        | ok content => rfl
        | error a => cases a <;> rfl

theorem archiveEntries_eq_ok (h : archiveEntries fs p overlap = .ok (octets, entries)) :
    fs.read p = .ok octets ∧ Archive.entries octets overlap = .ok entries := by
  unfold archiveEntries at h
  cases hread : fs.read p with
  | error e =>
    rw [hread] at h
    cases h
  | ok octets' =>
    rw [hread] at h
    cases hentries : Archive.entries octets' overlap with
    | error a =>
      simp only [hentries, Except.mapError, bind, Except.bind] at h
      cases h
    | ok entries' =>
      simp only [hentries, Except.mapError, bind, Except.bind] at h
      cases h
      exact ⟨rfl, hentries⟩

theorem readEntry_eq (harchive : archiveEntries fs p overlap = .ok (octets, entries)) {e : Archive.Entry}
    (hfind : Archive.find? entries name = some e) : readEntry fs p name overlap = contentAt p octets e := by
  obtain ⟨hread, hentries⟩ := archiveEntries_eq_ok harchive
  rw [readEntry_eq_read, hread]
  simp only [Except.mapError, bind, Except.bind, hentries, hfind]

theorem readEntry_eq_ok {b : Bytes} (h : readEntry fs p name overlap = .ok b) :
    ∃ octets entries e, fs.read p = .ok octets ∧ Archive.entries octets overlap = .ok entries ∧
      Archive.find? entries name = some e ∧ Archive.content octets e = .ok b := by
  rw [readEntry_eq_read] at h
  cases hread : fs.read p with
  | error e =>
    rw [hread] at h
    cases h
  | ok octets =>
    cases hentries : Archive.entries octets overlap with
    | error a =>
      simp only [hread, hentries, Except.mapError, bind, Except.bind] at h
      cases h
    | ok entries =>
      simp only [hread, hentries, Except.mapError, bind, Except.bind] at h
      split at h
      case h_1 => cases h
      case h_2 e hfind => exact ⟨octets, entries, e, rfl, hentries, hfind, mapError_eq_ok h⟩

/-- The failures to read an entry that no caller is told to be prepared for. -/
theorem readEntry_escapes_iff {f : Fault} :
    readEntry fs p name overlap = .error f ∧ f.isRecoverable = false ↔
      ∃ octets a, fs.read p = .ok octets ∧ Archive.Escapes overlap octets name a ∧ f = .archive a := by
  rw [readEntry_eq_read]
  constructor
  · rintro ⟨h, hf⟩
    have hunexpected : ∀ a, toldFault p a = f → a.isUnexpected = true ∧ f = .archive a := by
      rintro a rfl
      have ha : a.isUnexpected = true := by simpa [isRecoverable_toldFault] using hf
      exact ⟨ha, toldFault_of_isUnexpected p ha⟩
    obtain hread | ⟨octets, hread, h⟩ := bind_eq_error.1 h
    · obtain ⟨e, -, rfl⟩ := mapError_eq_error hread
      cases hf
    replace hread := mapError_eq_ok hread
    obtain htold | ⟨entries, hentries, h⟩ := bind_eq_error.1 h
    · obtain ⟨a, hentries, htold⟩ := mapError_eq_error htold
      obtain ⟨ha, rfl⟩ := hunexpected a htold
      obtain ⟨v, hv, rfl⟩ := Archive.isVersion_of_entries hentries ha
      exact ⟨octets, _, hread, .version hv hentries, rfl⟩
    replace hentries := mapError_eq_ok hentries
    split at h
    case h_1 =>
      obtain rfl := Except.error.inj h
      cases hf
    case h_2 e hfind =>
      obtain ⟨a, hcontent, htold⟩ := mapError_eq_error h
      obtain ⟨ha, rfl⟩ := hunexpected a htold
      exact ⟨octets, a, hread, .entry hentries hfind (Archive.unreadable_of_content hcontent ha),
        rfl⟩
  · rintro ⟨octets, a, hread, hescapes, rfl⟩
    cases hescapes with
    | version hversion h =>
      refine ⟨?_, rfl⟩
      simp only [hread, h, Except.mapError, bind, Except.bind]
      rfl
    | entry hentries hfind h =>
      have htold := toldFault_of_isUnexpected p h.isUnexpected
      refine ⟨?_, ?_⟩
      · simp only [hread, hentries, hfind, contentAt, h.content_eq, Except.mapError, bind,
          Except.bind, htold]
      · rw [← htold, isRecoverable_toldFault, h.isUnexpected]
        rfl

end
end ResourceFinder
