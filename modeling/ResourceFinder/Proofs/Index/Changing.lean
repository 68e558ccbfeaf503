import ResourceFinder.Index.Loader
import ResourceFinder.Proofs.Archive.Packed
import ResourceFinder.Proofs.Archive.Reading
import ResourceFinder.Proofs.Index.Outcomes

/-
Loading octets while the files change.

A cursor is pulled on in one state of the files after the other.  Every location that is come to has
an outcome, whatever its root has become, except where an archive has become one of those whose
entry fails without being told as damaged: this is raised, and ends the cursor.
-/

namespace ResourceFinder

/-! ## Pulling in changing states -/

/-- What a cursor gives that is pulled on once in each of some states of the files. -/
def Cursor.pullsIn {α : Type} : List FileSystem → Cursor Reading α → List (Pull α)
  | [], _ => []
  | fs :: later, c =>
    let (answer, c) := c.pull.within fs
    answer :: c.pullsIn later

theorem Reading.within_bind {α β : Type} (x : Reading α) (f : α → Reading β) (fs : FileSystem) :
    (x >>= f).within fs = (f (x.within fs)).within fs := rfl

theorem within_attempt_eq {α : Type} (load : Loader Reading α) (l : Location) (fs : FileSystem) :
    (attempt load l).within fs = LoadOutcome.ofResult l ((load l).within fs) := by
  simp only [attempt, Reading.within_bind, LoadOutcome.ofResult]
  cases (load l).within fs with
  | ok a => rfl
  | error f => rfl

section

variable {α : Type} {value : FileSystem → Location → Except Fault α} {c : Cursor Reading α}
  {found : List (Except Fault Resource)}

/-- A cursor that makes values of the files as they are, and has some findings left. -/
structure Cursor.Reads (c : Cursor Reading α) (value : FileSystem → Location → Except Fault α)
    (found : List (Except Fault Resource)) : Prop where
  delivers : ∀ l fs, (c.deliver l).within fs = value fs l
  finds : findings c.accepts c.rest = found

/-- A pull is decided by the files and by the first of the findings that are left. -/
theorem Cursor.Reads.within_pull (h : c.Reads value found) (fs : FileSystem) :
    let answer := (pullStep (value fs) (fun _ => []) found.head?).answer
    ∃ after : Cursor Reading α, c.pull.within fs = (answer, after) ∧
      after.Reads value (leftBy found answer) := by
  have hended : ({ c with rest := [] } : Cursor Reading α).Reads value [] := ⟨h.delivers, rfl⟩
  obtain ⟨hfound, hfirst⟩ | ⟨f, hfound, hfirst⟩ | ⟨r, rest, hfound, hfirst⟩ :=
    firstAccepted_cases c.accepts c.rest
  · obtain rfl := hfound.symm.trans h.finds
    refine ⟨_, ?_, hended⟩
    rw [pull, hfirst]
    rfl
  · obtain rfl := hfound.symm.trans h.finds
    refine ⟨_, ?_, hended⟩
    rw [pull, hfirst]
    rfl
  · obtain rfl := hfound.symm.trans h.finds
    rw [pull, hfirst]
    simp only [List.head?_cons, pullStep]
    cases hvalue : value fs r.location with
    | ok a =>
      refine ⟨{ c with rest }, ?_, h.delivers, rfl⟩
      simp only [Reading.within_bind, h.delivers, hvalue]
      rfl
    | error f =>
      refine ⟨_, ?_, hended⟩
      simp only [Reading.within_bind, h.delivers, hvalue]
      rfl

theorem length_pullsIn (states : List FileSystem) (c : Cursor Reading α) :
    (c.pullsIn states).length = states.length := by
  induction states generalizing c with
  | nil => rfl
  | cons fs later ih => rw [Cursor.pullsIn, List.length_cons, ih, List.length_cons]

theorem pullsIn_of_nil (h : c.Reads value []) (states : List FileSystem) :
    ∀ answer ∈ c.pullsIn states, answer = .stop := by
  induction states generalizing c with
  | nil => simp [Cursor.pullsIn]
  | cons fs later ih =>
    obtain ⟨after, hpull, hafter⟩ := h.within_pull fs
    rw [Cursor.pullsIn, hpull]
    exact List.forall_mem_cons.2 ⟨rfl, ih hafter⟩

/-- What a pull gives is what its location gives in the files as they are then, if no earlier pull
has failed; after one that has there is nothing more. -/
theorem pullsIn_at {rs : List Resource} (h : c.Reads value (rs.map .ok)) {states : List FileSystem}
    {k : Nat} {fs : FileSystem} (hk : states[k]? = some fs)
    (hbefore : ∀ j < k, ∀ fs' r, states[j]? = some fs' → rs[j]? = some r →
      ∃ a, value fs' r.location = .ok a) :
    (c.pullsIn states)[k]? =
        some ((rs[k]?).elim .stop fun r => .ofResult (value fs r.location)) ∧
      ∀ r f, rs[k]? = some r → value fs r.location = .error f →
        ∀ answer ∈ (c.pullsIn states).drop (k + 1), answer = .stop := by
  induction k generalizing c rs states with
  | zero =>
    obtain ⟨later, rfl⟩ : ∃ later, states = fs :: later := by
      cases states with
      | nil => cases hk
      | cons fs' later => exact ⟨later, by rw [Option.some.inj hk]⟩
    obtain ⟨after, hpull, hafter⟩ := h.within_pull fs
    rw [Cursor.pullsIn, hpull]
    cases rs with
    | nil => exact ⟨rfl, fun r f hr => by cases hr⟩
    | cons r rs =>
      refine ⟨rfl, fun r' f hr hf => ?_⟩
      obtain rfl := Option.some.inj hr
      simp only [List.map_cons, List.head?_cons, pullStep, hf] at hafter
      exact pullsIn_of_nil hafter later
  | succ k ih =>
    obtain ⟨fs', later, rfl⟩ : ∃ fs' later, states = fs' :: later := by
      cases states with
      | nil => cases hk
      | cons fs' later => exact ⟨fs', later, rfl⟩
    obtain ⟨after, hpull, hafter⟩ := h.within_pull fs'
    rw [Cursor.pullsIn, hpull]
    have hrest : after.Reads value (rs.tail.map .ok) := by
      cases rs with
      | nil => exact hafter
      | cons r rs =>
        obtain ⟨a, ha⟩ := hbefore 0 (Nat.succ_pos k) fs' r rfl rfl
        simp only [List.map_cons, List.head?_cons, pullStep, ha] at hafter
        exact hafter
    have htail : ∀ j, rs[j + 1]? = rs.tail[j]? := fun j => by rw [List.getElem?_tail]
    obtain ⟨hanswer, hstop⟩ := ih hrest hk fun j hj fs'' r hfs hr =>
      hbefore (j + 1) (by omega) fs'' r hfs (by rwa [htail])
    rw [htail]
    exact ⟨hanswer, hstop⟩

end

/-! ## Octets -/

/-- What a location comes to that cannot be read and is not told as such: it is an entry of an
archive. -/
def Location.Escapes (overlap : Archive.Overlap) (fs : FileSystem) (l : Location) (f : Fault) :
    Prop :=
  l.root.kind = .archive ∧ ∃ octets a, fs.read l.root.path = .ok octets ∧
    Archive.Escapes overlap octets l.name a ∧ f = .archive a

section

variable {overlap : Archive.Overlap} {fs : FileSystem} {l : Location}

theorem Location.escapes_iff {f : Fault} :
    l.Escapes overlap fs f ↔ l.read fs overlap = .error f ∧ f.isRecoverable = false := by
  unfold Escapes read
  cases l.root.kind with
  | directory =>
    refine iff_of_false (fun h => by cases h.1) ?_
    rintro ⟨h, hf⟩
    obtain ⟨e, -, rfl⟩ := mapError_eq_error h
    cases hf
  | archive =>
    rw [readEntry_escapes_iff]
    exact and_iff_right rfl

theorem ofResult_read (h : ∀ f, ¬l.Escapes overlap fs f) :
    LoadOutcome.ofResult l (l.read fs overlap) = .ok ⟨l, l.read fs overlap⟩ := by
  cases hread : l.read fs overlap with
  | ok b => rfl
  | error f =>
    cases hf : f.isRecoverable with
    | true => rw [LoadOutcome.ofResult, if_pos hf]
    | false => exact absurd (Location.escapes_iff.2 ⟨hread, hf⟩) (h f)

theorem ofResult_read_of_escapes {f : Fault} (h : l.Escapes overlap fs f) :
    LoadOutcome.ofResult l (l.read fs overlap) = .error f := by
  obtain ⟨hread, hf⟩ := Location.escapes_iff.1 h
  rw [hread, LoadOutcome.ofResult, hf]
  rfl

end

theorem Index.fetchOutcomes_bytes_eq (i : Index) {q : Query} {accepts : NameTest}
    (hq : q.accepts = .ok accepts) (overlap : Archive.Overlap) :
    ∃ c, i.fetchOutcomes q (.bytes overlap) = .ok c ∧
      c.Reads (fun fs l => LoadOutcome.ofResult l (l.read fs overlap))
        (findings accepts i.resources) := by
  refine ⟨⟨i.resources, accepts, attempt (.bytes overlap)⟩, ?_, fun l fs => ?_, rfl⟩
  · rw [fetchOutcomes, hq]
    rfl
  · exact within_attempt_eq (.bytes overlap) l fs

/-- Octets of resources while the files change, whether or not entries of archives may overlap.
Reading an entry gives octets that agree with what the archive declares, or fails in a way that a
caller is told to be prepared for, or for one of the reasons for which it escapes.  Over any index, a
query that decides gives one outcome for each resource it accepts, in the order of the index and each
by the files as they are at its pull, and then stops, up to the first location that escapes: its
failure is raised, and ends the cursor. -/
theorem bytes_outcomes (i : Index) {q : Query} {p : Text → Bool} (hq : q.Decides p)
    (overlap : Archive.Overlap) (states : List FileSystem) :
    let ls := (i.resources.filter (p ·.name)).map Resource.location
    (∀ fs path name,
      (∀ b, readEntry fs path name overlap = .ok b → ∃ octets entries e,
        fs.read path = .ok octets ∧ Archive.entries octets overlap = .ok entries ∧
        Archive.find? entries name = some e ∧ Archive.content octets e = .ok b ∧
        b.length ≤ e.size ∧ Archive.Checksum.ofBytes b = e.checksum) ∧
      ∀ f, readEntry fs path name overlap = .error f ∧ f.isRecoverable = false ↔
        ∃ octets a, fs.read path = .ok octets ∧ Archive.Escapes overlap octets name a ∧
          f = .archive a) ∧
    ∃ c, i.fetchOutcomes q (.bytes overlap) = .ok c ∧
      (c.pullsIn states).length = states.length ∧
      ∀ k fs, states[k]? = some fs →
        (∀ j < k, ∀ fs' l f, states[j]? = some fs' → ls[j]? = some l →
          ¬l.Escapes overlap fs' f) →
        (∀ l, ls[k]? = some l → (∀ f, ¬l.Escapes overlap fs f) →
          (c.pullsIn states)[k]? = some (.item ⟨l, l.read fs overlap⟩)) ∧
        (∀ l f, ls[k]? = some l → l.Escapes overlap fs f →
          (c.pullsIn states)[k]? = some (.failed f) ∧
          ∀ answer ∈ (c.pullsIn states).drop (k + 1), answer = .stop) ∧
        (ls[k]? = none → (c.pullsIn states)[k]? = some .stop) := by
  intro ls
  refine ⟨fun fs path name => ⟨fun b hb => ?_, fun f => readEntry_escapes_iff⟩, ?_⟩
  · obtain ⟨octets, entries, e, hread, hentries, hfind, hcontent⟩ := readEntry_eq_ok hb
    exact ⟨octets, entries, e, hread, hentries, hfind, hcontent, Archive.content_eq_ok hcontent⟩
  obtain ⟨accepts, haccepts, hdecides⟩ := hq
  obtain ⟨c, hfetch, hreads⟩ := i.fetchOutcomes_bytes_eq haccepts overlap
  rw [findings_of_total hdecides] at hreads
  refine ⟨c, hfetch, length_pullsIn states c, fun k fs hk hbefore => ?_⟩
  have hls : ∀ j, ls[j]? = ((i.resources.filter (p ·.name))[j]?).map Resource.location :=
    fun j => List.getElem?_map
  obtain ⟨hanswer, hstop⟩ := pullsIn_at hreads hk fun j hj fs' r hfs' hr =>
    ⟨_, ofResult_read fun f => hbefore j hj fs' r.location f hfs' (by rw [hls, hr]; rfl)⟩
  refine ⟨fun l hl hreadable => ?_, fun l f hl hescapes => ?_, fun hnone => ?_⟩
  · rw [hls] at hl
    obtain ⟨r, hr, rfl⟩ := Option.map_eq_some_iff.1 hl
    rw [hanswer, hr, Option.elim, ofResult_read hreadable]
    rfl
  · rw [hls] at hl
    obtain ⟨r, hr, rfl⟩ := Option.map_eq_some_iff.1 hl
    have hfailed := ofResult_read_of_escapes hescapes
    refine ⟨?_, hstop r f hr hfailed⟩
    rw [hanswer, hr, Option.elim, hfailed]
    rfl
  · rw [hls] at hnone
    rw [hanswer, Option.map_eq_none_iff.1 hnone]
    rfl

/-! ## An archive that is locked after the index was built -/

/-- An archive of two entries, the second with some flags. -/
def twoEntries (flags : Nat) : Bytes := Archive.pack [⟨[97], 0, [120]⟩, ⟨[98], flags, [121]⟩]

def twoEntriesTree (flags : Nat) : FileSystem := ⟨[("z", .file (twoEntries flags))], []⟩

def firstEntry : Archive.Entry := ⟨"a", 0, 0, 2363233923, 1, 1, 0, 0, none⟩

def secondEntry (flags : Nat) : Archive.Entry := ⟨"b", flags, 0, 4225443349, 1, 1, 0, 32, none⟩

def inArchive (name : Text) : Resource := ⟨name, ⟨⟨.archive, ⟨.root, ["z"]⟩⟩, name⟩⟩

def twoEntriesIndex : Index := ⟨[inArchive "a", inArchive "b"], by decide⟩

set_option maxRecDepth 8000 in
theorem entries_twoEntries :
    Archive.entries (twoEntries 1) = .ok [firstEntry, secondEntry 1] := by
  cbv

set_option maxRecDepth 8000 in
theorem read_twoEntries : (twoEntriesTree 1).read ⟨.root, ["z"]⟩ = .ok (twoEntries 1) := by
  cbv

set_option maxRecDepth 8000 in
theorem read_firstEntry : (inArchive "a").location.read (twoEntriesTree 0) = .ok [120] := by
  cbv

set_option maxRecDepth 8000 in
theorem afterHeader_locked :
    ∃ rest, Archive.afterHeader (twoEntries 1) (secondEntry 1) = .ok rest := by
  cbv
  exact ⟨_, rfl⟩

theorem secondEntry_escapes :
    (inArchive "b").location.Escapes .allowed (twoEntriesTree 1)
      (.archive (.encrypted (secondEntry 1))) := by
  obtain ⟨rest, hrest⟩ := afterHeader_locked
  exact ⟨rfl, twoEntries 1, _, read_twoEntries,
    .entry entries_twoEntries rfl (.encrypted hrest rfl), rfl⟩

theorem firstEntry_readable (f : Fault) :
    ¬(inArchive "a").location.Escapes .allowed (twoEntriesTree 0) f := by
  rw [Location.escapes_iff]
  rintro ⟨h, -⟩
  rw [read_firstEntry] at h
  cases h

/-- The archive is locked between the first pull and the second one. -/
theorem bytes_outcomes_locked :
    let q := Query.test fun _ => .ok true
    q.Decides (fun _ => true) ∧
    ∃ c, twoEntriesIndex.fetchOutcomes q Loader.bytes = .ok c ∧
      (c.pullsIn [twoEntriesTree 0, twoEntriesTree 1, twoEntriesTree 0])[0]? =
        some (.item ⟨(inArchive "a").location, .ok [120]⟩) ∧
      (c.pullsIn [twoEntriesTree 0, twoEntriesTree 1, twoEntriesTree 0])[1]? =
        some (.failed (.archive (.encrypted (secondEntry 1)))) ∧
      ∀ answer ∈ (c.pullsIn [twoEntriesTree 0, twoEntriesTree 1, twoEntriesTree 0]).drop 2,
        answer = .stop := by
  intro q
  have hdecides : q.Decides (fun _ => true) := ⟨_, rfl, fun _ => rfl⟩
  obtain ⟨-, c, hc, -, hpulls⟩ := bytes_outcomes twoEntriesIndex hdecides .allowed
    [twoEntriesTree 0, twoEntriesTree 1, twoEntriesTree 0]
  have hfirst := (hpulls 0 _ rfl fun j hj => absurd hj (Nat.not_lt_zero j)).1 _ rfl
    firstEntry_readable
  rw [read_firstEntry] at hfirst
  have hbefore : ∀ j < 1, ∀ fs l f,
      [twoEntriesTree 0, twoEntriesTree 1, twoEntriesTree 0][j]? = some fs →
      (twoEntriesIndex.resources.map Resource.location)[j]? = some l → ¬l.Escapes .allowed fs f := by
    intro j hj fs l f hfs hl
    obtain rfl : j = 0 := by omega
    obtain rfl := Option.some.inj hfs
    obtain rfl := Option.some.inj hl
    exact firstEntry_readable f
  obtain ⟨hsecond, hstop⟩ := (hpulls 1 _ rfl hbefore).2.1 _ _ rfl secondEntry_escapes
  exact ⟨hdecides, c, hc, hfirst, hsecond, hstop⟩

set_option maxRecDepth 8000 in
/-- The second entry is encrypted: reading it is no damage that a caller is told about, and where it
is come to nothing is delivered for it. -/
theorem locked_entry_raises :
    let failure := Fault.archive (.encrypted (secondEntry 1))
    readEntry (twoEntriesTree 1) ⟨.root, ["z"]⟩ "b" = .error failure ∧
      failure.isRecoverable = false ∧
      ∃ c, twoEntriesIndex.fetchOutcomes (.test fun _ => .ok true) Loader.bytes = .ok c ∧
        c.pullsIn (List.replicate 3 (twoEntriesTree 1)) =
          [.item ⟨(inArchive "a").location, .ok [120]⟩, .failed failure, .stop] := by
  intro failure
  refine ⟨?_, rfl, _, rfl, ?_⟩
  · cbv
  · cbv

end ResourceFinder
