import ResourceFinder.Proofs.Archive.Packed
import ResourceFinder.Proofs.Archive.Refusal
import ResourceFinder.Proofs.FileSystem.Named
import ResourceFinder.Proofs.Index.Roots

/-
Paths that are no roots, and those that are refused for something else.

A path is no root if nothing fit for one is there.  It is refused for something else if the system
does not say what is there, for instance since a name in it is too long, or if an archive is there
whose directory is not damaged and cannot be read all the same.  A search path with such an entry is
refused as a whole.
-/

namespace ResourceFinder
namespace Root

/-- The system does not say what is under a path. -/
def Withheld (fs : FileSystem) (r : Refusals) (p : Path) (f : Fault) : Prop :=
  ∃ problem, fs.Withholds r p problem ∧ f = .path (.refused problem p.text)

/-- Why a path is refused that is not refused for being no root. -/
inductive Refused (fs : FileSystem) (r : Refusals) (p : Path) : Fault → Prop where
  | withheld {f : Fault} (h : Withheld fs r p f) : Refused fs r p f
  | archive {octets : Bytes} {a : Archive.Fault} (hfile : fs.test r Node.isFile p = .ok true)
      (hopen : fs.open? r p = some octets) (h : Archive.Refuses octets a) :
      Refused fs r p (.archive a)

variable {fs : FileSystem} {r : Refusals} {shown : Text} {f : Fault}

theorem withheld_iff {kind : Node → Bool} {p : Path} :
    (fs.test r kind p).mapError Fault.path = .error f ↔ Withheld fs r p f := by
  constructor
  · intro h
    obtain ⟨e, he, rfl⟩ := mapError_eq_error h
    obtain ⟨problem, hproblem, rfl⟩ := FileSystem.test_eq_error_iff.1 he
    exact ⟨problem, hproblem, rfl⟩
  · rintro ⟨problem, hproblem, rfl⟩
    rw [FileSystem.test_eq_error_iff.2 ⟨problem, hproblem, rfl⟩]
    rfl

theorem Refused.not_invalid {p : Path} (h : Refused fs r p f) (e : InvalidRoot) :
    f ≠ .invalidRoot e := by
  rintro rfl
  cases h with
  | withheld h =>
    obtain ⟨problem, -, hf⟩ := h
    cases hf

theorem ofDirectory_of_withheld (h : Withheld fs r (Path.ofText shown) f) :
    ofDirectory fs shown r = .error f := by
  rw [ofDirectory, withheld_iff.2 h]
  rfl

theorem ofDirectory_cases (fs : FileSystem) (r : Refusals) (shown : Text) :
    (∃ root, ofDirectory fs shown r = .ok root) ∨
      ofDirectory fs shown r = .error (.invalidRoot (.notADirectory shown)) ∨
      ∃ f, ofDirectory fs shown r = .error f ∧ Withheld fs r (Path.ofText shown) f := by
  cases htest : (fs.test r Node.isDirectory (Path.ofText shown)).mapError Fault.path with
  | error f =>
    have hwithheld := withheld_iff.1 htest
    exact .inr (.inr ⟨f, ofDirectory_of_withheld hwithheld, hwithheld⟩)
  | ok found =>
    simp only [ofDirectory, htest, bind, Except.bind]
    cases found with
    | true => exact .inl ⟨_, rfl⟩
    | false => exact .inr (.inl rfl)

theorem ofArchive_of_refused (h : Refused fs r (Path.ofText shown) f) :
    ofArchive fs shown r = .error f := by
  cases h with
  | withheld h =>
    rw [ofArchive, withheld_iff.2 h]
    rfl
  | archive hfile hopen hrefuses =>
    rename_i octets a
    have hentries := (Archive.entries_eq_error_iff hrefuses.not_malformed).2 hrefuses
    rw [ofArchive, hfile, hopen, Option.map_some, hentries]
    cases a with
    | malformed m => exact absurd rfl (hrefuses.not_malformed m)
    | _ => rfl

theorem refused_of_ofArchive (h : ofArchive fs shown r = .error f) :
    (∃ e, f = .invalidRoot e) ∨ Refused fs r (Path.ofText shown) f := by
  obtain htest | ⟨found, htest, hfound⟩ := bind_eq_error.1 h
  · exact .inr (.withheld (withheld_iff.1 htest))
  obtain ⟨rfl, hfile⟩ | ⟨-, hmissing⟩ := ite_eq_iff.1 hfound
  · split at hfile
    case h_1 => cases hfile
    case h_4 a hwellFormed harchive =>
      obtain rfl := Except.error.inj hfile
      obtain ⟨octets, hopen, hentries⟩ := Option.map_eq_some_iff.1 harchive
      have hrefuses := (Archive.entries_eq_error_iff hwellFormed).1 hentries
      exact .inr (.archive (mapError_eq_ok htest) hopen hrefuses)
    all_goals exact .inl ⟨_, (Except.error.inj hfile).symm⟩
  · exact .inl ⟨_, (Except.error.inj hmissing).symm⟩

theorem ofPath_of_refused (h : Refused fs r (Path.ofText shown) f) :
    ofPath fs shown r = .error f := by
  have hpath : Path.ofText (Path.ofText shown).text = Path.ofText shown :=
    Path.ofText_text (Path.isSpelt_ofText shown)
  have harchive := ofArchive_of_refused (hpath.symm ▸ h)
  cases h with
  | withheld h =>
    rw [ofPath, withheld_iff.2 h]
    rfl
  | archive hfile hopen _ =>
    obtain ⟨n, -, hkind, htest⟩ := FileSystem.find_of_test hfile
    have hdirectory : n.isDirectory = false := by
      cases n with
      | file content => rfl
      | _ => cases hkind
    rw [ofPath, htest, hfile, hdirectory]
    exact harchive

theorem refused_of_ofPath (h : ofPath fs shown r = .error f) :
    (∃ e, f = .invalidRoot e) ∨ Refused fs r (Path.ofText shown) f := by
  have hpath : Path.ofText (Path.ofText shown).text = Path.ofText shown :=
    Path.ofText_text (Path.isSpelt_ofText shown)
  obtain htest | ⟨found, -, hfound⟩ := bind_eq_error.1 h
  · exact .inr (.withheld (withheld_iff.1 htest))
  obtain ⟨-, hdirectory⟩ | ⟨-, hother⟩ := ite_eq_iff.1 hfound
  · obtain ⟨root, hroot⟩ | hinvalid | ⟨f', hf', hwithheld⟩ :=
      ofDirectory_cases fs r (Path.ofText shown).text
    · cases hroot.symm.trans hdirectory
    · exact .inl ⟨_, Except.error.inj (hdirectory.symm.trans hinvalid)⟩
    · obtain rfl := Except.error.inj (hdirectory.symm.trans hf')
      exact .inr (.withheld (hpath ▸ hwithheld))
  obtain htest | ⟨found, -, hfound⟩ := bind_eq_error.1 hother
  · exact .inr (.withheld (withheld_iff.1 htest))
  obtain ⟨-, harchive⟩ | ⟨-, hmissing⟩ := ite_eq_iff.1 hfound
  · rw [← hpath]
    exact refused_of_ofArchive harchive
  · exact .inl ⟨_, (Except.error.inj hmissing).symm⟩

end Root

namespace Builder

variable {fs : FileSystem} {r : Refusals} {b : Builder} {entries : List Text} {f : Fault}

/-- The roots that the entries of a search path stand for, in their order. -/
def rootsOf (fs : FileSystem) (r : Refusals) (entries : List Text) : List Root :=
  entries.filterMap fun entry => (Root.ofPath fs (entryPath entry) r).toOption

/-- An entry is tolerated, as a root or for being none, unless it is refused. -/
theorem isTolerated_iff {entry : Text} :
    IsTolerated fs entry r ↔ ∀ f, ¬Root.Refused fs r (Path.ofText (entryPath entry)) f := by
  unfold IsTolerated
  constructor
  · intro h f hrefused
    obtain ⟨e, he⟩ := h f (Root.ofPath_of_refused hrefused)
    exact hrefused.not_invalid e he
  · intro h f hf
    exact (Root.refused_of_ofPath hf).resolve_right (h f)

theorem searchRoot_of_refused {entry : Text}
    (h : Root.Refused fs r (Path.ofText (entryPath entry)) f) :
    searchRoot fs entry r = .error f := by
  have hroot := Root.ofPath_of_refused h
  unfold entryPath at hroot
  rw [searchRoot, hroot]
  cases f with
  | invalidRoot e => exact absurd rfl (h.not_invalid e)
  | _ => rfl

/-- Why the first refused entry of a search path is refused. -/
def FirstRefused (fs : FileSystem) (r : Refusals) (entries : List Text) (f : Fault) : Prop :=
  ∃ before entry after, entries = before ++ entry :: after ∧
    (∀ other ∈ before, ∀ f, ¬Root.Refused fs r (Path.ofText (entryPath other)) f) ∧
    Root.Refused fs r (Path.ofText (entryPath entry)) f

/-- Where no entry comes first among the refused ones, none is refused. -/
theorem not_refused (h : ∀ f, ¬FirstRefused fs r entries f) :
    ∀ entry ∈ entries, ∀ f, ¬Root.Refused fs r (Path.ofText (entryPath entry)) f := by
  cases hmap : entries.mapM fun entry => searchRoot fs entry r with
  | ok roots =>
    intro entry hentry
    exact isTolerated_iff.1 (isTolerated_of_mapM hmap entry hentry)
  | error f =>
    obtain ⟨before, entry, after, hentries, hbefore, hfails⟩ := mapM_eq_error_iff.1 hmap
    have hrefused : ¬IsTolerated fs entry r := by
      intro htolerated
      rw [searchRoot_of_isTolerated htolerated] at hfails
      cases hfails
    rw [isTolerated_iff, not_forall] at hrefused
    obtain ⟨f', hf'⟩ := hrefused
    refine absurd ⟨before, entry, after, hentries, fun other hother => ?_, not_not.1 hf'⟩ (h f')
    obtain ⟨root, hroot⟩ := hbefore other hother
    exact isTolerated_iff.1 (isTolerated_of_searchRoot hroot)

theorem addSearchPath_of_firstRefused (b : Builder) (h : FirstRefused fs r entries f) :
    b.addSearchPath fs entries r = .error f := by
  obtain ⟨before, entry, after, hentries, hbefore, hf⟩ := h
  have hmap : (entries.mapM fun entry => searchRoot fs entry r) = .error f := by
    refine mapM_eq_error_iff.2 ⟨before, entry, after, hentries, fun other hother => ?_,
      searchRoot_of_refused hf⟩
    exact ⟨_, searchRoot_of_isTolerated (isTolerated_iff.2 (hbefore other hother))⟩
  rw [addSearchPath, answer_eq, offered, hmap]
  rfl

/-- A search path without refused entries is added by the roots in it, if there are any. -/
theorem addSearchPath_of_not_refused (b : Builder)
    (h : ∀ entry ∈ entries, ∀ f, ¬Root.Refused fs r (Path.ofText (entryPath entry)) f) :
    b.addSearchPath fs entries r =
      if rootsOf fs r entries = [] then .error (.invalidRoot .nothingUsable)
      else .ok ((rootsOf fs r entries).foldl addRoot b) := by
  have hmap := mapM_searchRoot fun entry hentry => isTolerated_iff.2 (h entry hentry)
  have hroots :
      (entries.map fun entry => (Root.ofPath fs (entryPath entry) r).toOption).filterMap id =
        rootsOf fs r entries := by
    rw [List.filterMap_map]
    rfl
  rw [addSearchPath, answer_eq, offered]
  simp only [hmap, Except.bind, hroots]
  cases rootsOf fs r entries with
  | nil => rfl
  | cons root rest => rfl

/-- Making a root of a path gives one or says that the path is none, unless the path is refused for
something else: the system does not say what is there, or, where an archive is asked for or the path
leads to a file, the path leads to an archive with a record, after others that can be read, whose name
is not in the encoding that it claims or that needs a later version of the format.  Then making the
root fails for that.  Adding a search path leaves out exactly those entries that are no roots, and
fails for want of roots exactly if nothing is left; but if one of its entries is refused for something
else, the first one is what the search path is refused for. -/
theorem root_or_refused (fs : FileSystem) (r : Refusals) :
    (∀ shown, (∃ root, Root.ofDirectory fs shown r = .ok root) ∨
      Root.ofDirectory fs shown r = .error (.invalidRoot (.notADirectory shown)) ∨
      ∃ f, Root.ofDirectory fs shown r = .error f ∧ Root.Withheld fs r (Path.ofText shown) f) ∧
    (∀ shown f, Root.Withheld fs r (Path.ofText shown) f →
      Root.ofDirectory fs shown r = .error f) ∧
    (∀ shown f, Root.ofArchive fs shown r = .error f →
      (∃ e, f = .invalidRoot e) ∨ Root.Refused fs r (Path.ofText shown) f) ∧
    (∀ shown f, Root.Refused fs r (Path.ofText shown) f → Root.ofArchive fs shown r = .error f) ∧
    (∀ shown f, Root.ofPath fs shown r = .error f →
      (∃ e, f = .invalidRoot e) ∨ Root.Refused fs r (Path.ofText shown) f) ∧
    (∀ shown f, Root.Refused fs r (Path.ofText shown) f → Root.ofPath fs shown r = .error f) ∧
    (∀ p f, Root.Refused fs r p f → ∀ e, f ≠ .invalidRoot e) ∧
    ∀ (b : Builder) (entries : List Text),
      (∀ f, FirstRefused fs r entries f → b.addSearchPath fs entries r = .error f) ∧
      ((∀ f, ¬FirstRefused fs r entries f) → b.addSearchPath fs entries r =
        if rootsOf fs r entries = [] then .error (.invalidRoot .nothingUsable)
        else .ok ((rootsOf fs r entries).foldl addRoot b)) := by
  refine ⟨Root.ofDirectory_cases fs r, fun _ _ => Root.ofDirectory_of_withheld,
    fun _ _ => Root.refused_of_ofArchive, fun _ _ => Root.ofArchive_of_refused,
    fun _ _ => Root.refused_of_ofPath, fun _ _ => Root.ofPath_of_refused,
    fun _ _ => Root.Refused.not_invalid, fun b entries => ⟨fun f => ?_, fun h => ?_⟩⟩
  · exact addSearchPath_of_firstRefused b
  · exact addSearchPath_of_not_refused b (not_refused h)

/-! ## Archives that are refused among other entries -/

/-- An archive with one file, which needs version 6.4 of the format. -/
def laterArchive : Bytes := (Archive.pack [⟨[97], 0, []⟩]).set 37 64

/-- An archive with one file, whose name claims to be in UTF-8 and is not. -/
def misnamedArchive : Bytes := Archive.pack [⟨[255], 2048, []⟩]

/-- A directory, a text, and two archives that are refused. -/
def mixedTree : FileSystem :=
  ⟨[("d", .directory []), ("t", .file [120]), ("n", .file misnamedArchive),
    ("v", .file laterArchive)], []⟩

section

set_option maxRecDepth 8000

theorem ofArchive_later :
    Root.ofArchive mixedTree "v" = .error (.archive (.unsupported (.version 64))) := by
  cbv

theorem ofPath_d : Root.ofPath mixedTree "d" = .ok ⟨.directory, ⟨.root, ["d"]⟩⟩ := by
  cbv

theorem ofPath_misnamed :
    Root.ofPath mixedTree "n" = .error (.archive (.name ⟨"utf-8", 0, [255], .invalidStart⟩)) := by
  cbv

/-- A name that is too long to be that of a file. -/
def longName : Text := List.replicate 256 (.char 'a')

theorem ofDirectory_longName : Root.ofDirectory mixedTree longName =
    .error (.path (.refused .nameTooLong longName)) := by
  cbv

/-- None of these entries is refused, and one of them is a root. -/
theorem rootsOf_mixed :
    (∀ entry ∈ (["t", "d", "missing"] : List Text), ∀ f,
      ¬Root.Refused mixedTree {} (Path.ofText (entryPath entry)) f) ∧
    rootsOf mixedTree {} ["t", "d", "missing"] = [⟨.directory, ⟨.root, ["d"]⟩⟩] := by
  have htext : Root.ofPath mixedTree "t" = .error (.invalidRoot (.notAnArchive "t")) := by cbv
  have hmissing : Root.ofPath mixedTree "missing" = .error (.invalidRoot (.missing "missing")) := by
    cbv
  refine ⟨fun entry hentry f hrefused => ?_, ?_⟩
  · have hfails := Root.ofPath_of_refused hrefused
    simp only [List.mem_cons, List.not_mem_nil, or_false] at hentry
    obtain rfl | rfl | rfl := hentry
    · exact hrefused.not_invalid _ (Except.error.inj (hfails.symm.trans htext))
    · cases ofPath_d.symm.trans hfails
    · exact hrefused.not_invalid _ (Except.error.inj (hfails.symm.trans hmissing))
  · simp only [rootsOf, List.filterMap, show entryPath "t" = "t" from rfl,
      show entryPath "d" = "d" from rfl, show entryPath "missing" = "missing" from rfl, htext,
      ofPath_d, hmissing, Except.toOption]

end

theorem refused_later : Root.Refused mixedTree {} (Path.ofText "v")
    (.archive (.unsupported (.version 64))) :=
  (Root.refused_of_ofArchive ofArchive_later).resolve_left nofun

/-- What is no root is left out of a search path; an archive of a later version is not, and neither
is a file that may not be looked for. -/
theorem root_or_refused_mixed :
    let b := ofScanner (.ofFileSystem {} [])
    let guarded : Refusals := { examining := fun _ => some (.other 13 "Permission denied") }
    FirstRefused mixedTree {} ["t", "d", "missing", "v"] (.archive (.unsupported (.version 64))) ∧
    b.addSearchPath mixedTree ["t", "d", "missing", "v"] =
      .error (.archive (.unsupported (.version 64))) ∧
    (∀ f, ¬FirstRefused mixedTree {} ["t", "d", "missing"] f) ∧
    b.addSearchPath mixedTree ["t", "d", "missing"] =
      .ok (b.addRoot ⟨.directory, ⟨.root, ["d"]⟩⟩) ∧
    Root.ofDirectory mixedTree "d" guarded =
      .error (.path (.refused (.other 13 "Permission denied") "d")) := by
  intro b guarded
  obtain ⟨-, -, -, -, -, -, -, hsearch⟩ := root_or_refused mixedTree {}
  obtain ⟨-, hdirectory, -⟩ := root_or_refused mixedTree guarded
  obtain ⟨htolerated, hroots⟩ := rootsOf_mixed
  have hfirst : FirstRefused mixedTree {} ["t", "d", "missing", "v"]
      (.archive (.unsupported (.version 64))) :=
    ⟨["t", "d", "missing"], "v", [], rfl, htolerated, refused_later⟩
  have hnone : ∀ f, ¬FirstRefused mixedTree {} ["t", "d", "missing"] f := by
    intro f ⟨before, entry, after, hentries, _, hentry⟩
    exact htolerated entry (by simp [hentries]) f hentry
  refine ⟨hfirst, (hsearch b _).1 _ hfirst, hnone, ?_, hdirectory _ _ ?_⟩
  · rw [(hsearch b _).2 hnone, hroots]
    rfl
  · exact ⟨.other 13 "Permission denied", ⟨[100], by cbv, rfl, by decide⟩, rfl⟩

/-- An archive of a later version and one with a wrong name are no roots and are not refused as such,
and neither is a path with too long a name in it; and a search path with a directory and one of them
in it is not added. -/
theorem refused_mixed :
    (∀ root, Root.ofArchive mixedTree "v" ≠ .ok root) ∧
    (∀ e, Root.ofArchive mixedTree "v" ≠ .error (.invalidRoot e)) ∧
    (∀ root, Root.ofPath mixedTree "n" ≠ .ok root) ∧
    (∀ e, Root.ofPath mixedTree "n" ≠ .error (.invalidRoot e)) ∧
    (∀ root, Root.ofDirectory mixedTree longName ≠ .ok root) ∧
    (∀ e, Root.ofDirectory mixedTree longName ≠ .error (.invalidRoot e)) ∧
    Root.ofPath mixedTree "d" = .ok ⟨.directory, ⟨.root, ["d"]⟩⟩ ∧
    (ofScanner (.ofFileSystem {} [])).addSearchPath mixedTree ["n", "d"] =
      .error (.archive (.name ⟨"utf-8", 0, [255], .invalidStart⟩)) := by
  refine ⟨?_, ?_, ?_, ?_, ?_, ?_, ofPath_d, ?_⟩
  · simp [ofArchive_later]
  · simp [ofArchive_later]
  · simp [ofPath_misnamed]
  · simp [ofPath_misnamed]
  · simp [ofDirectory_longName]
  · simp [ofDirectory_longName]
  · exact addSearchPath_of_firstRefused _ ⟨[], "n", ["d"], rfl, by simp,
      (Root.refused_of_ofPath ofPath_misnamed).resolve_left nofun⟩

end Builder
end ResourceFinder
