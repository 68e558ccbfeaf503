import Mathlib.Data.List.Induction
import ResourceFinder.Index.Calls
import ResourceFinder.Proofs.Index.Failure

/-
The roots of a builder, whatever was asked of it before.

Adding roots one after the other keeps the first of each, so the roots are those that were accepted
without repetitions.  A search path is looked through before any of it is added, so a call that fails
has added nothing, and building adds nothing in any case.
-/

namespace ResourceFinder

/-- The items of a list without repetitions are those that it has anyway. -/
theorem eraseDups_of_nodup {α : Type} [BEq α] [LawfulBEq α] {items : List α}
    (h : items.Nodup) : items.eraseDups = items := by
  induction items with
  | nil => rfl
  | cons a items ih =>
    obtain ⟨ha, hitems⟩ := List.nodup_cons.1 h
    have hothers : (items.filter fun b => !b == a) = items := by
      refine List.filter_eq_self.2 fun b hb => ?_
      have hne : b ≠ a := fun heq => ha (heq ▸ hb)
      simpa using hne
    rw [List.eraseDups_cons, hothers, ih hitems]

theorem eraseDups_concat {α : Type} [DecidableEq α] (items : List α) (a : α) :
    (items ++ [a]).eraseDups = if a ∈ items then items.eraseDups else items.eraseDups ++ [a] := by
  rw [List.eraseDups_append]
  by_cases ha : a ∈ items
  · simp [List.removeAll, ha]
  · simp [List.removeAll, List.eraseDups_cons, ha]

namespace Builder

/-! ## Adding roots -/

theorem roots_addRoot (b : Builder) (root : Root) :
    (b.addRoot root).roots = if root ∈ b.roots then b.roots else b.roots ++ [root] := by
  unfold addRoot
  split <;> rfl

theorem roots_foldl_addRoot (b : Builder) (roots : List Root) :
    (roots.foldl addRoot b).roots = (b.roots ++ roots).eraseDups := by
  induction roots using List.reverseRecOn with
  | nil => rw [List.foldl_nil, List.append_nil, eraseDups_of_nodup b.distinct]
  | append_singleton roots root ih =>
    rw [List.foldl_concat, roots_addRoot, ih, ← List.append_assoc, eraseDups_concat]
    simp only [List.mem_eraseDups]

/-! ## Calls -/

theorem outcome_ofResult_bind {α : Type} (x : Except Fault α) (next : α → Work Unit) (b : Builder) :
    Work.outcome (Work.ofResult x >>= next) b = match x with
      | .ok a => (next a).outcome b
      | .error f => (.error f, b) := by
  cases x <;> rfl

theorem outcome_get_bind (next : Builder → Work Unit) (b : Builder) :
    Work.outcome (get >>= next) b = (next b).outcome b := rfl

theorem outcome_forM_add (b : Builder) (roots : List Root) :
    Work.outcome (roots.forM add) b = (.ok (), roots.foldl addRoot b) := by
  induction roots generalizing b with
  | nil => rfl
  | cons root rest ih =>
    show Work.outcome (rest.forM add) (b.addRoot root) = _
    exact ih (b.addRoot root)

/-- The roots that a call has for its builder, or why it fails. -/
def offered (fs : FileSystem) (b : Builder) (c : Call) (r : Refusals := {}) :
    Except Fault (List Root) :=
  match c with
  | .root added => .ok [added]
  | .directory path => (Root.ofDirectory fs path r).map ([·])
  | .archive path => (Root.ofArchive fs path r).map ([·])
  | .path path => (Root.ofPath fs path r).map ([·])
  | .searchPath entries => (entries.mapM fun entry => searchRoot fs entry r).bind fun roots =>
    if roots.filterMap id = [] then .error (.invalidRoot .nothingUsable)
    else .ok (roots.filterMap id)
  | .build => (b.build fs).result.map fun _ => []

theorem outcome_addUsable (fs : FileSystem) (b : Builder) (entries : List Text) (r : Refusals) :
    (addUsable fs entries r).outcome b = match offered fs b (.searchPath entries) r with
      | .ok roots => (.ok (), roots.foldl addRoot b)
      | .error f => (.error f, b) := by
  rw [addUsable, outcome_ofResult_bind, offered]
  cases entries.mapM fun entry => searchRoot fs entry r with
  | error f => rfl
  | ok roots =>
    simp only [Except.bind]
    cases hroots : roots.filterMap id with
    | nil => rfl
    | cons root rest =>
      rw [if_neg (List.cons_ne_nil root rest)]
      exact outcome_forM_add b (root :: rest)

/-- A call adds all the roots that it has for its builder, one after the other, or it fails and adds
none. -/
theorem outcome_perform (fs : FileSystem) (b : Builder) (c : Call) (r : Refusals) :
    (c.perform fs r).outcome b = match offered fs b c r with
      | .ok roots => (.ok (), roots.foldl addRoot b)
      | .error f => (.error f, b) := by
  cases c with
  | root root => rfl
  | directory path =>
    rw [Call.perform, outcome_ofResult_bind, offered]
    cases Root.ofDirectory fs path r <;> rfl
  | archive path =>
    rw [Call.perform, outcome_ofResult_bind, offered]
    cases Root.ofArchive fs path r <;> rfl
  | path path =>
    rw [Call.perform, outcome_ofResult_bind, offered]
    cases Root.ofPath fs path r <;> rfl
  | searchPath entries => exact outcome_addUsable fs b entries r
  | build =>
    rw [Call.perform, outcome_get_bind, outcome_ofResult_bind, offered]
    cases (b.build fs).result <;> rfl

theorem answer_eq (fs : FileSystem) (b : Builder) (c : Call) (r : Refusals) :
    b.answer fs c r = (offered fs b c r).map fun roots => roots.foldl addRoot b := by
  rw [answer, outcome_perform]
  cases offered fs b c r <;> rfl

theorem addPath_eq (fs : FileSystem) (b : Builder) (path : Text) :
    b.addPath fs path = (Root.ofPath fs path).map b.addRoot := by
  rw [addPath, answer_eq, offered]
  cases Root.ofPath fs path <;> rfl

/-- The path for an entry of a search path. -/
def entryPath (entry : Text) : Text := if entry.isEmpty then Path.here else entry

/-- The paths for those entries of a search path that are roots. -/
def usable (fs : FileSystem) (entries : List Text) : List Text :=
  (entries.map entryPath).filter fun path => (Root.ofPath fs path).isOk

/-- The roots that a call accepts if it does not fail. -/
def accepted (fs : FileSystem) : Call → List Root
  | .root root => [root]
  | .directory path => (Root.ofDirectory fs path).toOption.toList
  | .archive path => (Root.ofArchive fs path).toOption.toList
  | .path path => (Root.ofPath fs path).toOption.toList
  | .searchPath entries => (usable fs entries).filterMap fun path => (Root.ofPath fs path).toOption
  | .build => []

/-- The roots accepted by those of some calls that do not fail. -/
def acceptedIn (b : Builder) : List (FileSystem × Call) → List Root
  | [] => []
  | (fs, c) :: rest =>
    (if (b.answer fs c).isOk then accepted fs c else []) ++ acceptedIn (b.after fs c) rest

/-! ## Search paths -/

section

variable {fs : FileSystem} {b : Builder}

/-- An entry that is a root, or fails to be one only for being none. -/
def IsTolerated (fs : FileSystem) (entry : Text) (r : Refusals := {}) : Prop :=
  ∀ f, Root.ofPath fs (entryPath entry) r = .error f → ∃ e, f = .invalidRoot e

section

variable {r : Refusals}

theorem searchRoot_of_isTolerated {entry : Text} (h : IsTolerated fs entry r) :
    searchRoot fs entry r = .ok (Root.ofPath fs (entryPath entry) r).toOption := by
  unfold IsTolerated entryPath at *
  unfold searchRoot
  cases hroot : Root.ofPath fs (if entry.isEmpty then Path.here else entry) r with
  | ok root => rfl
  | error f =>
    obtain ⟨e, rfl⟩ := h f hroot
    rfl

theorem isTolerated_of_searchRoot {entry : Text} {root : Option Root}
    (h : searchRoot fs entry r = .ok root) : IsTolerated fs entry r := by
  intro f hroot
  unfold entryPath at hroot
  rw [searchRoot, hroot] at h
  cases f with
  | invalidRoot e => exact ⟨e, rfl⟩
  | _ => cases h

theorem mapM_searchRoot {entries : List Text} (h : ∀ entry ∈ entries, IsTolerated fs entry r) :
    (entries.mapM fun entry => searchRoot fs entry r) =
      .ok (entries.map fun entry => (Root.ofPath fs (entryPath entry) r).toOption) := by
  induction entries with
  | nil => rfl
  | cons entry entries ih =>
    obtain ⟨hentry, hentries⟩ := List.forall_mem_cons.1 h
    rw [List.mapM_cons, searchRoot_of_isTolerated hentry, ih hentries]
    rfl

theorem isTolerated_of_mapM {entries : List Text} {roots : List (Option Root)}
    (h : (entries.mapM fun entry => searchRoot fs entry r) = .ok roots) :
    ∀ entry ∈ entries, IsTolerated fs entry r := by
  induction entries generalizing roots with
  | nil => simp
  | cons entry entries ih =>
    rw [List.mapM_cons] at h
    cases hentry : searchRoot fs entry r with
    | error f =>
      rw [hentry] at h
      cases h
    | ok root =>
      cases hentries : entries.mapM fun entry => searchRoot fs entry r with
      | error f =>
        rw [hentry, hentries] at h
        cases h
      | ok roots => exact List.forall_mem_cons.2 ⟨isTolerated_of_searchRoot hentry, ih hentries⟩

end

theorem accepted_searchPath (entries : List Text) : accepted fs (.searchPath entries) =
    (entries.map fun entry => (Root.ofPath fs (entryPath entry)).toOption).filterMap id := by
  have hsome : ∀ path, (Root.ofPath fs path).isOk = (Root.ofPath fs path).toOption.isSome := by
    intro path
    cases Root.ofPath fs path <;> rfl
  rw [accepted, usable, List.filterMap_map]
  simp only [hsome]
  rw [← filterMap_eq_of_isSome _ fun _ _ h => h, List.filterMap_map]
  rfl

/-- A search path with nothing but roots and entries that are none, not all of them the latter, is
added; any other one is refused. -/
theorem addSearchPath_cases (b : Builder) (fs : FileSystem) (entries : List Text) :
    ((∀ entry ∈ entries, IsTolerated fs entry) ∧ usable fs entries ≠ [] ∧
      b.addSearchPath fs entries = .ok ((accepted fs (.searchPath entries)).foldl addRoot b)) ∨
    ((∃ entry ∈ entries, ¬ IsTolerated fs entry) ∨ usable fs entries = []) ∧
      ∃ f, b.addSearchPath fs entries = .error f := by
  have hnone : accepted fs (.searchPath entries) = [] ↔ usable fs entries = [] := by
    rw [accepted, List.filterMap_eq_nil_iff]
    constructor
    · intro h
      refine List.eq_nil_iff_forall_not_mem.2 fun path hpath => ?_
      have hok := (List.mem_filter.1 hpath).2
      have hroot := h path hpath
      cases hresult : Root.ofPath fs path with
      | ok root => simp [hresult, Except.toOption] at hroot
      | error f => simp [hresult, Except.isOk, Except.toBool] at hok
    · intro h
      simp [h]
  rw [addSearchPath, answer_eq, offered]
  cases hmap : entries.mapM fun entry => searchRoot fs entry with
  | error f =>
    refine .inr ⟨.inl ?_, f, rfl⟩
    by_contra hall
    have htolerated : ∀ entry ∈ entries, IsTolerated fs entry := by
      simpa using hall
    rw [mapM_searchRoot htolerated] at hmap
    cases hmap
  | ok roots =>
    have htolerated := isTolerated_of_mapM hmap
    rw [mapM_searchRoot htolerated] at hmap
    obtain rfl := Except.ok.inj hmap
    simp only [Except.bind, ← accepted_searchPath]
    by_cases haccepted : accepted fs (.searchPath entries) = []
    · rw [if_pos haccepted]
      exact .inr ⟨.inr (hnone.1 haccepted), _, rfl⟩
    · rw [if_neg haccepted]
      exact .inl ⟨htolerated, fun husable => haccepted (hnone.2 husable), rfl⟩

/-- Paths that are all roots are added one after the other. -/
theorem foldlM_addPath {paths : List Text} (h : ∀ path ∈ paths, (Root.ofPath fs path).isOk = true) :
    paths.foldlM (addPath fs) b =
      .ok ((paths.filterMap fun path => (Root.ofPath fs path).toOption).foldl addRoot b) := by
  induction paths generalizing b with
  | nil => rfl
  | cons path paths ih =>
    obtain ⟨hpath, hpaths⟩ := List.forall_mem_cons.1 h
    cases hroot : Root.ofPath fs path with
    | error f => simp [hroot, Except.isOk, Except.toBool] at hpath
    | ok root =>
      rw [List.foldlM_cons, addPath_eq, hroot, List.filterMap_cons_some (by rw [hroot]; rfl)]
      exact ih hpaths

end

/-! ## Runs -/

/-- What a call has for its builder is what it accepts. -/
theorem accepted_of_offered {fs : FileSystem} {b : Builder} {c : Call} {roots : List Root}
    (h : offered fs b c = .ok roots) : roots = accepted fs c := by
  have hone : ∀ {x : Except Fault Root}, x.map ([·]) = .ok roots → roots = x.toOption.toList := by
    intro x hx
    cases x with
    | error f => cases hx
    | ok root => exact (Except.ok.inj hx).symm
  cases c with
  | root root => exact (Except.ok.inj h).symm
  | directory path => exact hone h
  | archive path => exact hone h
  | path path => exact hone h
  | searchPath entries =>
    rw [offered] at h
    cases hmap : entries.mapM fun entry => searchRoot fs entry with
    | error f =>
      rw [hmap] at h
      cases h
    | ok found =>
      have htolerated := isTolerated_of_mapM hmap
      rw [mapM_searchRoot htolerated] at hmap
      obtain rfl := Except.ok.inj hmap
      rw [mapM_searchRoot htolerated, Except.bind, ← accepted_searchPath] at h
      split at h
      · cases h
      · exact (Except.ok.inj h).symm
  | build =>
    rw [offered] at h
    cases hbuild : (b.build fs).result with
    | error f =>
      rw [hbuild] at h
      cases h
    | ok index =>
      rw [hbuild] at h
      exact (Except.ok.inj h).symm

/-- A call that fails leaves its builder as it was, and one that does not gives back the builder that
it leaves. -/
theorem after_of_answer (fs : FileSystem) (b : Builder) (c : Call) :
    (∀ f, b.answer fs c = .error f → b.after fs c = b) ∧
    ∀ b', b.answer fs c = .ok b' → b.after fs c = b' ∧ b' = (accepted fs c).foldl addRoot b := by
  rw [answer_eq, after, outcome_perform]
  cases hoffered : offered fs b c with
  | error f => exact ⟨fun _ _ => rfl, nofun⟩
  | ok roots =>
    refine ⟨nofun, fun b' h => ?_⟩
    obtain rfl := Except.ok.inj h
    exact ⟨rfl, by rw [accepted_of_offered hoffered]⟩

/-- One call adds what it accepts, or nothing. -/
theorem after_eq (fs : FileSystem) (b : Builder) (c : Call) :
    b.after fs c = (if (b.answer fs c).isOk then accepted fs c else []).foldl addRoot b := by
  obtain ⟨herror, hok⟩ := after_of_answer fs b c
  cases hanswer : b.answer fs c with
  | error f => exact herror f hanswer
  | ok b' =>
    obtain ⟨hafter, hb'⟩ := hok b' hanswer
    exact hafter.trans hb'

/-- A run adds all that its calls accept. -/
theorem run_eq (b : Builder) (calls : List (FileSystem × Call)) :
    b.run calls = (b.acceptedIn calls).foldl addRoot b := by
  induction calls generalizing b with
  | nil => rfl
  | cons call rest ih =>
    obtain ⟨fs, c⟩ := call
    rw [acceptedIn, List.foldl_append, ← after_eq]
    exact ih (b.after fs c)

/-! ## Building -/

theorem build_of_no_roots {b : Builder} (h : b.roots = []) (fs : FileSystem) :
    b.build fs = ⟨[], .error .noRoots⟩ := by
  rw [build, h]
  rfl

end Builder

/-- Whether a scanner itself fails in some way, with a scan or for a candidate. -/
def Scanner.Reports (s : Scanner) (f : Fault) : Prop :=
  ∃ root, (s.scan root).failure = some f ∨ ∃ c, s.resolve root c = .error f

namespace Builder

theorem resolve_of_failure {s : Scanner} {root : Root} {candidates : List Candidate} {f : Fault}
    (h : (resolveAll s root candidates).failure = some f) : ∃ c, s.resolve root c = .error f := by
  induction candidates with
  | nil => cases h
  | cons c rest ih =>
    rcases failure_append h with hone | hrest
    · rw [resolveOne] at hone
      cases hc : s.resolve root c with
      | ok l =>
        rw [hc] at hone
        cases hone
      | error f' =>
        rw [hc] at hone
        cases f' with
        | unresolvable why => cases hone
        | _ => exact ⟨c, hc.trans (congrArg Except.error (Option.some.inj hone))⟩
    · exact ih hrest

theorem reports_of_scanRoot {s : Scanner} {root : Root} {f : Fault}
    (h : (scanRoot s root).failure = some f) : s.Reports f := by
  rcases failure_append h with hresolve | hscan
  · exact ⟨root, .inr (resolve_of_failure hresolve)⟩
  · exact ⟨root, .inl hscan⟩

/-- What building fails with, unless there are no roots, comes from the scanner. -/
theorem reports_of_build {b : Builder} {fs : FileSystem} {f : Fault} (hroots : b.roots ≠ [])
    (h : (b.build fs).result = .error f) : (b.scanner fs).Reports f := by
  have hempty : b.roots.isEmpty = false := by simpa using hroots
  simp only [build, hempty, Bool.false_eq_true, if_false] at h
  cases hfailure : (scanRoots (b.scanner fs) b.roots).failure with
  | none =>
    rw [hfailure] at h
    cases h
  | some f' =>
    rw [hfailure] at h
    obtain rfl := Except.error.inj h
    obtain ⟨root, -, hroot⟩ := failure_scanRoots hfailure
    exact reports_of_scanRoot hroot

end Builder

theorem Scanner.not_reports_noRoots (config : ScanConfig) (patterns : Ignore.Rules)
    (fs : FileSystem) : ¬ (ofFileSystem config patterns fs).Reports .noRoots := by
  rintro ⟨root, hscan | ⟨c, hresolve⟩⟩
  · cases hkind : root.kind with
    | directory =>
      simp only [ofFileSystem, hkind] at hscan
      obtain ⟨-, e, -, -, hfault⟩ := Scan.failure_ofDirectory hscan
      rcases e with (e | e) | (e | e) <;> cases hfault
    | archive =>
      simp only [ofFileSystem, hkind] at hscan
      obtain ⟨e, he⟩ | ⟨a, ha⟩ := kind_of_archiveEntries (Scan.failure_ofArchive hscan)
      · cases he
      · cases ha
  · obtain ⟨why, hwhy⟩ := resolve_ofFileSystem hresolve
    cases hwhy

namespace Builder

/-- What a builder holds after any calls, each with the files as they were then: the roots that its
calls accepted, those of calls that failed left out, each where it was accepted first.  Any further
call that fails leaves it as it is, and one that does not adds at the end what it accepts and is not
there.  A search path is refused if nothing in it is a root, or if an entry in it fails to be one for
anything but being none; otherwise adding it is adding the paths of its roots one after the other.  Building
leaves the roots alone, and it fails for want of roots exactly if there are none, unless a caller's own
scanner says so. -/
theorem roots_after_calls (scanner : FileSystem → Scanner) (calls : List (FileSystem × Call))
    (fs : FileSystem) :
    let b := (ofScanner scanner).run calls
    b.roots = ((ofScanner scanner).acceptedIn calls).eraseDups ∧ b.roots.Nodup ∧
    (∀ c f, b.answer fs c = .error f → b.after fs c = b) ∧
    (∀ c b', b.answer fs c = .ok b' → b.after fs c = b' ∧
      b'.roots = (b.roots ++ accepted fs c).eraseDups) ∧
    (∀ entries, (∃ f, b.answer fs (.searchPath entries) = .error f) ↔
      (∃ entry ∈ entries, ¬ IsTolerated fs entry) ∨ usable fs entries = []) ∧
    (∀ entries b', b.answer fs (.searchPath entries) = .ok b' →
      (usable fs entries).foldlM (addPath fs) b = .ok b') ∧
    (b.after fs .build).roots = b.roots ∧
    (b.roots = [] → b.build fs = ⟨[], .error .noRoots⟩) ∧
    ((b.build fs).result = .error .noRoots → b.roots ≠ [] → (scanner fs).Reports .noRoots) ∧
    ∀ config patterns, scanner = .ofFileSystem config patterns →
      ((b.build fs).result = .error .noRoots ↔ b.roots = []) := by
  intro b
  have hrun : b = ((ofScanner scanner).acceptedIn calls).foldl addRoot (ofScanner scanner) :=
    run_eq _ _
  have hscanner : b.scanner = scanner := by
    rw [hrun, scanner_foldl_addRoot]
    rfl
  refine ⟨?_, b.distinct, fun c => (after_of_answer fs b c).1, fun c b' hc => ?_, fun entries => ?_,
    fun entries b' hb' => ?_, ?_, fun hroots => build_of_no_roots hroots fs,
    fun hbuild hroots => ?_, fun config patterns hdefault => ⟨fun hbuild => ?_, fun hroots => ?_⟩⟩
  · rw [hrun, roots_foldl_addRoot]
    rfl
  · obtain ⟨hafter, rfl⟩ := (after_of_answer fs b c).2 b' hc
    exact ⟨hafter, roots_foldl_addRoot b (accepted fs c)⟩
  · obtain ⟨htolerated, husable, hadd⟩ | ⟨hrefused, hadd⟩ := b.addSearchPath_cases fs entries
    · constructor
      · rintro ⟨f, hf⟩
        cases hadd.symm.trans hf
      · rintro (⟨entry, hentry, hentry'⟩ | hnone)
        · exact absurd (htolerated entry hentry) hentry'
        · exact absurd hnone husable
    · exact ⟨fun _ => hrefused, fun _ => hadd⟩
  · obtain ⟨-, -, hadd⟩ | ⟨-, f, hadd⟩ := b.addSearchPath_cases fs entries
    · have husable : ∀ path ∈ usable fs entries, (Root.ofPath fs path).isOk = true :=
        fun path hpath => (List.mem_filter.1 hpath).2
      rw [foldlM_addPath husable]
      exact hadd.symm.trans hb'
    · cases hadd.symm.trans hb'
  · rw [after_eq]
    simp [accepted]
  · rw [← hscanner]
    exact reports_of_build hroots hbuild
  · by_contra hroots
    have hreports := reports_of_build hroots hbuild
    rw [hscanner, hdefault] at hreports
    exact Scanner.not_reports_noRoots config patterns fs hreports
  · rw [build_of_no_roots hroots]

/-- A directory and a link to it. -/
def linkedFolder : FileSystem := ⟨[("d", .directory []), ("l", .link "d")], []⟩

/-- Two spellings of one directory, search paths of which one holds nothing, and the directory that
everything is in. -/
def spellings : List (FileSystem × Call) :=
  [.path "d", .searchPath ["missing", "l", ""], .searchPath ["missing"], .directory "./d"].map
    (linkedFolder, ·)

theorem roots_after_calls_spellings :
    let b := (ofScanner (.ofFileSystem {} [])).run spellings
    b.roots = [⟨.directory, ⟨.root, ["d"]⟩⟩, ⟨.directory, ⟨.root, []⟩⟩] ∧ b.roots.Nodup ∧
    (∃ f, b.answer linkedFolder (.searchPath ["missing"]) = .error f) ∧
    (b.build linkedFolder).result ≠ .error .noRoots := by
  intro b
  obtain ⟨hroots, hnodup, -, -, hrefused, -, -, -, -, hbuild⟩ :=
    roots_after_calls (.ofFileSystem {} []) spellings linkedFolder
  have hb : b.roots = [⟨.directory, ⟨.root, ["d"]⟩⟩, ⟨.directory, ⟨.root, []⟩⟩] := by
    refine hroots.trans ?_
    cbv
  refine ⟨hb, hnodup, (hrefused _).2 (.inr (by cbv)), fun hnone => ?_⟩
  have hempty := (hbuild {} [] rfl).1 hnone
  rw [hb] at hempty
  cases hempty

end Builder
end ResourceFinder
