import ResourceFinder.FileSystem.Lookup

/-
Ways that lead to a place.

What leads to a place leads there by way of directories, and what is said of ways that lead somewhere
is shown step by step along them, whatever the ways are that lead nowhere.
-/

namespace ResourceFinder
namespace FileSystem

variable {fs : FileSystem}

/-! ## Steps -/

section

variable {links : Nat} {place : Place} {entries : List (Text × Node)}

theorem follow_here (hnode : fs.nodeAt? place = some (.directory entries)) (way : List Text) :
    fs.follow links place (Path.here :: way) = fs.follow links place way := by
  rw [follow.eq_2]
  simp only [hnode, if_true]

theorem follow_up (hnode : fs.nodeAt? place = some (.directory entries)) (way : List Text) :
    fs.follow links place (Path.up :: way) = fs.follow links place.dropLast way := by
  have hhere : Path.up ≠ Path.here := by decide
  rw [follow.eq_2]
  simp only [hnode, hhere, if_true, if_false]

theorem follow_link (hnode : fs.nodeAt? place = some (.directory entries)) {name : Text}
    (hhere : name ≠ Path.here) (hup : name ≠ Path.up) {target : Text}
    (hlookup : entries.lookup name = some (.link target)) (way : List Text) :
    fs.follow (links + 1) place (name :: way) =
      fs.follow links (linkStart place target) (targetSegments target ++ way) := by
  rw [follow.eq_2]
  simp only [hnode, hhere, hup, hlookup, if_false]

theorem follow_inside (hnode : fs.nodeAt? place = some (.directory entries)) {name : Text}
    (hhere : name ≠ Path.here) (hup : name ≠ Path.up) {n : Node}
    (hlookup : entries.lookup name = some n) (hlink : ∀ target, n ≠ .link target)
    (way : List Text) :
    fs.follow links place (name :: way) = fs.follow links (place ++ [name]) way := by
  rw [follow.eq_2]
  cases n with
  | link target => exact absurd rfl (hlink target)
  | _ => simp only [hnode, hhere, hup, hlookup, if_false]

end

/-! ## Ways that lead somewhere -/

/-- The steps of a way that leads to a place, each from a directory, with the number of links that
may still be followed. -/
inductive Leads (fs : FileSystem) : Nat → Place → List Text → Place → Prop where
  | done (links : Nat) (place : Place) : Leads fs links place [] place
  | here {links : Nat} {place p : Place} {way : List Text} {entries : List (Text × Node)}
      (hnode : fs.nodeAt? place = some (.directory entries)) (h : Leads fs links place way p) :
      Leads fs links place (Path.here :: way) p
  | up {links : Nat} {place p : Place} {way : List Text} {entries : List (Text × Node)}
      (hnode : fs.nodeAt? place = some (.directory entries))
      (h : Leads fs links place.dropLast way p) : Leads fs links place (Path.up :: way) p
  | link {links : Nat} {place p : Place} {name : Text} {way : List Text}
      {entries : List (Text × Node)} {target : Text}
      (hnode : fs.nodeAt? place = some (.directory entries)) (hhere : name ≠ Path.here)
      (hup : name ≠ Path.up) (hlookup : entries.lookup name = some (.link target))
      (h : Leads fs links (linkStart place target) (targetSegments target ++ way) p) :
      Leads fs (links + 1) place (name :: way) p
  | inside {links : Nat} {place p : Place} {name : Text} {way : List Text}
      {entries : List (Text × Node)} {n : Node}
      (hnode : fs.nodeAt? place = some (.directory entries)) (hhere : name ≠ Path.here)
      (hup : name ≠ Path.up) (hlookup : entries.lookup name = some n)
      (hlink : ∀ target, n ≠ .link target) (h : Leads fs links (place ++ [name]) way p) :
      Leads fs links place (name :: way) p

variable {links : Nat} {place p : Place} {way : List Text}

theorem leads_of_follow (h : fs.follow links place way = .ok p) : fs.Leads links place way p := by
  induction links, place, way using follow.induct fs with
  | case1 links place =>
    rw [follow.eq_1] at h
    obtain rfl := Except.ok.inj h
    exact .done links place
  | case2 links place way entries hnode ih =>
    rw [follow_here hnode] at h
    exact .here hnode (ih h)
  | case3 links place way entries hnode hup ih =>
    rw [follow_up hnode] at h
    exact .up hnode (ih h)
  | case4 links place name way entries hnode hhere hup hlookup =>
    rw [follow.eq_2] at h
    simp only [hnode, hhere, hup, hlookup, if_false] at h
    cases h
  | case5 place name way entries hnode hhere hup target hlookup =>
    rw [follow.eq_2] at h
    simp only [hnode, hhere, hup, hlookup, if_false] at h
    cases h
  | case6 place name way entries hnode hhere hup target hlookup links ih =>
    rw [follow_link hnode hhere hup hlookup] at h
    exact .link hnode hhere hup hlookup (ih h)
  | case7 links place name way entries hnode hhere hup n hlink hlookup ih =>
    rw [follow_inside hnode hhere hup hlookup hlink] at h
    exact .inside hnode hhere hup hlookup hlink (ih h)
  | case8 links place name way n hdirectory hnode =>
    rw [follow.eq_2] at h
    simp only [hnode] at h
    cases h
  | case9 links place name way hnode =>
    rw [follow.eq_2] at h
    simp only [hnode] at h
    cases h

theorem Leads.follow_eq (h : fs.Leads links place way p) : fs.follow links place way = .ok p := by
  induction h with
  | done links place => rw [follow.eq_1]
  | here hnode _ ih => rw [follow_here hnode, ih]
  | up hnode _ ih => rw [follow_up hnode, ih]
  | link hnode hhere hup hlookup _ ih => rw [follow_link hnode hhere hup hlookup, ih]
  | inside hnode hhere hup hlookup hlink _ ih =>
    rw [follow_inside hnode hhere hup hlookup hlink, ih]

theorem Leads.split {more : List Text} (h : fs.Leads links place (way ++ more) p) :
    ∃ links' place', fs.Leads links place way place' ∧ fs.Leads links' place' more p := by
  generalize hall : way ++ more = all at h
  induction h generalizing way with
  | done links place =>
    obtain ⟨rfl, rfl⟩ := List.append_eq_nil_iff.1 hall
    exact ⟨links, place, .done links place, .done links place⟩
  | here hnode h ih =>
    rcases List.append_eq_cons_iff.1 hall with ⟨rfl, rfl⟩ | ⟨way, rfl, rfl⟩
    · exact ⟨_, _, .done _ _, .here hnode h⟩
    · obtain ⟨links', place', hway, hmore⟩ := ih rfl
      exact ⟨links', place', .here hnode hway, hmore⟩
  | up hnode h ih =>
    rcases List.append_eq_cons_iff.1 hall with ⟨rfl, rfl⟩ | ⟨way, rfl, rfl⟩
    · exact ⟨_, _, .done _ _, .up hnode h⟩
    · obtain ⟨links', place', hway, hmore⟩ := ih rfl
      exact ⟨links', place', .up hnode hway, hmore⟩
  | link hnode hhere hup hlookup h ih =>
    rcases List.append_eq_cons_iff.1 hall with ⟨rfl, rfl⟩ | ⟨way, rfl, rfl⟩
    · exact ⟨_, _, .done _ _, .link hnode hhere hup hlookup h⟩
    · obtain ⟨links', place', hway, hmore⟩ := ih (List.append_assoc _ _ _)
      exact ⟨links', place', .link hnode hhere hup hlookup hway, hmore⟩
  | inside hnode hhere hup hlookup hlink h ih =>
    rcases List.append_eq_cons_iff.1 hall with ⟨rfl, rfl⟩ | ⟨way, rfl, rfl⟩
    · exact ⟨_, _, .done _ _, .inside hnode hhere hup hlookup hlink h⟩
    · obtain ⟨links', place', hway, hmore⟩ := ih rfl
      exact ⟨links', place', .inside hnode hhere hup hlookup hlink hway, hmore⟩

theorem Leads.mono {links' : Nat} (h : fs.Leads links place way p) (hle : links ≤ links') :
    fs.Leads links' place way p := by
  induction h generalizing links' with
  | done links place => exact .done links' place
  | here hnode _ ih => exact .here hnode (ih hle)
  | up hnode _ ih => exact .up hnode (ih hle)
  | link hnode hhere hup hlookup _ ih =>
    obtain ⟨links', rfl⟩ := Nat.exists_eq_add_of_lt hle
    exact .link hnode hhere hup hlookup (ih (by omega))
  | inside hnode hhere hup hlookup hlink _ ih =>
    exact .inside hnode hhere hup hlookup hlink (ih hle)

theorem Leads.follow_append_eq (h : fs.Leads links place way p) :
    ∃ links', ∀ rest, fs.follow links place (way ++ rest) = fs.follow links' p rest := by
  induction h with
  | done links place => exact ⟨links, fun rest => rfl⟩
  | here hnode _ ih =>
    obtain ⟨links', hrest⟩ := ih
    exact ⟨links', fun rest => (follow_here hnode _).trans (hrest rest)⟩
  | up hnode _ ih =>
    obtain ⟨links', hrest⟩ := ih
    exact ⟨links', fun rest => (follow_up hnode _).trans (hrest rest)⟩
  | link hnode hhere hup hlookup _ ih =>
    obtain ⟨links', hrest⟩ := ih
    refine ⟨links', fun rest => ?_⟩
    rw [List.cons_append, follow_link hnode hhere hup hlookup, ← List.append_assoc, hrest]
  | inside hnode hhere hup hlookup hlink _ ih =>
    obtain ⟨links', hrest⟩ := ih
    exact ⟨links', fun rest => (follow_inside hnode hhere hup hlookup hlink _).trans (hrest rest)⟩

theorem follow_append_ok (h : fs.follow links place way = .ok p) :
    ∃ links', ∀ rest, fs.follow links place (way ++ rest) = fs.follow links' p rest :=
  (leads_of_follow h).follow_append_eq

/-- The last step of a way is made from the place where the rest of it leads. -/
theorem follow_append {name : Text} (h : fs.follow links place (way ++ [name]) = .ok p) :
    ∃ place', fs.follow links place way = .ok place' ∧
      ∃ links', fs.follow links' place' [name] = .ok p := by
  obtain ⟨links', place', hway, hname⟩ := (leads_of_follow h).split
  exact ⟨place', hway.follow_eq, links', hname.follow_eq⟩

theorem directory_of_follow {name : Text} (h : fs.follow links place (name :: way) = .ok p) :
    ∃ entries, fs.nodeAt? place = some (.directory entries) := by
  cases leads_of_follow h with
  | here hnode => exact ⟨_, hnode⟩
  | up hnode => exact ⟨_, hnode⟩
  | link hnode => exact ⟨_, hnode⟩
  | inside hnode => exact ⟨_, hnode⟩

theorem locate_of_isFile_child {base : Path} {name : Text}
    (h : fs.isFile (base.child name) = true) :
    ∃ place entries, fs.locate base = .ok place ∧
      fs.nodeAt? place = some (.directory entries) := by
  unfold isFile find at h
  cases hlocate : fs.locate (base.child name) with
  | error problem => simp [hlocate, bind, Except.bind] at h
  | ok p =>
    obtain ⟨place, hplace, links, hname⟩ := follow_append hlocate
    obtain ⟨entries, hentries⟩ := directory_of_follow hname
    exact ⟨place, entries, hplace, hentries⟩

/-! ## Examinations -/

section

variable {r : Refusals} {kind : Node → Bool} {p : Path}

/-- A system does not say what is under a path, for a problem that does not show it leads nowhere. -/
def Withholds (fs : FileSystem) (r : Refusals) (p : Path) (problem : PathProblem) : Prop :=
  ∃ octets, p.octets? = some octets ∧ fs.examine r p octets = .error problem ∧
    problem.isAbsence = false

theorem find_of_examine {octets : Bytes} {n : Node} (h : fs.examine r p octets = .ok n) :
    fs.find p = .ok n := by
  unfold examine at h
  split at h
  · cases h
  · split at h
    · cases h
    · exact h

/-- What a test finds is what any other test of the path finds. -/
theorem find_of_test (h : fs.test r kind p = .ok true) :
    ∃ n, fs.find p = .ok n ∧ kind n = true ∧ ∀ other, fs.test r other p = .ok (other n) := by
  unfold test at h
  split at h
  · cases h
  case h_2 octets hoctets =>
    split at h
    case h_1 n hexamine =>
      refine ⟨n, find_of_examine hexamine, Except.ok.inj h, fun other => ?_⟩
      simp only [test, hoctets, hexamine]
    case h_2 => split at h <;> cases h

theorem test_eq_error_iff {e : PathError} : fs.test r kind p = .error e ↔
    ∃ problem, fs.Withholds r p problem ∧ e = .refused problem p.text := by
  constructor
  · intro h
    unfold test at h
    split at h
    · cases h
    case h_2 octets hoctets =>
      split at h
      case h_1 => cases h
      case h_2 problem hexamine =>
        split at h
        case isTrue => cases h
        case isFalse habsence =>
          exact ⟨problem, ⟨octets, hoctets, hexamine, eq_false_of_ne_true habsence⟩,
            (Except.error.inj h).symm⟩
  · rintro ⟨problem, ⟨octets, hoctets, hexamine, habsence⟩, rfl⟩
    simp only [test, hoctets, hexamine, habsence, Bool.false_eq_true, if_false]

end
end FileSystem
end ResourceFinder
