import ResourceFinder.Archive.Directory
import ResourceFinder.Proofs.Except.Failure

/-
Archives whose directory is refused though nothing in it is damaged.

The records of a directory are read one after the other.  Reading ends at the first one whose name is
not in the encoding that it claims, or that needs a later version of the format.
-/

namespace ResourceFinder
namespace Archive

/-- The octets of the name in a record. -/
def nameOctets (record : Bytes) : Bytes := (record.drop directoryLength).take (field record 28 2)

/-- Whether octets start with a whole record of a directory. -/
structure IsRecord (record : Bytes) : Prop where
  whole : directoryLength ≤ record.length
  signed : directorySignature.isPrefixOf record = true

/-- The reasons, other than damage, for which a record is refused. -/
inductive RefusesRecord (record : Bytes) : Fault → Prop where
  | name {e : DecodeError} (hrecord : IsRecord record)
      (h : decodeName (field record 8 2) (nameOctets record) = .error e) :
      RefusesRecord record (.name e)
  | version {name : Text} (hrecord : IsRecord record)
      (hname : decodeName (field record 8 2) (nameOctets record) = .ok name)
      (h : versionLimit < field record 6 1) :
      RefusesRecord record (.unsupported (.version (field record 6 1)))

/-- What is left of some records after the first few of them, all of which can be read. -/
inductive LeftOf : Bytes → Bytes → Prop where
  | here (records : Bytes) : LeftOf records records
  | next {records rest : Bytes} {e : Entry} {length : Nat} (h : entryOf records = .ok (e, length))
      (hrest : LeftOf (records.drop length) rest) : LeftOf records rest

/-- The records that the end record of an archive points to. -/
def HasRecords (octets records : Bytes) : Prop :=
  ∃ x, extent octets = .ok x ∧ x.length ≤ x.stop ∧
    records = (octets.drop (x.stop - x.length)).take x.length

/-- The reasons, other than damage, for which an archive is refused: those of the first record that
cannot be read. -/
def Refuses (octets : Bytes) (a : Fault) : Prop :=
  ∃ records rest, HasRecords octets records ∧ LeftOf records rest ∧ RefusesRecord rest a

/-! ## One record -/

section

variable {record : Bytes} {a : Fault}

theorem RefusesRecord.not_malformed (h : RefusesRecord record a) : ∀ m, a ≠ .malformed m := by
  intro m hm
  cases h with
  | name => cases hm
  | version => cases hm

theorem RefusesRecord.isRecord (h : RefusesRecord record a) : IsRecord record := by
  cases h with
  | name hrecord => exact hrecord
  | version hrecord => exact hrecord

/-- A record that is not damaged is refused for its name first. -/
theorem entryOf_eq_error_iff (ha : ∀ m, a ≠ .malformed m) :
    entryOf record = .error a ↔ RefusesRecord record a := by
  unfold entryOf
  constructor
  · intro h
    obtain ⟨-, hm⟩ | ⟨hwhole, h⟩ := guard_eq_error.1 h
    · exact absurd hm.symm (ha _)
    obtain ⟨-, hm⟩ | ⟨hsigned, h⟩ := guard_eq_error.1 h
    · exact absurd hm.symm (ha _)
    have hrecord : IsRecord record := ⟨Nat.le_of_not_lt hwhole, by simpa using hsigned⟩
    obtain hname | ⟨name, hname, h⟩ := bind_eq_error.1 h
    · obtain ⟨e, he, rfl⟩ := mapError_eq_error hname
      exact .name hrecord he
    obtain ⟨hversion, rfl⟩ | ⟨-, h⟩ := guard_eq_error.1 h
    · exact .version hrecord (mapError_eq_ok hname) hversion
    obtain hextra | ⟨_, -, hdone⟩ := bind_eq_error.1 h
    · obtain ⟨m, -, hm⟩ := mapError_eq_error hextra
      exact absurd hm.symm (ha m)
    · cases hdone
  · intro h
    have hwhole : ¬record.length < directoryLength := Nat.not_lt.2 h.isRecord.whole
    have hsigned : ¬(!directorySignature.isPrefixOf record) = true := by
      simp [h.isRecord.signed]
    rw [if_neg hwhole, if_neg hsigned]
    cases h with
    | name hrecord h =>
      show (decodeName (field record 8 2) (nameOctets record)).mapError Fault.name >>= _ = _
      rw [h]
      rfl
    | version hrecord hname h =>
      show (decodeName (field record 8 2) (nameOctets record)).mapError Fault.name >>= _ = _
      rw [hname]
      exact if_pos h

theorem directoryLength_le_of_entryOf {e : Entry} {length : Nat}
    (h : entryOf record = .ok (e, length)) : directoryLength ≤ length ∧ record ≠ [] := by
  unfold entryOf at h
  split at h
  case isTrue => cases h
  case isFalse hwhole =>
    have hne : record ≠ [] := by
      rintro rfl
      exact hwhole (by decide)
    refine ⟨?_, hne⟩
    split at h
    case isTrue => cases h
    case isFalse =>
      cases hname : decodeName (field record 8 2) (nameOctets record) with
      | error e =>
        unfold nameOctets at hname
        simp only [hname, Except.mapError, bind, Except.bind] at h
        cases h
      | ok name =>
        unfold nameOctets at hname
        simp only [hname, Except.mapError, bind, Except.bind] at h
        split at h
        case isTrue => cases h
        case isFalse =>
          split at h
          case h_1 => cases h
          case h_2 =>
            obtain ⟨-, rfl⟩ := Prod.mk.inj (Except.ok.inj h)
            omega

end

/-! ## All records -/

section

variable {a : Fault}

theorem length_drop_le {fuel : Nat} {records : Bytes} (hfuel : records.length ≤ fuel + 1)
    {e : Entry} {length : Nat} (h : entryOf records = .ok (e, length)) :
    (records.drop length).length ≤ fuel := by
  obtain ⟨hlength, -⟩ := directoryLength_le_of_entryOf h
  have hpositive : 0 < directoryLength := by decide
  rw [List.length_drop]
  omega

theorem not_refusesRecord_of_nil {rest : Bytes} (hleft : LeftOf [] rest) :
    ¬RefusesRecord rest a := by
  intro hrefuses
  cases hleft with
  | here => exact absurd hrefuses.isRecord.whole (by decide)
  | next h => exact absurd rfl (directoryLength_le_of_entryOf h).2

/-- Reading records one after the other fails at the first one that cannot be read. -/
theorem entriesOf_eq_error_iff (ha : ∀ m, a ≠ .malformed m) {fuel : Nat} {records : Bytes}
    (hfuel : records.length ≤ fuel) : entriesOf fuel records = .error a ↔
      ∃ rest, LeftOf records rest ∧ RefusesRecord rest a := by
  induction fuel generalizing records with
  | zero =>
    obtain rfl : records = [] := List.length_eq_zero_iff.1 (by omega)
    exact ⟨nofun, fun ⟨rest, hleft, hrefuses⟩ => absurd hrefuses (not_refusesRecord_of_nil hleft)⟩
  | succ fuel ih =>
    by_cases hempty : records = []
    · subst hempty
      exact ⟨nofun, fun ⟨rest, hleft, hrefuses⟩ =>
        absurd hrefuses (not_refusesRecord_of_nil hleft)⟩
    · rw [entriesOf, if_neg (by simpa using hempty), bind_eq_error, entryOf_eq_error_iff ha]
      constructor
      · intro h
        obtain hrefuses | ⟨⟨e, length⟩, hentry, h⟩ := h
        · exact ⟨records, .here records, hrefuses⟩
        · obtain hrest | ⟨es, -, hdone⟩ := bind_eq_error.1 h
          · obtain ⟨rest, hleft, hrefuses⟩ := (ih (length_drop_le hfuel hentry)).1 hrest
            exact ⟨rest, .next hentry hleft, hrefuses⟩
          · cases hdone
      · intro ⟨rest, hleft, hrefuses⟩
        cases hleft with
        | here => exact .inl hrefuses
        | next h hrest =>
          have hlater := (ih (length_drop_le hfuel h)).2 ⟨rest, hrest, hrefuses⟩
          exact .inr ⟨_, h, bind_eq_error.2 (.inl hlater)⟩

/-- An archive is refused for damage, or for the first of its records that cannot be read. -/
theorem entries_eq_error_iff {octets : Bytes} (ha : ∀ m, a ≠ .malformed m) :
    entries octets = .error a ↔ Refuses octets a := by
  unfold entries
  constructor
  · intro h
    obtain hextent | ⟨x, hx, h⟩ := bind_eq_error.1 h
    · obtain ⟨m, -, hm⟩ := mapError_eq_error hextent
      exact absurd hm.symm (ha m)
    obtain ⟨-, hm⟩ | ⟨hstop, h⟩ := guard_eq_error.1 h
    · exact absurd hm.symm (ha _)
    obtain hrecords | ⟨es, -, hdone⟩ := bind_eq_error.1 h
    · obtain ⟨rest, hleft, hrefuses⟩ := (entriesOf_eq_error_iff ha (Nat.le_refl _)).1 hrecords
      exact ⟨_, rest, ⟨x, mapError_eq_ok hx, Nat.le_of_not_lt hstop, rfl⟩, hleft, hrefuses⟩
    · cases hdone
  · intro ⟨records, rest, ⟨x, hx, hstop, hrecords⟩, hleft, hrefuses⟩
    subst hrecords
    have hrecords := (entriesOf_eq_error_iff ha (Nat.le_refl _)).2 ⟨rest, hleft, hrefuses⟩
    refine bind_eq_error.2 (.inr ⟨x, by rw [hx]; rfl, ?_⟩)
    exact guard_eq_error.2 (.inr ⟨Nat.not_lt.2 hstop, bind_eq_error.2 (.inl hrecords)⟩)

theorem Refuses.not_malformed {octets : Bytes} (h : Refuses octets a) :
    ∀ m, a ≠ .malformed m := by
  obtain ⟨_, _, _, _, hrefuses⟩ := h
  exact hrefuses.not_malformed

end

end Archive
end ResourceFinder
