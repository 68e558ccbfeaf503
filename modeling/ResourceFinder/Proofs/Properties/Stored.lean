import ResourceFinder.Proofs.Properties.Numbered
import ResourceFinder.Proofs.Properties.Written

/-
Properties texts in printable ASCII.

The common writers of the format leave printable ASCII as it is, but for what a backslash has to
guard, and write every other character as an escape by number for each of its units of sixteen bits.
Reading takes each of these escapes for a character of its own.  So a character above the range of a
unit comes back as its two surrogates, and all others come back as they were.
-/

namespace ResourceFinder
namespace Properties

/-- What is left to the writer of a text. -/
structure Style where
  /-- The hexadecimal digits above nine are capital letters. -/
  capitals : Bool
  /-- All blanks at the start of a value have a backslash before them, not the first one alone. -/
  everyBlank : Bool
  /-- Lines end in a carriage return and a line feed, not in a line feed alone. -/
  carriageReturns : Bool
  deriving DecidableEq

namespace Style

variable (style : Style)

def lineEnd : Text :=
  if style.carriageReturns then [.char '\r', .char '\n'] else [.char '\n']

def hexDigit (n : Nat) : CodePoint :=
  if n < 10 then .char (Char.ofNat ('0'.toNat + n))
  else if style.capitals then .char (Char.ofNat ('A'.toNat + (n - 10)))
  else .char (Char.ofNat ('a'.toNat + (n - 10)))

/-- The four hexadecimal digits of a unit. -/
def digits (n : Nat) : Text :=
  [style.hexDigit (n / 0x1000 % 16), style.hexDigit (n / 0x100 % 16),
    style.hexDigit (n / 0x10 % 16), style.hexDigit (n % 16)]

def storeUnit (n : Nat) : Text := .char '\\' :: .char 'u' :: style.digits n

/-- Whether a character is written without its number. -/
def isPlain (c : CodePoint) : Bool :=
  c.isOneOf ['\t', '\n', '\r', '\x0c'] || 0x20 ≤ c.code && c.code ≤ 0x7E

def storeChar (c : CodePoint) : Text :=
  if isPlain c then escapeChar c else c.units.flatMap style.storeUnit

def storeKey (t : Text) : Text := t.flatMap style.storeChar

/-- The rest of a value, at its start or further on. -/
def storeValueFrom (starts : Bool) : Text → Text
  | [] => []
  | c :: t =>
    if c = .char ' ' then
      (if starts then escapeChar c else [c]) ++ storeValueFrom (starts && style.everyBlank) t
    else style.storeChar c ++ storeValueFrom false t

def storeValue (t : Text) : Text := style.storeValueFrom true t

def storeEntry (entry : Text × Text) : Text :=
  style.storeKey entry.1 ++ .char '=' :: style.storeValue entry.2

/-- Pairs as a text in printable ASCII, a line for each of them. -/
def store (pairs : List (Text × Text)) : Text :=
  pairs.flatMap fun entry => style.storeEntry entry ++ style.lineEnd

/-! ## One character -/

variable {style}

theorem hexDigit_spec (style : Style) (n : Nat) :
    (style.hexDigit (n % 16)).hexValue? = some (n % 16) ∧
      (style.hexDigit (n % 16)).isOneOf special = false := by
  have hall : ∀ capitals everyBlank carriageReturns, ∀ d : Fin 16,
      ((Style.mk capitals everyBlank carriageReturns).hexDigit d).hexValue? = some d.val ∧
        ((Style.mk capitals everyBlank carriageReturns).hexDigit d).isOneOf special = false := by
    decide
  have hlt : n % 16 < 16 := Nat.mod_lt n (by decide)
  exact hall style.capitals style.everyBlank style.carriageReturns ⟨n % 16, hlt⟩

theorem isHex_digits (style : Style) (n : Nat) : IsHex (style.digits n) := by
  refine ⟨rfl, ?_⟩
  simp [digits, hexDigit_spec]

theorem hexNumber_digits {n : Nat} (h : n < 0x10000) : hexNumber (style.digits n) = n := by
  simp only [hexNumber, digits, List.foldl_cons, List.foldl_nil, hexDigit_spec, Option.getD_some]
  omega

theorem shielded_storeUnit (style : Style) (n : Nat) : Shielded false (style.storeUnit n) := by
  have hdigit (k : Nat) := (hexDigit_spec style k).2
  apply Shielded.pair (by decide) (by decide)
  exact .alone (.inl (hdigit _)) (.alone (.inl (hdigit _)) (.alone (.inl (hdigit _))
    (.alone (.inl (hdigit _)) .nil)))

theorem shielded_storeChar (style : Style) (c : CodePoint) :
    Shielded false (style.storeChar c) := by
  unfold storeChar
  split
  case isTrue => exact shielded_escapeChar c
  case isFalse =>
    induction c.units with
    | nil => exact .nil
    | cons n ns ih =>
      rw [List.flatMap_cons]
      exact (shielded_storeUnit style n).append ih

theorem storeChar_ne_nil (style : Style) (c : CodePoint) : style.storeChar c ≠ [] := by
  unfold storeChar
  split
  case isTrue =>
    obtain ⟨d, hd, _⟩ | ⟨hc, _⟩ := escapeChar_cases c
    · simp [hd]
    · simp [hc]
  case isFalse =>
    unfold CodePoint.units
    split <;> simp [storeUnit]

theorem code_lt_of_isPlain {c : CodePoint} (h : isPlain c = true) : c.code < 0x10000 := by
  cases c with
  | surrogate i =>
    have hi := i.isLt
    show 0xD800 + i.val < 0x10000
    omega
  | char ch =>
    have hcontrols : (['\t', '\n', '\r', '\x0c'].all fun d => d.toNat < 0x20) = true := rfl
    show ch.toNat < 0x10000
    rcases Bool.or_eq_true_iff.1 h with hcontrol | hprintable
    · have hmem : ch ∈ ['\t', '\n', '\r', '\x0c'] := List.contains_iff_mem.1 hcontrol
      have hlt : ch.toNat < 0x20 := of_decide_eq_true (List.all_eq_true.1 hcontrols ch hmem)
      omega
    · have hle : ch.toNat ≤ 0x7E := of_decide_eq_true (Bool.and_eq_true_iff.1 hprintable).2
      omega

/-! ## What is read for it -/

theorem stands_escapeChar (c : CodePoint) {t u : Text} (h : Stands t u) :
    Stands (escapeChar c ++ t) (c :: u) := by
  obtain ⟨d, hd, hstands, hnumber, -⟩ | ⟨hc, hspecial⟩ := escapeChar_cases c
  · rw [hd, ← hstands]
    exact .pair hnumber h
  · rw [hc]
    exact .alone (not_mem_special hspecial (by decide)) h

theorem stands_units {ns : List Nat} (hns : ∀ n ∈ ns, n < 0x10000) {t u : Text} (h : Stands t u) :
    Stands (ns.flatMap style.storeUnit ++ t) (ns.filterMap CodePoint.ofNat? ++ u) := by
  induction ns with
  | nil => exact h
  | cons n ns ih =>
    obtain ⟨hn, hrest⟩ := List.forall_mem_cons.1 hns
    obtain ⟨p, hp⟩ := CodePoint.exists_ofNat? (n := n) (by omega)
    have hcode : p.code = hexNumber (style.digits n) := by
      rw [hexNumber_digits hn, CodePoint.ofNat?_eq_some_iff.1 hp]
    rw [List.flatMap_cons, List.append_assoc, List.filterMap_cons, hp]
    exact .hex (isHex_digits style n) hcode (ih hrest)

/-- A character that is stored is read as its units. -/
theorem stands_storeChar (c : CodePoint) {t u : Text} (h : Stands t u) :
    Stands (style.storeChar c ++ t) (c.inUnits ++ u) := by
  unfold storeChar
  split
  case isTrue hplain =>
    rw [CodePoint.inUnits_of_lt (code_lt_of_isPlain hplain)]
    exact stands_escapeChar c h
  case isFalse => exact stands_units (fun n => CodePoint.units_lt) h

/-! ## Keys and values -/

theorem shielded_storeKey (style : Style) (t : Text) : Shielded false (style.storeKey t) := by
  induction t with
  | nil => exact .nil
  | cons c t ih => exact (shielded_storeChar style c).append ih

theorem stands_storeKey (style : Style) (t : Text) : Stands (style.storeKey t) t.inUnits := by
  induction t with
  | nil => exact .nil
  | cons c t ih => exact stands_storeChar c ih

theorem shielded_storeValueFrom (style : Style) (starts : Bool) (t : Text) :
    Shielded true (style.storeValueFrom starts t) := by
  induction t generalizing starts with
  | nil => exact .nil
  | cons c t ih =>
    rw [storeValueFrom]
    split
    case isTrue hblank =>
      split
      · exact (shielded_escapeChar c).of_false.append (ih _)
      · exact .alone (.inr ⟨rfl, hblank⟩) (ih _)
    case isFalse => exact (shielded_storeChar style c).of_false.append (ih _)

theorem stands_storeValueFrom (style : Style) (starts : Bool) (t : Text) :
    Stands (style.storeValueFrom starts t) t.inUnits := by
  induction t generalizing starts with
  | nil => exact .nil
  | cons c t ih =>
    rw [storeValueFrom, Text.inUnits_cons]
    split
    case isTrue hblank =>
      subst hblank
      rw [CodePoint.inUnits_of_lt (by decide)]
      split
      · exact stands_escapeChar _ (ih _)
      · exact .alone (by decide) (ih _)
    case isFalse => exact stands_storeChar c (ih _)

/-- No blank is left to stand at the start of a value. -/
theorem head?_storeValue {t : Text} {c : CodePoint} (h : (style.storeValue t).head? = some c) :
    isFiller c = false := by
  cases t with
  | nil => cases h
  | cons a t =>
    rw [storeValue, storeValueFrom] at h
    split at h
    case isTrue hblank =>
      subst hblank
      rw [← Option.some.inj h]
      decide
    case isFalse =>
      have hhead : (style.storeChar a).head? = some c := by
        rwa [List.head?_append_of_ne_nil _ (storeChar_ne_nil style a)] at h
      exact ((shielded_storeChar style a).head? hhead).1

/-! ## Lines -/

theorem naturalLines_store (style : Style) (pairs : List (Text × Text)) :
    Text.naturalLines (style.store pairs) = pairs.map style.storeEntry ++ [[]] := by
  have hend : style.lineEnd = [.char '\n'] ∨ style.lineEnd = [.char '\r', .char '\n'] := by
    unfold lineEnd
    split
    · exact .inr rfl
    · exact .inl rfl
  induction pairs with
  | nil => rfl
  | cons entry pairs ih =>
    have hline := (shielded_storeKey style entry.1).lineEnd_not_mem_line
      (shielded_storeValueFrom style true entry.2)
    rw [store, List.flatMap_cons, List.append_assoc, storeEntry, storeValue,
      Text.naturalLines_line hline hend]
    exact congrArg _ ih

theorem logicalLines_store (style : Style) (pairs : List (Text × Text)) :
    logicalLines (style.store pairs) = pairs.map style.storeEntry := by
  have hentire : ∀ line ∈ pairs.map style.storeEntry, IsEntire line := by
    intro line hline
    obtain ⟨entry, -, rfl⟩ := List.mem_map.1 hline
    exact (shielded_storeKey style entry.1).isEntire_line
      (shielded_storeValueFrom style true entry.2)
  have hlast : joinLines none [[]] = [] := rfl
  rw [logicalLines, naturalLines_store, joinLines_entire_append hentire, hlast, List.append_nil]

theorem entryStands_storeEntry (style : Style) (entry : Text × Text) :
    EntryStands (style.storeEntry entry) (entry.1.inUnits, entry.2.inUnits) := by
  have hvalue : ∀ c ∈ (style.storeValue entry.2).head?, isFiller c = false := by
    intro c hc
    exact head?_storeValue hc
  have hsplit := (shielded_storeKey style entry.1).splitEntry_line hvalue
  rw [EntryStands, storeEntry, hsplit]
  exact ⟨stands_storeKey style entry.1, stands_storeValueFrom style true entry.2⟩

theorem parse_store_pairs (style : Style) (pairs : List (Text × Text)) :
    parse (style.store pairs) =
      .ok (Dictionary.ofPairs (pairs.map fun entry => (entry.1.inUnits, entry.2.inUnits))) := by
  rw [parse_eq_ok_iff, logicalLines_store]
  refine ⟨_, ?_, rfl⟩
  rw [List.forall₂_map_left_iff, List.forall₂_map_right_iff, List.forall₂_same]
  intro entry _
  exact entryStands_storeEntry style entry

end Style

/-- Pairs of strings as pairs of texts. -/
def texts (pairs : List (String × String)) : List (Text × Text) :=
  pairs.map fun entry => (Text.ofString entry.1, Text.ofString entry.2)

theorem inUnits_inj_of_texts {pairs : List (String × String)} :
    ∀ k ∈ (texts pairs).map (·.1), ∀ k' ∈ (texts pairs).map (·.1),
      k.inUnits = k'.inUnits → k = k' := by
  have hstring : ∀ k ∈ (texts pairs).map (·.1), ∃ s : String, Text.ofString s = k := by
    intro k hk
    obtain ⟨entry, hentry, rfl⟩ := List.mem_map.1 hk
    obtain ⟨pair, -, rfl⟩ := List.mem_map.1 hentry
    exact ⟨pair.1, rfl⟩
  intro k hk k' hk' h
  obtain ⟨s, rfl⟩ := hstring k hk
  obtain ⟨s', rfl⟩ := hstring k' hk'
  exact congrArg (List.map CodePoint.char) (Text.inUnits_inj h)

/-- A stored text is read as the dictionary of its pairs, with each unit of sixteen bits as a
character of its own.  So it is read as that dictionary just if none of its characters is above the
range of a unit. -/
theorem parse_store (style : Style) (pairs : List (String × String)) :
    parse (style.store (texts pairs)) = .ok ((Dictionary.ofPairs (texts pairs)).map fun entry =>
      (entry.1.inUnits, entry.2.inUnits)) ∧
    (parse (style.store (texts pairs)) = .ok (Dictionary.ofPairs (texts pairs)) ↔
      ∀ entry ∈ Dictionary.ofPairs (texts pairs),
        (∀ c ∈ entry.1, c.code < 0x10000) ∧ ∀ c ∈ entry.2, c.code < 0x10000) := by
  have hparse : parse (style.store (texts pairs)) =
      .ok ((Dictionary.ofPairs (texts pairs)).map fun entry =>
        (entry.1.inUnits, entry.2.inUnits)) := by
    rw [Style.parse_store_pairs, Dictionary.ofPairs_map _ inUnits_inj_of_texts]
  refine ⟨hparse, ?_⟩
  rw [hparse, Except.ok.injEq]
  generalize Dictionary.ofPairs (texts pairs) = d
  have hsame : (d.map fun entry => (entry.1.inUnits, entry.2.inUnits)) = d ↔
      ∀ entry ∈ d, (entry.1.inUnits, entry.2.inUnits) = entry := by
    conv_lhs => rhs; rw [← List.map_id d]
    exact List.map_inj_left
  rw [hsame]
  simp only [Prod.ext_iff, Text.inUnits_eq_self_iff]

/-- A character that is stored as two escapes is not put together again. -/
theorem parse_store_pair_of_surrogates :
    parse (Style.store ⟨true, false, false⟩ (texts [("a", "😀")])) =
      .ok [("a", [.surrogate 0x3D, .surrogate 0x600])] ∧
    parse (Style.store ⟨true, false, false⟩ (texts [("a", "😀")])) ≠
      .ok (Dictionary.ofPairs (texts [("a", "😀")])) := by
  decide

end Properties
end ResourceFinder
