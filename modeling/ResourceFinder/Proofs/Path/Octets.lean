import ResourceFinder.Path.Uri
import ResourceFinder.Proofs.Path.Spelling

/-
The octets of paths, and the texts that octets stand for.

A file system names its entries by octets.  Where these are UTF-8 the text of a name is what they
encode, and every other octet stands in it as a surrogate.  Several texts may have the same octets,
but only one of them is what these octets stand for, and that one is the text of a name.
-/

namespace ResourceFinder
namespace Uri

/-! ## The octets of a text -/

/-- The octets of a code point, if it can be in a path. -/
def octetsOf? : CodePoint → Option Bytes
  | .char c => some (Utf8.encodeChar c)
  | .surrogate offset =>
    if 0x480 ≤ offset.val ∧ offset.val < 0x500 then some [UInt8.ofNat (offset.val - 0x400)]
    else none

/-- The octets of a text, if it can be one of a path. -/
def octets? : Text → Option Bytes
  | [] => some []
  | c :: t => do return (← octetsOf? c) ++ (← octets? t)

theorem toOption_octetsFrom (position : Nat) (t : Text) :
    (octetsFrom position t).toOption = octets? t := by
  induction t generalizing position with
  | nil => rfl
  | cons c t ih =>
    have hrest := ih (position + 1)
    cases c with
    | char c =>
      rw [octetsFrom, octets?, ← hrest]
      cases octetsFrom (position + 1) t <;> rfl
    | surrogate offset =>
      rw [octetsFrom, octets?, octetsOf?, ← hrest]
      by_cases hoctet : 0x480 ≤ offset.val ∧ offset.val < 0x500
      · rw [if_pos hoctet, if_pos hoctet]
        cases octetsFrom (position + 1) t <;> rfl
      · rw [if_neg hoctet, if_neg hoctet]
        rfl

theorem octets?_append {s t : Text} {os ot : Bytes} (hs : octets? s = some os)
    (ht : octets? t = some ot) : octets? (s ++ t) = some (os ++ ot) := by
  induction s generalizing os with
  | nil =>
    obtain rfl := Option.some.inj hs
    exact ht
  | cons c s ih =>
    rw [octets?] at hs
    obtain ⟨oc, hc, hs⟩ := Option.bind_eq_some_iff.1 hs
    obtain ⟨os', hs', hos⟩ := Option.bind_eq_some_iff.1 hs
    obtain rfl := Option.some.inj hos
    rw [List.cons_append, octets?, hc, ih hs', List.append_assoc]
    rfl

/-! ## The text of octets -/

/-- The scalar value that some octets start with in UTF-8, and what follows it. -/
def scalar? : Bytes → Option (Char × Bytes)
  | [] => none
  | a :: rest =>
    if a < 0x80 then some (Char.ofNat a.toNat, rest)
    else
      match Utf8.lead? a.toNat with
      | none => none
      | some lead =>
        match Utf8.continuation lead.count lead.low lead.high lead.bits 0 rest with
        | .complete value after => some (Char.ofNat value, after)
        | _ => none

theorem length_lt_of_scalar? {octets after : Bytes} {c : Char}
    (h : scalar? octets = some (c, after)) : after.length < octets.length := by
  unfold scalar? at h
  split at h
  case h_1 => cases h
  case h_2 a rest =>
    split at h
    case isTrue =>
      obtain ⟨-, rfl⟩ := Prod.mk.inj (Option.some.inj h)
      simp
    case isFalse =>
      split at h
      case h_1 => cases h
      case h_2 lead hlead =>
        split at h
        case h_1 value after' hcontinuation =>
          obtain ⟨-, rfl⟩ := Prod.mk.inj (Option.some.inj h)
          have hlength := Utf8.length_le_of_continuation hcontinuation
          simp only [List.length_cons]
          omega
        case h_2 => cases h

/-- The surrogate for an octet that is no UTF-8. -/
def escaped (b : UInt8) : CodePoint := .surrogate ⟨b.toNat + 0x400, by have := b.toNat_lt; omega⟩

/-- The text that octets stand for in a path. -/
def textOf (octets : Bytes) : Text :=
  match octets with
  | [] => []
  | a :: rest =>
    match _h : scalar? (a :: rest) with
    | some (c, after) => .char c :: textOf after
    | none => escaped a :: textOf rest
termination_by octets.length
decreasing_by
  · exact length_lt_of_scalar? _h
  · simp

theorem textOf_nil : textOf [] = [] := by rw [textOf]

theorem textOf_of_scalar? {octets after : Bytes} {c : Char}
    (h : scalar? octets = some (c, after)) : textOf octets = .char c :: textOf after := by
  cases octets with
  | nil => cases h
  | cons a rest =>
    rw [textOf]
    split
    case h_1 c' after' h' =>
      obtain ⟨rfl, rfl⟩ := Prod.mk.inj (Option.some.inj (h'.symm.trans h))
      rfl
    case h_2 h' => cases h'.symm.trans h

theorem textOf_of_none {a : UInt8} {rest : Bytes} (h : scalar? (a :: rest) = none) :
    textOf (a :: rest) = escaped a :: textOf rest := by
  rw [textOf]
  split
  case h_1 c after h' => cases h'.symm.trans h
  case h_2 => rfl

/-! ### Texts with an ASCII character in them -/

section

variable {count low high value good v : Nat} {xs ys rest : Bytes} {a : UInt8}

theorem continuation_append (h : Utf8.continuation count low high value good xs = .complete v rest)
    (ys : Bytes) :
    Utf8.continuation count low high value good (xs ++ ys) = .complete v (rest ++ ys) := by
  induction count generalizing low high value good xs with
  | zero =>
    obtain ⟨rfl, rfl⟩ := Utf8.Continuation.complete.inj h
    rfl
  | succ count ih =>
    cases xs with
    | nil => cases h
    | cons x xs =>
      rw [List.cons_append]
      unfold Utf8.continuation at h ⊢
      split at h
      case isTrue hbounds =>
        rw [if_pos hbounds]
        exact ih h
      case isFalse => cases h

/-- An ASCII character continues nothing. -/
theorem continuation_of_append (ha : a < 0x80) (hlow : 0x80 ≤ low)
    (h : Utf8.continuation count low high value good (xs ++ a :: ys) = .complete v rest) :
    ∃ rest', Utf8.continuation count low high value good xs = .complete v rest' ∧
      rest = rest' ++ a :: ys := by
  induction count generalizing low high value good xs with
  | zero =>
    obtain ⟨rfl, rfl⟩ := Utf8.Continuation.complete.inj h
    exact ⟨xs, rfl, rfl⟩
  | succ count ih =>
    cases xs with
    | nil =>
      rw [List.nil_append] at h
      unfold Utf8.continuation at h
      have hsmall : a.toNat < 0x80 := ha
      rw [if_neg (by omega)] at h
      cases h
    | cons x xs =>
      rw [List.cons_append] at h
      unfold Utf8.continuation at h ⊢
      split at h
      case isTrue hbounds =>
        rw [if_pos hbounds]
        exact ih (Nat.le_refl _) h
      case isFalse => cases h

theorem low_of_lead? {n : Nat} {lead : Utf8.Lead} (h : Utf8.lead? n = some lead) :
    0x80 ≤ lead.low := by
  unfold Utf8.lead? at h
  split at h
  · cases h
  · split at h
    · obtain rfl := Option.some.inj h
      exact Nat.le_refl _
    · split at h
      · obtain rfl := Option.some.inj h
        dsimp only
        split <;> omega
      · split at h
        · obtain rfl := Option.some.inj h
          dsimp only
          split <;> omega
        · cases h

theorem scalar?_append (ha : a < 0x80) (hne : xs ≠ []) :
    scalar? (xs ++ a :: ys) = (scalar? xs).map fun (c, after) => (c, after ++ a :: ys) := by
  obtain ⟨x, xs, rfl⟩ := List.exists_cons_of_ne_nil hne
  rw [List.cons_append, scalar?, scalar?]
  by_cases hascii : x < 0x80
  · rw [if_pos hascii, if_pos hascii]
    rfl
  · rw [if_neg hascii, if_neg hascii]
    cases hlead : Utf8.lead? x.toNat with
    | none => rfl
    | some lead =>
      dsimp only
      cases hxs : Utf8.continuation lead.count lead.low lead.high lead.bits 0 xs with
      | complete v after =>
        rw [continuation_append hxs]
        rfl
      | _ =>
        split
        case h_1 v after hcomplete =>
          obtain ⟨after', hxs', -⟩ := continuation_of_append ha (low_of_lead? hlead) hcomplete
          cases hxs.symm.trans hxs'
        case h_2 => rfl

/-- What octets stand for on either side of an ASCII character does not depend on the other side. -/
theorem textOf_append (ha : a < 0x80) (xs ys : Bytes) :
    textOf (xs ++ a :: ys) = textOf xs ++ .char (Char.ofNat a.toNat) :: textOf ys := by
  fun_induction textOf xs with
  | case1 =>
    have hfirst : scalar? (a :: ys) = some (Char.ofNat a.toNat, ys) := if_pos ha
    exact textOf_of_scalar? hfirst
  | case2 x xs c after h ih =>
    have hfirst : scalar? (x :: xs ++ a :: ys) = _ := scalar?_append ha (List.cons_ne_nil x xs)
    rw [h] at hfirst
    rw [textOf_of_scalar? hfirst, ih, List.cons_append]
  | case3 x xs h ih =>
    have hfirst : scalar? (x :: (xs ++ a :: ys)) = none := by
      rw [← List.cons_append, scalar?_append ha (List.cons_ne_nil x xs), h]
      rfl
    rw [List.cons_append, textOf_of_none hfirst, ih, List.cons_append]

end

/-! ## Texts of names -/

/-- A text that its own octets stand for, as the names have that a file system tells. -/
def IsNative (t : Text) : Prop := ∃ octets, octets? t = some octets ∧ textOf octets = t

instance (t : Text) : Decidable (IsNative t) :=
  match h : octets? t with
  | none => isFalse fun ⟨octets, hoctets, _⟩ => by cases h.symm.trans hoctets
  | some octets =>
    if ht : textOf octets = t then isTrue ⟨octets, h, ht⟩
    else isFalse fun ⟨octets', hoctets, ht'⟩ => ht (Option.some.inj (h.symm.trans hoctets) ▸ ht')

theorem IsNative.append_slash {s t : Text} (hs : IsNative s) (ht : IsNative t) :
    IsNative (s ++ .char '/' :: t) := by
  obtain ⟨os, hos, htext⟩ := hs
  obtain ⟨ot, hot, htext'⟩ := ht
  have hslash : octets? (.char '/' :: t) = some (47 :: ot) := by
    rw [octets?, hot]
    rfl
  refine ⟨os ++ 47 :: ot, octets?_append hos hslash, ?_⟩
  rw [textOf_append (by decide), htext, htext']
  rfl

theorem isNative_nil : IsNative [] := ⟨[], rfl, textOf_nil⟩

theorem isNative_here : IsNative Path.here := by
  refine ⟨[46], rfl, ?_⟩
  rw [textOf_of_scalar? rfl, textOf_nil]
  rfl

theorem isNative_up : IsNative Path.up := by
  refine ⟨[46, 46], rfl, ?_⟩
  rw [textOf_of_scalar? rfl, textOf_of_scalar? rfl, textOf_nil]
  rfl

theorem isNative_join {segments : List Text} (h : ∀ s ∈ segments, IsNative s) :
    IsNative (Text.join "/" segments) := by
  induction segments with
  | nil => exact isNative_nil
  | cons s segments ih =>
    obtain ⟨hs, hrest⟩ := List.forall_mem_cons.1 h
    cases segments with
    | nil => exact hs
    | cons s' segments =>
      rw [Text.join_cons_cons, List.append_assoc]
      exact hs.append_slash (ih hrest)

/-- The text of a path from the root is native if its segments are. -/
theorem isNative_text {segments : List Text} (h : ∀ s ∈ segments, IsNative s) :
    IsNative (⟨.root, segments⟩ : Path).text := isNative_nil.append_slash (isNative_join h)

end Uri
end ResourceFinder
