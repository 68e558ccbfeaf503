import ResourceFinder.Proofs.Path.Octets

/-
Paths that are read back from their URIs.

A path is written octet by octet, and an octet either stands for itself or as a percent sign and two
digits, so no two ways to read a URI are open.  No octet is written with an exclamation mark.
-/

namespace ResourceFinder
namespace Uri

/-- The octets that a text with percent signs stands for. -/
def unescape? : Text → Option Bytes
  | [] => some []
  | .char '%' :: a :: b :: t => do
    return UInt8.ofNat ((← a.hexValue?) * 16 + (← b.hexValue?)) :: (← unescape? t)
  | .char c :: t => if c.toNat < 0x80 then (unescape? t).map (UInt8.ofNat c.toNat :: ·) else none
  | .surrogate _ :: _ => none

/-- The text of the path that a URI names. -/
def pathText? (uri : Text) : Option Text :=
  if ("file://" : Text).isPrefixOf uri then
    (unescape? (uri.drop ("file://" : Text).length)).map textOf
  else none

/-! ## One octet -/

theorem hexValue?_hexDigit {n : Nat} (h : n < 16) : (hexDigit n).hexValue? = some n := by
  have hall : ∀ n : Fin 16, (hexDigit n).hexValue? = some n.val := by decide
  exact hall ⟨n, h⟩

/-- An octet that stands for itself is an ASCII character other than the two marks. -/
theorem isPlain_spec {b : UInt8} (h : isPlain b = true) :
    b.toNat < 0x80 ∧ Char.ofNat b.toNat ≠ '%' ∧ Char.ofNat b.toNat ≠ '!' ∧
      (Char.ofNat b.toNat).toNat = b.toNat := by
  have hsmall : b.toNat < 0x80 := by
    unfold isPlain at h
    simp only [Bool.and_eq_true, decide_eq_true_eq] at h
    exact h.1
  have hall : ∀ n : Fin 0x80, isPlain (UInt8.ofNat n.val) = true →
      Char.ofNat n.val ≠ '%' ∧ Char.ofNat n.val ≠ '!' ∧ (Char.ofNat n.val).toNat = n.val := by
    decide
  have hoctet : UInt8.ofNat b.toNat = b := by simp
  exact ⟨hsmall, hall ⟨b.toNat, hsmall⟩ (hoctet.symm ▸ h)⟩

theorem unescape?_cons {c : Char} (hc : c ≠ '%') (t : Text) : unescape? (.char c :: t) =
    if c.toNat < 0x80 then (unescape? t).map (UInt8.ofNat c.toNat :: ·) else none := by
  rw [unescape?]
  exact fun _ _ _ _ => hc

theorem unescape?_escapeOctet (b : UInt8) (t : Text) :
    unescape? (escapeOctet b ++ t) = (unescape? t).map (b :: ·) := by
  unfold escapeOctet
  by_cases hplain : isPlain b = true
  · obtain ⟨hsmall, hpercent, -, htoNat⟩ := isPlain_spec hplain
    rw [if_pos hplain, List.singleton_append, unescape?_cons hpercent, htoNat, if_pos hsmall]
    simp
  · have hb := b.toNat_lt
    have hvalue : UInt8.ofNat (b.toNat / 16 * 16 + b.toNat % 16) = b := by
      rw [Nat.div_add_mod']
      simp
    rw [if_neg hplain]
    show unescape? (.char '%' :: hexDigit (b.toNat / 16) :: hexDigit (b.toNat % 16) :: t) = _
    rw [unescape?, hexValue?_hexDigit (by omega), hexValue?_hexDigit (by omega)]
    simp only [Option.bind_eq_bind, Option.bind_some, hvalue]
    cases unescape? t <;> rfl

theorem mark_not_mem_escapeOctet (b : UInt8) : .char '!' ∉ escapeOctet b := by
  have hdigits : ∀ n : Fin 16, hexDigit n ≠ .char '!' := by decide
  have hb := b.toNat_lt
  unfold escapeOctet
  by_cases hplain : isPlain b = true
  · obtain ⟨-, -, hmark, -⟩ := isPlain_spec hplain
    rw [if_pos hplain, List.mem_singleton, CodePoint.char.injEq]
    exact fun h => hmark h.symm
  · rw [if_neg hplain]
    simp only [List.mem_cons, CodePoint.char.injEq, List.not_mem_nil, or_false, not_or]
    exact ⟨by decide, fun h => hdigits ⟨b.toNat / 16, by omega⟩ h.symm,
      fun h => hdigits ⟨b.toNat % 16, by omega⟩ h.symm⟩

/-! ## Whole paths -/

theorem unescape?_flatMap (octets : Bytes) :
    unescape? (octets.flatMap escapeOctet) = some octets := by
  induction octets with
  | nil => rfl
  | cons b octets ih =>
    rw [List.flatMap_cons, unescape?_escapeOctet, ih]
    rfl

/-- An absolute path whose text is native has a URI, which has no exclamation mark in it and from
which the text is read back. -/
theorem exists_ofPath {p : Path} (habsolute : p.isAbsolute = true) (hnative : IsNative p.text) :
    ∃ uri, ofPath p = .ok uri ∧ ("file://" : Text).isPrefixOf uri = true ∧ .char '!' ∉ uri ∧
      pathText? uri = some p.text := by
  obtain ⟨octets, hoctets, htext⟩ := hnative
  have hfrom : octetsFrom 0 p.text = .ok octets := by
    have hsome := toOption_octetsFrom 0 p.text
    cases h : octetsFrom 0 p.text with
    | error e =>
      rw [h, hoctets] at hsome
      cases hsome
    | ok octets' =>
      rw [h, hoctets] at hsome
      rw [Option.some.inj hsome]
  have hscheme : ("file://" : Text).isPrefixOf (("file://" : Text) ++ octets.flatMap escapeOctet) =
      true := List.isPrefixOf_iff_prefix.2 (List.prefix_append _ _)
  refine ⟨("file://" : Text) ++ octets.flatMap escapeOctet, ?_, hscheme, ?_, ?_⟩
  · rw [ofPath, if_pos habsolute, escape, hfrom]
    rfl
  · rw [List.mem_append, List.mem_flatMap, not_or]
    exact ⟨by decide, fun ⟨b, _, hb⟩ => mark_not_mem_escapeOctet b hb⟩
  · rw [pathText?, if_pos hscheme, List.drop_left, unescape?_flatMap, Option.map_some, htext]

end Uri
end ResourceFinder
