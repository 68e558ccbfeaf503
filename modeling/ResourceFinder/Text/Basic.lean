/-
Texts as sequences of code points.

Decoded escapes can leave an unpaired surrogate behind, which is no `Char`, so the unit of a text is
a code point: a scalar value or a surrogate.  Every grammar of this library is written in scalar
values alone, and a surrogate is always an ordinary member of a text.
-/

namespace ResourceFinder

/-- A Unicode code point: a scalar value, or the surrogate `0xD800 + offset`. -/
inductive CodePoint where
  | char (c : Char)
  | surrogate (offset : Fin 0x800)
  deriving DecidableEq, Inhabited

namespace CodePoint

def code : CodePoint → Nat
  | char c => c.toNat
  | surrogate offset => 0xD800 + offset.val

def ofNat? (n : Nat) : Option CodePoint :=
  if h : n.isValidChar then some (char (Char.ofNatAux n h))
  else if h : 0xD800 ≤ n ∧ n < 0xE000 then some (surrogate ⟨n - 0xD800, by omega⟩)
  else none

def toChar? : CodePoint → Option Char
  | char c => some c
  | surrogate _ => none

def isOneOf (c : CodePoint) (chars : List Char) : Bool :=
  match c with
  | char c => chars.contains c
  | surrogate _ => false

def hexValue? : CodePoint → Option Nat
  | surrogate _ => none
  | char c =>
    if '0' ≤ c ∧ c ≤ '9' then some (c.toNat - '0'.toNat)
    else if 'a' ≤ c ∧ c ≤ 'f' then some (c.toNat - 'a'.toNat + 10)
    else if 'A' ≤ c ∧ c ≤ 'F' then some (c.toNat - 'A'.toNat + 10)
    else none

def isDigit : CodePoint → Bool
  | char c => c.isDigit
  | surrogate _ => false

def isLetter : CodePoint → Bool
  | char c => c.isAlpha
  | surrogate _ => false

/-- No scalar value has the number of a surrogate, so a code point is known by its number. -/
theorem code_inj {a b : CodePoint} (h : a.code = b.code) : a = b := by
  cases a with
  | char c =>
    cases b with
    | char d => exact congrArg char (Char.toNat_inj.1 h)
    | surrogate j =>
      have hc : c.toNat = 0xD800 + j.val := h
      have hv : c.toNat < 0xD800 ∨ 0xDFFF < c.toNat ∧ c.toNat < 0x110000 := c.valid
      omega
  | surrogate i =>
    cases b with
    | char d =>
      have hd : 0xD800 + i.val = d.toNat := h
      have hv : d.toNat < 0xD800 ∨ 0xDFFF < d.toNat ∧ d.toNat < 0x110000 := d.valid
      omega
    | surrogate j =>
      have hij : 0xD800 + i.val = 0xD800 + j.val := h
      exact congrArg surrogate (Fin.ext (by omega))

theorem code_eq_iff (a b : CodePoint) : a.code = b.code ↔ a = b := ⟨code_inj, congrArg code⟩

end CodePoint

/-- A text is a list of code points; its positions count them. -/
abbrev Text := List CodePoint

abbrev Bytes := List UInt8

namespace Text

def ofString (s : String) : Text := s.toList.map .char

instance : Coe String Text := ⟨ofString⟩

def toString? (t : Text) : Option String :=
  (t.mapM CodePoint.toChar?).map String.ofList

def ofNat (n : Nat) : Text := (Nat.toDigits 10 n).map .char

def ofInt : Int → Text
  | .ofNat n => ofNat n
  | .negSucc n => .char '-' :: ofNat (n + 1)

/-- The order of texts by code points, a proper prefix first. -/
def le : Text → Text → Bool
  | [], _ => true
  | _ :: _, [] => false
  | a :: s, b :: t => a.code < b.code || (a.code = b.code && le s t)

def occursIn (part : Text) : Text → Bool
  | [] => part.isEmpty
  | c :: t => part.isPrefixOf (c :: t) || occursIn part t

/-- The pieces of a text between the occurrences of a scalar value, one more than these. -/
def splitAt (separator : Char) : Text → List Text
  | [] => [[]]
  | c :: t =>
    if c = .char separator then [] :: splitAt separator t
    else match splitAt separator t with
      | [] => [[c]]
      | piece :: pieces => (c :: piece) :: pieces

def join (separator : Text) : List Text → Text
  | [] => []
  | [piece] => piece
  | piece :: pieces => piece ++ separator ++ join separator pieces

def dropEndWhile (p : CodePoint → Bool) (t : Text) : Text :=
  (t.reverse.dropWhile p).reverse

def replaceChar (old new : Char) (t : Text) : Text :=
  t.map fun c => if c = .char old then .char new else c

/-- A numeral set to the right, with zeros up to the width. -/
def padZeros (width : Nat) (t : Text) : Text :=
  List.replicate (width - t.length) (.char '0') ++ t

theorem splitAt_ne_nil (separator : Char) (t : Text) : splitAt separator t ≠ [] := by
  cases t with
  | nil => simp [splitAt]
  | cons c t =>
    simp only [splitAt]
    split
    · simp
    · split <;> simp

end Text
end ResourceFinder
