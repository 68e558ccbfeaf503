import ResourceFinder.Text.DecodeError

/-
UTF-8.  Decoding accepts the shortest forms of the scalar values alone and names the longest run of
octets that still began one.
-/

namespace ResourceFinder
namespace Utf8

/-- What a lead octet announces: how many octets continue it, the bounds of the first of them, which
keep out long forms, surrogates and numbers past the last code point, and the bits that it gives. -/
structure Lead where
  count : Nat
  low : Nat
  high : Nat
  bits : Nat

def lead? (a : Nat) : Option Lead :=
  if a < 0xC2 then none
  else if a < 0xE0 then some ⟨1, 0x80, 0xBF, a - 0xC0⟩
  else if a < 0xF0 then
    some ⟨2, if a = 0xE0 then 0xA0 else 0x80, if a = 0xED then 0x9F else 0xBF, a - 0xE0⟩
  else if a < 0xF5 then
    some ⟨3, if a = 0xF0 then 0x90 else 0x80, if a = 0xF4 then 0x8F else 0xBF, a - 0xF0⟩
  else none

/-- The octets after a lead: enough of them, with the number they make up, or a first octet out of
bounds, or an early end, after how many good ones. -/
inductive Continuation where
  | complete (value : Nat) (rest : Bytes)
  | broken (good : Nat)
  | short (good : Nat)

def continuation : (count low high value good : Nat) → Bytes → Continuation
  | 0, _, _, value, _, rest => .complete value rest
  | _ + 1, _, _, _, good, [] => .short good
  | count + 1, low, high, value, good, b :: rest =>
    if low ≤ b.toNat ∧ b.toNat ≤ high then
      continuation count 0x80 0xBF (value * 64 + (b.toNat - 0x80)) (good + 1) rest
    else .broken good

theorem length_le_of_continuation {count low high value good v : Nat} {octets rest : Bytes}
    (h : continuation count low high value good octets = .complete v rest) :
    rest.length ≤ octets.length := by
  induction count generalizing low high value good octets with
  | zero => simp only [continuation, Continuation.complete.injEq] at h; simp [h.2]
  | succ count ih =>
    cases octets with
    | nil => simp [continuation] at h
    | cons b octets =>
      simp only [continuation] at h
      split at h
      · exact Nat.le_succ_of_le (ih h)
      · simp at h

/-- A surrogate written in three octets, which only a lenient reader accepts. -/
def surrogate? : Bytes → Option (CodePoint × Bytes)
  | a :: b :: c :: rest =>
    if a = 0xED ∧ 0xA0 ≤ b ∧ b ≤ 0xBF ∧ 0x80 ≤ c ∧ c ≤ 0xBF then
      (CodePoint.ofNat? (0xD000 + (b.toNat - 0x80) * 64 + (c.toNat - 0x80))).map (·, rest)
    else none
  | _ => none

theorem length_lt_of_surrogate? {octets rest : Bytes} {c : CodePoint}
    (h : surrogate? octets = some (c, rest)) : rest.length < octets.length := by
  unfold surrogate? at h
  split at h
  · split at h
    · obtain ⟨_, _, h⟩ := Option.map_eq_some_iff.1 h
      simp only [Prod.mk.injEq] at h
      simp only [← h.2, List.length_cons]
      omega
    · simp at h
  · simp at h

def refuse (position : Nat) (octets : Bytes) (reason : DecodeReason) : Except DecodeError Text :=
  .error ⟨"utf-8", position, octets, reason⟩

/-- The text of octets that start at the given position; a lenient reader keeps written
surrogates. -/
def decodeFrom (lenient : Bool) (position : Nat) (octets : Bytes) : Except DecodeError Text :=
  match octets with
  | [] => .ok []
  | a :: rest =>
    if a < 0x80 then
      (decodeFrom lenient (position + 1) rest).map (.char (Char.ofNat a.toNat) :: ·)
    else
      match hs : (if lenient then surrogate? (a :: rest) else none) with
      | some (c, after) => (decodeFrom lenient (position + 3) after).map (c :: ·)
      | none =>
        match lead? a.toNat with
        | none => refuse position [a] .invalidStart
        | some lead =>
          match hc : continuation lead.count lead.low lead.high lead.bits 0 rest with
          | .complete value after =>
            (decodeFrom lenient (position + 1 + lead.count) after).map
              (.char (Char.ofNat value) :: ·)
          | .broken good => refuse position (a :: rest.take good) .invalidContinuation
          | .short good => refuse position (a :: rest.take good) .unexpectedEnd
termination_by octets.length
decreasing_by
  · simp
  · have : surrogate? (a :: rest) = some (c, after) := by
      cases lenient <;> simp_all
    exact length_lt_of_surrogate? this
  · have := length_le_of_continuation hc
    simp only [List.length_cons]
    omega

def decode (octets : Bytes) : Except DecodeError Text := decodeFrom false 0 octets

def encodeChar (c : Char) : Bytes :=
  let n := c.toNat
  let tail (shift : Nat) : UInt8 := UInt8.ofNat (0x80 + n / shift % 64)
  if n < 0x80 then [UInt8.ofNat n]
  else if n < 0x800 then [UInt8.ofNat (0xC0 + n / 64), tail 1]
  else if n < 0x10000 then [UInt8.ofNat (0xE0 + n / 4096), tail 64, tail 1]
  else [UInt8.ofNat (0xF0 + n / 262144), tail 4096, tail 64, tail 1]

def encodeFrom (position : Nat) : Text → Except EncodeError Bytes
  | [] => .ok []
  | .char c :: t => (encodeFrom (position + 1) t).map (encodeChar c ++ ·)
  | .surrogate offset :: t =>
    .error ⟨position, .surrogate offset :: t.takeWhile fun c => c.toChar?.isNone⟩

def encode (t : Text) : Except EncodeError Bytes := encodeFrom 0 t

end Utf8
end ResourceFinder
