import TacBench.Text.Quoted

/-! Text in bytes. A sequence that is not well formed is reported with the bytes it covers: the
first byte and those continuation bytes that still fit. Halves that stand alone have no bytes and
are reported together with those that follow. -/
namespace TacBench.Utf8

inductive Reason where
  | start
  | continuation
  | unexpectedEnd
  deriving DecidableEq, Repr

structure Fault where
  position : Nat
  /-- How many bytes are covered, at least one. -/
  count : Nat
  first : UInt8
  reason : Reason
  deriving DecidableEq, Repr

def Reason.message : Reason → String
  | .start => "invalid start byte"
  | .continuation => "invalid continuation byte"
  | .unexpectedEnd => "unexpected end of data"

def Fault.message (f : Fault) : String :=
  let reason := f.reason.message
  let position := f.position
  if f.count = 1 then
    let byte := String.ofList (Text.hexPadded 2 f.first.toNat)
    s!"'utf-8' codec can't decode byte 0x{byte} in position {position}: {reason}"
  else
    let last := position + f.count - 1
    s!"'utf-8' codec can't decode bytes in position {position}-{last}: {reason}"

/-- How many continuation bytes a first byte asks for, with the bounds of the first of them. The
bounds shut out overlong forms, surrogates and what lies beyond the last code point. -/
def demand? (b : UInt8) : Option (Nat × Nat × Nat) :=
  let n := b.toNat
  if n < 0xC2 then none
  else if n < 0xE0 then some (1, 0x80, 0xBF)
  else if n < 0xF0 then
    some (2, if n = 0xE0 then 0xA0 else 0x80, if n = 0xED then 0x9F else 0xBF)
  else if n < 0xF5 then
    some (3, if n = 0xF0 then 0x90 else 0x80, if n = 0xF4 then 0x8F else 0xBF)
  else none

/-- Reads continuation bytes onto a value. On failure: how many were read, and why there is no
more. -/
def continued : (count low high value : Nat) → List UInt8 → Except (Nat × Reason) Nat
  | 0, _, _, value, _ => .ok value
  | _ + 1, _, _, _, [] => .error (0, .unexpectedEnd)
  | n + 1, low, high, value, b :: r =>
    if low ≤ b.toNat ∧ b.toNat ≤ high then
      match continued n 0x80 0xBF (value * 64 + b.toNat % 64) r with
      | .ok v => .ok v
      | .error (k, reason) => .error (k + 1, reason)
    else .error (0, .continuation)

/-- The value bits of the first byte of a sequence of `count` more bytes. -/
def leadBits (count : Nat) (b : UInt8) : Nat := b.toNat % Nat.pow 2 (6 - count)

def decodeFrom (position : Nat) (bytes : List UInt8) : Except Fault (List Char) :=
  match bytes with
  | [] => .ok []
  | b :: r =>
    if b.toNat < 0x80 then (decodeFrom (position + 1) r).map (Char.ofNat b.toNat :: ·)
    else
      match demand? b with
      | none => .error ⟨position, 1, b, .start⟩
      | some (n, low, high) =>
        match continued n low high (leadBits n b) r with
        | .ok v => (decodeFrom (position + 1 + n) (r.drop n)).map (Char.ofNat v :: ·)
        | .error (k, reason) => .error ⟨position, k + 1, b, reason⟩
termination_by bytes.length
decreasing_by all_goals (simp only [List.length_cons, List.length_drop]; omega)

def decode (bytes : List UInt8) : Except Fault String := (decodeFrom 0 bytes).map String.ofList

def encode (s : String) : List UInt8 := s.toUTF8.toList

/-- Halves in a row, which have no bytes. -/
structure HalfFault where
  position : Nat
  /-- How many there are, at least one. -/
  count : Nat
  first : CodePoint
  deriving DecidableEq, Repr

def HalfFault.message (f : HalfFault) : String :=
  let position := f.position
  if f.count = 1 then
    let code := String.ofList (Text.codeEscape f.first.toNat)
    s!"'utf-8' codec can't encode character '{code}' in position {position}: surrogates not allowed"
  else
    let last := position + f.count - 1
    s!"'utf-8' codec can't encode characters in position {position}-{last}: surrogates not allowed"

/-- The bytes of a text, unless it has halves. -/
def encodeText (s : Text) : Except HalfFault (List UInt8) :=
  match s.dropWhile (!·.isHalf) with
  | [] => .ok (encode s.shown)
  | h :: r =>
    .error ⟨(s.takeWhile (!·.isHalf)).length, (r.takeWhile CodePoint.isHalf).length + 1, h⟩

/-- The bytes of a code point in the name of a file: a half from U+DC80 to U+DCFF stands for a byte
that belongs to no character, other halves have none. -/
def nameBytes? : CodePoint → Option (List UInt8)
  | .char c => some (encode (String.singleton c))
  | .half h => if 0x480 ≤ h.val ∧ h.val < 0x500 then some [(h.val - 0x400).toUInt8] else none

end TacBench.Utf8
