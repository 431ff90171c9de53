import TacBench.Text
import TacBench.Text.Digit

/-! Bytes as text, one character for each byte, with escapes for other characters: `\uXXXX` and
`\UXXXXXXXX`. A backslash before any other character stands for itself together with it. Two halves
of a surrogate pair stay two. -/
namespace TacBench.RawEscape

inductive Reason where
  | shortEscape
  | longEscape
  | range
  deriving DecidableEq, Repr

structure Fault where
  first : Nat
  last : Nat
  reason : Reason
  deriving DecidableEq, Repr

def Reason.message : Reason → String
  | .shortEscape => "truncated \\uXXXX escape"
  | .longEscape => "truncated \\UXXXXXXXX escape"
  | .range => "\\Uxxxxxxxx out of range"

def Fault.message (f : Fault) : String :=
  let first := f.first
  let last := f.last
  let reason := f.reason.message
  s!"'rawunicodeescape' codec can't decode bytes in position {first}-{last}: {reason}"

/-- Up to `count` hexadecimal digits at the beginning. -/
def hexRun (count : Nat) (s : List Char) : List Nat :=
  ((s.take count).map Text.hexValue?).takeWhile (·.isSome) |>.filterMap id

/-- Reads the characters from a position on. -/
def decodeFrom (position : Nat) (s : List Char) : Except Fault Text :=
  match s with
  | [] => .ok []
  | '\\' :: c :: r =>
    if c = 'u' ∨ c = 'U' then
      let count := if c = 'u' then 4 else 8
      let digits := hexRun count r
      if digits.length < count then
        .error ⟨position, position + 1 + digits.length, if c = 'u' then .shortEscape
          else .longEscape⟩
      else match CodePoint.ofNat? (Text.numeral 16 digits) with
        | none => .error ⟨position, position + 1 + count, .range⟩
        | some p => (decodeFrom (position + 2 + count) (r.drop count)).map (p :: ·)
    else (decodeFrom (position + 2) r).map (.char '\\' :: .char c :: ·)
  | c :: r => (decodeFrom (position + 1) r).map (.char c :: ·)
termination_by s.length
decreasing_by all_goals (simp only [List.length_cons, List.length_drop]; omega)

def decode (bytes : List UInt8) : Except Fault Text :=
  decodeFrom 0 (bytes.map fun b => Char.ofNat b.toNat)

end TacBench.RawEscape
