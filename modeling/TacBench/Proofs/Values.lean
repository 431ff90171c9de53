import TacBench.Machine.Command

/-! The missing value stands for a variable without a value. No operation of the language gives
it. -/
namespace TacBench

namespace Value

variable {l r : Value} {symbol : String} {longest : Nat}

theorem arithmetic_ne_none {onInt : Int → Int → Except Fault Value}
    {onFloat : Binary64 → Binary64 → Except Fault Value} (ints : ∀ a b, onInt a b ≠ .ok .none)
    (floats : ∀ x y, onFloat x y ≠ .ok .none) :
    arithmetic symbol l r onInt onFloat ≠ .ok .none := by
  unfold arithmetic
  cases pair l r with
  | error f => exact nofun
  | ok p =>
    match p with
    | some (.integers a b) => exact ints a b
    | some (.floats x y) => exact floats x y
    | Option.none => exact nofun

theorem add_ne_none : add l r ≠ .ok .none := by
  unfold add
  split
  · exact nofun
  · exact nofun
  · exact arithmetic_ne_none (fun _ _ => nofun) (fun _ _ => nofun)

theorem repeatedBy_ne_none (s : Text) (count : Value) : repeatedBy longest s count ≠ .ok .none := by
  unfold repeatedBy
  split
  · unfold repeated
    repeat' split
    all_goals exact nofun
  · exact nofun

theorem mul_ne_none : mul longest l r ≠ .ok .none := by
  unfold mul
  split
  · exact repeatedBy_ne_none _ _
  · exact repeatedBy_ne_none _ _
  · exact arithmetic_ne_none (fun _ _ => nofun) (fun _ _ => nofun)

theorem div_ne_none : div l r ≠ .ok .none := by
  refine arithmetic_ne_none (fun a b => ?_) (fun x y => ?_)
  · unfold quotient
    repeat' split
    all_goals exact nofun
  · split <;> exact nofun

theorem less_ne_none {swapped : Bool} : less symbol l r swapped ≠ .ok .none := by
  unfold less
  repeat' split
  all_goals exact nofun

theorem bitwise_ne_none {onBool : Bool → Bool → Bool} {onInt : Int → Int → Int} :
    bitwise symbol onBool onInt l r ≠ .ok .none := by
  unfold bitwise
  repeat' split
  all_goals exact nofun

theorem concat_ne_none : concat l r ≠ .ok .none := by
  unfold concat
  split <;> exact nofun

theorem map_ne_none {α : Type} {e : Except Fault α} {f : α → Value} (some : ∀ a, f a ≠ .none) :
    e.map f ≠ .ok .none := by
  cases e with
  | error fault => exact nofun
  | ok a => exact fun same => some a (Except.ok.inj same)

theorem bind_ne_none {α : Type} {e : Except Fault α} {f : α → Except Fault Value}
    (some : ∀ a, f a ≠ .ok .none) : e >>= f ≠ .ok .none := by
  cases e with
  | error fault => exact nofun
  | ok a => exact some a

theorem wholeBy_ne_none (f : Int → Int) (x : Binary64) : wholeBy f x ≠ .ok .none := by
  cases x <;> exact nofun

theorem toFloatValue_ne_none : toFloatValue l ≠ .ok .none := by
  unfold toFloatValue
  split
  · exact nofun
  · split <;> exact nofun
  · split
    · exact map_ne_none fun _ => nofun
    · exact nofun

theorem toIntValue_ne_none : toIntValue l ≠ .ok .none := by
  unfold toIntValue
  split
  · exact wholeBy_ne_none _ _
  · split <;> exact nofun
  · split <;> exact nofun

theorem roundEven_ne_none : roundEven l ≠ .ok .none := by
  unfold roundEven
  split
  · exact wholeBy_ne_none _ _
  · split <;> exact nofun

theorem roundOdd_ne_none : roundOdd longest l ≠ .ok .none := by
  unfold roundOdd
  split
  · exact bind_ne_none fun _ => bind_ne_none fun way => wholeBy_ne_none way _
  · exact nofun
  · split
    · exact bind_ne_none fun _ => bind_ne_none fun _ => bind_ne_none fun _ => nofun
    · exact nofun

theorem toCharValue_ne_none : toCharValue l ≠ .ok .none := by
  unfold toCharValue
  repeat' split
  all_goals exact nofun

theorem length_ne_none : length l ≠ .ok .none := by
  unfold length
  split <;> exact nofun

end Value

theorem Binary.apply_ne_none (op : Binary) (longest : Nat) (l r : Value) :
    op.apply longest l r ≠ .ok .none := by
  cases op with
  | add => exact Value.add_ne_none
  | sub => exact Value.arithmetic_ne_none (fun _ _ => nofun) (fun _ _ => nofun)
  | mul => exact Value.mul_ne_none
  | div => exact Value.div_ne_none
  | lt => exact Value.less_ne_none
  | gt => exact Value.less_ne_none
  | eq => exact nofun
  | and => exact Value.bitwise_ne_none
  | or => exact Value.bitwise_ne_none
  | codeAt => exact Value.map_ne_none fun _ => nofun

theorem Unary.apply_ne_none (op : Unary) (longest : Nat) (v : Value) :
    op.apply longest v ≠ .ok .none := by
  cases op with
  | not => exact nofun
  | toFloat => exact Value.toFloatValue_ne_none
  | toInt => exact Value.toIntValue_ne_none
  | roundEven => exact Value.roundEven_ne_none
  | roundOdd => exact Value.roundOdd_ne_none
  | toChar => exact Value.toCharValue_ne_none

end TacBench
