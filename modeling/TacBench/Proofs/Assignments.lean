import TacBench.Proofs.InputValues
import TacBench.Proofs.StackForms

/-! How an instruction with a target ends. It either gives the one variable a value and touches no
other, or fails and leaves all variables, the data stack and the calls as they were. -/
namespace TacBench.Machine

variable {m x y : Machine} {f : FrameRef} {name : String} {d : Frame} {v : Value} {s : Source}
  {i : Instruction} {e : Fault}

/-- A variable whose frame is there and has its name. -/
def Declared (m : Machine) (f : FrameRef) (name : String) : Prop :=
  ∃ d, frameOf m f.kind = .ok (some d) ∧ d.contains name = true

/-- An instruction succeeds, gives the variable the value and touches no other. -/
def Assigns (i : Instruction) (m : Machine) (f : FrameRef) (name : String) (v : Value) : Prop :=
  ∃ h m', m.position? f.kind = some h ∧ (execute i).run m = .ok () m' ∧ Stores m m' h name v

/-- An instruction fails, and nothing but counts and prices is changed. -/
def Refuses (i : Instruction) (m : Machine) (e : Fault) : Prop :=
  ∃ m', (execute i).run m = .error e m' ∧ Alike m' m

theorem Declared.alike (declared : Declared m f name) (alike : Alike x m) : Declared x f name := by
  obtain ⟨d, found, named⟩ := declared
  exact ⟨d, (alike.frames.frameOf f.kind).trans found, named⟩

theorem Leads.assigns
    (done : Leads (commandWithin m.longest i.opcode i.operands) m (stored m f name v))
    (declared : Declared m f name) : Assigns i m f name v := by
  obtain ⟨d, found, named⟩ := declared
  obtain ⟨h, placed, there, stores⟩ := frames_of_frameOf found
  rw [stored, assignable_of_declared found named] at done
  obtain ⟨m', ran, alike⟩ := execute_leads rfl done
  exact ⟨h, m', placed, ran, stores_of_frames there (alike.frames.frames.trans (stores name v))⟩

theorem Assigns.unique {w : Value} (first : Assigns i m f name v) (second : Assigns i m f name w) :
    v = w := by
  obtain ⟨h, m', placed, ran, stores⟩ := first
  obtain ⟨k, n', placed', ran', stores'⟩ := second
  cases placed.symm.trans placed'
  cases ran.symm.trans ran'
  exact Option.some.inj (stores.stored.symm.trans stores'.stored)

theorem Assigns.not_refuses (assigns : Assigns i m f name v) : ¬ Refuses i m e := by
  obtain ⟨h, m', placed, ran, stores⟩ := assigns
  rintro ⟨n', refused, -⟩
  cases ran.symm.trans refused

/-- Commands that take nothing from the data stack and no input have only paid when they fail. -/
theorem Leads.refuses (failed : Leads (commandWithin m.longest i.opcode i.operands) m (.error e))
    (keeps : i.opcode.takes = false) (other : i.opcode ≠ .read) (quiet : e ≠ .interrupted) :
    Refuses i m e := by
  obtain ⟨m', ran⟩ := execute_leads rfl failed
  refine ⟨m', ran, ?_⟩
  obtain ⟨same, -, -, stack, -, input⟩ := failure_leaves_machine i ran (.inr quiet)
  rw [same, stack keeps, input other]
  rfl

theorem read_found (alike : Alike x y) (found : lookup y s = .ok v) :
    Leads (read s) x (.ok (v, y)) := by
  have reads := read_leads (s := s) alike
  rwa [found] at reads

end TacBench.Machine
