/-! Where a computation with a state and faults leads: what is true of the state and the result if
it succeeds, and of the state and the fault if it does not. -/
namespace TacBench

variable {ε σ α β : Type}

/-- From the state the computation either fails as the one condition says or is done as the other
says. -/
inductive Leads (x : EStateM ε σ α) (s : σ) (failed : ε → σ → Prop) (done : α → σ → Prop) :
    Prop where
  | of_ok {a : α} {s' : σ} (ran : x.run s = .ok a s') (holds : done a s') : Leads x s failed done
  | of_error {e : ε} {s' : σ} (ran : x.run s = .error e s') (holds : failed e s') :
      Leads x s failed done

/-! A fault that is caught is handled in the state in which it came up. -/

section Caught

variable {x : EStateM ε σ α} {handle : ε → EStateM ε σ α} {s s' : σ} {a : α}

theorem run_tryCatch_ok (ran : x.run s = .ok a s') : (tryCatch x handle).run s = .ok a s' := by
  change EStateM.tryCatch x handle s = .ok a s'
  change x s = .ok a s' at ran
  delta EStateM.tryCatch
  dsimp only
  rw [ran]

theorem run_tryCatch_error {e : ε} (ran : x.run s = .error e s') :
    (tryCatch x handle).run s = (handle e).run s' := by
  change EStateM.tryCatch x handle s = handle e s'
  change x s = .error e s' at ran
  delta EStateM.tryCatch
  dsimp only
  rw [ran]
  rfl

theorem ran_tryCatch (ran : (tryCatch x handle).run s = .ok a s') :
    x.run s = .ok a s' ∨ ∃ e between, x.run s = .error e between ∧
    (handle e).run between = .ok a s' := by
  cases first : x.run s with
  | ok b u =>
    rw [run_tryCatch_ok first] at ran
    exact .inl ran
  | error e u =>
    rw [run_tryCatch_error first] at ran
    exact .inr ⟨e, u, rfl, ran⟩

end Caught

namespace Leads

variable {x : EStateM ε σ α} {f : α → EStateM ε σ β} {s s' : σ} {failed failed' : ε → σ → Prop}
  {done done' : α → σ → Prop}

theorem ok {a : α} (leads : Leads x s failed done) (ran : x.run s = .ok a s') : done a s' := by
  cases leads with
  | of_ok ran' holds =>
    cases ran.symm.trans ran'
    exact holds
  | of_error ran' => cases ran.symm.trans ran'

theorem error {e : ε} (leads : Leads x s failed done) (ran : x.run s = .error e s') :
    failed e s' := by
  cases leads with
  | of_ok ran' => cases ran.symm.trans ran'
  | of_error ran' holds =>
    cases ran.symm.trans ran'
    exact holds

theorem imp (leads : Leads x s failed done) (failing : ∀ e s', failed e s' → failed' e s')
    (going : ∀ a s', done a s' → done' a s') : Leads x s failed' done' := by
  cases leads with
  | of_ok ran holds => exact .of_ok ran (going _ _ holds)
  | of_error ran holds => exact .of_error ran (failing _ _ holds)

/-- The runs themselves may be kept among what is known of their ends. -/
theorem kept (leads : Leads x s failed done) :
    Leads x s (fun e s' => x.run s = .error e s' ∧ failed e s') (fun a s' => x.run s = .ok a s' ∧
      done a s') := by
  cases leads with
  | of_ok ran holds => exact .of_ok ran ⟨ran, holds⟩
  | of_error ran holds => exact .of_error ran ⟨ran, holds⟩

/-- A computation that cannot fail as it would have to is done. -/
theorem succeeds (leads : Leads x s failed done) (never : ∀ e s', ¬ failed e s') :
    ∃ a s', x.run s = .ok a s' ∧ done a s' := by
  cases leads with
  | of_ok ran holds => exact ⟨_, _, ran, holds⟩
  | of_error _ holds => exact absurd holds (never _ _)

theorem bind {done : β → σ → Prop}
    (first : Leads x s failed fun a s' => Leads (f a) s' failed done) :
    Leads (x >>= f) s failed done := by
  cases first with
  | @of_ok a s' ran rest =>
    have whole : (x >>= f).run s = (f a).run s' := by rw [EStateM.run_bind, ran]
    cases rest with
    | of_ok ran' holds => exact .of_ok (whole.trans ran') holds
    | of_error ran' holds => exact .of_error (whole.trans ran') holds
  | of_error ran holds => exact .of_error (by rw [EStateM.run_bind, ran]) holds

/-- A computation that looks at the state goes on with what it sees. -/
theorem look {f : σ → EStateM ε σ β} {done : β → σ → Prop} (next : Leads (f s) s failed done) :
    Leads (get >>= f) s failed done :=
  bind (of_ok (EStateM.run_get s) next)

/-- A computation that changes the state goes on with the changed one. -/
theorem change {g : σ → σ} {f : Unit → EStateM ε σ β} {done : β → σ → Prop}
    (next : Leads (f ()) (g s) failed done) : Leads (modify g >>= f) s failed done :=
  bind (of_ok (EStateM.run_modify g s) next)

theorem tryCatch {handle : ε → EStateM ε σ α}
    (first : Leads x s (fun e s' => Leads (handle e) s' failed done) done) :
    Leads (MonadExcept.tryCatch x handle) s failed done := by
  cases first with
  | of_ok ran holds => exact .of_ok (run_tryCatch_ok ran) holds
  | of_error ran rest =>
    cases rest with
    | of_ok ran' holds => exact .of_ok ((run_tryCatch_error ran).trans ran') holds
    | of_error ran' holds => exact .of_error ((run_tryCatch_error ran).trans ran') holds

/-- What each element carries on behind those before it, the elements in order carry on to the
last. -/
theorem forM_parts {step : α → EStateM ε σ Unit} {I : List α → σ → Prop} {xs : List α}
    (each : ∀ before x after, xs = before ++ x :: after → ∀ s, I before s →
      Leads (step x) s failed fun _ s' => I (before ++ [x]) s')
    (initial : I [] s) : Leads (xs.forM step) s failed fun _ s' => I xs s' := by
  have rest (before after : List α) (whole : xs = before ++ after) (s : σ) (reached : I before s) :
      Leads (after.forM step) s failed fun _ s' => I xs s' := by
    induction after generalizing before s with
    | nil => exact of_ok rfl (by rwa [whole, List.append_nil])
    | cons x after ih =>
      refine bind (f := fun _ => after.forM step)
        ((each before x after whole s reached).imp (fun _ _ stop => stop) ?_)
      exact fun _ s' next => ih (before ++ [x]) (by simp [whole]) s' next
  exact rest [] xs rfl s initial

/-- What each element carries on, the elements in order carry on from the first to the last. -/
theorem forM {step : α → EStateM ε σ Unit} {I : List α → σ → Prop} {xs : List α}
    (each : ∀ x ∈ xs, ∀ before s, I before s → Leads (step x) s failed fun _ s' =>
      I (before ++ [x]) s')
    (before : List α) (initial : I before s) :
    Leads (xs.forM step) s failed fun _ s' => I (before ++ xs) s' := by
  refine forM_parts (I := fun part => I (before ++ part)) (fun part x after whole s reached => ?_)
    (by simpa using initial)
  rw [← List.append_assoc]
  exact each x (by simp [whole]) (before ++ part) s reached

end Leads
end TacBench
