/-!
# Running steps that may fail

What a step that changes a state and may fail gives and leaves behind, for each way to build one. A
step that fails keeps the changes made until then.
-/

namespace LayoutEngine.Fallible

variable {ε σ α β : Type} {s s' : σ}

@[simp] theorem pure_run (a : α) (s : σ) : (pure a : ExceptT ε (StateM σ) α) s = (.ok a, s) := rfl

/-- A step and what comes after it, by the result of the step. -/
theorem bind_run (x : ExceptT ε (StateM σ) α) (f : α → ExceptT ε (StateM σ) β) (s : σ) :
    (x >>= f) s = match x s with
      | (.ok a, s') => f a s'
      | (.error e, s') => (.error e, s') := by
  simp only [bind, ExceptT.bind, ExceptT.mk, StateT.bind, ExceptT.bindCont]
  rcases x s with ⟨a | e, s'⟩ <;> rfl

/-- After a step that succeeds the next one runs. -/
theorem bind_run_ok {x : ExceptT ε (StateM σ) α} {f : α → ExceptT ε (StateM σ) β} {a : α}
    (h : x s = (.ok a, s')) : (x >>= f) s = f a s' := by
  rw [bind_run, h]

/-- After a step that fails nothing runs. -/
theorem bind_run_error {x : ExceptT ε (StateM σ) α} {f : α → ExceptT ε (StateM σ) β} {e : ε}
    (h : x s = (.error e, s')) : (x >>= f) s = (.error e, s') := by
  rw [bind_run, h]

/-- Where steps one after the other succeed, each has succeeded. -/
theorem exists_of_bind_run_ok {x : ExceptT ε (StateM σ) α} {f : α → ExceptT ε (StateM σ) β} {b : β}
    (h : (x >>= f) s = (.ok b, s')) : ∃ a s₁, x s = (.ok a, s₁) ∧ f a s₁ = (.ok b, s') := by
  rw [bind_run] at h
  split at h
  · next a s₁ hx => exact ⟨a, s₁, hx, h⟩
  · cases h

/-- A failure is dealt with in the state that it leaves. -/
theorem tryCatch_run (x : ExceptT ε (StateM σ) α) (handle : ε → ExceptT ε (StateM σ) α) (s : σ) :
    (tryCatch x handle : ExceptT ε (StateM σ) α) s = match x s with
      | (.ok a, s') => (.ok a, s')
      | (.error e, s') => handle e s' := by
  simp only [tryCatch, tryCatchThe, MonadExceptOf.tryCatch, ExceptT.tryCatch, ExceptT.mk, bind,
    StateT.bind]
  rcases x s with ⟨a | e, s'⟩ <;> rfl

/-- A failure is told in other words. -/
theorem adapt_run {ε' : Type} (f : ε → ε') (x : ExceptT ε (StateM σ) α) (s : σ) :
    (x.adapt f : ExceptT ε' (StateM σ) α) s = match x s with
      | (.ok a, s') => (.ok a, s')
      | (.error e, s') => (.error (f e), s') := by
  show (do let r ← x.run; pure (r.mapError f) : StateM σ (Except ε' α)) s = _
  simp only [ExceptT.run, bind, StateT.bind]
  rcases x s with ⟨a | e, s'⟩ <;> rfl

/-! ## Runs that are worked out -/

/-- A step succeeds, and what it gives and leaves behind passes a test. -/
def gives (x : ExceptT ε (StateM σ) α) (s : σ) (test : α → σ → Bool) : Bool :=
  match x s with
  | (.ok a, s') => test a s'
  | (.error _, _) => false

/-- A step fails, and its failure and what it leaves behind pass a test. -/
def failsWith (x : ExceptT ε (StateM σ) α) (s : σ) (test : ε → σ → Bool) : Bool :=
  match x s with
  | (.ok _, _) => false
  | (.error e, s') => test e s'

/-- A test of what a run gives tells of the result and the state. -/
theorem exists_of_gives {x : ExceptT ε (StateM σ) α} {test : α → σ → Bool}
    (h : gives x s test = true) : ∃ a s', x s = (.ok a, s') ∧ test a s' = true := by
  rw [gives] at h
  split at h
  · next a s' hx => exact ⟨a, s', hx, h⟩
  · cases h

/-- A test of how a run fails tells of the failure and the state. -/
theorem exists_of_failsWith {x : ExceptT ε (StateM σ) α} {test : ε → σ → Bool}
    (h : failsWith x s test = true) : ∃ e s', x s = (.error e, s') ∧ test e s' = true := by
  rw [failsWith] at h
  split at h
  · cases h
  · next e s' hx => exact ⟨e, s', hx, h⟩

end LayoutEngine.Fallible
