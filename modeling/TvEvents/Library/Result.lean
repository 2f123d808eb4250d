import Mathlib.Tactic.Common

universe u v

variable {ε : Type v} {α β : Type u}

/-- A sequence succeeds exactly when both parts do. -/
theorem Except.bind_eq_ok {x : Except ε α} {f : α → Except ε β} {b : β} :
    (x >>= f) = .ok b ↔ ∃ a, x = .ok a ∧ f a = .ok b := by
  cases x with
  | error e => simp [bind, Except.bind]
  | ok a => simp [bind, Except.bind]

@[simp] theorem Except.ok_bind (a : α) (f : α → Except ε β) : (Except.ok a >>= f) = f a := rfl

@[simp] theorem Except.error_bind (e : ε) (f : α → Except ε β) :
    (Except.error e >>= f) = .error e := rfl

@[simp] theorem Except.pure_eq_ok (a : α) : (pure a : Except ε α) = .ok a := rfl

@[simp] theorem Except.throw_eq_error (e : ε) : (throw e : Except ε α) = .error e := rfl

/-- Every error of `x` meets `P`. -/
def Except.FailsOnly (P : ε → Prop) (x : Except ε α) : Prop := ∀ e, x = .error e → P e

theorem Except.failsOnly_ok {P : ε → Prop} (a : α) : (Except.ok a : Except ε α).FailsOnly P := by
  intro e h
  cases h

theorem Except.failsOnly_error {P : ε → Prop} {e : ε} :
    (Except.error e : Except ε α).FailsOnly P ↔ P e := by
  constructor
  · intro h
    exact h e rfl
  · intro h e' he
    rwa [← Except.error.inj he]

/-- A sequence fails only so when its first part does, and its rest does wherever it is reached. -/
theorem Except.failsOnly_bind {P : ε → Prop} {x : Except ε α} {f : α → Except ε β} :
    (x >>= f).FailsOnly P ↔ x.FailsOnly P ∧ ∀ a, x = .ok a → (f a).FailsOnly P := by
  cases x with
  | error e =>
    rw [Except.error_bind, Except.failsOnly_error, Except.failsOnly_error]
    constructor
    · intro h
      exact ⟨h, fun a ha => by cases ha⟩
    · intro h
      exact h.1
  | ok a =>
    rw [Except.ok_bind]
    constructor
    · intro h
      refine ⟨Except.failsOnly_ok a, ?_⟩
      intro b hb
      rwa [← Except.ok.inj hb]
    · intro h
      exact h.2 a rfl

/-- An answer that is put in place of the last result adds no failure. -/
theorem Except.failsOnly_answer {P : ε → Prop} {x : Except ε α} {b : β} :
    (x >>= fun _ => pure b).FailsOnly P ↔ x.FailsOnly P := by
  rw [Except.failsOnly_bind]
  constructor
  · intro h
    exact h.1
  · intro h
    exact ⟨h, fun _ _ => Except.failsOnly_ok b⟩
