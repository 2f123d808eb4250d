import Mathlib.Tactic.Common

namespace FirstFailure

variable {α ε : Type*}

/-- Actions performed in order; the `n`-th one fails with `f n x`, and the first failure ends the
run. Each performed action is listed with its failure, if any. -/
def performed (f : ℕ → α → Option ε) : ℕ → List α → List (α × Option ε)
  | _, [] => []
  | n, x :: xs =>
    match f n x with
    | some e => [(x, some e)]
    | none => (x, none) :: performed f (n + 1) xs

def failure (as : List (α × Option ε)) : Option ε := as.findSome? Prod.snd

def succeeded (as : List (α × Option ε)) : List α := (as.filter fun a => a.2.isNone).map Prod.fst

@[simp] theorem failure_nil : failure ([] : List (α × Option ε)) = none := rfl

theorem failure_append (as bs : List (α × Option ε)) :
    failure (as ++ bs) = (failure as).or (failure bs) := List.findSome?_append

theorem succeeded_append (as bs : List (α × Option ε)) :
    succeeded (as ++ bs) = succeeded as ++ succeeded bs := by
  simp [succeeded]

@[simp] theorem failure_all (xs : List α) :
    failure (xs.map fun x => (x, (none : Option ε))) = none := by
  simp [failure]

@[simp] theorem succeeded_all (xs : List α) :
    succeeded (xs.map fun x => (x, (none : Option ε))) = xs := by
  induction xs with
  | nil => rfl
  | cons x xs ih => simpa [succeeded] using ih

/-- A run performs everything, or stops right after the action that fails. -/
theorem performed_cases (f : ℕ → α → Option ε) (n : ℕ) (xs : List α) :
    performed f n xs = xs.map (fun x => (x, none)) ∨
      ∃ pre x post e, xs = pre ++ x :: post ∧ f (n + pre.length) x = some e ∧
        performed f n xs = pre.map (fun x => (x, none)) ++ [(x, some e)] := by
  induction xs generalizing n with
  | nil => exact .inl rfl
  | cons x xs ih =>
    rw [performed]
    cases hx : f n x with
    | some e => exact .inr ⟨[], x, xs, e, rfl, hx, rfl⟩
    | none =>
      rcases ih (n + 1) with hall | ⟨pre, y, post, e, hxs, hy, hrun⟩
      · left
        simp [hall]
      · right
        refine ⟨x :: pre, y, post, e, by rw [hxs]; rfl, ?_, by simp [hrun]⟩
        rw [List.length_cons, Nat.add_comm pre.length 1, ← Nat.add_assoc]
        exact hy

/-- Two lists in sequence: the second is reached only without a failure in the first. -/
theorem performed_append (f : ℕ → α → Option ε) (n : ℕ) (xs ys : List α) :
    performed f n (xs ++ ys) =
      match failure (performed f n xs) with
      | some _ => performed f n xs
      | none => performed f n xs ++ performed f (n + xs.length) ys := by
  induction xs generalizing n with
  | nil => rfl
  | cons x xs ih =>
    rw [List.cons_append, performed, performed]
    cases hx : f n x with
    | some e => rfl
    | none =>
      have hcount : n + 1 + xs.length = n + (x :: xs).length := by
        rw [List.length_cons]
        omega
      have hfail : failure ((x, none) :: performed f (n + 1) xs) = failure (performed f (n + 1) xs) :=
        rfl
      simp only [hfail, ih, hcount]
      split <;> rfl

theorem performed_mem {f : ℕ → α → Option ε} {n : ℕ} {xs : List α} {a : α × Option ε}
    (h : a ∈ performed f n xs) : a.1 ∈ xs := by
  induction xs generalizing n with
  | nil => cases h
  | cons x xs ih =>
    rw [performed] at h
    split at h
    · rw [List.mem_singleton.mp h]
      exact List.mem_cons_self
    · rcases List.mem_cons.mp h with rfl | h
      · exact List.mem_cons_self
      · exact List.mem_cons_of_mem _ (ih h)

theorem performed_map {β : Type*} (g : α → β) (f : ℕ → β → Option ε) (n : ℕ) (xs : List α) :
    performed f n (xs.map g) =
      (performed (fun n x => f n (g x)) n xs).map fun a => (g a.1, a.2) := by
  induction xs generalizing n with
  | nil => rfl
  | cons x xs ih =>
    rw [List.map_cons, performed, performed, ih]
    cases f n (g x) <;> rfl

theorem failure_map {β : Type*} (g : α → β) (as : List (α × Option ε)) :
    failure (as.map fun a => (g a.1, a.2)) = failure as := by
  induction as with
  | nil => rfl
  | cons a as ih =>
    simp only [failure, List.map_cons, List.findSome?_cons] at ih ⊢
    rw [ih]

theorem succeeded_of_no_failure {f : ℕ → α → Option ε} {n : ℕ} {xs : List α}
    (h : failure (performed f n xs) = none) :
    performed f n xs = xs.map fun x => (x, none) := by
  rcases performed_cases f n xs with hall | ⟨pre, x, post, e, -, -, hrun⟩
  · exact hall
  · rw [hrun, failure_append, failure_all] at h
    cases h

/-- Without a failing action everything is performed. -/
theorem performed_all {f : ℕ → α → Option ε} (h : ∀ n x, f n x = none) (n : ℕ) (xs : List α) :
    performed f n xs = xs.map fun x => (x, none) := by
  rcases performed_cases f n xs with hall | ⟨pre, x, post, e, -, hfail, -⟩
  · exact hall
  · rw [h] at hfail
    cases hfail

/-- A run that fails has performed a proper prefix. -/
theorem succeeded_of_failure {f : ℕ → α → Option ε} {n : ℕ} {xs : List α} {e : ε}
    (h : failure (performed f n xs) = some e) :
    succeeded (performed f n xs) <+: xs ∧ succeeded (performed f n xs) ≠ xs := by
  rcases performed_cases f n xs with hall | ⟨pre, x, post, e', hxs, -, hrun⟩
  · rw [hall, failure_all] at h
    cases h
  · have hdone : succeeded (performed f n xs) = pre := by
      rw [hrun, succeeded_append, succeeded_all]
      exact List.append_nil pre
    rw [hdone, hxs]
    exact ⟨List.prefix_append _ _, fun heq => by simpa using congrArg List.length heq⟩

/-- When failing depends on the action alone, the actions before the first failing one succeed. -/
theorem succeeded_takeWhile (g : α → Option ε) (n : ℕ) (xs : List α) :
    succeeded (performed (fun _ => g) n xs) = xs.takeWhile fun x => (g x).isNone := by
  induction xs generalizing n with
  | nil => rfl
  | cons x xs ih =>
    rw [performed]
    cases hx : g x with
    | some e => simp [hx, succeeded]
    | none =>
      have hcons : succeeded ((x, none) :: performed (fun _ => g) (n + 1) xs) =
          x :: succeeded (performed (fun _ => g) (n + 1) xs) := rfl
      simp only [hcons, ih, List.takeWhile_cons, hx, Option.isNone_none, if_true]

/-- The failure that ends such a run is that of the first failing action. -/
theorem failure_findSome (g : α → Option ε) (n : ℕ) (xs : List α) :
    failure (performed (fun _ => g) n xs) = xs.findSome? g := by
  induction xs generalizing n with
  | nil => rfl
  | cons x xs ih =>
    rw [performed, List.findSome?_cons]
    cases hx : g x with
    | some e => rfl
    | none => exact ih (n + 1)

end FirstFailure
