import Mathlib.Tactic.Ring
import TvEvents.Library.Runs

/-- Tasks that take turns on one shared state. -/
structure Coroutines (σ τ : Type*) where
  shared : σ
  tasks : List τ

namespace Coroutines

variable {σ τ ω : Type*}

/-- The named task runs up to where it waits next; a number without a task does nothing. -/
def step (segment : ω → σ → τ → σ × τ) (c : Coroutines σ τ) (turn : ℕ × ω) : Coroutines σ τ :=
  match c.tasks[turn.1]? with
  | none => c
  | some t => ⟨(segment turn.2 c.shared t).1, c.tasks.set turn.1 (segment turn.2 c.shared t).2⟩

def Meets (ok : ω → σ → τ → Prop) (c : Coroutines σ τ) (turn : ℕ × ω) : Prop :=
  ∀ t, c.tasks[turn.1]? = some t → ok turn.2 c.shared t

def moves (p : τ → Bool) (c : Coroutines σ τ) (turn : ℕ × ω) : Bool := (c.tasks[turn.1]?).any p

def emitted {α : Type*} (emits : ω → σ → τ → List α) (c : Coroutines σ τ) (turn : ℕ × ω) : List α :=
  match c.tasks[turn.1]? with
  | none => []
  | some t => emits turn.2 c.shared t

variable {segment : ω → σ → τ → σ × τ}

theorem step_idle {c : Coroutines σ τ} {turn : ℕ × ω} (h : c.tasks[turn.1]? = none) :
    c.step segment turn = c := by
  rw [step, h]

theorem step_active {c : Coroutines σ τ} {turn : ℕ × ω} {t : τ} (h : c.tasks[turn.1]? = some t) :
    c.step segment turn =
      ⟨(segment turn.2 c.shared t).1, c.tasks.set turn.1 (segment turn.2 c.shared t).2⟩ := by
  rw [step, h]

theorem moves_active {p : τ → Bool} {c : Coroutines σ τ} {turn : ℕ × ω}
    (h : moves p c turn = true) : ∃ t, c.tasks[turn.1]? = some t ∧ p t = true := by
  unfold moves at h
  cases ht : c.tasks[turn.1]? with
  | none =>
    rw [ht] at h
    cases h
  | some t =>
    rw [ht] at h
    exact ⟨t, rfl, h⟩

theorem step_length (c : Coroutines σ τ) (turn : ℕ × ω) :
    (c.step segment turn).tasks.length = c.tasks.length := by
  cases h : c.tasks[turn.1]? with
  | none => rw [step_idle h]
  | some t => rw [step_active h, List.length_set]

theorem run_length (c : Coroutines σ τ) (turns : List (ℕ × ω)) :
    (Runs.run (step segment) c turns).tasks.length = c.tasks.length := by
  induction turns generalizing c with
  | nil => rfl
  | cons turn turns ih => rw [Runs.run_cons, ih, step_length]

/-- What no segment changes of its task stays with the tasks. -/
theorem step_map {β : Type*} {f : τ → β} (h : ∀ w s t, f (segment w s t).2 = f t)
    (c : Coroutines σ τ) (turn : ℕ × ω) : (c.step segment turn).tasks.map f = c.tasks.map f := by
  cases ht : c.tasks[turn.1]? with
  | none => rw [step_idle ht]
  | some t =>
    obtain ⟨hlt, hget⟩ := List.getElem?_eq_some_iff.mp ht
    have hlt' : turn.1 < (c.tasks.map f).length := by rwa [List.length_map]
    have hmapped : (c.tasks.map f)[turn.1] = f t := by rw [List.getElem_map, hget]
    rw [step_active ht, List.map_set, h, ← hmapped]
    exact List.set_getElem_self hlt'

section Kept

variable {ok : ω → Prop} {S : σ → Prop} {T : τ → Prop}

/-- What every segment keeps of the shared state and of its own task, a turn keeps of all. -/
theorem kept_step (h : ∀ w s t, ok w → S s → T t → S (segment w s t).1 ∧ T (segment w s t).2)
    {c : Coroutines σ τ} (hc : S c.shared ∧ ∀ t ∈ c.tasks, T t) {turn : ℕ × ω} (hok : ok turn.2) :
    S (c.step segment turn).shared ∧ ∀ t ∈ (c.step segment turn).tasks, T t := by
  obtain ⟨hshared, htasks⟩ := hc
  cases ht : c.tasks[turn.1]? with
  | none =>
    rw [step_idle ht]
    exact ⟨hshared, htasks⟩
  | some t =>
    obtain ⟨hshared', htask⟩ := h turn.2 c.shared t hok hshared (htasks t (List.mem_of_getElem? ht))
    rw [step_active ht]
    refine ⟨hshared', ?_⟩
    intro u hu
    rcases List.mem_or_eq_of_mem_set hu with hu | rfl
    · exact htasks u hu
    · exact htask

/-- What every segment keeps of its own task, a turn keeps of all tasks. -/
theorem tasks_step (h : ∀ w s t, T t → T (segment w s t).2) {c : Coroutines σ τ}
    (hc : ∀ t ∈ c.tasks, T t) (turn : ℕ × ω) : ∀ t ∈ (c.step segment turn).tasks, T t := by
  have hsegment : ∀ w s t, True → True → T t → True ∧ T (segment w s t).2 :=
    fun w s t _ _ ht => ⟨trivial, h w s t ht⟩
  exact (kept_step (S := fun _ => True) hsegment ⟨trivial, hc⟩ trivial).2

theorem kept_run (h : ∀ w s t, ok w → S s → T t → S (segment w s t).1 ∧ T (segment w s t).2)
    {c : Coroutines σ τ} (hc : S c.shared ∧ ∀ t ∈ c.tasks, T t) {turns : List (ℕ × ω)}
    (hok : ∀ turn ∈ turns, ok turn.2) : S (Runs.run (step segment) c turns).shared ∧
      ∀ t ∈ (Runs.run (step segment) c turns).tasks, T t := by
  have hstep : ∀ (c : Coroutines σ τ) (turn : ℕ × ω), (S c.shared ∧ ∀ t ∈ c.tasks, T t) →
      ok turn.2 → S (c.step segment turn).shared ∧ ∀ t ∈ (c.step segment turn).tasks, T t :=
    fun _ _ hc hok => kept_step h hc hok
  exact Runs.invariant_run hstep hc (Runs.along_of_forall hok)

/-- Under what every segment keeps, a run emits nothing that no segment emits. -/
theorem emitted_kept {α : Type*} {emits : ω → σ → τ → List α} {P : α → Prop}
    (h : ∀ w s t, ok w → S s → T t → S (segment w s t).1 ∧ T (segment w s t).2)
    (hemits : ∀ w s t, ok w → S s → T t → ∀ a ∈ emits w s t, P a) {c : Coroutines σ τ}
    (hc : S c.shared ∧ ∀ t ∈ c.tasks, T t) {turns : List (ℕ × ω)}
    (hok : ∀ turn ∈ turns, ok turn.2) :
    ∀ a ∈ Runs.trace (step segment) (emitted emits) c turns, P a := by
  induction turns generalizing c with
  | nil => exact fun _ ha => absurd ha List.not_mem_nil
  | cons turn turns ih =>
    have hhead := hok turn List.mem_cons_self
    intro a ha
    rw [Runs.trace] at ha
    rcases List.mem_append.mp ha with ha | ha
    · unfold emitted at ha
      cases ht : c.tasks[turn.1]? with
      | none =>
        rw [ht] at ha
        exact absurd ha List.not_mem_nil
      | some t =>
        rw [ht] at ha
        exact hemits turn.2 c.shared t hhead hc.1 (hc.2 t (List.mem_of_getElem? ht)) a ha
    · exact ih (kept_step h hc hhead) (fun turn' hturn => hok turn' (List.mem_cons_of_mem _ hturn)) a ha

end Kept

/-- How far the tasks that meet `p` outnumber a shared counter. -/
def surplus (counter : σ → ℕ) (p : τ → Bool) (c : Coroutines σ τ) : ℤ :=
  c.tasks.countP p - counter c.shared

/-- A turn moves the surplus by what it does to its own task and to the counter. -/
theorem surplus_step (segment : ω → σ → τ → σ × τ) (counter : σ → ℕ) (p : τ → Bool)
    {c : Coroutines σ τ} {turn : ℕ × ω} {t : τ} (h : c.tasks[turn.1]? = some t) :
    (c.step segment turn).surplus counter p = c.surplus counter p +
      (((p (segment turn.2 c.shared t).2).toNat : ℤ) - (p t).toNat) -
      (counter (segment turn.2 c.shared t).1 - counter c.shared) := by
  obtain ⟨hlt, hget⟩ := List.getElem?_eq_some_iff.mp h
  have hcount := List.countP_set (p := p) (a := (segment turn.2 c.shared t).2) hlt
  have hone : (if p t then 1 else 0) ≤ c.tasks.countP p := by
    split_ifs with hp
    · exact List.countP_pos_iff.mpr ⟨t, List.mem_of_getElem? h, hp⟩
    · exact Nat.zero_le _
  rw [step_active h, surplus, surplus, hcount, hget]
  have htoNat : ∀ b : Bool, b.toNat = if b then 1 else 0 := by
    intro b
    cases b <;> rfl
  rw [htoNat, htoNat]
  push_cast [Nat.cast_sub hone]
  ring

section Independent

def turnsOf (i : ℕ) (turns : List (ℕ × ω)) : List ω :=
  turns.filterMap fun turn => if turn.1 = i then some turn.2 else none

theorem turnsOf_cons (i : ℕ) (turn : ℕ × ω) (turns : List (ℕ × ω)) :
    turnsOf i (turn :: turns) =
      if turn.1 = i then turn.2 :: turnsOf i turns else turnsOf i turns := by
  unfold turnsOf
  rw [List.filterMap_cons]
  split_ifs <;> rfl

theorem step_other {c : Coroutines σ τ} {turn : ℕ × ω} {i : ℕ} (h : turn.1 ≠ i) :
    (c.step segment turn).tasks[i]? = c.tasks[i]? := by
  cases hactive : c.tasks[turn.1]? with
  | none => rw [step_idle hactive]
  | some t => rw [step_active hactive, List.getElem?_set_ne h]

theorem step_own {c : Coroutines σ τ} {turn : ℕ × ω} {t : τ} (h : c.tasks[turn.1]? = some t) :
    (c.step segment turn).tasks[turn.1]? = some (segment turn.2 c.shared t).2 := by
  have hlt := (List.getElem?_eq_some_iff.mp h).1
  rw [step_active h, List.getElem?_set_self hlt]

/-- A rank that every segment lowers is used up by as many turns of the task itself, whatever turns the
others take in between. -/
theorem rank_run {rank : τ → ℕ} (hrank : ∀ w s t, rank (segment w s t).2 ≤ rank t - 1)
    {c : Coroutines σ τ} {i : ℕ} {t : τ} (h : c.tasks[i]? = some t) (turns : List (ℕ × ω)) :
    ∃ t', (Runs.run (step segment) c turns).tasks[i]? = some t' ∧
      rank t' ≤ rank t - (turnsOf i turns).length := by
  induction turns generalizing c t with
  | nil => exact ⟨t, h, le_rfl⟩
  | cons turn turns ih =>
    rw [Runs.run_cons, turnsOf_cons]
    by_cases hi : turn.1 = i
    · subst hi
      obtain ⟨t', ht', hless⟩ := ih (step_own h)
      have hown := hrank turn.2 c.shared t
      refine ⟨t', ht', ?_⟩
      rw [if_pos rfl, List.length_cons]
      omega
    · rw [if_neg hi]
      exact ih ((step_other hi).trans h)

variable (own : τ → ω → τ)

/-- A task that does not look at the shared state is, after every interleaving, where its own turns
take it. -/
theorem task_run (hown : ∀ w s t, (segment w s t).2 = own t w) {c : Coroutines σ τ} {i : ℕ} {t : τ}
    (h : c.tasks[i]? = some t) (turns : List (ℕ × ω)) :
    (Runs.run (step segment) c turns).tasks[i]? = some (Runs.run own t (turnsOf i turns)) := by
  induction turns generalizing c t with
  | nil => exact h
  | cons turn turns ih =>
    rw [Runs.run_cons, turnsOf_cons]
    split_ifs with hi
    · subst hi
      rw [ih (step_own h), hown, Runs.run_cons]
    · exact ih ((step_other hi).trans h)

/-- What holds along an interleaving of a task's turns holds along these turns alone. -/
theorem along_task (ok : τ → ω → Prop) (hown : ∀ w s t, (segment w s t).2 = own t w)
    {c : Coroutines σ τ} {i : ℕ} {t : τ} (h : c.tasks[i]? = some t) {turns : List (ℕ × ω)}
    (hok : Runs.Along (step segment) (Meets fun w _ t => ok t w) c turns) :
    Runs.Along own ok t (turnsOf i turns) := by
  induction turns generalizing c t with
  | nil => trivial
  | cons turn turns ih =>
    obtain ⟨hturn, hrest⟩ := hok
    rw [turnsOf_cons]
    split_ifs with hi
    · subst hi
      have hown' := hown turn.2 c.shared t
      refine ⟨hturn t h, ?_⟩
      rw [← hown']
      exact ih (step_own h) hrest
    · exact ih ((step_other hi).trans h) hrest

variable {α : Type*}

/-- A task that grows its part by `new` grows the parts of all tasks by it. -/
theorem flatMap_set_perm {part : τ → List α} {tasks : List τ} {i : ℕ} {t t' : τ} {new : List α}
    (h : tasks[i]? = some t) (hpart : part t' = part t ++ new) :
    ((tasks.set i t').flatMap part).Perm (tasks.flatMap part ++ new) := by
  induction tasks generalizing i with
  | nil => cases h
  | cons u tasks ih =>
    cases i with
    | zero =>
      obtain rfl := Option.some.inj h
      rw [List.set_cons_zero, List.flatMap_cons, List.flatMap_cons, hpart, List.append_assoc,
        List.append_assoc]
      exact List.perm_append_comm.append_left _
    | succ i =>
      rw [List.set_cons_succ, List.flatMap_cons, List.flatMap_cons, List.append_assoc]
      exact (ih h).append_left _

/-- A shared log to which every task adds what it adds to its own part holds the parts of all tasks. -/
theorem log_run (log : σ → List α) {part : τ → List α} (new : ω → τ → List α)
    (hlog : ∀ w s t, log (segment w s t).1 = log s ++ new w t)
    (hpart : ∀ w s t, part (segment w s t).2 = part t ++ new w t) {c : Coroutines σ τ}
    {base : List α} (h : (log c.shared).Perm (base ++ c.tasks.flatMap part))
    (turns : List (ℕ × ω)) :
    (log (Runs.run (step segment) c turns).shared).Perm
      (base ++ (Runs.run (step segment) c turns).tasks.flatMap part) := by
  induction turns generalizing c with
  | nil => exact h
  | cons turn turns ih =>
    apply ih
    cases hactive : c.tasks[turn.1]? with
    | none => rwa [step_idle hactive]
    | some t =>
      have hset := flatMap_set_perm hactive (hpart turn.2 c.shared t)
      rw [step_active hactive]
      show (log (segment turn.2 c.shared t).1).Perm _
      rw [hlog]
      refine (h.append_right _).trans ?_
      rw [List.append_assoc]
      exact hset.symm.append_left base

end Independent

end Coroutines
