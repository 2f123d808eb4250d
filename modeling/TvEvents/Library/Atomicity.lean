import TvEvents.Library.Coroutines

namespace Coroutines

variable {σ τ ω υ κ δ α : Type*}

/-- Every task acts on the view of the shared state in one segment: `acts` says that it is the next,
and `outcome` what has come of it. The action of a task goes by its key. -/
structure Atomic (segment : ω → σ → τ → σ × τ) (view : σ → υ) (good : τ → Prop) (key : τ → κ)
    (acts : τ → Bool) (outcome : τ → Option δ) (emits : ω → σ → τ → List α)
    (serve : κ → ω → υ → υ × δ × List α) : Prop where
  kept : ∀ w s t, key (segment w s t).2 = key t
  stays : ∀ w s {t}, good t → good (segment w s t).2
  silent : ∀ w s {t}, good t → acts t = false → view (segment w s t).1 = view s ∧
    outcome (segment w s t).2 = outcome t ∧ emits w s t = []
  acting : ∀ w s {t}, good t → acts t = true → ∃ d,
    serve (key t) w (view s) = (view (segment w s t).1, d, emits w s t) ∧
      outcome (segment w s t).2 = some d
  fresh : ∀ {t}, acts t = true → outcome t = none

def order (acts : τ → Bool) (segment : ω → σ → τ → σ × τ) (c : Coroutines σ τ)
    (turns : List (ℕ × ω)) : List (ℕ × ω) :=
  Runs.trace (step segment) (fun c turn => if moves acts c turn then [turn] else []) c turns

def outcomeAt (outcome : τ → Option δ) (i : ℕ) (c : Coroutines σ τ) : Option δ :=
  (c.tasks[i]?).bind outcome

section Serial

variable (serve : κ → ω → υ → υ × δ × List α) (keys : List κ)

/-- The action of the named task as a whole. -/
def serialStep (v : υ) (turn : ℕ × ω) : υ :=
  match keys[turn.1]? with
  | none => v
  | some k => (serve k turn.2 v).1

/-- The entry that the action leaves: the task, its outcome, and what was emitted. -/
def serialEntry (v : υ) (turn : ℕ × ω) : List (ℕ × δ × List α) :=
  match keys[turn.1]? with
  | none => []
  | some k => [(turn.1, (serve k turn.2 v).2)]

def serialLog (v : υ) (turns : List (ℕ × ω)) : List (ℕ × δ × List α) :=
  Runs.trace (serialStep serve keys) (serialEntry serve keys) v turns

variable {serve keys}

theorem serialLog_keys (v : υ) (turns : List (ℕ × ω)) :
    ((serialLog serve keys v turns).map Prod.fst).Sublist (turns.map Prod.fst) := by
  induction turns generalizing v with
  | nil => exact List.Sublist.slnil
  | cons turn turns ih =>
    have hrest := ih (serialStep serve keys v turn)
    unfold serialLog at hrest ⊢
    rw [Runs.trace, List.map_append, List.map_cons]
    unfold serialEntry
    cases keys[turn.1]? with
    | none => exact hrest.cons turn.1
    | some k => exact hrest.cons_cons turn.1

/-- An entry is what its action leaves where it stands. -/
theorem serialLog_mem {v : υ} {turns : List (ℕ × ω)} {i : ℕ} {entry : δ × List α}
    (h : (i, entry) ∈ serialLog serve keys v turns) : ∃ before w after k,
      turns = before ++ (i, w) :: after ∧ keys[i]? = some k ∧
        entry = (serve k w (Runs.run (serialStep serve keys) v before)).2 := by
  induction turns generalizing v with
  | nil => cases h
  | cons turn turns ih =>
    unfold serialLog at h
    rw [Runs.trace] at h
    rcases List.mem_append.mp h with h | h
    · unfold serialEntry at h
      cases hkey : keys[turn.1]? with
      | none =>
        rw [hkey] at h
        cases h
      | some k =>
        rw [hkey] at h
        obtain ⟨rfl, rfl⟩ := Prod.mk.inj (List.mem_singleton.mp h)
        exact ⟨[], turn.2, turns, k, rfl, hkey, rfl⟩
    · obtain ⟨before, w, after, k, rfl, hkey, rfl⟩ := ih h
      exact ⟨turn :: before, w, after, k, rfl, hkey, rfl⟩

end Serial

section Turns

variable {segment : ω → σ → τ → σ × τ} {view : σ → υ} {good : τ → Prop} {key : τ → κ}
  {acts : τ → Bool} {outcome : τ → Option δ} {emits : ω → σ → τ → List α}
  {serve : κ → ω → υ → υ × δ × List α}

structure Passes (view : σ → υ) (outcome : τ → Option δ) (c c' : Coroutines σ τ) : Prop where
  shared : view c'.shared = view c.shared
  outcomes : ∀ i, outcomeAt outcome i c' = outcomeAt outcome i c

structure Acts (view : σ → υ) (outcome : τ → Option δ) (r : υ × δ × List α) (i : ℕ)
    (c c' : Coroutines σ τ) : Prop where
  shared : view c'.shared = r.1
  before : outcomeAt outcome i c = none
  after : outcomeAt outcome i c' = some r.2.1
  others : ∀ j, j ≠ i → outcomeAt outcome j c' = outcomeAt outcome j c

theorem good_step (h : Atomic segment view good key acts outcome emits serve) {c : Coroutines σ τ}
    (hgood : ∀ t ∈ c.tasks, good t) (turn : ℕ × ω) : ∀ t ∈ (c.step segment turn).tasks, good t :=
  tasks_step (fun w s _ ht => h.stays w s ht) hgood turn

/-- A turn passes, or it is the action of its task. -/
theorem Atomic.turn_cases (h : Atomic segment view good key acts outcome emits serve)
    {c : Coroutines σ τ} (hgood : ∀ t ∈ c.tasks, good t) (turn : ℕ × ω) :
    (moves acts c turn = false ∧ emitted emits c turn = [] ∧
        Passes view outcome c (c.step segment turn)) ∨
      ∃ k, (c.tasks.map key)[turn.1]? = some k ∧ moves acts c turn = true ∧
        emitted emits c turn = (serve k turn.2 (view c.shared)).2.2 ∧
        Acts view outcome (serve k turn.2 (view c.shared)) turn.1 c (c.step segment turn) := by
  unfold moves emitted
  cases ht : c.tasks[turn.1]? with
  | none =>
    left
    rw [step_idle ht]
    exact ⟨rfl, rfl, rfl, fun _ => rfl⟩
  | some t =>
    have hfit := hgood t (List.mem_of_getElem? ht)
    have hothers : ∀ j, j ≠ turn.1 →
        outcomeAt outcome j (c.step segment turn) = outcomeAt outcome j c := by
      intro j hj
      rw [outcomeAt, outcomeAt, step_other (Ne.symm hj)]
    have hown : outcomeAt outcome turn.1 (c.step segment turn) =
        outcome (segment turn.2 c.shared t).2 := by
      rw [outcomeAt, step_own ht]
      rfl
    have hbefore : outcomeAt outcome turn.1 c = outcome t := by
      rw [outcomeAt, ht]
      rfl
    have hshared : (c.step segment turn).shared = (segment turn.2 c.shared t).1 := by
      rw [step_active ht]
    cases hacts : acts t with
    | false =>
      left
      obtain ⟨hview, hsame, hnone⟩ := h.silent turn.2 c.shared hfit hacts
      refine ⟨hacts, hnone, by rw [hshared, hview], ?_⟩
      intro i
      by_cases hi : i = turn.1
      · rw [hi, hown, hbefore, hsame]
      · exact hothers i hi
    | true =>
      right
      obtain ⟨d, hserve, hdone⟩ := h.acting turn.2 c.shared hfit hacts
      have hkey : (c.tasks.map key)[turn.1]? = some (key t) := by
        rw [List.getElem?_map, ht]
        rfl
      refine ⟨key t, hkey, hacts, by rw [hserve], ?_⟩
      rw [hserve]
      exact ⟨congrArg view hshared, hbefore.trans (h.fresh hacts), hown.trans hdone, hothers⟩

end Turns

section Runs

open Runs

variable {segment : ω → σ → τ → σ × τ} {view : σ → υ} {good : τ → Prop} {key : τ → κ}
  {acts : τ → Bool} {outcome : τ → Option δ} {emits : ω → σ → τ → List α}
  {serve : κ → ω → υ → υ × δ × List α}

theorem order_sublist (acts : τ → Bool) (segment : ω → σ → τ → σ × τ) (c : Coroutines σ τ)
    (turns : List (ℕ × ω)) : (order acts segment c turns).Sublist turns := by
  induction turns generalizing c with
  | nil => exact List.Sublist.slnil
  | cons turn turns ih =>
    have hrest := ih (c.step segment turn)
    unfold order at hrest ⊢
    rw [trace]
    split_ifs
    · exact hrest.cons_cons turn
    · exact hrest.cons turn

/-- No task acts twice, and none that had acted before. -/
theorem Atomic.order_once (h : Atomic segment view good key acts outcome emits serve)
    {c : Coroutines σ τ} (hgood : ∀ t ∈ c.tasks, good t) (turns : List (ℕ × ω)) :
    ((order acts segment c turns).map Prod.fst).Nodup ∧
      ∀ turn ∈ order acts segment c turns, outcomeAt outcome turn.1 c = none := by
  induction turns generalizing c with
  | nil => exact ⟨List.nodup_nil, fun _ h => absurd h List.not_mem_nil⟩
  | cons turn turns ih =>
    obtain ⟨honce, hfresh⟩ := ih (good_step h hgood turn)
    unfold order at honce hfresh ⊢
    rw [trace]
    rcases h.turn_cases hgood turn with ⟨hmoves, -, hpasses⟩ | ⟨k, -, hmoves, -, hacts⟩
    · rw [hmoves, if_neg Bool.false_ne_true, List.nil_append]
      refine ⟨honce, ?_⟩
      intro other hother
      rw [← hpasses.outcomes]
      exact hfresh other hother
    · have hnew : ∀ other ∈ trace (step segment)
          (fun c turn => if moves acts c turn then [turn] else []) (c.step segment turn) turns,
          other.1 ≠ turn.1 := by
        intro other hother hsame
        have hnone := hfresh other hother
        rw [hsame, hacts.after] at hnone
        cases hnone
      rw [hmoves, if_pos rfl, List.singleton_append, List.map_cons, List.nodup_cons]
      refine ⟨⟨?_, honce⟩, ?_⟩
      · intro hmem
        obtain ⟨other, hother, hsame⟩ := List.mem_map.mp hmem
        exact hnew other hother hsame
      · intro other hother
        rcases List.mem_cons.mp hother with rfl | hother
        · exact hacts.before
        · rw [← hacts.others _ (hnew other hother)]
          exact hfresh other hother

/-- Tasks that act once are as good as their actions one after the other, in the order of the acting
turns: the view, what is emitted, and the outcomes are the same. -/
theorem Atomic.run (h : Atomic segment view good key acts outcome emits serve)
    {c : Coroutines σ τ} (hgood : ∀ t ∈ c.tasks, good t) (turns : List (ℕ × ω)) :
    view (Runs.run (step segment) c turns).shared =
        Runs.run (serialStep serve (c.tasks.map key)) (view c.shared)
          (order acts segment c turns) ∧
      trace (step segment) (emitted emits) c turns =
        (serialLog serve (c.tasks.map key) (view c.shared) (order acts segment c turns)).flatMap
          (fun e => e.2.2) ∧
      ∀ i d, outcomeAt outcome i (Runs.run (step segment) c turns) = some d →
        outcomeAt outcome i c = some d ∨ ∃ out, (i, d, out) ∈
          serialLog serve (c.tasks.map key) (view c.shared) (order acts segment c turns) := by
  induction turns generalizing c with
  | nil => exact ⟨rfl, rfl, fun _ _ h => .inl h⟩
  | cons turn turns ih =>
    obtain ⟨hview, hemits, houtcome⟩ := ih (good_step h hgood turn)
    rw [step_map h.kept] at hview hemits houtcome
    rw [run_cons, trace, hview, hemits]
    unfold order serialLog at houtcome ⊢
    rcases h.turn_cases hgood turn with ⟨hmoves, hnone, hpasses⟩ | ⟨k, hkey, hmoves, hsent, hacts⟩
    · rw [trace, hmoves, if_neg Bool.false_ne_true, hnone, ← hpasses.shared]
      refine ⟨rfl, rfl, ?_⟩
      intro i d hd
      rw [← hpasses.outcomes]
      exact houtcome i d hd
    · have hstep : serialStep serve (c.tasks.map key) (view c.shared) turn =
          view (c.step segment turn).shared := by
        rw [serialStep, hkey, hacts.shared]
      have hentry : serialEntry serve (c.tasks.map key) (view c.shared) turn =
          [(turn.1, (serve k turn.2 (view c.shared)).2)] := by
        rw [serialEntry, hkey]
      rw [trace, hmoves, if_pos rfl, List.singleton_append, run_cons, trace, hstep, hentry, hsent]
      refine ⟨rfl, rfl, ?_⟩
      intro i d hd
      rcases houtcome i d hd with hdone | ⟨out, hmem⟩
      · by_cases hi : i = turn.1
        · subst hi
          rw [hacts.after] at hdone
          obtain rfl := Option.some.inj hdone
          exact .inr ⟨_, List.mem_append_left _ List.mem_cons_self⟩
        · rw [hacts.others i hi] at hdone
          exact .inl hdone
      · exact .inr ⟨out, List.mem_append_right _ hmem⟩

end Runs

end Coroutines
