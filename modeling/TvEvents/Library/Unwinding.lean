import Mathlib.Data.List.Forall2
import TvEvents.Library.Coroutines

namespace Coroutines

variable {σ τ ω υ α : Type*}

/-- What hidden tasks do cannot be told from the view of the shared state, nor what visible tasks do
from the rest of it. The tasks are those that meet `fits`, `agrees` relates the inputs that look
alike, and `inv` holds of every view. -/
structure Unwinds (segment : ω → σ → τ → σ × τ) (view : σ → υ) (fits : τ → Prop)
    (visible : τ → Bool) (emits : ω → σ → τ → List α) (agrees : ω → ω → Prop) (inv : υ → Prop) :
    Prop where
  alike : ∀ w, agrees w w
  kept : ∀ w s t, visible (segment w s t).2 = visible t ∧ (fits (segment w s t).2 ↔ fits t)
  silent : ∀ w s {t}, fits t → visible t = false →
    view (segment w s t).1 = view s ∧ emits w s t = []
  respects : ∀ {w w' s s' t}, fits t → visible t = true → agrees w w' → inv (view s) →
    view s = view s' → view (segment w s t).1 = view (segment w' s' t).1 ∧
      (segment w s t).2 = (segment w' s' t).2 ∧ emits w s t = emits w' s' t
  stays : ∀ w s {t}, fits t → visible t = true → inv (view s) → inv (view (segment w s t).1)

def seen (visible : τ → Bool) (c : Coroutines σ τ) : List (Option τ) :=
  c.tasks.map fun t => if visible t then some t else none

structure SameView (view : σ → υ) (visible : τ → Bool) (c c' : Coroutines σ τ) : Prop where
  shared : view c.shared = view c'.shared
  tasks : seen visible c = seen visible c'

/-- Two turns of one task with inputs that look alike. -/
def Alike (agrees : ω → ω → Prop) (turn turn' : ℕ × ω) : Prop :=
  turn.1 = turn'.1 ∧ agrees turn.2 turn'.2

section Views

variable {view : σ → υ} {visible : τ → Bool}

theorem SameView.refl (c : Coroutines σ τ) : SameView view visible c c := ⟨rfl, rfl⟩

theorem SameView.symm {c c' : Coroutines σ τ} (h : SameView view visible c c') :
    SameView view visible c' c := ⟨h.shared.symm, h.tasks.symm⟩

theorem SameView.trans {c c' c'' : Coroutines σ τ} (h : SameView view visible c c')
    (h' : SameView view visible c' c'') : SameView view visible c c'' :=
  ⟨h.shared.trans h'.shared, h.tasks.trans h'.tasks⟩

theorem seen_get (visible : τ → Bool) (c : Coroutines σ τ) (i : ℕ) :
    (seen visible c)[i]? = (c.tasks[i]?).map fun t => if visible t then some t else none := by
  rw [seen, List.getElem?_map]

theorem SameView.active {c c' : Coroutines σ τ} (h : SameView view visible c c') {i : ℕ} {t : τ}
    (ht : c.tasks[i]? = some t) (hvisible : visible t = true) : c'.tasks[i]? = some t := by
  have hseen := seen_get visible c i
  rw [h.tasks, seen_get, ht, Option.map_some, if_pos hvisible] at hseen
  cases ht' : c'.tasks[i]? with
  | none =>
    rw [ht'] at hseen
    cases hseen
  | some t' =>
    rw [ht', Option.map_some] at hseen
    split_ifs at hseen
    · rw [Option.some.inj (Option.some.inj hseen)]
    · cases Option.some.inj hseen

theorem SameView.moves {c c' : Coroutines σ τ} (h : SameView view visible c c') {turn turn' : ℕ × ω}
    (hturn : turn.1 = turn'.1) (hmoves : moves visible c turn = true) :
    moves visible c' turn' = true := by
  obtain ⟨t, ht, hvisible⟩ := moves_active hmoves
  unfold Coroutines.moves
  rw [← hturn, h.active ht hvisible]
  exact hvisible

end Views

section Steps

variable {segment : ω → σ → τ → σ × τ} {view : σ → υ} {fits : τ → Prop} {visible : τ → Bool}
  {emits : ω → σ → τ → List α} {agrees : ω → ω → Prop} {inv : υ → Prop}

/-- No turn makes a task visible or hides it. -/
theorem Unwinds.moves_step (h : Unwinds segment view fits visible emits agrees inv)
    (c : Coroutines σ τ) (turn : ℕ × ω) :
    moves visible (c.step segment turn) = (moves visible c : ℕ × ω → Bool) := by
  funext other
  cases ht : c.tasks[turn.1]? with
  | none => rw [step_idle ht]
  | some t =>
    have hlt := (List.getElem?_eq_some_iff.mp ht).1
    rw [step_active ht]
    unfold moves
    by_cases hi : turn.1 = other.1
    · rw [← hi, List.getElem?_set_self hlt, ht, Option.any_some, Option.any_some, (h.kept _ _ _).1]
    · rw [List.getElem?_set_ne hi]

theorem Unwinds.fits_step (h : Unwinds segment view fits visible emits agrees inv)
    {c : Coroutines σ τ} (hfits : ∀ t ∈ c.tasks, fits t) (turn : ℕ × ω) :
    ∀ t ∈ (c.step segment turn).tasks, fits t :=
  tasks_step (fun w s t ht => (h.kept w s t).2.mpr ht) hfits turn

/-- A turn of a hidden task changes nothing that is seen, and emits nothing. -/
theorem Unwinds.hidden_turn (h : Unwinds segment view fits visible emits agrees inv)
    {c : Coroutines σ τ} (hfits : ∀ t ∈ c.tasks, fits t) {turn : ℕ × ω}
    (hidden : moves visible c turn = false) :
    SameView view visible (c.step segment turn) c ∧ emitted emits c turn = [] := by
  unfold moves at hidden
  unfold emitted
  cases ht : c.tasks[turn.1]? with
  | none =>
    rw [step_idle ht]
    exact ⟨.refl c, rfl⟩
  | some t =>
    rw [ht, Option.any_some] at hidden
    obtain ⟨hview, hemits⟩ := h.silent turn.2 c.shared (hfits t (List.mem_of_getElem? ht)) hidden
    rw [step_active ht]
    refine ⟨⟨hview, ?_⟩, hemits⟩
    apply List.ext_getElem?
    intro i
    rw [seen_get, seen_get]
    by_cases hi : turn.1 = i
    · subst hi
      have hlt := (List.getElem?_eq_some_iff.mp ht).1
      rw [List.getElem?_set_self hlt, ht, Option.map_some, Option.map_some, (h.kept _ _ _).1,
        hidden]
      rfl
    · rw [List.getElem?_set_ne hi]

/-- Turns of a visible task that look alike have the same effect on what is seen. -/
theorem Unwinds.visible_turn (h : Unwinds segment view fits visible emits agrees inv)
    {c c' : Coroutines σ τ} (hfits : ∀ t ∈ c.tasks, fits t) (hsame : SameView view visible c c')
    (hinv : inv (view c.shared)) {turn turn' : ℕ × ω} (hmoves : moves visible c turn = true)
    (halike : Alike agrees turn turn') :
    SameView view visible (c.step segment turn) (c'.step segment turn') ∧
      emitted emits c turn = emitted emits c' turn' ∧
      inv (view (c.step segment turn).shared) := by
  obtain ⟨t, ht, hvisible⟩ := moves_active hmoves
  obtain ⟨hturn, hagrees⟩ := halike
  have ht' : c'.tasks[turn'.1]? = some t := by
    rw [← hturn]
    exact hsame.active ht hvisible
  have hfit := hfits t (List.mem_of_getElem? ht)
  obtain ⟨hview, htask, hemits⟩ := h.respects hfit hvisible hagrees hinv hsame.shared
  unfold emitted
  rw [step_active ht, step_active ht', ht, ht', ← htask]
  refine ⟨⟨hview, ?_⟩, hemits, h.stays turn.2 c.shared hfit hvisible hinv⟩
  have hset : ∀ (d : Coroutines σ τ) (s : σ) (i : ℕ) (u : τ), seen visible ⟨s, d.tasks.set i u⟩ =
      (seen visible d).set i (if visible u then some u else none) := by
    intro d s i u
    exact List.map_set
  rw [hset, hset, hsame.tasks, hturn]

end Steps

section Runs

open Runs

variable {segment : ω → σ → τ → σ × τ} {view : σ → υ} {fits : τ → Prop} {visible : τ → Bool}
  {emits : ω → σ → τ → List α} {agrees : ω → ω → Prop} {inv : υ → Prop}

theorem Unwinds.purge_run (h : Unwinds segment view fits visible emits agrees inv)
    {c c' : Coroutines σ τ} (hfits : ∀ t ∈ c.tasks, fits t) (hsame : SameView view visible c c')
    (hinv : inv (view c.shared)) (turns : List (ℕ × ω)) :
    SameView view visible (run (step segment) c turns)
        (run (step segment) c' (turns.filter (moves visible c))) ∧
      trace (step segment) (emitted emits) c turns =
        trace (step segment) (emitted emits) c' (turns.filter (moves visible c)) := by
  induction turns generalizing c c' with
  | nil => exact ⟨hsame, rfl⟩
  | cons turn turns ih =>
    rw [List.filter_cons, run_cons, trace, ← h.moves_step c turn]
    split_ifs with hmoves
    · rw [h.moves_step c turn] at hmoves
      obtain ⟨hnext, hemits, hstays⟩ := h.visible_turn hfits hsame hinv hmoves
        ⟨rfl, h.alike turn.2⟩
      obtain ⟨hfinal, htrace⟩ := ih (h.fits_step hfits turn) hnext hstays
      rw [run_cons, trace, hemits, htrace]
      exact ⟨hfinal, rfl⟩
    · rw [h.moves_step c turn, Bool.not_eq_true] at hmoves
      obtain ⟨hview, hnone⟩ := h.hidden_turn hfits hmoves
      have hinv' : inv (view (c.step segment turn).shared) := by rwa [hview.shared]
      rw [hnone, List.nil_append]
      exact ih (h.fits_step hfits turn) (hview.trans hsame) hinv'

/-- Runs of visible turns that look alike go side by side. -/
theorem Unwinds.lockstep_run (h : Unwinds segment view fits visible emits agrees inv)
    {c c' : Coroutines σ τ} (hfits : ∀ t ∈ c.tasks, fits t) (hsame : SameView view visible c c')
    (hinv : inv (view c.shared)) {turns turns' : List (ℕ × ω)}
    (halike : List.Forall₂ (Alike agrees) turns turns')
    (hmoves : ∀ turn ∈ turns, moves visible c turn = true) :
    SameView view visible (run (step segment) c turns) (run (step segment) c' turns') ∧
      trace (step segment) (emitted emits) c turns =
        trace (step segment) (emitted emits) c' turns' := by
  induction halike generalizing c c' with
  | nil => exact ⟨hsame, rfl⟩
  | @cons turn turn' turns turns' hturn _ ih =>
    obtain ⟨hnext, hemits, hstays⟩ := h.visible_turn hfits hsame hinv
      (hmoves turn List.mem_cons_self) hturn
    have hrest : ∀ other ∈ turns, moves visible (c.step segment turn) other = true := by
      intro other hother
      rw [h.moves_step c turn]
      exact hmoves other (List.mem_cons_of_mem _ hother)
    obtain ⟨hfinal, htrace⟩ := ih (h.fits_step hfits turn) hnext hstays hrest
    rw [run_cons, run_cons, trace, trace, hemits, htrace]
    exact ⟨hfinal, rfl⟩

/-- Noninterference: runs whose visible turns look alike look alike. -/
theorem Unwinds.run (h : Unwinds segment view fits visible emits agrees inv) {c c' : Coroutines σ τ}
    (hfits : ∀ t ∈ c.tasks, fits t) (hfits' : ∀ t ∈ c'.tasks, fits t)
    (hsame : SameView view visible c c') (hinv : inv (view c.shared)) {turns turns' : List (ℕ × ω)}
    (halike : List.Forall₂ (Alike agrees) (turns.filter (moves visible c))
      (turns'.filter (moves visible c'))) :
    SameView view visible (Runs.run (step segment) c turns) (Runs.run (step segment) c' turns') ∧
      trace (step segment) (emitted emits) c turns =
        trace (step segment) (emitted emits) c' turns' := by
  have hinv' : inv (view c'.shared) := by rwa [← hsame.shared]
  obtain ⟨hleft, htrace⟩ := h.purge_run hfits (.refl c) hinv turns
  obtain ⟨hright, htrace'⟩ := h.purge_run hfits' (.refl c') hinv' turns'
  have hmoves : ∀ turn ∈ turns.filter (moves visible c), moves visible c turn = true :=
    fun turn hturn => (List.mem_filter.mp hturn).2
  obtain ⟨hmiddle, hlog⟩ := h.lockstep_run hfits hsame hinv halike hmoves
  exact ⟨(hleft.trans hmiddle).trans hright.symm, (htrace.trans hlog).trans htrace'.symm⟩

end Runs

end Coroutines
