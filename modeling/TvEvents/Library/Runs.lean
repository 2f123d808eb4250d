import Mathlib.Order.Basic
import Mathlib.Tactic.Common

namespace Runs

variable {σ ι : Type*}

def run (step : σ → ι → σ) (s : σ) (is : List ι) : σ := is.foldl step s

/-- Every input meets `ok` in the state that it finds. -/
def Along (step : σ → ι → σ) (ok : σ → ι → Prop) : σ → List ι → Prop
  | _, [] => True
  | s, i :: is => ok s i ∧ Along step ok (step s i) is

@[simp] theorem run_nil (step : σ → ι → σ) (s : σ) : run step s [] = s := rfl

@[simp] theorem run_cons (step : σ → ι → σ) (s : σ) (i : ι) (is : List ι) :
    run step s (i :: is) = run step (step s i) is := rfl

theorem run_append (step : σ → ι → σ) (s : σ) (is js : List ι) :
    run step s (is ++ js) = run step (run step s is) js := List.foldl_append

theorem along_append {step : σ → ι → σ} {ok : σ → ι → Prop} {s : σ} {is js : List ι} :
    Along step ok s (is ++ js) ↔ Along step ok s is ∧ Along step ok (run step s is) js := by
  induction is generalizing s with
  | nil => simp [Along]
  | cons i is ih => simp [Along, ih, and_assoc]

/-- What every admissible step preserves holds after every admissible run. -/
theorem invariant_run {step : σ → ι → σ} {ok : σ → ι → Prop} {I : σ → Prop}
    (hstep : ∀ s i, I s → ok s i → I (step s i)) {s : σ} {is : List ι} (hs : I s)
    (hok : Along step ok s is) : I (run step s is) := by
  induction is generalizing s with
  | nil => exact hs
  | cons i is ih => exact ih (hstep s i hs hok.1) hok.2

/-- Two machines that take the same inputs: what every pair of steps preserves relates their states
after every run. -/
theorem simulation_run {τ : Type*} {step : σ → ι → σ} {step' : τ → ι → τ} {R : σ → τ → Prop}
    {ok : ι → Prop} (hstep : ∀ s t i, R s t → ok i → R (step s i) (step' t i)) {s : σ} {t : τ}
    {is : List ι} (h : R s t) (hok : ∀ i ∈ is, ok i) : R (run step s is) (run step' t is) := by
  induction is generalizing s t with
  | nil => exact h
  | cons i is ih =>
    have hhead := hstep s t i h (hok i List.mem_cons_self)
    exact ih hhead fun j hj => hok j (List.mem_cons_of_mem _ hj)

/-- An invariant that speaks of the inputs taken so far. -/
theorem history_run {step : σ → ι → σ} {ok : σ → ι → Prop} {I : List ι → σ → Prop}
    (hstep : ∀ is s i, I is s → ok s i → I (is ++ [i]) (step s i)) {s : σ} {is : List ι}
    (hs : I [] s) (hok : Along step ok s is) : I is (run step s is) := by
  have hfrom : ∀ (js : List ι) (past : List ι) (s : σ), I past s → Along step ok s js →
      I (past ++ js) (run step s js) := by
    intro js
    induction js with
    | nil =>
      intro past s hs _
      rwa [List.append_nil]
    | cons j js ih =>
      intro past s hs hok
      have hnext := ih (past ++ [j]) (step s j) (hstep past s j hs hok.1) hok.2
      rwa [List.append_assoc] at hnext
  exact hfrom is [] s hs hok

/-- A budget that every admissible step draws on bounds the length of the admissible runs. -/
theorem length_le_budget {step : σ → ι → σ} {ok : σ → ι → Prop} (I : σ → Prop) (budget : σ → ℕ)
    (hstep : ∀ s i, I s → ok s i → I (step s i) ∧ budget (step s i) < budget s) {s : σ}
    {is : List ι} (hs : I s) (hok : Along step ok s is) :
    is.length + budget (run step s is) ≤ budget s := by
  induction is generalizing s with
  | nil => simp
  | cons i is ih =>
    obtain ⟨hkeeps, hless⟩ := hstep s i hs hok.1
    have hrest := ih hkeeps hok.2
    rw [run_cons, List.length_cons]
    omega

/-- A register that each step sets to what its input writes, if it writes, ends with the last value
written. -/
theorem register_run {α : Type*} {step : σ → ι → σ} {I : σ → Prop} {read : σ → α}
    {write : ι → Option α}
    (hstep : ∀ s i, I s → I (step s i) ∧ read (step s i) = (write i).getD (read s)) {s : σ}
    (hs : I s) (is : List ι) :
    I (run step s is) ∧ read (run step s is) = (is.filterMap write).getLastD (read s) := by
  induction is generalizing s with
  | nil => exact ⟨hs, rfl⟩
  | cons i is ih =>
    obtain ⟨hkeeps, hwritten⟩ := hstep s i hs
    obtain ⟨hinv, hread⟩ := ih hkeeps
    refine ⟨hinv, ?_⟩
    rw [run_cons, hread, hwritten, List.filterMap_cons]
    cases write i with
    | none => rfl
    | some a => rw [Option.getD_some, List.getLastD_cons]

theorem along_of_forall {step : σ → ι → σ} {ok : ι → Prop} {s : σ} {is : List ι}
    (h : ∀ i ∈ is, ok i) : Along step (fun _ i => ok i) s is := by
  induction is generalizing s with
  | nil => trivial
  | cons i is ih =>
    exact ⟨h i List.mem_cons_self, ih fun j hj => h j (List.mem_cons_of_mem _ hj)⟩

/-- When a step keeps the invariant exactly if its input meets the condition, all states of a run keep
it exactly if all its inputs do. -/
theorem along_iff_invariant {step : σ → ι → σ} {ok : σ → ι → Prop} {good : ι → Prop} {I : σ → Prop}
    (hstep : ∀ s i, I s → good i → (ok s i ↔ I (step s i))) {s : σ} {is : List ι} (hs : I s)
    (hgood : ∀ i ∈ is, good i) : (∀ js, js <+: is → I (run step s js)) ↔ Along step ok s is := by
  induction is generalizing s with
  | nil =>
    constructor
    · intro _
      trivial
    · intro _ js hjs
      rw [List.prefix_nil.mp hjs]
      exact hs
  | cons i is ih =>
    have hi : good i := hgood i List.mem_cons_self
    have hrest : ∀ j ∈ is, good j := fun j hj => hgood j (List.mem_cons_of_mem _ hj)
    constructor
    · intro h
      have hhead : I (step s i) := h [i] (List.cons_prefix_cons.mpr ⟨rfl, List.nil_prefix⟩)
      refine ⟨(hstep s i hs hi).mpr hhead, (ih hhead hrest).mp ?_⟩
      intro js hjs
      exact h (i :: js) (List.cons_prefix_cons.mpr ⟨rfl, hjs⟩)
    · intro h js hjs
      obtain ⟨hok, htail⟩ := h
      have hhead : I (step s i) := (hstep s i hs hi).mp hok
      cases js with
      | nil => exact hs
      | cons j js =>
        obtain ⟨rfl, hrun⟩ := List.cons_prefix_cons.mp hjs
        exact (ih hhead hrest).mpr htail js hrun

/-- A meter that no step lowers, and that stands still in the admissible steps alone, ends where it
began exactly after the admissible runs. -/
theorem along_iff_meter {μ : Type*} [PartialOrder μ] {step : σ → ι → σ} {ok : σ → ι → Prop}
    {meter : σ → μ} (hstill : ∀ s i, ok s i ↔ meter (step s i) = meter s)
    (hrise : ∀ s i, meter s ≤ meter (step s i)) (s : σ) (is : List ι) :
    Along step ok s is ↔ meter (run step s is) = meter s := by
  have hrun : ∀ (is : List ι) (s : σ), meter s ≤ meter (run step s is) := by
    intro is
    induction is with
    | nil => exact fun _ => le_rfl
    | cons i is ih => exact fun s => le_trans (hrise s i) (ih (step s i))
  induction is generalizing s with
  | nil => simp [Along]
  | cons i is ih =>
    have htail := ih (step s i)
    constructor
    · intro h
      exact (htail.mp h.2).trans ((hstill s i).mp h.1)
    · intro h
      have hhead : meter (step s i) = meter s := by
        apply le_antisymm _ (hrise s i)
        rw [← h]
        exact hrun is (step s i)
      exact ⟨(hstill s i).mpr hhead, htail.mpr (h.trans hhead.symm)⟩

def trace {α : Type*} (step : σ → ι → σ) (shown : σ → ι → List α) : σ → List ι → List α
  | _, [] => []
  | s, i :: is => shown s i ++ trace step shown (step s i) is

theorem trace_append {α : Type*} (step : σ → ι → σ) (shown : σ → ι → List α) (s : σ)
    (is js : List ι) :
    trace step shown s (is ++ js) = trace step shown s is ++ trace step shown (run step s is) js := by
  induction is generalizing s with
  | nil => rfl
  | cons i is ih =>
    rw [List.cons_append, trace, trace, ih, run_cons, List.append_assoc]

/-- A part of the state that every admissible step folds what it shows into has folded the trace of
an admissible run. -/
theorem run_trace {α β : Type*} {step : σ → ι → σ} {ok : σ → ι → Prop} {shown : σ → ι → List α}
    (view : σ → β) {f : β → α → β}
    (hstep : ∀ s i, ok s i → view (step s i) = (shown s i).foldl f (view s)) {s : σ} {is : List ι}
    (hok : Along step ok s is) : view (run step s is) = (trace step shown s is).foldl f (view s) := by
  induction is generalizing s with
  | nil => rfl
  | cons i is ih =>
    rw [run_cons, ih hok.2, hstep s i hok.1, trace, List.foldl_append]

end Runs
