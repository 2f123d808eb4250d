import TvEvents.App.Middleware
import TvEvents.Library.Unwinding

namespace TvEvents

open Coroutines Runs

variable [Runtime] [Framework]

section Segments

def Task.runsHandler (t : Task) : Bool :=
  match t.phase with
  | .called _ => !t.incoming.route.readsBody
  | .reading _ => true
  | _ => false

/-- The time at which metrics begin is that of the phase. -/
def Phase.startOf : Phase → ℚ
  | .called start | .reading start => start
  | _ => 0

theorem segment_handler (p : Process) (m : Moment) (s : AppState) {t : Task}
    (h : t.runsHandler = true) : segment p m s t = ((handle p m t.incoming s).2,
      { t with phase := callNext t.phase.startOf (handle p m t.incoming s).1 }) := by
  obtain ⟨incoming, phase⟩ := t
  cases phase with
  | called start =>
    simp only [Task.runsHandler, Bool.not_eq_true'] at h
    simp only [segment, h, Phase.startOf]
    rfl
  | reading start => rfl
  | arrived | logged | returned _ _ | recorded _ | raised _ | answered _ => cases h

theorem segment_incoming (p : Process) (m : Moment) (s : AppState) (t : Task) :
    (segment p m s t).2.incoming = t.incoming := by
  obtain ⟨incoming, phase⟩ := t
  cases phase with
  | arrived =>
    simp only [segment]
    cases logRequest incoming <;> rfl
  | called start =>
    simp only [segment]
    split_ifs <;> rfl
  | logged | reading _ | returned _ _ | recorded _ | raised _ | answered _ => rfl

/-- A segment without a handler looks at the clock only. -/
theorem segment_clock (p : Process) {m m' : Moment} (hclock : m.monotonic = m'.monotonic)
    (s s' : AppState) {t : Task} (h : t.runsHandler = false) :
    (segment p m s t).2 = (segment p m' s' t).2 := by
  obtain ⟨incoming, phase⟩ := t
  cases phase with
  | arrived =>
    simp only [segment]
    cases logRequest incoming <;> rfl
  | logged =>
    simp only [segment]
    rw [hclock]
  | called start =>
    simp only [Task.runsHandler, Bool.not_eq_false'] at h
    simp only [segment, h]
    rfl
  | reading start => cases h
  | returned _ _ | recorded _ | raised _ | answered _ => rfl

end Segments

/-- A part of the state and the requests that work on it: the handlers of the others leave it alone,
and those of its own requests read nothing else. What the handlers emit is shown, `agrees` relates the
moments that they cannot tell apart, and `inv` holds of the part all along. -/
structure Concern (p : Process) (υ α : Type) where
  view : AppState → υ
  owns : Incoming → Bool
  fits : Incoming → Prop
  emits : Moment → AppState → Incoming → List α
  agrees : Moment → Moment → Prop
  inv : υ → Prop
  alike : ∀ m, agrees m m
  clock : ∀ {m m'}, agrees m m' → m.monotonic = m'.monotonic
  metrics : ∀ now start reply s, view (recordMetrics now start reply s) = view s
  silent : ∀ m s {incoming}, fits incoming → owns incoming = false →
    view (handle p m incoming s).2 = view s ∧ emits m s incoming = []
  respects : ∀ {m m' s s' incoming}, fits incoming → owns incoming = true → agrees m m' →
    inv (view s) → view s = view s' →
      view (handle p m incoming s).2 = view (handle p m' incoming s').2 ∧
      (handle p m incoming s).1 = (handle p m' incoming s').1 ∧
      emits m s incoming = emits m' s' incoming
  stays : ∀ m s {incoming}, fits incoming → owns incoming = true → inv (view s) →
    inv (view (handle p m incoming s).2)

namespace Concern

variable {p : Process} {υ α : Type} (k : Concern p υ α)

def shows (m : Moment) (s : AppState) (t : Task) : List α :=
  if t.runsHandler then k.emits m s t.incoming else []

theorem segment_view (m : Moment) (s : AppState) {t : Task} (h : t.runsHandler = false) :
    k.view (segment p m s t).1 = k.view s := by
  obtain ⟨incoming, phase⟩ := t
  cases phase with
  | arrived =>
    simp only [segment]
    cases logRequest incoming <;> rfl
  | called start =>
    simp only [Task.runsHandler, Bool.not_eq_false'] at h
    simp only [segment, h]
    rfl
  | reading start => cases h
  | returned start reply => exact k.metrics _ _ _ _
  | logged | recorded _ | raised _ | answered _ => rfl

/-- The others leave the part of a concern alone, and its own requests cannot tell what they do. -/
theorem unwinds : Unwinds (segment p) k.view (fun t => k.fits t.incoming)
    (fun t => k.owns t.incoming) k.shows k.agrees k.inv where
  alike := k.alike
  kept m s t := by simp only [segment_incoming, iff_self, and_self]
  silent m s t hfits howns := by
    unfold shows
    cases hruns : t.runsHandler with
    | false => exact ⟨k.segment_view m s hruns, rfl⟩
    | true =>
      rw [segment_handler p m s hruns]
      exact k.silent m s hfits howns
  respects := by
    intro m m' s s' t hfits howns hagrees hinv hview
    unfold shows
    cases hruns : t.runsHandler with
    | false =>
      refine ⟨?_, segment_clock p (k.clock hagrees) s s' hruns, rfl⟩
      rw [k.segment_view m s hruns, k.segment_view m' s' hruns, hview]
    | true =>
      obtain ⟨hnext, hanswer, hemits⟩ := k.respects hfits howns hagrees hinv hview
      rw [segment_handler p m s hruns, segment_handler p m' s' hruns, hanswer]
      exact ⟨hnext, rfl, hemits⟩
  stays m s t hfits howns hinv := by
    cases hruns : t.runsHandler with
    | false => rwa [k.segment_view m s hruns]
    | true =>
      rw [segment_handler p m s hruns]
      exact k.stays m s hfits howns hinv

end Concern

end TvEvents
