import TvEvents.Metrics.Handlers

namespace TvEvents

open Runs Coroutines

namespace Phase

def answer? : Phase → Option ℕ
  | .answered statusCode => some statusCode
  | _ => none

def settled : Phase → Bool
  | .recorded _ | .raised _ | .answered _ => true
  | _ => false

def failed : Phase → Bool
  | .recorded reply => 500 ≤ reply.statusCode
  | .raised _ => true
  | .answered statusCode => 500 ≤ statusCode
  | _ => false

end Phase

def answers (c : Serving) : List ℕ := c.tasks.filterMap fun t => t.phase.answer?

def AllAnswered (c : Serving) : Prop := ∀ t ∈ c.tasks, t.phase.answer?.isSome = true

instance (c : Serving) : Decidable (AllAnswered c) :=
  inferInstanceAs (Decidable (∀ t ∈ c.tasks, t.phase.answer?.isSome = true))

/-- A response that comes back from `call_next` in a turn, with its latency in milliseconds. -/
def completion (c : Serving) (turn : ℕ × Moment) : List (ℕ × ℚ) :=
  match c.tasks[turn.1]? with
  | some ⟨_, .returned start _⟩ => [(turn.1, (turn.2.monotonic - start) * 1000)]
  | _ => []

/-- The access log of a request can be written, where one is written. -/
def Logs (incoming : Incoming) : Prop :=
  ∃ path, incoming.urlPath = some path ∧ (path ∈ quietPaths ∨ incoming.loggable = true)

theorem logRequest_returns (incoming : Incoming) : Returns (logRequest incoming) ↔ Logs incoming := by
  unfold logRequest Logs
  cases incoming.urlPath with
  | none => simp
  | some path =>
    by_cases hquiet : path ∈ quietPaths
    · simp [hquiet]
    · cases hlog : incoming.loggable <;> simp [hquiet]

section Counters

variable [Runtime] [Framework]

/-- Nothing raises while the request runs up to its next await. -/
def SegmentFits (p : Process) (m : Moment) (s : AppState) (t : Task) : Prop :=
  match t.phase with
  | .arrived => Logs t.incoming
  | .called _ => t.incoming.route.readsBody = false → HandlerFits p m t.incoming s
  | .reading _ => HandlerFits p m t.incoming s
  | _ => True

/-- The responses in the order in which they came back, with their latencies. -/
def completions (p : Process) (c : Serving) (turns : List (ℕ × Moment)) : List (ℕ × ℚ) :=
  trace (Serving.turn p) completion c turns

/-- The metrics after a run count its responses, those of 500 or above among them, and hold the last
latencies in the order of completion. -/
structure CountersExact (p : Process) (c : Serving) (turns : List (ℕ × Moment)) : Prop where
  requests : (run (Serving.turn p) c turns).shared.requestCount =
    c.shared.requestCount + (answers (run (Serving.turn p) c turns)).length
  errors : (run (Serving.turn p) c turns).shared.errorCount =
    c.shared.errorCount + (answers (run (Serving.turn p) c turns)).countP (500 ≤ ·)
  everyone : ((completions p c turns).map Prod.fst).Perm (List.range c.tasks.length)
  latencies : (run (Serving.turn p) c turns).shared.latencies.entries =
    (c.shared.latencies.entries ++ (completions p c turns).map Prod.snd).rtake 10000

section Segments

/-- A segment that leaves the metrics and the outcome of its request alone. -/
structure Passes (s s' : AppState) (t t' : Task) : Prop where
  metrics : SameMetrics s s'
  settled : t'.phase.settled = t.phase.settled
  failed : t'.phase.failed = t.phase.failed
  pending : ∀ start reply, t.phase ≠ .returned start reply

/-- A segment that raises: nothing is recorded, and an error response is due. -/
structure Raises (s s' : AppState) (t t' : Task) : Prop where
  metrics : SameMetrics s s'
  undecided : t.phase.settled = false
  settled : t'.phase.settled = true

/-- A handler's last segment returns a response or raises. -/
theorem callNext_cases (p : Process) (m : Moment) (s : AppState) (t : Task) (start : ℚ)
    (hphase : t.phase = .called start ∨ t.phase = .reading start) :
    (HandlerFits p m t.incoming s ∧ Passes s (handle p m t.incoming s).2 t
      { t with phase := callNext start (handle p m t.incoming s).1 }) ∨
    (¬ HandlerFits p m t.incoming s ∧ Raises s (handle p m t.incoming s).2 t
      { t with phase := callNext start (handle p m t.incoming s).1 }) := by
  have hmetrics := handle_metrics p m t.incoming s
  rw [← handle_returns p]
  cases hresult : (handle p m t.incoming s).1 with
  | ok reply =>
    left
    refine ⟨returns_ok reply, hmetrics, ?_, ?_, ?_⟩
    · rcases hphase with h | h <;> rw [h] <;> rfl
    · rcases hphase with h | h <;> rw [h] <;> rfl
    · intro start' reply' h'
      rcases hphase with h | h <;> rw [h] at h' <;> cases h'
  | error e =>
    right
    refine ⟨not_returns_error e, hmetrics, ?_, rfl⟩
    rcases hphase with h | h <;> rw [h] <;> rfl

/-- A segment keeps the metrics, records a response, or raises; it raises exactly where it does not
fit. -/
theorem segment_cases (p : Process) (m : Moment) (s : AppState) (t : Task) :
    (SegmentFits p m s t ∧ Passes s (segment p m s t).1 t (segment p m s t).2) ∨
    (∃ start reply, t.phase = .returned start reply ∧ segment p m s t =
      (recordMetrics m.monotonic start reply s, { t with phase := .recorded reply })) ∨
    (¬ SegmentFits p m s t ∧ Raises s (segment p m s t).1 t (segment p m s t).2) := by
  have hsame := SameMetrics.refl s
  obtain ⟨incoming, phase⟩ := t
  cases phase with
  | arrived =>
    have hlogs : SegmentFits p m s ⟨incoming, .arrived⟩ ↔ Returns (logRequest incoming) :=
      (logRequest_returns incoming).symm
    rw [hlogs]
    cases hlog : logRequest incoming with
    | ok u =>
      left
      simp only [segment, hlog]
      exact ⟨returns_ok u, hsame, rfl, rfl, by simp⟩
    | error e =>
      right
      right
      simp only [segment, hlog]
      exact ⟨not_returns_error e, hsame, rfl, rfl⟩
  | logged => exact .inl ⟨trivial, hsame, rfl, rfl, by simp⟩
  | called start =>
    have hcalled := callNext_cases p m s ⟨incoming, .called start⟩ start (.inl rfl)
    by_cases hbody : incoming.route.readsBody = true
    · left
      simp only [segment, SegmentFits, hbody, if_true]
      exact ⟨by simp, hsame, rfl, rfl, by simp⟩
    · simp only [segment, SegmentFits, hbody]
      simp only [Bool.not_eq_true] at hbody
      simp only [forall_const]
      rcases hcalled with hpasses | hraises
      · exact .inl hpasses
      · exact .inr (.inr hraises)
  | reading start =>
    rcases callNext_cases p m s ⟨incoming, .reading start⟩ start (.inr rfl) with hpasses | hraises
    · exact .inl hpasses
    · exact .inr (.inr hraises)
  | returned start reply => exact .inr (.inl ⟨start, reply, rfl, rfl⟩)
  | recorded reply => exact .inl ⟨trivial, hsame, rfl, rfl, by simp⟩
  | raised e => exact .inl ⟨trivial, hsame, rfl, rfl, by simp⟩
  | answered statusCode => exact .inl ⟨trivial, hsame, rfl, rfl, by simp⟩

end Segments

section Ledgers

def uncounted (c : Serving) : ℤ := c.surplus AppState.requestCount fun t => t.phase.settled

/-- Responses of 500 or above, due or sent, that are not counted. -/
def uncountedErrors (c : Serving) : ℤ := c.surplus AppState.errorCount fun t => t.phase.failed

theorem meets_active {p : Process} {c : Serving} {turn : ℕ × Moment} {t : Task} (h : c.tasks[turn.1]? = some t) :
    Meets (SegmentFits p) c turn ↔ SegmentFits p turn.2 c.shared t := by
  simp [Meets, h]

theorem meets_idle {p : Process} {c : Serving} {turn : ℕ × Moment} (h : c.tasks[turn.1]? = none) :
    Meets (SegmentFits p) c turn := by
  simp [Meets, h]

/-- A turn leaves one more request uncounted exactly when it raises. -/
theorem uncounted_turn (p : Process) (c : Serving) (turn : ℕ × Moment) :
    (Meets (SegmentFits p) c turn ∧ uncounted (c.turn p turn) = uncounted c) ∨
      (¬ Meets (SegmentFits p) c turn ∧ uncounted (c.turn p turn) = uncounted c + 1) := by
  cases h : c.tasks[turn.1]? with
  | none =>
    left
    exact ⟨meets_idle h, congrArg uncounted (step_idle h)⟩
  | some t =>
    have hsurplus := surplus_step (segment p) AppState.requestCount
      (fun t => t.phase.settled) h
    rw [meets_active h]
    rcases segment_cases p turn.2 c.shared t with ⟨hfits, hpasses⟩ | ⟨start, reply, hphase, hrecord⟩ |
      ⟨hraises, hraised⟩
    · left
      refine ⟨hfits, hsurplus.trans ?_⟩
      rw [hpasses.settled, hpasses.metrics.requests, uncounted]
      omega
    · left
      have hfits : SegmentFits p turn.2 c.shared t := by
        rw [SegmentFits, hphase]
        trivial
      refine ⟨hfits, hsurplus.trans ?_⟩
      rw [hrecord, hphase, uncounted]
      simp only [recordMetrics, Phase.settled, Bool.toNat_true, Bool.toNat_false]
      omega
    · right
      refine ⟨hraises, hsurplus.trans ?_⟩
      rw [hraised.undecided, hraised.settled, hraised.metrics.requests, uncounted]
      simp only [Bool.toNat_true, Bool.toNat_false]
      omega

/-- A turn that fits counts the error responses that it decides. -/
theorem uncountedErrors_turn (p : Process) {c : Serving} {turn : ℕ × Moment}
    (hfits : Meets (SegmentFits p) c turn) :
    uncountedErrors (c.turn p turn) = uncountedErrors c := by
  cases h : c.tasks[turn.1]? with
  | none => exact congrArg uncountedErrors (step_idle h)
  | some t =>
    have hsurplus := surplus_step (segment p) AppState.errorCount
      (fun t => t.phase.failed) h
    refine hsurplus.trans ?_
    rcases segment_cases p turn.2 c.shared t with ⟨-, hpasses⟩ | ⟨start, reply, hphase, hrecord⟩ |
      ⟨hraises, -⟩
    · rw [hpasses.failed, hpasses.metrics.errors, uncountedErrors]
      omega
    · rw [hrecord, hphase, uncountedErrors]
      simp only [recordMetrics, Phase.failed, Bool.toNat_false]
      by_cases herror : 500 ≤ reply.statusCode
      · simp only [herror, decide_true, if_true, Bool.toNat_true]
        omega
      · simp only [herror, decide_false, if_false, Bool.toNat_false]
        omega
    · exact absurd ((meets_active h).mp hfits) hraises

omit [Runtime] [Framework] in
theorem completion_idle {c : Serving} {turn : ℕ × Moment} (h : c.tasks[turn.1]? = none) :
    completion c turn = [] := by
  rw [completion, h]

omit [Runtime] [Framework] in
theorem completion_pending {c : Serving} {turn : ℕ × Moment} {t : Task}
    (h : c.tasks[turn.1]? = some t) (hpending : ∀ start reply, t.phase ≠ .returned start reply) :
    completion c turn = [] := by
  rw [completion, h]
  split
  · rename_i incoming start reply heq
    exact absurd (congrArg Task.phase (Option.some.inj heq)) (hpending start reply)
  · rfl

omit [Runtime] [Framework] in
theorem completion_returned {c : Serving} {turn : ℕ × Moment} {t : Task} {start : ℚ} {reply : Reply}
    (h : c.tasks[turn.1]? = some t) (hphase : t.phase = .returned start reply) :
    completion c turn = [(turn.1, (turn.2.monotonic - start) * 1000)] := by
  obtain ⟨incoming, phase⟩ := t
  subst hphase
  rw [completion, h]

theorem latencies_turn (p : Process) {c : Serving} {turn : ℕ × Moment}
    (hfits : Meets (SegmentFits p) c turn) :
    (c.turn p turn).shared.latencies =
      (completion c turn).foldl (fun d x => d.append x.2) c.shared.latencies := by
  cases h : c.tasks[turn.1]? with
  | none =>
    rw [completion_idle h]
    exact congrArg (fun c => c.shared.latencies) (step_idle h)
  | some t =>
    have hstep : (c.turn p turn).shared = (segment p turn.2 c.shared t).1 :=
      congrArg Coroutines.shared (step_active h)
    rw [hstep]
    rcases segment_cases p turn.2 c.shared t with ⟨-, hpasses⟩ | ⟨start, reply, hphase, hrecord⟩ |
      ⟨hraises, -⟩
    · rw [completion_pending h hpasses.pending]
      exact hpasses.metrics.latencies
    · rw [completion_returned h hphase, hrecord]
      rfl
    · exact absurd ((meets_active h).mp hfits) hraises

/-- One when the outcome of the `i`-th request is decided, and else zero. -/
def settledAt (i : ℕ) (c : Serving) : ℕ := ((c.tasks[i]?).any fun t => t.phase.settled).toNat

/-- In turns that fit, a request is decided when its response comes back. -/
theorem settledAt_turn (p : Process) (i : ℕ) {c : Serving} {turn : ℕ × Moment}
    (hfits : Meets (SegmentFits p) c turn) :
    settledAt i (c.turn p turn) =
      (completion c turn).foldl (fun n x => n + if x.1 = i then 1 else 0) (settledAt i c) := by
  cases h : c.tasks[turn.1]? with
  | none =>
    rw [completion_idle h]
    exact congrArg (settledAt i) (step_idle h)
  | some t =>
    have hlt : turn.1 < c.tasks.length := (List.getElem?_eq_some_iff.mp h).1
    have hstep : (c.turn p turn).tasks = c.tasks.set turn.1 (segment p turn.2 c.shared t).2 :=
      congrArg Coroutines.tasks (step_active h)
    by_cases hi : turn.1 = i
    · subst hi
      have hbefore : settledAt turn.1 c = t.phase.settled.toNat := by
        rw [settledAt, h, Option.any_some]
      have hafter : settledAt turn.1 (c.turn p turn) =
          (segment p turn.2 c.shared t).2.phase.settled.toNat := by
        rw [settledAt, hstep, List.getElem?_set_self hlt, Option.any_some]
      rw [hbefore, hafter]
      rcases segment_cases p turn.2 c.shared t with ⟨-, hpasses⟩ | ⟨start, reply, hphase, hrecord⟩ |
        ⟨hraises, -⟩
      · rw [completion_pending h hpasses.pending, hpasses.settled]
        rfl
      · rw [completion_returned h hphase, hrecord, hphase]
        simp [Phase.settled]
      · exact absurd ((meets_active h).mp hfits) hraises
    · have hother : settledAt i (c.turn p turn) = settledAt i c := by
        rw [settledAt, hstep, List.getElem?_set_ne hi, settledAt]
      rw [hother]
      by_cases hphase : ∃ start reply, t.phase = .returned start reply
      · obtain ⟨start, reply, hphase⟩ := hphase
        rw [completion_returned h hphase]
        simp [hi]
      · rw [completion_pending h fun start reply heq => hphase ⟨start, reply, heq⟩]
        rfl

end Ledgers

section Served

/-- In a run that fits, the responses that have come back are those of the decided requests. -/
theorem completions_count (p : Process) (i : ℕ) {c : Serving} {turns : List (ℕ × Moment)}
    (hfits : Along (Serving.turn p) (Meets (SegmentFits p)) c turns) :
    settledAt i (run (Serving.turn p) c turns) =
      settledAt i c + ((completions p c turns).map Prod.fst).count i := by
  have hcount : ∀ (l : List (ℕ × ℚ)) (n : ℕ),
      l.foldl (fun n x => n + if x.1 = i then 1 else 0) n = n + (l.map Prod.fst).count i := by
    intro l
    induction l with
    | nil => exact fun n => rfl
    | cons x l ih =>
      intro n
      rw [List.foldl_cons, ih, List.map_cons, List.count_cons]
      simp only [beq_iff_eq]
      omega
  have hrun := run_trace (settledAt i) (fun c turn => settledAt_turn p i) hfits
  rw [hrun, hcount, completions]

omit [Runtime] [Framework] in
theorem answers_length {c : Serving} (h : AllAnswered c) : (answers c).length = c.tasks.length := by
  rw [answers, List.length_filterMap_eq_countP, List.countP_eq_length]
  exact h

omit [Runtime] [Framework] in
theorem settled_answered {phase : Phase} (h : phase.answer?.isSome = true) :
    phase.settled = true := by
  cases phase <;> simp_all [Phase.answer?, Phase.settled]

omit [Runtime] [Framework] in
theorem uncounted_answered {c : Serving} (h : AllAnswered c) :
    uncounted c = (answers c).length - c.shared.requestCount := by
  have hsettled : c.tasks.countP (fun t => t.phase.settled) = c.tasks.length := by
    apply List.countP_eq_length.mpr
    intro t ht
    exact settled_answered (h t ht)
  rw [uncounted, surplus, hsettled, answers_length h]

omit [Runtime] [Framework] in
theorem uncountedErrors_answered {c : Serving} (h : AllAnswered c) :
    uncountedErrors c = (answers c).countP (500 ≤ ·) - c.shared.errorCount := by
  have hfailed : c.tasks.countP (fun t => t.phase.failed) = (answers c).countP (500 ≤ ·) := by
    rw [answers, List.countP_filterMap]
    apply List.countP_congr
    intro t ht
    have hanswer := h t ht
    cases hphase : t.phase <;> simp_all [Phase.answer?, Phase.failed]
  rw [uncountedErrors, surplus, hfailed]

omit [Runtime] [Framework] in
theorem uncounted_arrivals (s : AppState) (requests : List Incoming) :
    uncounted (arrivals s requests) = -s.requestCount := by
  simp [uncounted, surplus, arrivals, List.countP_map, Function.comp_def, Phase.settled]

omit [Runtime] [Framework] in
theorem uncountedErrors_arrivals (s : AppState) (requests : List Incoming) :
    uncountedErrors (arrivals s requests) = -s.errorCount := by
  simp [uncountedErrors, surplus, arrivals, List.countP_map, Function.comp_def, Phase.failed]

omit [Runtime] [Framework] in
theorem settledAt_arrivals (i : ℕ) (s : AppState) (requests : List Incoming) :
    settledAt i (arrivals s requests) = 0 := by
  rw [settledAt, arrivals, List.getElem?_map]
  cases requests[i]? <;> rfl

omit [Runtime] [Framework] in
theorem settledAt_answered (i : ℕ) {c : Serving} (h : AllAnswered c) :
    settledAt i c = if i < c.tasks.length then 1 else 0 := by
  by_cases hi : i < c.tasks.length
  · have hsettled := settled_answered (h c.tasks[i] (List.getElem_mem hi))
    rw [settledAt, List.getElem?_eq_getElem hi, Option.any_some, hsettled, if_pos hi]
    rfl
  · rw [settledAt, List.getElem?_eq_none (Nat.le_of_not_lt hi), if_neg hi]
    rfl

theorem requests_exact_iff (p : Process) (s : AppState) (requests : List Incoming)
    (turns : List (ℕ × Moment))
    (hanswered : AllAnswered (run (Serving.turn p) (arrivals s requests) turns)) :
    Along (Serving.turn p) (Meets (SegmentFits p)) (arrivals s requests) turns ↔
      (run (Serving.turn p) (arrivals s requests) turns).shared.requestCount =
        s.requestCount + (answers (run (Serving.turn p) (arrivals s requests) turns)).length := by
  have hstill : ∀ c turn, Meets (SegmentFits p) c turn ↔
      uncounted (Serving.turn p c turn) = uncounted c := by
    intro c turn
    rcases uncounted_turn p c turn with ⟨hfits, hsame⟩ | ⟨hraises, hmore⟩
    · exact iff_of_true hfits hsame
    · exact iff_of_false hraises (by omega)
  have hrise : ∀ c turn, uncounted c ≤ uncounted (Serving.turn p c turn) := by
    intro c turn
    rcases uncounted_turn p c turn with ⟨-, hsame⟩ | ⟨-, hmore⟩ <;> omega
  rw [along_iff_meter hstill hrise, uncounted_answered hanswered, uncounted_arrivals]
  omega

/-- Once all requests are answered, the metrics are exact if and only if nothing raised. -/
theorem countersExact_iff (p : Process) (s : AppState) (requests : List Incoming)
    (turns : List (ℕ × Moment))
    (hanswered : AllAnswered (run (Serving.turn p) (arrivals s requests) turns)) :
    CountersExact p (arrivals s requests) turns ↔
      Along (Serving.turn p) (Meets (SegmentFits p)) (arrivals s requests) turns := by
  have hrequests := requests_exact_iff p s requests turns hanswered
  constructor
  · intro h
    exact hrequests.mpr h.requests
  · intro hfits
    have hlength : (run (Serving.turn p) (arrivals s requests) turns).tasks.length =
        (arrivals s requests).tasks.length := run_length _ _
    have herrors : uncountedErrors (run (Serving.turn p) (arrivals s requests) turns) =
        uncountedErrors (arrivals s requests) :=
      invariant_run (I := fun c => uncountedErrors c = uncountedErrors (arrivals s requests))
        (fun c turn hc hturn => (uncountedErrors_turn p hturn).trans hc) rfl hfits
    have hlatencies := run_trace (fun c : Serving => c.shared.latencies)
      (fun c turn => latencies_turn p) hfits
    refine ⟨hrequests.mp hfits, ?_, ?_, ?_⟩
    · rw [uncountedErrors_answered hanswered, uncountedErrors_arrivals] at herrors
      have hshared : (arrivals s requests).shared = s := rfl
      rw [hshared]
      omega
    · apply List.perm_iff_count.mpr
      intro i
      have hcount := completions_count p i hfits
      rw [settledAt_arrivals, settledAt_answered i hanswered, hlength] at hcount
      rw [List.count_range, hcount, Nat.zero_add]
    · have hfold : (trace (Serving.turn p) completion (arrivals s requests) turns).foldl
          (fun d x => d.append x.2) (arrivals s requests).shared.latencies =
          ((completions p (arrivals s requests) turns).map Prod.snd).foldl BoundedDeque.append
            (arrivals s requests).shared.latencies := by
        rw [List.foldl_map, completions]
      rw [hlatencies, hfold, BoundedDeque.entries_foldl_append]

end Served

end Counters

section Samples

def sampleApp : AppState := ⟨⟨.fresh .absent, []⟩, .bool false, 0, 0, .empty, 30⟩

def sampleProcess : Process := ⟨fun _ => none, 0⟩

def sampleMoment (seconds : ℚ) : Moment :=
  ⟨readable, ⟨true, fun _ _ => none⟩, .error "no database", .ok 0, seconds⟩

def sampleIncoming (route : Route) (path : String) (body : Option Json) : Incoming :=
  ⟨route, some path, true, ⟨.empty, body⟩⟩

/-- A refresh that fails with status 500 beside a status request that overtakes it. -/
def sampleRequests : List Incoming :=
  [sampleIncoming .opsCacheRefresh "/ops/cache/refresh" none, sampleIncoming .status "/status" none]

def sampleTurns : List (ℕ × Moment) :=
  [(0, sampleMoment 0), (1, sampleMoment 0), (0, sampleMoment 1), (1, sampleMoment 2),
    (0, sampleMoment 3), (1, sampleMoment 3), (1, sampleMoment 4), (0, sampleMoment 6),
    (0, sampleMoment 6), (1, sampleMoment 7)]

theorem countersExact_two : @Along _ _ (@Serving.turn asciiRuntime strictFramework sampleProcess)
    (Meets (@SegmentFits asciiRuntime strictFramework sampleProcess))
    (arrivals sampleApp sampleRequests) sampleTurns := by
  let _ : Runtime := asciiRuntime
  let _ : Framework := strictFramework
  refine (countersExact_iff sampleProcess sampleApp sampleRequests sampleTurns ?_).mp ⟨?_, ?_, ?_, ?_⟩
  · decide +kernel
  · decide +kernel
  · decide +kernel
  · decide +kernel
  · decide +kernel

def drainRequest : Incoming := sampleIncoming .opsDrain "/ops/drain" (some (.arr [.int 1]))

/-- Its turns: it is logged, called, reads its body, raises, and is answered. -/
def drainTurns : List (ℕ × Moment) := List.replicate 5 (0, sampleMoment 1)

/-- A drain request without an object is answered with 500 and counted nowhere. -/
theorem drain_fault_uncounted :
    AllAnswered (run (@Serving.turn asciiRuntime strictFramework sampleProcess)
      (arrivals sampleApp [drainRequest]) drainTurns) ∧
    answers (run (@Serving.turn asciiRuntime strictFramework sampleProcess)
      (arrivals sampleApp [drainRequest]) drainTurns) = [500] ∧
    ¬ @CountersExact asciiRuntime strictFramework sampleProcess (arrivals sampleApp [drainRequest])
      drainTurns := by
  let _ : Runtime := asciiRuntime
  let _ : Framework := strictFramework
  refine ⟨by decide +kernel, by decide +kernel, ?_⟩
  intro h
  exact absurd h.requests (by decide +kernel)

end Samples

end TvEvents
