import TvEvents.Library.Atomicity
import TvEvents.Serving.Ingestion

namespace TvEvents

open Coroutines Runs

section Outcomes

/-- The state of the process apart from the metrics of the middleware. -/
def AppState.uncounted (s : AppState) : AppState :=
  { s with requestCount := 0, errorCount := 0, latencies := .empty }

/-- The status of the answer, once it is certain. -/
def Phase.outcome? : Phase → Option ℕ
  | .returned _ reply | .recorded reply => some reply.statusCode
  | .raised _ => some 500
  | .answered statusCode => some statusCode
  | _ => none

theorem replyStatus_returns {x y : Except PyExc Reply} {statusCode : ℕ}
    (hreturns : Returns x ↔ Returns y) (hx : ∀ reply, x = .ok reply → reply.statusCode = statusCode)
    (hy : ∀ reply, y = .ok reply → reply.statusCode = statusCode) :
    replyStatus x = replyStatus y := by
  cases x with
  | error e =>
    cases y with
    | error e' => rfl
    | ok reply' => exact absurd (hreturns.mpr (returns_ok reply')) (not_returns_error e)
  | ok reply =>
    cases y with
    | error e' => exact absurd (hreturns.mp (returns_ok reply)) (not_returns_error e')
    | ok reply' => exact (hx reply rfl).trans (hy reply' rfl).symm

end Outcomes

variable [Runtime] [Framework]

section Handlers

omit [Runtime] in
theorem opsMetrics_status (p : Process) (m : Moment) (s : AppState) {reply : Reply}
    (h : opsMetrics p m s = .ok reply) : reply.statusCode = 200 := by
  obtain ⟨entries, -, hreply⟩ := Except.bind_eq_ok.mp h
  exact jsonResponse_status hreply

/-- No handler decides by the metrics what it does, or what status it answers. -/
theorem handle_uncounted (p : Process) (m : Moment) (incoming : Incoming) (s : AppState) :
    (handle p m incoming s.uncounted).2 = (handle p m incoming s).2.uncounted ∧
      replyStatus (handle p m incoming s.uncounted).1 = replyStatus (handle p m incoming s).1 ∧
      handlerAttempts p m s.uncounted incoming = handlerAttempts p m s incoming := by
  obtain ⟨route, urlPath, loggable, request⟩ := incoming
  unfold handle handlerAttempts
  cases route with
  | opsStatus =>
    refine ⟨rfl, ?_, rfl⟩
    have hreturns : Returns (opsStatus p m s.uncounted) ↔ Returns (opsStatus p m s) := by
      rw [opsStatus_returns, opsStatus_returns]
      rfl
    exact replyStatus_returns hreturns (fun _ => jsonResponse_status) (fun _ => jsonResponse_status)
  | opsMetrics =>
    refine ⟨rfl, ?_, rfl⟩
    have hreturns : Returns (opsMetrics p m s.uncounted) ↔ Returns (opsMetrics p m s) := by
      rw [opsMetrics_returns, opsMetrics_returns]
      rfl
    exact replyStatus_returns hreturns (fun _ => opsMetrics_status p m _)
      (fun _ => opsMetrics_status p m s)
  | opsCacheRefresh | opsCacheFlush =>
    refine ⟨?_, ?_, rfl⟩
    · simp only [opsCacheRefresh, opsCacheFlush, answerRefresh, AppState.uncounted]
      split <;> rfl
    · exact congrArg replyStatus (answerRefresh_answer _ _ m rfl)
  | opsDrain =>
    simp only [opsDrain]
    cases request.body with
    | none => exact ⟨rfl, rfl, trivial⟩
    | some body =>
      simp only
      cases body.get "enabled" (.bool true) <;> exact ⟨rfl, rfl, trivial⟩
  | opsLoglevel =>
    simp only [opsLoglevel]
    repeat' split
    all_goals exact ⟨rfl, rfl, trivial⟩
  | sendRequest | status | opsHealth | opsConfig | opsDependencies | opsCache | opsErrors | health |
    opsCircuits | opsScale | other _ => exact ⟨rfl, rfl, rfl⟩

end Handlers

section Atomicity

/-- A request served as a whole: the state after it, the status of its answer, and its calls of
`send_message`. -/
def serveAlone (p : Process) (incoming : Incoming) (m : Moment) (s : AppState) :
    AppState × ℕ × List Attempt :=
  match logRequest incoming with
  | .error _ => (s, 500, [])
  | .ok _ =>
    let handled := handle p m incoming s
    (handled.2, replyStatus handled.1, handlerAttempts p m s incoming)

/-- A `POST /` whose access log can be written is the business of `send_request`. -/
theorem serveAlone_sendRequest (p : Process) {incoming : Incoming}
    (hroute : incoming.route = .sendRequest) {u : Unit} (hlog : logRequest incoming = .ok u)
    (m : Moment) (s : AppState) : (serveAlone p incoming m s).2 =
      (replyStatus (answerSendRequest p m incoming.request s).1,
        (sendRequest p.env m.tick m.kafka incoming.request s.service).attempts) := by
  simp only [serveAlone, hlog, handle, handlerAttempts, hroute]

omit [Runtime] [Framework] in
/-- The next segment of the task is the one that counts: its handler runs, or its access log fails. -/
def Task.acts (t : Task) : Bool :=
  match t.phase with
  | .arrived => !(logRequest t.incoming).isOk
  | _ => t.runsHandler

/-- A request that waits for its handler has been logged. -/
def Task.Admitted (t : Task) : Prop :=
  match t.phase with
  | .logged | .called _ | .reading _ => logRequest t.incoming = .ok ()
  | _ => True

theorem serving_atomic (p : Process) : Atomic (segment p) AppState.uncounted Task.Admitted
    Task.incoming Task.acts (fun t => t.phase.outcome?) (ingestion p).shows (serveAlone p) where
  kept := segment_incoming p
  stays m s t hgood := by
    obtain ⟨incoming, phase⟩ := t
    cases phase with
    | arrived =>
      simp only [segment]
      cases hlog : logRequest incoming with
      | ok u => exact hlog
      | error e => trivial
    | logged => exact hgood
    | called start =>
      simp only [segment]
      split_ifs
      · exact hgood
      · cases (handle p m incoming s).1 <;> trivial
    | reading start =>
      simp only [segment]
      cases (handle p m incoming s).1 <;> trivial
    | returned _ _ | recorded _ | raised _ | answered _ => trivial
  silent m s t hgood hacts := by
    obtain ⟨incoming, phase⟩ := t
    cases phase with
    | arrived =>
      simp only [segment]
      cases hlog : logRequest incoming with
      | ok u => exact ⟨rfl, rfl, rfl⟩
      | error e => simp [Task.acts, hlog, Except.isOk, Except.toBool] at hacts
    | called start =>
      simp only [Task.acts, Task.runsHandler, Bool.not_eq_false'] at hacts
      simp only [segment, Concern.shows, Task.runsHandler, hacts]
      exact ⟨rfl, rfl, rfl⟩
    | reading start => cases hacts
    | logged | returned _ _ | recorded _ | raised _ | answered _ => exact ⟨rfl, rfl, rfl⟩
  acting m s t hgood hacts := by
    obtain ⟨hstate, hstatus, hattempts⟩ := handle_uncounted p m t.incoming s
    have hhandler : t.runsHandler = true → logRequest t.incoming = .ok () → ∃ statusCode,
        serveAlone p t.incoming m s.uncounted = ((segment p m s t).1.uncounted, statusCode,
          (ingestion p).shows m s t) ∧ (segment p m s t).2.phase.outcome? = some statusCode := by
      intro hruns hlog
      refine ⟨replyStatus (handle p m t.incoming s).1, ?_, ?_⟩
      · rw [segment_handler p m s hruns, serveAlone, hlog]
        simp only [hstate, hstatus, hattempts, Concern.shows, hruns]
        rfl
      · rw [segment_handler p m s hruns]
        cases (handle p m t.incoming s).1 <;> rfl
    obtain ⟨incoming, phase⟩ := t
    cases phase with
    | arrived =>
      cases hlog : logRequest incoming with
      | ok u => simp [Task.acts, hlog, Except.isOk, Except.toBool] at hacts
      | error e => exact ⟨500, by simp [serveAlone, segment, hlog, Concern.shows, Task.runsHandler],
          by simp [segment, hlog, Phase.outcome?]⟩
    | called start => exact hhandler hacts hgood
    | reading start => exact hhandler hacts hgood
    | logged | returned _ _ | recorded _ | raised _ | answered _ => cases hacts
  fresh := by
    rintro ⟨incoming, phase⟩ hacts
    cases phase with
    | arrived | called start | reading start => rfl
    | logged | returned _ _ | recorded _ | raised _ | answered _ => cases hacts

end Atomicity

section Runs

def servedTurns (p : Process) (s : AppState) (requests : List Incoming)
    (turns : List (ℕ × Moment)) : List (ℕ × Moment) :=
  order Task.acts (segment p) (arrivals s requests) turns

/-- The requests served as wholes in this order: for each its status and its calls. -/
def servedLog (p : Process) (s : AppState) (requests : List Incoming)
    (turns : List (ℕ × Moment)) : List (ℕ × ℕ × List Attempt) :=
  serialLog (serveAlone p) requests s.uncounted (servedTurns p s requests turns)

omit [Runtime] [Framework] in
theorem arrivals_incoming (s : AppState) (requests : List Incoming) :
    (arrivals s requests).tasks.map Task.incoming = requests := by
  rw [arrivals, List.map_map]
  exact List.map_id _

omit [Runtime] [Framework] in
theorem arrivals_admitted (s : AppState) (requests : List Incoming) :
    ∀ t ∈ (arrivals s requests).tasks, t.Admitted := by
  intro t ht
  obtain ⟨incoming, -, rfl⟩ := List.mem_map.mp ht
  trivial

theorem servedTurns_once (p : Process) (s : AppState) (requests : List Incoming)
    (turns : List (ℕ × Moment)) : ((servedTurns p s requests turns).map Prod.fst).Nodup :=
  ((serving_atomic p).order_once (arrivals_admitted s requests) turns).1

theorem servedLog_once (p : Process) (s : AppState) (requests : List Incoming)
    (turns : List (ℕ × Moment)) : ((servedLog p s requests turns).map Prod.fst).Nodup :=
  (serialLog_keys _ _).nodup (servedTurns_once p s requests turns)

theorem served_uncounted (p : Process) (s : AppState) (requests : List Incoming)
    (turns : List (ℕ × Moment)) :
    (run (Serving.turn p) (arrivals s requests) turns).shared.uncounted =
      run (serialStep (serveAlone p) requests) s.uncounted (servedTurns p s requests turns) := by
  have hserial := ((serving_atomic p).run (arrivals_admitted s requests) turns).1
  rw [arrivals_incoming] at hserial
  exact hserial

theorem servedLog_kafka (p : Process) (s : AppState) (requests : List Incoming)
    (turns : List (ℕ × Moment)) : kafkaLog p (arrivals s requests) turns =
      (servedLog p s requests turns).flatMap fun e => e.2.2 := by
  have hserial := ((serving_atomic p).run (arrivals_admitted s requests) turns).2.1
  rw [arrivals_incoming] at hserial
  exact hserial

omit [Runtime] [Framework] in
def answerAt (i : ℕ) (c : Serving) : Option ℕ := (c.tasks[i]?).bind fun t => t.phase.answer?

/-- Every answer that is sent is that of the request served as a whole. -/
theorem answerAt_logged (p : Process) (s : AppState) (requests : List Incoming)
    (turns : List (ℕ × Moment)) {i statusCode : ℕ}
    (h : answerAt i (run (Serving.turn p) (arrivals s requests) turns) = some statusCode) :
    ∃ attempts, (i, statusCode, attempts) ∈ servedLog p s requests turns := by
  have houtcome : outcomeAt (fun t => t.phase.outcome?) i
      (run (step (segment p)) (arrivals s requests) turns) = some statusCode := by
    obtain ⟨t, ht, hanswer⟩ := Option.bind_eq_some_iff.mp h
    apply Option.bind_eq_some_iff.mpr
    refine ⟨t, ht, ?_⟩
    cases hphase : t.phase with
    | answered code =>
      rw [hphase] at hanswer
      exact hanswer
    | arrived | logged | called _ | reading _ | returned _ _ | recorded _ | raised _ =>
      rw [hphase] at hanswer
      cases hanswer
  have hserial := ((serving_atomic p).run (arrivals_admitted s requests) turns).2.2
  rw [arrivals_incoming] at hserial
  rcases hserial i statusCode houtcome with hbefore | hlogged
  · obtain ⟨t, ht, hnone⟩ := Option.bind_eq_some_iff.mp hbefore
    obtain ⟨incoming, -, rfl⟩ := List.mem_map.mp (List.mem_of_getElem? ht)
    cases hnone
  · exact hlogged

/-- An answer is that of the request served as a whole, where it stands in the order. -/
theorem answered_served (p : Process) (s : AppState) (requests : List Incoming)
    (turns : List (ℕ × Moment)) {i statusCode : ℕ} {incoming : Incoming}
    (hrequest : requests[i]? = some incoming)
    (h : answerAt i (run (Serving.turn p) (arrivals s requests) turns) = some statusCode) :
    ∃ before m after attempts, servedTurns p s requests turns = before ++ (i, m) :: after ∧
      (i, statusCode, attempts) ∈ servedLog p s requests turns ∧
      (statusCode, attempts) = (serveAlone p incoming m
        (run (serialStep (serveAlone p) requests) s.uncounted before)).2 := by
  obtain ⟨attempts, hmem⟩ := answerAt_logged p s requests turns h
  obtain ⟨before, m, after, incoming', hsplit, hkey, hentry⟩ := serialLog_mem hmem
  obtain rfl : incoming = incoming' := Option.some.inj (hrequest.symm.trans hkey)
  exact ⟨before, m, after, attempts, hsplit, hmem, hentry⟩

theorem servedTurns_mem {p : Process} {s : AppState} {requests : List Incoming}
    {turns before after : List (ℕ × Moment)} {served : ℕ × Moment}
    (h : servedTurns p s requests turns = before ++ served :: after) :
    served ∈ turns ∧ ∀ turn ∈ before, turn ∈ turns := by
  have hsubset : ∀ turn ∈ before ++ served :: after, turn ∈ turns := by
    rw [← h]
    exact fun turn hturn => (order_sublist _ _ _ _).subset hturn
  exact ⟨hsubset served (by simp), fun turn hturn => hsubset turn (List.mem_append_left _ hturn)⟩

/-- Serializability: whatever turns the requests take, each is served at most once, in one of its own
turns, and the state apart from the metrics, the sends and the answers are those of a process that
serves the requests as wholes, one after the other in the order of these turns. -/
theorem serving_serial (p : Process) (s : AppState) (requests : List Incoming)
    (turns : List (ℕ × Moment)) :
    let final := run (Serving.turn p) (arrivals s requests) turns
    let served := servedTurns p s requests turns
    let log := serialLog (serveAlone p) requests s.uncounted served
    served.Sublist turns ∧ (served.map Prod.fst).Nodup ∧
      final.shared.uncounted = run (serialStep (serveAlone p) requests) s.uncounted served ∧
      kafkaLog p (arrivals s requests) turns = log.flatMap (fun e => e.2.2) ∧
      ∀ i statusCode, answerAt i final = some statusCode →
        ∃ attempts, (i, statusCode, attempts) ∈ log := by
  intro final served log
  exact ⟨order_sublist _ _ _ _, servedTurns_once p s requests turns,
    served_uncounted p s requests turns, servedLog_kafka p s requests turns,
    fun i statusCode => answerAt_logged p s requests turns⟩

end Runs

section Samples

omit [Runtime] [Framework]

def overtaking (m : Moment) : List (ℕ × Moment) :=
  List.replicate 3 (0, m) ++ List.replicate 6 (1, m) ++ List.replicate 3 (0, m)

theorem serving_serial_overtaken :
    let _ : Runtime := asciiRuntime
    let _ : Framework := strictFramework
    let s := (servingBeside (.bool false) samplePostRequest).shared
    let requests := [samplePostRequest, samplePostRequest]
    let turns := overtaking (sampleMoment 1)
    (servedTurns servingProcess s requests turns).map Prod.fst = [1, 0] ∧
      (∃ attempts, (0, 200, attempts) ∈ serialLog (serveAlone servingProcess) requests s.uncounted
        (servedTurns servingProcess s requests turns)) := by
  intro _ _ s requests turns
  have hanswered : answerAt 0 (run (Serving.turn servingProcess) (arrivals s requests) turns) =
      some 200 := by decide +kernel
  obtain ⟨-, -, -, -, hanswers⟩ := serving_serial servingProcess s requests turns
  exact ⟨by decide +kernel, hanswers 0 200 hanswered⟩

end Samples

end TvEvents
