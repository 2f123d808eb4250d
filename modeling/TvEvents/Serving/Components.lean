import TvEvents.Cache.Coherence
import TvEvents.Serving.Serial

namespace TvEvents

open Coroutines Runs BlacklistCache

section Commands

/-- The mode that a request to `/ops/drain` sets; it is set even when its answer fails. -/
def drainCommand (incoming : Incoming) : Option Json :=
  match incoming.route, logRequest incoming, incoming.request.body with
  | .opsDrain, .ok _, some body => (body.get "enabled" (.bool true)).toOption
  | _, _, _ => none

def drainCommands (requests : List Incoming) (served : List (ℕ × Moment)) : List Json :=
  served.filterMap fun turn => (requests[turn.1]?).bind drainCommand

end Commands

variable [Runtime] [Framework]

section Drain

theorem serveAlone_drainMode (p : Process) (incoming : Incoming) (m : Moment) (s : AppState) :
    (serveAlone p incoming m s).1.drainMode = (drainCommand incoming).getD s.drainMode := by
  unfold serveAlone drainCommand
  cases logRequest incoming with
  | error e => cases incoming.route <;> rfl
  | ok u =>
    obtain ⟨route, urlPath, loggable, request⟩ := incoming
    unfold handle
    cases route with
    | opsDrain =>
      simp only [opsDrain]
      cases request.body with
      | none => rfl
      | some body =>
        simp only
        cases body.get "enabled" (.bool true) <;> rfl
    | opsLoglevel =>
      simp only [opsLoglevel]
      repeat' split
      all_goals rfl
    | opsCacheRefresh | opsCacheFlush =>
      simp only [opsCacheRefresh, opsCacheFlush, answerRefresh]
      split <;> rfl
    | sendRequest | status | opsHealth | opsConfig | opsDependencies | opsCache | opsErrors |
      health | opsStatus | opsMetrics | opsCircuits | opsScale | other _ => rfl

/-- The drain mode is a register: it holds what was written last. -/
theorem drainMode_run (p : Process) (requests : List Incoming) (s : AppState)
    (served : List (ℕ × Moment)) : (run (serialStep (serveAlone p) requests) s served).drainMode =
      (drainCommands requests served).getLastD s.drainMode := by
  have hstep : ∀ (s : AppState) (turn : ℕ × Moment), True →
      True ∧ (serialStep (serveAlone p) requests s turn).drainMode =
        ((requests[turn.1]?).bind drainCommand).getD s.drainMode := by
    intro s turn _
    refine ⟨trivial, ?_⟩
    unfold serialStep
    cases requests[turn.1]? with
    | none => rfl
    | some incoming => exact serveAlone_drainMode p incoming turn.2 s
  exact (register_run hstep trivial served).2

omit [Runtime] in
theorem health_status (m : Moment) (s : AppState) : replyStatus (health m s) =
    if s.drainMode.truthy ∨ (m.rdsProbe.works && m.kafkaProbe.works) = false then 503 else 200 := by
  obtain ⟨reply, hreply⟩ := health_returns m s
  rw [hreply]
  unfold health at hreply
  by_cases hdrain : s.drainMode.truthy = true
  · rw [if_pos hdrain] at hreply
    rw [if_pos (.inl hdrain)]
    exact jsonResponse_status hreply
  · rw [if_neg hdrain] at hreply
    have hstatus := jsonResponse_status hreply
    cases hworks : m.rdsProbe.works && m.kafkaProbe.works with
    | false =>
      rw [hworks] at hstatus
      rw [if_pos (.inr rfl)]
      exact hstatus
    | true =>
      rw [hworks] at hstatus
      rw [if_neg (by simp [hdrain])]
      exact hstatus

/-- Readiness follows the drain requests: a health check answers 503 exactly when the last of the
drain requests served before it has set a truthy mode, or a probe fails in its turn, and else 200. -/
theorem health_drains (p : Process) (s : AppState) (requests : List Incoming)
    (turns : List (ℕ × Moment)) {i statusCode : ℕ} {incoming : Incoming}
    (hrequest : requests[i]? = some incoming) (hroute : incoming.route = .health)
    (hlogs : Logs incoming)
    (hanswer : answerAt i (run (Serving.turn p) (arrivals s requests) turns) = some statusCode) :
    ∃ before m after, servedTurns p s requests turns = before ++ (i, m) :: after ∧
      statusCode = if ((drainCommands requests before).getLastD s.drainMode).truthy ∨
        (m.rdsProbe.works && m.kafkaProbe.works) = false then 503 else 200 := by
  obtain ⟨before, m, after, attempts, hsplit, -, hentry⟩ :=
    answered_served p s requests turns hrequest hanswer
  obtain ⟨u, hlog⟩ := (logRequest_returns incoming).mpr hlogs
  refine ⟨before, m, after, hsplit, ?_⟩
  have hstatus := congrArg Prod.fst hentry
  rw [serveAlone, hlog] at hstatus
  have hhealth : ∀ s', handle p m incoming s' = (health m s', s') := by
    intro s'
    rw [handle, hroute]
  simp only [hhealth, health_status, drainMode_run] at hstatus
  exact hstatus

end Drain

section Cache

omit [Framework] in
/-- What the delivery of an output asks the cache: whether its channel is listed, unless it is blocked
anyway. -/
def lookupOf (t : Tick) : Except PyExc (OrderedMap String Json) → List CacheOp
  | .error _ => []
  | .ok out =>
    if isContentBlocked out then [] else [.isBlacklisted t ((out.get? "channelid").getD .null)]

omit [Framework] in
/-- What a request to `POST /` asks the cache, once its event is accepted. -/
def lookups (env : Env) (t : Tick) (request : Request) : List CacheOp :=
  match request.body with
  | none => []
  | some payload =>
    match validateRequest env request.urlParams payload with
    | .error _ => []
    | .ok _ => lookupOf t (generateOutputJson env payload)

omit [Framework] in
def cacheOps (p : Process) (incoming : Incoming) (m : Moment) : List CacheOp :=
  match logRequest incoming, incoming.route with
  | .ok _, .sendRequest => lookups p.env m.tick incoming.request
  | .ok _, .opsCacheRefresh | .ok _, .opsCacheFlush => [.refresh m.tick]
  | _, _ => []

omit [Framework] in
def servedOps (p : Process) (requests : List Incoming) (served : List (ℕ × Moment)) :
    List CacheOp :=
  served.flatMap fun turn => ((requests[turn.1]?).map fun incoming =>
    cacheOps p incoming turn.2).getD []

omit [Framework] in
theorem pushChangesToKafka_cache (env : Env) (t : Tick) (kafka : Kafka) (payload : Json)
    (cache : BlacklistCache) : (pushChangesToKafka env t kafka payload cache).cache =
      run cacheStep cache (lookupOf t (generateOutputJson env payload)) := by
  unfold pushChangesToKafka shouldObfuscateChannel
  cases generateOutputJson env payload with
  | error e => rfl
  | ok out =>
    simp only [lookupOf]
    split_ifs
    · rfl
    · have hlookup : run cacheStep cache [.isBlacklisted t ((out.get? "channelid").getD .null)] =
          (isBlacklisted t ((out.get? "channelid").getD .null) cache).2 := rfl
      rw [hlookup]
      rcases isBlacklisted t ((out.get? "channelid").getD .null) cache with ⟨decision, cache'⟩
      cases decision <;> rfl

omit [Framework] in
theorem sendRequest_cache (env : Env) (t : Tick) (kafka : Kafka) (request : Request)
    (service : Service) : (sendRequest env t kafka request service).service.cache =
      run cacheStep service.cache (lookups env t request) := by
  unfold sendRequest lookups
  cases request.body with
  | none => rfl
  | some payload =>
    cases hvalid : validateRequest env request.urlParams payload with
    | error e =>
      simp only [hvalid]
      exact answerError_cache _ _ _ _
    | ok b =>
      have hpush := pushChangesToKafka_cache env t kafka payload service.cache
      simp only [hvalid]
      cases (pushChangesToKafka env t kafka payload service.cache).result with
      | error e => exact (answerError_cache _ _ _ _).trans hpush
      | ok u => exact hpush

theorem serveAlone_cache (p : Process) (incoming : Incoming) (m : Moment) (s : AppState) :
    (serveAlone p incoming m s).1.service.cache =
      run cacheStep s.service.cache (cacheOps p incoming m) := by
  unfold serveAlone cacheOps
  cases logRequest incoming with
  | error e => rfl
  | ok u =>
    cases hingests : incoming.route.ingests with
    | false =>
      have hidle := (handle_idle p m hingests s).1
      simp only [hidle]
      cases hroute : incoming.route <;> first | rfl | (rw [hroute] at hingests; cases hingests)
    | true =>
      obtain ⟨route, urlPath, loggable, request⟩ := incoming
      unfold handle
      cases route with
      | sendRequest => exact sendRequest_cache p.env m.tick m.kafka request s.service
      | opsCacheRefresh | opsCacheFlush =>
        simp only [opsCacheRefresh, opsCacheFlush, answerRefresh_service]
        rfl
      | opsDrain | opsLoglevel | status | opsHealth | opsConfig | opsDependencies | opsCache |
        opsErrors | health | opsStatus | opsMetrics | opsCircuits | opsScale | other _ =>
        cases hingests

/-- The process refines the cache machine: in every interleaving its blacklist is where the machine
gets with the operations of the served requests, in the order in which they are served. -/
theorem serving_cache (p : Process) (s : AppState) (requests : List Incoming)
    (turns : List (ℕ × Moment)) :
    (run (Serving.turn p) (arrivals s requests) turns).shared.service.cache =
      run cacheStep s.service.cache (servedOps p requests (servedTurns p s requests turns)) := by
  have hserial := served_uncounted p s requests turns
  have hcache : ∀ (served : List (ℕ × Moment)) (s : AppState),
      (run (serialStep (serveAlone p) requests) s served).service.cache =
        run cacheStep s.service.cache (servedOps p requests served) := by
    intro served
    induction served with
    | nil => exact fun _ => rfl
    | cons turn served ih =>
      intro s
      have hcons : servedOps p requests (turn :: served) = ((requests[turn.1]?).map fun incoming =>
          cacheOps p incoming turn.2).getD [] ++ servedOps p requests served := List.flatMap_cons
      rw [run_cons, ih, hcons, run_append]
      unfold serialStep
      cases requests[turn.1]? with
      | none => rfl
      | some incoming =>
        simp only [serveAlone_cache]
        rfl
  have hview := congrArg (fun s => s.service.cache) hserial
  exact hview.trans (hcache _ _)

omit [Framework] in
theorem cacheOps_cases {p : Process} {incoming : Incoming} {m : Moment} :
    ∀ op ∈ cacheOps p incoming m, (∃ c, op = .isBlacklisted m.tick c) ∨ op = .refresh m.tick := by
  intro op hop
  unfold cacheOps lookups lookupOf at hop
  repeat' split at hop
  all_goals first
    | exact absurd hop List.not_mem_nil
    | exact .inl ⟨_, List.mem_singleton.mp hop⟩
    | exact .inr (List.mem_singleton.mp hop)

omit [Framework] in
theorem servedOps_tick {p : Process} {requests : List Incoming} {served : List (ℕ × Moment)}
    {op : CacheOp} (h : op ∈ servedOps p requests served) :
    ∃ turn ∈ served, op.tick = turn.2.tick := by
  obtain ⟨turn, hturn, hop⟩ := List.mem_flatMap.mp h
  refine ⟨turn, hturn, ?_⟩
  cases hkey : requests[turn.1]? with
  | none =>
    rw [hkey] at hop
    cases hop
  | some incoming =>
    rw [hkey, Option.map_some, Option.getD_some] at hop
    rcases cacheOps_cases op hop with ⟨c, rfl⟩ | rfl
    · rfl
    · rfl

end Cache

section Samples

omit [Runtime] [Framework]

/-- A drain request whose mode is a text: "false" is truthy. -/
def sampleDrain : Incoming :=
  sampleIncoming .opsDrain "/ops/drain" (some (.obj [("enabled", .str "false")]))

theorem health_drains_text :
    let _ : Runtime := asciiRuntime
    let _ : Framework := strictFramework
    let requests := [sampleDrain, sampleIncoming .health "/health" none]
    let turns := List.replicate 6 (0, sampleMoment 1) ++ List.replicate 5 (1, sampleMoment 2)
    ∃ before m after, servedTurns servingProcess sampleApp requests turns =
        before ++ (1, m) :: after ∧
      503 = if ((drainCommands requests before).getLastD sampleApp.drainMode).truthy ∨
        (m.rdsProbe.works && m.kafkaProbe.works) = false then 503 else 200 := by
  intro _ _ requests turns
  have hanswer : answerAt 1 (run (Serving.turn servingProcess) (arrivals sampleApp requests) turns) =
      some 503 := by decide +kernel
  exact health_drains servingProcess sampleApp requests turns rfl rfl ⟨"/health", rfl, by decide⟩
    hanswer

end Samples

end TvEvents
