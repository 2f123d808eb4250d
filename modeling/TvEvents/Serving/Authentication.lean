import TvEvents.Serving.Ingestion

namespace TvEvents

open Coroutines Runs

variable [Runtime]

section Gate

def Request.authentic (env : Env) (request : Request) : Bool :=
  match request.body, saltKey env with
  | some payload, some salt =>
    str (tvEventField payload "h") = securityHashToken (strParam (request.urlParams.get? "tvid")) salt
  | _, _ => false

/-- A request that may work on ingestion: a refresh, or an authentic `POST /`. -/
def Incoming.admitted (env : Env) (incoming : Incoming) : Bool :=
  match incoming.route with
  | .sendRequest => incoming.request.authentic env
  | .opsCacheRefresh | .opsCacheFlush => true
  | _ => false

theorem authentic_of_valid {env : Env} {request : Request} {payload : Json} {b : Bool}
    (hbody : request.body = some payload)
    (h : validateRequest env request.urlParams payload = .ok b) : request.authentic env = true := by
  have haccepted := ((validateRequest_iff env request.urlParams payload b).mp h).2
  obtain ⟨salt, hsalt, hhash⟩ := haccepted.hash
  unfold Request.authentic
  rw [hbody, hsalt]
  exact decide_eq_true hhash

/-- A request that is not authentic sends nothing and leaves the cache alone. -/
theorem sendRequest_unauthentic {env : Env} {request : Request}
    (h : request.authentic env = false) (t : Tick) (kafka : Kafka) (service : Service) :
    (sendRequest env t kafka request service).attempts = [] ∧
      (sendRequest env t kafka request service).service.cache = service.cache := by
  unfold sendRequest
  cases hbody : request.body with
  | none => exact ⟨rfl, rfl⟩
  | some payload =>
    cases hvalid : validateRequest env request.urlParams payload with
    | error e =>
      simp only [hvalid]
      exact ⟨trivial, answerError_cache _ _ _ _⟩
    | ok b =>
      have hauthentic := authentic_of_valid hbody hvalid
      rw [h] at hauthentic
      cases hauthentic

/-- The errors recorded so far have no say in what is answered and sent. -/
theorem sendRequest_cached (env : Env) (t : Tick) (kafka : Kafka) (request : Request)
    {service service' : Service} (h : service.cache = service'.cache) :
    let served := sendRequest env t kafka request service
    let served' := sendRequest env t kafka request service'
    served.response = served'.response ∧ served.attempts = served'.attempts ∧
      served.service.cache = served'.service.cache := by
  have hresponse : ∀ now tvid e (s s' : Service),
      (answerError now tvid e s).1 = (answerError now tvid e s').1 := by
    intro now tvid e s s'
    cases e <;> rfl
  intro served served'
  unfold served served' sendRequest
  cases request.body with
  | none => exact ⟨rfl, rfl, h⟩
  | some payload =>
    cases hvalid : validateRequest env request.urlParams payload with
    | error e =>
      simp only [hvalid, answerError_cache]
      exact ⟨hresponse _ _ _ _ _, trivial, h⟩
    | ok b =>
      simp only [hvalid, h]
      cases (pushChangesToKafka env t kafka payload service'.cache).result with
      | error e =>
        simp only [answerError_cache]
        exact ⟨hresponse _ _ _ _ _, trivial, trivial⟩
      | ok u => exact ⟨rfl, rfl, rfl⟩

end Gate

variable [Framework]

section Concerns

/-- The blacklist is the business of admitted requests. -/
def admittedIngestion (p : Process) : Concern p BlacklistCache Attempt where
  view s := s.service.cache
  owns := Incoming.admitted p.env
  fits _ := True
  emits := handlerAttempts p
  agrees := Eq
  inv _ := True
  alike _ := rfl
  clock h := congrArg Moment.monotonic h
  metrics _ _ _ _ := rfl
  silent m s incoming _ howns := by
    cases hingests : incoming.route.ingests with
    | false =>
      obtain ⟨hservice, hnone⟩ := handle_idle p m hingests s
      exact ⟨by rw [hservice], hnone⟩
    | true =>
      obtain ⟨route, urlPath, loggable, request⟩ := incoming
      cases route with
      | sendRequest =>
        obtain ⟨hnone, hcache⟩ := sendRequest_unauthentic howns m.tick m.kafka s.service
        exact ⟨hcache, hnone⟩
      | opsCacheRefresh | opsCacheFlush => cases howns
      | opsDrain | opsLoglevel | status | opsHealth | opsConfig | opsDependencies | opsCache |
        opsErrors | health | opsStatus | opsMetrics | opsCircuits | opsScale | other _ =>
        cases hingests
  respects := by
    rintro m _ s s' ⟨route, urlPath, loggable, request⟩ - howns rfl - hcache
    unfold handle handlerAttempts
    cases route with
    | sendRequest =>
      obtain ⟨hresponse, hattempts, hnext⟩ :=
        sendRequest_cached p.env m.tick m.kafka request hcache
      simp only [answerSendRequest, hresponse]
      exact ⟨hnext, trivial, hattempts⟩
    | opsCacheRefresh | opsCacheFlush =>
      refine ⟨?_, answerRefresh_answer _ _ m hcache, rfl⟩
      simp only [opsCacheRefresh, opsCacheFlush, answerRefresh_service, hcache]
    | opsDrain | opsLoglevel | status | opsHealth | opsConfig | opsDependencies | opsCache |
      opsErrors | health | opsStatus | opsMetrics | opsCircuits | opsScale | other _ => cases howns
  stays _ _ _ _ _ _ := trivial

end Concerns

section Results

/-- Clients without the hash have no influence: whatever requests to `POST /` arrive whose hash does
not fit, and in whatever order they take turns with the others, the blacklist, the sends and the
answers to all admitted requests are those of a process in which they never arrived. -/
theorem unauthenticated_harmless (p : Process) {c c' : Serving} {turns turns' : List (ℕ × Moment)}
    (hsame : SameView (fun s => s.service.cache) (fun t => t.incoming.admitted p.env) c c')
    (hturns : turns.filter (moves (fun t => t.incoming.admitted p.env) c) =
      turns'.filter (moves (fun t => t.incoming.admitted p.env) c')) :
    SameView (fun s => s.service.cache) (fun t => t.incoming.admitted p.env)
        (run (Serving.turn p) c turns) (run (Serving.turn p) c' turns') ∧
      kafkaLog p c turns = kafkaLog p c' turns' := by
  have halike : List.Forall₂ (Alike (admittedIngestion p).agrees)
      (turns.filter (moves (fun t => t.incoming.admitted p.env) c))
      (turns'.filter (moves (fun t => t.incoming.admitted p.env) c')) := by
    rw [hturns]
    exact List.forall₂_same.mpr fun turn _ => ⟨rfl, rfl⟩
  exact (admittedIngestion p).unwinds.run (fun _ _ => trivial) (fun _ _ => trivial) hsame trivial
    halike

end Results

section Samples

omit [Runtime] [Framework]

def sampleForged : Incoming :=
  { samplePostRequest with request := { samplePostRequest.request with urlParams := .empty } }

theorem unauthenticated_harmless_forged :
    let _ : Runtime := asciiRuntime
    let _ : Framework := strictFramework
    let c := servingBeside (.bool false) sampleForged
    let c' := servingBeside (.bool false) (sampleIncoming .status "/status" none)
    let turns := alternating (sampleMoment 1) (sampleMoment 2)
    (kafkaLog servingProcess c turns).length = 1 ∧
      kafkaLog servingProcess c turns =
        kafkaLog servingProcess c' (List.replicate 6 (0, sampleMoment 1)) := by
  intro _ _ c c' turns
  have hsame : SameView (fun s => s.service.cache)
      (fun t => t.incoming.admitted servingProcess.env) c c' := ⟨rfl, rfl⟩
  have hturns : turns.filter (moves (fun t => t.incoming.admitted servingProcess.env) c) =
      (List.replicate 6 (0, sampleMoment 1)).filter
        (moves (fun t => t.incoming.admitted servingProcess.env) c') := rfl
  have hharmless := unauthenticated_harmless servingProcess hsame hturns
  exact ⟨by decide +kernel, hharmless.2⟩

end Samples

end TvEvents
