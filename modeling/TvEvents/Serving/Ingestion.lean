import TvEvents.Delivery.Identity
import TvEvents.Metrics.Counters
import TvEvents.Serving.Isolation

namespace TvEvents

open Coroutines Runs

def Route.ingests : Route → Bool
  | .sendRequest | .opsCacheRefresh | .opsCacheFlush => true
  | _ => false

def Route.posts : Route → Bool
  | .sendRequest => true
  | _ => false

theorem posts_iff (route : Route) : route.posts = true ↔ route = .sendRequest := by
  cases route <;> simp [Route.posts]

/-- Moments that differ in the database, the cache file and the probes only. -/
structure SameWorkload (m m' : Moment) : Prop where
  kafka : m.kafka = m'.kafka
  now : m.tick.now = m'.tick.now
  monotonic : m.monotonic = m'.monotonic

theorem SameWorkload.refl (m : Moment) : SameWorkload m m := ⟨rfl, rfl, rfl⟩

section Cache

variable [Runtime]

def Warm (service : Service) : Prop := service.cache.channelIds.isSome = true

instance (service : Service) : Decidable (Warm service) :=
  inferInstanceAs (Decidable (service.cache.channelIds.isSome = true))

theorem answerError_cache (now : ℚ) (tvid : String) (e : PyExc) (service : Service) :
    (answerError now tvid e service).2.cache = service.cache := by
  cases e <;> rfl

/-- A start that does not raise loads the blacklist, be it from the file or empty. -/
theorem initializeCache_warm {t : Tick} {s s' : BlacklistCache}
    (h : s.initializeCache t = (.ok (), s')) : s'.channelIds.isSome = true := by
  have hfallback : ∀ {s : BlacklistCache}, s.initializeFallback t = (.ok (), s') →
      s'.channelIds.isSome = true := by
    intro s h
    unfold BlacklistCache.initializeFallback at h
    split at h
    · cases (Prod.mk.inj h).1
    · rw [← (Prod.mk.inj h).2]
      rfl
    · rw [← (Prod.mk.inj h).2]
      rfl
  unfold BlacklistCache.initializeCache at h
  simp only at h
  split_ifs at h
  · exact hfallback h
  · split at h
    · rw [← (Prod.mk.inj h).2]
      rfl
    · exact hfallback h

/-- `lifespan` up to where the process serves: the state of the modules, above the blacklist that the
start has found. -/
def lifespan (t : Tick) (file : CacheFile) : Except PyExc AppState :=
  match (BlacklistCache.fresh file).initializeCache t with
  | (.ok _, cache) => .ok ⟨⟨cache, []⟩, .bool false, 0, 0, .empty, 30⟩
  | (.error e, _) => .error e

theorem lifespan_warm {t : Tick} {file : CacheFile} {s : AppState}
    (h : lifespan t file = .ok s) : Warm s.service := by
  unfold lifespan at h
  rcases hstart : (BlacklistCache.fresh file).initializeCache t with ⟨started, cache⟩
  rw [hstart] at h
  cases started with
  | error e => cases h
  | ok u =>
    rw [← Except.ok.inj h]
    exact initializeCache_warm hstart

/-- What the ids of the blacklist decide about an output. -/
def decideBy (held : Held) (out : PyDict) : Except PyExc Bool :=
  let channelId := (out.get? "channelid").getD .null
  if isContentBlocked out then .ok true
  else if channelId = .null then .ok false
  else held.has (str channelId)

theorem shouldObfuscateChannel_warm {s : BlacklistCache} {held : Held} (h : s.channelIds = some held)
    (t : Tick) (out : PyDict) : shouldObfuscateChannel t out s = (decideBy held out, s) := by
  unfold shouldObfuscateChannel decideBy
  by_cases hblocked : isContentBlocked out = true
  · rw [if_pos hblocked, if_pos hblocked]
  · rw [if_neg hblocked, if_neg hblocked, isBlacklisted_memory h]

/-- Over a loaded blacklist a push depends on its ids alone. -/
theorem pushChangesToKafka_warm (env : Env) (held : Held) (kafka : Kafka) (payload : Json) :
    ∃ result attempts, ∀ t (s : BlacklistCache), s.channelIds = some held →
      pushChangesToKafka env t kafka payload s = ⟨result, attempts, s⟩ := by
  cases hgen : generateOutputJson env payload with
  | error e => exact ⟨.error e, [], fun t s _ => by simp only [pushChangesToKafka, hgen]⟩
  | ok out =>
    cases hdecision : decideBy held out with
    | error e =>
      refine ⟨.error e, [], fun t s hs => ?_⟩
      simp only [pushChangesToKafka, hgen, shouldObfuscateChannel_warm hs, hdecision]
    | ok obfuscate =>
      refine ⟨(deliver env kafka out obfuscate).1, (deliver env kafka out obfuscate).2,
        fun t s hs => ?_⟩
      simp only [pushChangesToKafka, hgen, shouldObfuscateChannel_warm hs, hdecision]

/-- Over a loaded blacklist the answer of a request, its sends and the errors that it records depend
on the ids alone, and the cache stays as it is. -/
theorem sendRequest_warm (env : Env) (held : Held) (now : ℚ) (kafka : Kafka) (request : Request) :
    ∃ response attempts, ∃ grown : List ErrorRecord → List ErrorRecord,
      ∀ t (service : Service), t.now = now → service.cache.channelIds = some held →
        sendRequest env t kafka request service =
          ⟨response, attempts, ⟨service.cache, grown service.recentErrors⟩⟩ := by
  have hanswer : ∀ tvid e, ∃ response, ∃ grown : List ErrorRecord → List ErrorRecord,
      ∀ service, answerError now tvid e service =
        (response, ⟨service.cache, grown service.recentErrors⟩) := by
    intro tvid e
    cases e <;> exact ⟨_, _, fun _ => rfl⟩
  cases hbody : request.body with
  | none => exact ⟨_, [], id, fun t service _ _ => by simp only [sendRequest, hbody]; rfl⟩
  | some payload =>
    cases hvalid : validateRequest env request.urlParams payload with
    | error e =>
      obtain ⟨response, grown, hgrown⟩ := hanswer ((request.urlParams.get? "tvid").getD "") e
      refine ⟨response, [], grown, fun t service hnow _ => ?_⟩
      simp only [sendRequest, hbody, hvalid, hnow, hgrown]
    | ok b =>
      obtain ⟨result, attempts, hpush⟩ := pushChangesToKafka_warm env held kafka payload
      cases result with
      | error e =>
        obtain ⟨response, grown, hgrown⟩ := hanswer ((request.urlParams.get? "tvid").getD "") e
        refine ⟨response, attempts, grown, fun t service hnow hheld => ?_⟩
        simp only [sendRequest, hbody, hvalid, hpush t _ hheld, hnow, hgrown]
      | ok u =>
        refine ⟨⟨200, [("status", .str "ok")]⟩, attempts, id, fun t service _ hheld => ?_⟩
        simp only [sendRequest, hbody, hvalid, hpush t _ hheld, id]

end Cache

variable [Runtime] [Framework]

section Concerns

def handlerAttempts (p : Process) (m : Moment) (s : AppState) (incoming : Incoming) : List Attempt :=
  match incoming.route with
  | .sendRequest => (sendRequest p.env m.tick m.kafka incoming.request s.service).attempts
  | _ => []

theorem handle_idle (p : Process) (m : Moment) {incoming : Incoming}
    (h : incoming.route.ingests = false) (s : AppState) :
    (handle p m incoming s).2.service = s.service ∧ handlerAttempts p m s incoming = [] := by
  obtain ⟨route, urlPath, loggable, request⟩ := incoming
  unfold handle handlerAttempts
  cases route with
  | sendRequest | opsCacheRefresh | opsCacheFlush => cases h
  | opsDrain =>
    refine ⟨?_, rfl⟩
    simp only [opsDrain]
    cases request.body with
    | none => rfl
    | some body =>
      simp only
      cases body.get "enabled" (.bool true) <;> rfl
  | opsLoglevel =>
    refine ⟨?_, rfl⟩
    simp only [opsLoglevel]
    repeat' split
    all_goals rfl
  | status | opsHealth | opsConfig | opsDependencies | opsCache | opsErrors | health | opsStatus |
    opsMetrics | opsCircuits | opsScale | other _ => exact ⟨rfl, rfl⟩

theorem answerRefresh_service (done failed : String) (m : Moment) (s : AppState) :
    (answerRefresh done failed m s).2.service =
      { s.service with cache := (s.service.cache.refresh m.tick).2 } := by
  unfold answerRefresh
  simp only
  split <;> rfl

theorem answerRefresh_answer (done failed : String) (m : Moment) {s s' : AppState}
    (h : s.service.cache = s'.service.cache) :
    (answerRefresh done failed m s).1 = (answerRefresh done failed m s').1 := by
  unfold answerRefresh
  simp only [h]
  cases (s'.service.cache.refresh m.tick).1 with
  | error e => rfl
  | ok done => cases done <;> rfl

theorem handle_ingests (p : Process) (m : Moment) {incoming : Incoming}
    (h : incoming.route.ingests = true) {s s' : AppState} (hservice : s.service = s'.service) :
    (handle p m incoming s).2.service = (handle p m incoming s').2.service ∧
      (handle p m incoming s).1 = (handle p m incoming s').1 ∧
      handlerAttempts p m s incoming = handlerAttempts p m s' incoming := by
  obtain ⟨route, urlPath, loggable, request⟩ := incoming
  unfold handle handlerAttempts
  cases route with
  | sendRequest =>
    simp only [answerSendRequest, hservice]
    exact ⟨trivial, trivial, trivial⟩
  | opsCacheRefresh | opsCacheFlush =>
    refine ⟨?_, answerRefresh_answer _ _ m (congrArg Service.cache hservice), rfl⟩
    simp only [opsCacheRefresh, opsCacheFlush, answerRefresh_service, hservice]
  | opsDrain | opsLoglevel | status | opsHealth | opsConfig | opsDependencies | opsCache | opsErrors |
    health | opsStatus | opsMetrics | opsCircuits | opsScale | other _ => cases h

def ingestion (p : Process) : Concern p Service Attempt where
  view := AppState.service
  owns incoming := incoming.route.ingests
  fits _ := True
  emits := handlerAttempts p
  agrees := Eq
  inv _ := True
  alike _ := rfl
  clock h := congrArg Moment.monotonic h
  metrics _ _ _ _ := rfl
  silent m s _ _ howns := handle_idle p m howns s
  respects := by
    rintro m _ s s' incoming - howns rfl - hservice
    exact handle_ingests p m howns hservice
  stays _ _ _ _ _ _ := trivial

/-- While the blacklist is loaded, and no refresh is asked for, ingestion is the business of `POST /`
alone, and goes on without the database and the file. -/
def warmIngestion (p : Process) : Concern p Service Attempt where
  view := AppState.service
  owns incoming := incoming.route.posts
  fits incoming := incoming.route ≠ .opsCacheRefresh ∧ incoming.route ≠ .opsCacheFlush
  emits := handlerAttempts p
  agrees := SameWorkload
  inv := Warm
  alike := SameWorkload.refl
  clock h := h.monotonic
  metrics _ _ _ _ := rfl
  silent m s incoming hfits howns := by
    apply handle_idle p m
    obtain ⟨hrefresh, hflush⟩ := hfits
    cases hroute : incoming.route with
    | opsCacheRefresh => exact absurd hroute hrefresh
    | opsCacheFlush => exact absurd hroute hflush
    | sendRequest =>
      rw [hroute] at howns
      cases howns
    | opsDrain | opsLoglevel | status | opsHealth | opsConfig | opsDependencies | opsCache |
      opsErrors | health | opsStatus | opsMetrics | opsCircuits | opsScale | other _ => rfl
  respects {m m' s s' incoming} _ howns hagrees hwarm hservice := by
    have hroute := (posts_iff _).mp howns
    obtain ⟨held, hheld⟩ := Option.isSome_iff_exists.mp hwarm
    obtain ⟨response, attempts, grown, hsend⟩ :=
      sendRequest_warm p.env held m.tick.now m.kafka incoming.request
    have hleft := hsend m.tick s.service rfl hheld
    have hright := hsend m'.tick s.service hagrees.now.symm hheld
    unfold handle handlerAttempts
    rw [hroute]
    simp only [answerSendRequest, ← hservice, ← hagrees.kafka, hleft, hright]
    exact ⟨trivial, trivial, trivial⟩
  stays m s incoming _ howns hwarm := by
    have hroute := (posts_iff _).mp howns
    obtain ⟨held, hheld⟩ := Option.isSome_iff_exists.mp hwarm
    obtain ⟨response, attempts, grown, hsend⟩ :=
      sendRequest_warm p.env held m.tick.now m.kafka incoming.request
    unfold handle
    rw [hroute]
    simp only [answerSendRequest, hsend m.tick s.service rfl hheld]
    exact hwarm

end Concerns

section Results

/-- What the process hands to Kafka in a run: the calls of `send_message`, in order. -/
def kafkaLog (p : Process) (c : Serving) (turns : List (ℕ × Moment)) : List Attempt :=
  trace (Serving.turn p) (emitted (ingestion p).shows) c turns

/-- Monitoring, drain mode and log level cannot interfere with ingestion: two processes with one cache
and one error log, the same requests to `POST /` and to refresh the cache, and the same turns of these
go through the same caches, answers and sends, whatever else they are asked and in which order. -/
theorem ingestion_isolated (p : Process) {c c' : Serving} {turns turns' : List (ℕ × Moment)}
    (hsame : SameView AppState.service (fun t => t.incoming.route.ingests) c c')
    (hturns : turns.filter (moves (fun t => t.incoming.route.ingests) c) =
      turns'.filter (moves (fun t => t.incoming.route.ingests) c')) :
    SameView AppState.service (fun t => t.incoming.route.ingests)
        (run (Serving.turn p) c turns) (run (Serving.turn p) c' turns') ∧
      kafkaLog p c turns = kafkaLog p c' turns' := by
  have halike : List.Forall₂ (Alike (ingestion p).agrees)
      (turns.filter (moves (fun t => t.incoming.route.ingests) c))
      (turns'.filter (moves (fun t => t.incoming.route.ingests) c')) := by
    rw [hturns]
    exact List.forall₂_same.mpr fun turn _ => ⟨rfl, rfl⟩
  exact (ingestion p).unwinds.run (fun _ _ => trivial) (fun _ _ => trivial) hsame trivial halike

/-- Once the blacklist is loaded, ingestion does not depend on the database or the cache file: as long
as no refresh is asked for, any two courses of their outcomes give the same answers to `POST /`, the
same sends, and leave the same cache and error log, in every interleaving. -/
theorem ingestion_survives_outage (p : Process) {c : Serving} (hwarm : Warm c.shared.service)
    (hrefresh : ∀ t ∈ c.tasks, t.incoming.route ≠ .opsCacheRefresh ∧ t.incoming.route ≠ .opsCacheFlush)
    {turns turns' : List (ℕ × Moment)}
    (hturns : List.Forall₂ (Alike SameWorkload)
      (turns.filter (moves (fun t => t.incoming.route.posts) c))
      (turns'.filter (moves (fun t => t.incoming.route.posts) c))) :
    SameView AppState.service (fun t => t.incoming.route.posts)
        (run (Serving.turn p) c turns) (run (Serving.turn p) c turns') ∧
      kafkaLog p c turns = kafkaLog p c turns' :=
  (warmIngestion p).unwinds.run hrefresh hrefresh (.refl c) hwarm hturns

end Results

section Samples

omit [Runtime] [Framework]

def servingProcess : Process := ⟨sampleEnv, 0⟩

def samplePostRequest : Incoming := ⟨.sendRequest, some "/", true,
  ⟨sampleUrl, some (samplePayload "OTHER" [("channelId", .str "7")] [])⟩⟩

def servingBeside (drainMode : Json) (monitoring : Incoming) : Serving :=
  arrivals { sampleApp with
    service := ⟨{ BlacklistCache.fresh .absent with channelIds := some (.list []) }, []⟩
    drainMode := drainMode } [samplePostRequest, monitoring]

def alternating (m m' : Moment) : List (ℕ × Moment) :=
  [(0, m), (1, m'), (0, m), (1, m'), (0, m), (1, m'), (0, m), (1, m'), (0, m), (1, m'), (0, m)]

/-- A draining process that is asked for its health sends what a process sends that is being drained
meanwhile. -/
theorem ingestion_isolated_drain :
    let _ : Runtime := asciiRuntime
    let _ : Framework := strictFramework
    let c := servingBeside (.bool true) (sampleIncoming .health "/health" none)
    let c' := servingBeside (.bool false) drainRequest
    let turns := List.replicate 6 (0, sampleMoment 1)
    (kafkaLog servingProcess c (alternating (sampleMoment 1) (sampleMoment 2))).length = 1 ∧
      kafkaLog servingProcess c (alternating (sampleMoment 1) (sampleMoment 2)) =
        kafkaLog servingProcess c' turns := by
  intro _ _ c c' turns
  have hsame : SameView AppState.service (fun t => t.incoming.route.ingests) c c' := ⟨rfl, rfl⟩
  have hturns : (alternating (sampleMoment 1) (sampleMoment 2)).filter
      (moves (fun t => t.incoming.route.ingests) c) =
      turns.filter (moves (fun t => t.incoming.route.ingests) c') := rfl
  have hisolated := ingestion_isolated servingProcess hsame hturns
  exact ⟨by decide +kernel, hisolated.2⟩

/-- The database answers in one course and not in the other. -/
theorem ingestion_survives_outage_rows :
    let _ : Runtime := asciiRuntime
    let _ : Framework := strictFramework
    let c := servingBeside (.bool false) (sampleIncoming .health "/health" none)
    let answering : Moment := { sampleMoment 1 with tick := { (sampleMoment 1).tick with
      rds := .rows [.text "7"] } }
    (kafkaLog servingProcess c (List.replicate 6 (0, sampleMoment 1))).length = 1 ∧
      kafkaLog servingProcess c (List.replicate 6 (0, sampleMoment 1)) =
        kafkaLog servingProcess c (List.replicate 6 (0, answering)) := by
  intro _ _ c answering
  have hturn : Alike SameWorkload (0, sampleMoment 1) (0, answering) := ⟨rfl, rfl, rfl, rfl⟩
  have hstart : lifespan (sampleMoment 0).tick .absent = .ok c.shared := rfl
  have hwarm : Warm c.shared.service := lifespan_warm hstart
  have hrefresh : ∀ t ∈ c.tasks,
      t.incoming.route ≠ .opsCacheRefresh ∧ t.incoming.route ≠ .opsCacheFlush := by
    intro t ht
    rcases List.mem_cons.mp ht with rfl | ht
    · exact ⟨by simp [samplePostRequest], by simp [samplePostRequest]⟩
    · rw [List.mem_singleton.mp ht]
      exact ⟨by simp [sampleIncoming], by simp [sampleIncoming]⟩
  have hposts : ∀ m : Moment, (List.replicate 6 (0, m)).filter
      (moves (fun t => t.incoming.route.posts) c) = List.replicate 6 (0, m) := fun _ => rfl
  have halike : List.Forall₂ (Alike SameWorkload)
      ((List.replicate 6 (0, sampleMoment 1)).filter (moves (fun t => t.incoming.route.posts) c))
      ((List.replicate 6 (0, answering)).filter (moves (fun t => t.incoming.route.posts) c)) := by
    rw [hposts, hposts]
    exact .cons hturn (.cons hturn (.cons hturn (.cons hturn (.cons hturn (.cons hturn .nil)))))
  have hsurvives := ingestion_survives_outage servingProcess hwarm hrefresh halike
  exact ⟨by decide +kernel, hsurvives.2⟩

end Samples

end TvEvents
