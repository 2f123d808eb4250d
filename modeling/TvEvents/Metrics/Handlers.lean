import TvEvents.App.Middleware
import TvEvents.Cache.FileWrite

namespace TvEvents

open BlacklistCache

/-- The computation returns instead of raising. -/
def Returns {α : Type} (x : Except PyExc α) : Prop := ∃ a, x = .ok a

/-- The status that a handler comes to; the outermost layer answers 500 for an exception. -/
def replyStatus : Except PyExc Reply → ℕ
  | .ok reply => reply.statusCode
  | .error _ => 500

@[simp] theorem returns_ok {α : Type} (a : α) : Returns (.ok a : Except PyExc α) := ⟨a, rfl⟩

@[simp] theorem not_returns_error {α : Type} (e : PyExc) : ¬ Returns (.error e : Except PyExc α) := by
  rintro ⟨a, h⟩
  cases h

theorem returns_bind {α β : Type} {P : Prop} {x : Except PyExc α} {f : α → Except PyExc β}
    (h : ∀ a, Returns (f a) ↔ P) : Returns (x >>= f) ↔ Returns x ∧ P := by
  cases x with
  | error e => simp
  | ok a => simpa using h a

/-- The held ids have a length: they are a list, a text or an object, or they are not counted. -/
def CountableIds (s : BlacklistCache) : Prop :=
  ∀ v, s.channelIds = some (.scalar v) → v.truthy = true → v.isObj = true ∨ ∃ text, v = .str text

theorem entryCount_returns (s : BlacklistCache) : Returns s.entryCount ↔ CountableIds s := by
  unfold entryCount CountableIds
  cases s.channelIds with
  | none => simp
  | some held =>
    cases held with
    | list ids => simp [Held.len, apply_ite Returns]
    | scalar v =>
      have htruthy : (Held.scalar v).truthy = v.truthy := rfl
      simp only [htruthy, Option.some.injEq, Held.scalar.injEq, forall_eq']
      by_cases hv : v.truthy = true
      · cases v <;> simp [hv, Held.len, Json.isObj]
      · simp [hv]

/-- What RDS answered can be cached: the file is not opened, or every id has a JSON text. -/
def CacheableIds (t : Tick) : Prop :=
  t.write = .openFails ∨ ∀ id ∈ fetchFromRds t.rds, ∃ v, id = .json v

theorem jsonValues_isSome (ids : List ChannelId) :
    (∃ l, jsonValues ids = some l) ↔ ∀ id ∈ ids, ∃ v, id = .json v := by
  constructor
  · rintro ⟨l, hl⟩ id hid
    rw [jsonValues_map hl] at hid
    obtain ⟨v, -, hv⟩ := List.mem_map.mp hid
    exact ⟨v, hv.symm⟩
  · exact jsonValues_total

section Handlers

variable [Framework]

theorem jsonResponse_eq {statusCode : ℕ} {content : List (String × Json)} {reply : Reply}
    (h : jsonResponse statusCode content = .ok reply) : reply = ⟨statusCode, .json content⟩ := by
  unfold jsonResponse at h
  split_ifs at h
  · exact (Except.ok.inj h).symm

theorem jsonResponse_status {statusCode : ℕ} {content : List (String × Json)} {reply : Reply}
    (h : jsonResponse statusCode content = .ok reply) : reply.statusCode = statusCode := by
  rw [jsonResponse_eq h]

theorem jsonResponse_renders (statusCode : ℕ) (content : List (String × Json)) :
    Returns (jsonResponse statusCode content) ↔ renders (.obj content) = true := by
  unfold jsonResponse
  split_ifs with h
  · simp [h]
  · simp [h]

theorem jsonResponse_returns (statusCode : ℕ) (content : List (String × Json)) :
    Returns (jsonResponse statusCode content) ↔
      ∀ kv ∈ content, encodes kv.1 = true ∧ renders kv.2 = true := by
  rw [jsonResponse_renders]
  simp

theorem invalidBody_returns : Returns invalidBody := by
  simp (disch := decide) [invalidBody, jsonResponse_returns]

@[simp] theorem renders_roundTo (digits : ℕ) (q : ℚ) : renders (roundTo digits q) = true := by
  simp [roundTo]

@[simp] theorem renders_percentile (data : List ℚ) (pct : ℕ) :
    renders (percentile data pct) = true := by
  unfold percentile
  split_ifs <;> simp

@[simp] theorem renders_probeCheck (probe : Probe) : renders (probeCheck probe) = true := by
  unfold probeCheck
  cases probe <;> simp (disch := decide)

/-- What a probe raised can be shown. -/
def ProbeTold (probe : Probe) : Prop := ∀ text, probe = .error text → encodes text = true

@[simp] theorem renders_probeDependency (probe : Probe) :
    renders (probeDependency probe) = true ↔ ProbeTold probe := by
  unfold probeDependency ProbeTold
  cases probe <;> simp (disch := decide)

@[simp] theorem renders_errorRecord (err : ErrorRecord) :
    renders err.toJson = true ↔ encodes err.type = true ∧ encodes err.message = true := by
  simp (disch := decide) [ErrorRecord.toJson]

theorem opsHealth_returns (m : Moment) (s : AppState) :
    Returns (opsHealth m s) ↔ CountableIds s.service.cache := by
  rw [← entryCount_returns, opsHealth]
  refine (returns_bind ?_).trans (and_iff_left trivial)
  intro entries
  simp (disch := decide) [jsonResponse_returns, apply_ite encodes]

/-- The variables that `/ops/config` shows. -/
def configNames : List String :=
  ["SERVICE_NAME", "VERSION", "ZOO", "SEND_EVERGREEN", "SEND_LEGACY", "TVEVENTS_DEBUG",
    "KAFKA_TOPIC_EVERGREEN", "KAFKA_TOPIC_LEGACY", "BLACKLIST_CHANNEL_IDS_CACHE_FILEPATH",
    "OTEL_PYTHON_AUTO_INSTRUMENTATION_ENABLED", "LOG_LEVEL"]

/-- The value of a variable, if it is set, has a UTF-8 form. -/
def EnvEncodes (env : Env) (name : String) : Prop := ∀ text, env name = some text → encodes text = true

theorem getenv_encodes {env : Env} {name default : String} (h : IsAscii default) :
    encodes (getenv env name default) = true ↔ EnvEncodes env name := by
  unfold getenv EnvEncodes
  cases env name with
  | none => simp [h]
  | some text => simp

theorem opsConfig_returns (p : Process) :
    Returns (opsConfig p) ↔ ∀ name ∈ configNames, EnvEncodes p.env name := by
  simp (disch := decide) [opsConfig, jsonResponse_returns, getenv_encodes, configNames]

theorem opsDependencies_returns (m : Moment) :
    Returns (opsDependencies m) ↔ ProbeTold m.rdsProbe ∧ ProbeTold m.kafkaProbe := by
  simp (disch := decide) [opsDependencies, jsonResponse_returns]

theorem opsCache_returns (p : Process) (m : Moment) (s : AppState) :
    Returns (opsCache p m s) ↔ CountableIds s.service.cache ∧
      EnvEncodes p.env "BLACKLIST_CHANNEL_IDS_CACHE_FILEPATH" := by
  rw [← entryCount_returns, opsCache]
  apply returns_bind
  intro entries
  rw [jsonResponse_returns]
  simp only [List.forall_mem_cons]
  split_ifs <;> simp (disch := decide) [getenv_encodes]

/-- The errors can be shown: all types, and the messages of the newest ten. -/
def ErrorsTold (errors : List ErrorRecord) : Prop :=
  (∀ err ∈ errors, encodes err.type = true) ∧
    ∀ err ∈ errors.rtake 10, encodes err.message = true

omit [Framework] in
private theorem errorCounts_foldl_types (errors : List ErrorRecord) (counts : OrderedMap String ℕ)
    (type : String) :
    ((errors.foldl (fun counts err =>
        counts.set err.type ((counts.get? err.type).getD 0 + 1)) counts).get? type).isSome ↔
      (counts.get? type).isSome ∨ ∃ err ∈ errors, err.type = type := by
  induction errors generalizing counts with
  | nil => simp
  | cons err errors ih =>
    rw [List.foldl_cons, ih, OrderedMap.set_get?]
    by_cases htype : type = err.type
    · simp [htype]
    · simp [htype, Ne.symm htype]

omit [Framework] in
/-- The types that are counted are those of the errors. -/
theorem errorCounts_types (errors : List ErrorRecord) (type : String) :
    type ∈ (errorCounts errors).keys ↔ ∃ err ∈ errors, err.type = type := by
  rw [OrderedMap.mem_keys_iff, errorCounts, errorCounts_foldl_types]
  simp

theorem opsErrors_returns (s : AppState) :
    Returns (opsErrors s) ↔ ErrorsTold s.service.recentErrors := by
  have htypes : (∀ kv ∈ (errorCounts s.service.recentErrors).entries, encodes kv.1 = true) ↔
      ∀ err ∈ s.service.recentErrors, encodes err.type = true := by
    constructor
    · intro h err herr
      have hkey := (errorCounts_types s.service.recentErrors err.type).mpr ⟨err, herr, rfl⟩
      obtain ⟨kv, hkv, htype⟩ := List.mem_map.mp hkey
      rw [← htype]
      exact h kv hkv
    · intro h kv hkv
      obtain ⟨err, herr, htype⟩ := (errorCounts_types _ _).mp (List.mem_map_of_mem hkv)
      rw [← htype]
      exact h err herr
  have hnewest : (∀ err ∈ s.service.recentErrors, encodes err.type = true) →
      ∀ err ∈ s.service.recentErrors.rtake 10, encodes err.type = true :=
    fun h err herr => h err ((BoundedDeque.rtake_suffix _ _).subset herr)
  have hcontent : Returns (opsErrors s) ↔
      (∀ kv ∈ (errorCounts s.service.recentErrors).entries, encodes kv.1 = true) ∧
        ∀ err ∈ s.service.recentErrors.rtake 10, encodes err.type = true ∧
          encodes err.message = true := by
    simp (disch := decide) [opsErrors, jsonResponse_returns]
  rw [hcontent, htypes, ErrorsTold]
  constructor
  · exact fun h => ⟨h.1, fun err herr => (h.2 err herr).2⟩
  · exact fun h => ⟨h.1, fun err herr => ⟨hnewest h.1 err herr, h.2 err herr⟩⟩

theorem health_returns (m : Moment) (s : AppState) : Returns (health m s) := by
  unfold health
  split_ifs <;> simp (disch := decide) [jsonResponse_returns, apply_ite encodes]

/-- `/ops/status` repeats the drain mode, and fails with it. -/
theorem opsStatus_returns (p : Process) (m : Moment) (s : AppState) :
    Returns (opsStatus p m s) ↔ renders s.drainMode = true := by
  simp (disch := decide) [opsStatus, jsonResponse_returns, apply_ite encodes]

theorem opsMetrics_returns (p : Process) (m : Moment) (s : AppState) :
    Returns (opsMetrics p m s) ↔ CountableIds s.service.cache := by
  rw [← entryCount_returns, opsMetrics]
  refine (returns_bind ?_).trans (and_iff_left trivial)
  intro entries
  rw [jsonResponse_returns]
  simp only [List.forall_mem_cons]
  split_ifs <;> simp (disch := decide)

/-- A body that a handler takes a member of: an object whose member meets `ok`. -/
def MemberFits (key : String) (default : Json) (ok : Json → Prop) (body : Option Json) : Prop :=
  ∀ v, body = some v → v.isObj = true ∧ ok ((v.member? key).getD default)

theorem opsDrain_returns (body : Option Json) (s : AppState) :
    Returns (opsDrain body s).1 ↔
      MemberFits "enabled" (.bool true) (fun mode => renders mode = true) body := by
  unfold opsDrain MemberFits
  cases body with
  | none => simp [invalidBody_returns]
  | some v =>
    cases v <;> simp (disch := decide) [Json.get, Json.isObj, Json.member?, jsonResponse_returns]

theorem opsCircuits_returns : Returns opsCircuits := by
  simp (disch := decide) [opsCircuits, jsonResponse_returns]

theorem opsScale_returns : Returns opsScale := by
  simp (disch := decide) [opsScale, jsonResponse_returns]

variable [Runtime]

omit [Runtime] [Framework] in
theorem validLevel_ascii {name : String} {level : ℕ}
    (h : OrderedMap.find name validLevels = some level) : IsAscii name := by
  have hmem : name ∈ validLevels.map Prod.fst := by
    rw [← OrderedMap.find_isSome, h]
    rfl
  simp only [validLevels, List.map_cons, List.map_nil, List.mem_cons, List.not_mem_nil, or_false]
    at hmem
  rcases hmem with rfl | rfl | rfl | rfl | rfl <;> decide

theorem opsLoglevel_returns (body : Option Json) (s : AppState) :
    Returns (opsLoglevel body s).1 ↔
      MemberFits "level" (.str "") (fun level => ∃ name, level = .str name) body := by
  unfold opsLoglevel MemberFits
  cases body with
  | none => simp [invalidBody_returns]
  | some v =>
    cases v with
    | obj kvs =>
      have hget : (Json.obj kvs).get "level" (.str "") =
          .ok (((Json.obj kvs).member? "level").getD (.str "")) := rfl
      simp only [hget, Option.some.injEq, forall_eq', Json.isObj, true_and]
      cases ((Json.obj kvs).member? "level").getD (.str "") with
      | str name =>
        have hname : ∃ text, Json.str name = .str text := ⟨name, rfl⟩
        apply (iff_true_right hname).mpr
        simp only
        split
        · simp (disch := decide) [jsonResponse_returns]
        · next level hlevel =>
          simp (disch := decide) [jsonResponse_returns, encodes_ascii (validLevel_ascii hlevel)]
      | _ => simp
    | _ => simp [Json.get, Json.isObj]

omit [Framework] in
/-- A write raises exactly over ids that cannot be cached. -/
theorem writeCache_returns (t : Tick) (s : BlacklistCache) :
    Returns (writeCache t (fetchFromRds t.rds) s).1 ↔ CacheableIds t := by
  have hdumps : (∃ cs, dumpsIds (fetchFromRds t.rds) = some cs) ↔
      ∀ id ∈ fetchFromRds t.rds, ∃ v, id = .json v := by
    rw [← jsonValues_isSome]
    simp [dumpsIds]
  rw [CacheableIds, ← hdumps]
  cases hwrite : t.write with
  | openFails => simp [writeCache, hwrite]
  | failsAfter n =>
    cases h : dumpsIds (fetchFromRds t.rds) <;> simp [writeCache, hwrite, h]
  | completes =>
    cases h : dumpsIds (fetchFromRds t.rds) <;> simp [writeCache, hwrite, h]

/-- A refresh raises exactly over ids that cannot be cached. -/
theorem answerRefresh_returns {done failed : String} (hdone : IsAscii done) (hfailed : IsAscii failed)
    (m : Moment) (s : AppState) :
    Returns (answerRefresh done failed m s).1 ↔ CacheableIds m.tick := by
  have hwritten := writeCache_returns m.tick s.service.cache
  rcases refresh_cases m.tick s.service.cache with ⟨hids, hrefresh⟩ | ⟨-, hwrite, hrefresh⟩ |
    ⟨-, e, hwrite, hrefresh⟩
  · have hcacheable : CacheableIds m.tick := by
      right
      simp [hids]
    simp (disch := decide) [answerRefresh, hrefresh, jsonResponse_returns, hcacheable,
      encodes_ascii hfailed]
  · rw [hwrite] at hwritten
    have hcacheable := hwritten.mp (returns_ok ())
    have hentries : ∀ c : BlacklistCache, c.channelIds = some (.list (fetchFromRds m.tick.rds)) →
        Returns c.entryCount := by
      intro c hc
      rw [entryCount_returns, CountableIds, hc]
      simp
    obtain ⟨entries, hcount⟩ := hentries _ (congrArg (fun r => r.2.channelIds) hrefresh)
    simp only [answerRefresh, hrefresh, hcacheable, iff_true] at hcount ⊢
    rw [hcount]
    simp (disch := decide) [Except.bind, jsonResponse_returns, encodes_ascii hdone]
  · rw [hwrite] at hwritten
    have hcacheable : ¬ CacheableIds m.tick := fun h => not_returns_error e (hwritten.mpr h)
    simp [answerRefresh, hrefresh, hcacheable]

/-- The exception that validating or delivering the event of a request ends with, if any. -/
def refusal? (env : Env) (t : Tick) (kafka : Kafka) (request : Request) (service : Service) :
    Option PyExc :=
  match request.body with
  | none => none
  | some payload =>
    match validateRequest env request.urlParams payload with
    | .error e => some e
    | .ok _ =>
      match (pushChangesToKafka env t kafka payload service.cache).result with
      | .error e => some e
      | .ok _ => none

omit [Framework] in
/-- A `POST /` is refused for its body, answered without an error, or answers an exception. -/
theorem sendRequest_refusal (env : Env) (t : Tick) (kafka : Kafka) (request : Request)
    (service : Service) :
    let served := sendRequest env t kafka request service
    (request.body = none ∧ served = ⟨⟨400, [("error", .str "invalid_payload"),
        ("message", .str "Invalid JSON body")]⟩, [], service⟩) ∨
    (request.body ≠ none ∧ refusal? env t kafka request service = none ∧
      served.response = ⟨200, [("status", .str "ok")]⟩ ∧
      served.service.recentErrors = service.recentErrors) ∨
    ∃ e grown attempts, request.body ≠ none ∧ refusal? env t kafka request service = some e ∧
      grown.recentErrors = service.recentErrors ∧
      served = ⟨(answerError t.now ((request.urlParams.get? "tvid").getD "") e grown).1, attempts,
        (answerError t.now ((request.urlParams.get? "tvid").getD "") e grown).2⟩ := by
  unfold refusal? sendRequest
  cases hbody : request.body with
  | none => simp
  | some payload =>
    right
    simp only
    cases validateRequest env request.urlParams payload with
    | error e => exact .inr ⟨e, service, [], by simp, rfl, rfl, rfl⟩
    | ok u =>
      simp only
      generalize pushChangesToKafka env t kafka payload service.cache = pushed
      cases pushed.result with
      | error e =>
        exact .inr ⟨e, { service with cache := pushed.cache }, pushed.attempts, by simp, rfl, rfl, rfl⟩
      | ok u => exact .inl ⟨by simp, rfl, rfl, rfl⟩

/-- The answer to an exception shows its text. -/
theorem answerError_renders (now : ℚ) (tvid : String) (e : PyExc) (service : Service) :
    renders (.obj (answerError now tvid e service).1.content) = encodes e.text := by
  cases e with
  | tvEvents kind message =>
    have hname : IsAscii kind.name := by cases kind <;> decide
    simp (disch := decide) [answerError, PyExc.text, encodes_ascii hname]
  | validation _ | builtin _ => simp (disch := decide) [answerError]

/-- What ends a request can be shown. -/
def RefusalTold (p : Process) (m : Moment) (request : Request) (s : AppState) : Prop :=
  ∀ e, refusal? p.env m.tick m.kafka request s.service = some e → encodes e.text = true

theorem answerSendRequest_returns (p : Process) (m : Moment) (request : Request) (s : AppState) :
    Returns (answerSendRequest p m request s).1 ↔ RefusalTold p m request s := by
  rw [answerSendRequest, jsonResponse_renders, RefusalTold]
  rcases sendRequest_refusal p.env m.tick m.kafka request s.service with ⟨hbody, hserved⟩ |
    ⟨-, hnone, hresponse, -⟩ | ⟨e, grown, attempts, -, hsome, -, hserved⟩
  · have hnone : refusal? p.env m.tick m.kafka request s.service = none := by rw [refusal?, hbody]
    rw [hserved, hnone]
    simp (disch := decide)
  · rw [hresponse, hnone]
    simp (disch := decide)
  · rw [hserved, hsome, answerError_renders]
    simp

/-- An answer that `send_request` decides on is sent, or is one to an exception whose text cannot be
shown. -/
theorem answerSendRequest_status (p : Process) (m : Moment) (request : Request) (s : AppState) :
    let decided := (sendRequest p.env m.tick m.kafka request s.service).response.statusCode
    let answered := replyStatus (answerSendRequest p m request s).1
    answered = decided ∨ answered = 500 ∧ decided ≠ 200 := by
  intro decided answered
  by_cases hreturns : Returns (answerSendRequest p m request s).1
  · obtain ⟨reply, hreply⟩ := hreturns
    left
    have hstatus : reply.statusCode = decided := jsonResponse_status hreply
    simp only [answered, hreply, replyStatus, hstatus]
  · right
    refine ⟨?_, ?_⟩
    · cases hreply : (answerSendRequest p m request s).1 with
      | ok reply => exact absurd ⟨reply, hreply⟩ hreturns
      | error e => simp only [answered, hreply, replyStatus]
    · intro hok
      apply hreturns
      rw [answerSendRequest_returns]
      intro e hrefusal
      rcases sendRequest_refusal p.env m.tick m.kafka request s.service with ⟨hbody, -⟩ |
        ⟨-, hnone, -⟩ | ⟨e', grown, attempts, -, -, -, hserved⟩
      · rw [refusal?, hbody] at hrefusal
        cases hrefusal
      · rw [hnone] at hrefusal
        cases hrefusal
      · simp only [decided, hserved] at hok
        rcases answerError_status m.tick.now ((request.urlParams.get? "tvid").getD "") e' grown with
          h | h <;> omega

theorem answerSendRequest_ok_iff (p : Process) (m : Moment) (request : Request) (s : AppState) :
    replyStatus (answerSendRequest p m request s).1 = 200 ↔
      (sendRequest p.env m.tick m.kafka request s.service).response.statusCode = 200 := by
  rcases answerSendRequest_status p m request s with hsent | ⟨hbare, hnot⟩
  · rw [hsent]
  · rw [hbare]
    exact iff_of_false (by decide) hnot

/-- What keeps the handler of a request from raising. -/
def HandlerFits (p : Process) (m : Moment) (incoming : Incoming) (s : AppState) : Prop :=
  match incoming.route with
  | .sendRequest => RefusalTold p m incoming.request s
  | .opsErrors => ErrorsTold s.service.recentErrors
  | .opsConfig => ∀ name ∈ configNames, EnvEncodes p.env name
  | .opsDependencies => ProbeTold m.rdsProbe ∧ ProbeTold m.kafkaProbe
  | .opsHealth | .opsMetrics => CountableIds s.service.cache
  | .opsCache =>
    CountableIds s.service.cache ∧ EnvEncodes p.env "BLACKLIST_CHANNEL_IDS_CACHE_FILEPATH"
  | .opsCacheRefresh | .opsCacheFlush => CacheableIds m.tick
  | .opsStatus => renders s.drainMode = true
  | .opsDrain =>
    MemberFits "enabled" (.bool true) (fun mode => renders mode = true) incoming.request.body
  | .opsLoglevel =>
    MemberFits "level" (.str "") (fun level => ∃ name, level = .str name) incoming.request.body
  | _ => True

theorem handle_returns (p : Process) (m : Moment) (incoming : Incoming) (s : AppState) :
    Returns (handle p m incoming s).1 ↔ HandlerFits p m incoming s := by
  unfold handle HandlerFits
  cases incoming.route with
  | status => simp [status]
  | sendRequest => exact answerSendRequest_returns p m incoming.request s
  | opsHealth => exact opsHealth_returns m s
  | opsConfig => exact opsConfig_returns p
  | opsDependencies => exact opsDependencies_returns m
  | opsCache => exact opsCache_returns p m s
  | opsErrors => exact opsErrors_returns s
  | opsCacheRefresh => exact answerRefresh_returns (by decide) (by decide) m s
  | health => simp [health_returns]
  | opsStatus => exact opsStatus_returns p m s
  | opsMetrics => exact opsMetrics_returns p m s
  | opsDrain => exact opsDrain_returns incoming.request.body s
  | opsCacheFlush => exact answerRefresh_returns (by decide) (by decide) m s
  | opsCircuits => simp [opsCircuits_returns]
  | opsLoglevel => exact opsLoglevel_returns incoming.request.body s
  | opsScale => simp [opsScale_returns]
  | other reply => simp

omit [Runtime] [Framework] in
/-- The metrics of two states agree. -/
structure SameMetrics (s s' : AppState) : Prop where
  requests : s'.requestCount = s.requestCount
  errors : s'.errorCount = s.errorCount
  latencies : s'.latencies = s.latencies

omit [Runtime] [Framework] in
theorem SameMetrics.refl (s : AppState) : SameMetrics s s := ⟨rfl, rfl, rfl⟩

/-- No handler touches the metrics. -/
theorem handle_metrics (p : Process) (m : Moment) (incoming : Incoming) (s : AppState) :
    SameMetrics s (handle p m incoming s).2 := by
  have hrefresh : ∀ done failed, SameMetrics s (answerRefresh done failed m s).2 := by
    intro done failed
    unfold answerRefresh
    simp only
    split <;> exact ⟨rfl, rfl, rfl⟩
  unfold handle
  cases incoming.route with
  | sendRequest => exact ⟨rfl, rfl, rfl⟩
  | opsCacheRefresh => exact hrefresh _ _
  | opsCacheFlush => exact hrefresh _ _
  | opsDrain =>
    simp only [opsDrain]
    split
    · exact .refl s
    · split <;> exact ⟨rfl, rfl, rfl⟩
  | opsLoglevel =>
    simp only [opsLoglevel]
    split
    · exact .refl s
    · split
      · exact .refl s
      · split <;> exact ⟨rfl, rfl, rfl⟩
      · exact .refl s
  | _ => exact .refl s

end Handlers

end TvEvents
