import TvEvents.App.Routes
import TvEvents.Library.BoundedDeque

namespace TvEvents

open BlacklistCache

/-- What the web framework and the date library supply: whether `JSONResponse` renders a document,
which it does when no number inside is NaN or infinite and every text has a UTF-8 form; which
characters have one, as no lone surrogate does; and the ISO text of a time. -/
class Framework where
  renders : Json → Bool
  encodable : Char → Bool
  isoformat : ℚ → String
  renders_null : renders .null = true
  renders_bool : ∀ b, renders (.bool b) = true
  renders_int : ∀ n, renders (.int n) = true
  renders_finite : ∀ q, renders (.float (.fin q)) = true
  renders_str : ∀ s, renders (.str s) = s.toList.all encodable
  renders_arr : ∀ l, renders (.arr l) = l.all renders
  renders_obj : ∀ kvs, renders (.obj kvs) =
    kvs.all fun kv => kv.1.toList.all encodable && renders kv.2
  encodable_ascii : ∀ c : Char, c.toNat < 128 → encodable c = true
  isoformat_ascii : ∀ t, IsAscii (isoformat t)

export Framework (renders isoformat)

/-- The text has a UTF-8 form. -/
def encodes [Framework] (s : String) : Bool := s.toList.all Framework.encodable

section Encoding

variable [Framework]

@[simp] theorem renders_text (s : String) : renders (.str s) = encodes s := Framework.renders_str s

@[simp] theorem renders_members (kvs : List (String × Json)) :
    renders (.obj kvs) = kvs.all fun kv => encodes kv.1 && renders kv.2 := Framework.renders_obj kvs

@[simp] theorem encodes_ascii {s : String} (h : IsAscii s) : encodes s = true :=
  List.all_eq_true.mpr fun c hc => Framework.encodable_ascii c (h c hc)

@[simp] theorem encodes_isoformat (t : ℚ) : encodes (isoformat t) = true :=
  encodes_ascii (Framework.isoformat_ascii t)

theorem encodes_append (a b : String) : encodes (a ++ b) = (encodes a && encodes b) := by
  rw [encodes, String.toList_append, List.all_append]
  rfl

theorem encodes_take {s : String} (h : encodes s = true) (n : ℕ) :
    encodes (String.ofList (s.toList.take n)) = true := by
  rw [encodes, String.toList_ofList, List.all_eq_true]
  exact fun c hc => List.all_eq_true.mp h c ((List.take_sublist n _).subset hc)

end Encoding

namespace Json

/-- No character of the text stands for a lone surrogate. -/
def plainText (s : String) : Bool := s.toList.all fun c => !JsonText.isStandIn c

mutual

/-- No float inside is NaN or infinite, and every text is plain. -/
def renderable : Json → Bool
  | .float .nan => false
  | .float (.inf _) => false
  | .str s => plainText s
  | .arr l => renderableList l
  | .obj kvs => renderableMembers kvs
  | _ => true

def renderableList : List Json → Bool
  | [] => true
  | v :: vs => renderable v && renderableList vs

def renderableMembers : List (String × Json) → Bool
  | [] => true
  | (k, v) :: kvs => plainText k && renderable v && renderableMembers kvs

end

theorem renderableList_all (l : List Json) : renderableList l = l.all renderable := by
  induction l with
  | nil => rfl
  | cons v l ih => rw [renderableList, ih, List.all_cons]

theorem renderableMembers_all (kvs : List (String × Json)) :
    renderableMembers kvs = kvs.all fun kv => plainText kv.1 && renderable kv.2 := by
  induction kvs with
  | nil => rfl
  | cons kv kvs ih => rw [renderableMembers, ih, List.all_cons]

end Json

theorem ascii_plain (c : Char) (h : c.toNat < 128) : (!JsonText.isStandIn c) = true := by
  have hlow : ¬0x10F800 ≤ c.toNat := by omega
  simp [JsonText.isStandIn, hlow]

/-- A framework that refuses exactly NaN, the infinities and lone surrogates. -/
@[reducible] def strictFramework : Framework where
  renders := Json.renderable
  encodable c := !JsonText.isStandIn c
  isoformat _ := "1970-01-01T00:00:00+00:00"
  renders_null := rfl
  renders_bool _ := rfl
  renders_int _ := rfl
  renders_finite _ := rfl
  renders_str _ := rfl
  renders_arr l := by
    rw [Json.renderable]
    exact Json.renderableList_all l
  renders_obj kvs := by
    rw [Json.renderable]
    exact Json.renderableMembers_all kvs
  encodable_ascii := ascii_plain
  isoformat_ascii _ := by decide

attribute [simp] Framework.renders_null Framework.renders_bool Framework.renders_int
  Framework.renders_finite Framework.renders_arr

inductive Body
  | text (s : String)
  | json (members : List (String × Json))

structure Reply where
  statusCode : ℕ
  body : Body

/-- What the process fixes when it starts. -/
structure Process where
  env : Env
  startTime : ℚ

/-- The module state of the routes, with the service that `POST /` works on. -/
structure AppState where
  service : Service
  drainMode : Json
  requestCount : ℕ
  errorCount : ℕ
  latencies : BoundedDeque ℚ 10000
  rootLevel : ℕ

/-- A call that probes a dependency: the seconds that it took, or the text of what it raised. -/
abbrev Probe := Except String ℚ

/-- What the world does while a request runs up to its next await. -/
structure Moment where
  tick : Tick
  kafka : Kafka
  rdsProbe : Probe
  kafkaProbe : Probe
  monotonic : ℚ

def Probe.works (probe : Probe) : Bool := probe.toBool

/-- `round(q, digits)`; measured numbers are exact, their binary64 rounding is left out. -/
def roundTo (digits : ℕ) (q : ℚ) : Json :=
  .float (.fin (roundHalfEven (q * 10 ^ digits) / 10 ^ digits))

section Handlers

variable [Framework]

/-- A document that does not render raises a `ValueError`, be it for a number or for a text. -/
def jsonResponse (statusCode : ℕ) (content : List (String × Json)) : Except PyExc Reply :=
  if renders (.obj content) then .ok ⟨statusCode, .json content⟩ else .error (.builtin .valueError)

def invalidBody : Except PyExc Reply :=
  jsonResponse 400 [("error", .str "invalid_payload"), ("message", .str "Invalid JSON body")]

def status : Except PyExc Reply := .ok ⟨200, .text "OK"⟩

/-- The state of a dependency in `/ops/health`. -/
def probeCheck (probe : Probe) : Json :=
  match probe with
  | .ok seconds => .obj [("status", .str "ok"), ("latency_ms", roundTo 1 (seconds * 1000))]
  | .error _ => .obj [("status", .str "error"), ("latency_ms", .float (.fin 0))]

def opsHealth (m : Moment) (s : AppState) : Except PyExc Reply := do
  let entries ← s.service.cache.entryCount
  let overall := if m.rdsProbe.works && m.kafkaProbe.works then "healthy" else "degraded"
  jsonResponse 200 [("status", .str overall), ("checks", .obj [
    ("cache", .obj [("status", .str "ok"), ("entries", .int entries),
      ("age_seconds", .int (roundHalfEven (s.service.cache.ageSeconds m.tick.now)))]),
    ("rds", probeCheck m.rdsProbe), ("kafka", probeCheck m.kafkaProbe)])]

def opsConfig (p : Process) : Except PyExc Reply :=
  let text name default := Json.str (getenv p.env name default)
  jsonResponse 200 [
    ("service_name", text "SERVICE_NAME" "evergreen-tvevents"),
    ("version", text "VERSION" "1.0.0"),
    ("zoo", text "ZOO" "unknown"),
    ("send_evergreen", text "SEND_EVERGREEN" "false"),
    ("send_legacy", text "SEND_LEGACY" "false"),
    ("tvevents_debug", text "TVEVENTS_DEBUG" "false"),
    ("kafka_topic_evergreen", text "KAFKA_TOPIC_EVERGREEN" "evergreen-tvevents"),
    ("kafka_topic_legacy", text "KAFKA_TOPIC_LEGACY" "legacy-tvevents"),
    ("cache_filepath",
      text "BLACKLIST_CHANNEL_IDS_CACHE_FILEPATH" "/tmp/.blacklisted_channel_ids_cache"),
    ("otel_enabled", text "OTEL_PYTHON_AUTO_INSTRUMENTATION_ENABLED" "false"),
    ("log_level", text "LOG_LEVEL" "DEBUG"),
    ("event_types_enabled",
      .arr [.str "NATIVEAPP_TELEMETRY", .str "ACR_TUNER_DATA", .str "PLATFORM_TELEMETRY"])]

/-- The state of a dependency in `/ops/dependencies`. -/
def probeDependency (probe : Probe) : Json :=
  match probe with
  | .ok seconds => .obj [("status", .str "ok"), ("latency_ms", roundTo 1 (seconds * 1000))]
  | .error text => .obj [("status", .str "error"), ("error", .str text)]

def opsDependencies (m : Moment) : Except PyExc Reply :=
  jsonResponse 200 [("dependencies", .obj [("rds", probeDependency m.rdsProbe),
    ("kafka", probeDependency m.kafkaProbe), ("cnlib", .obj [("status", .str "ok")])])]

def opsCache (p : Process) (m : Moment) (s : AppState) : Except PyExc Reply := do
  let cache := s.service.cache
  let entries ← cache.entryCount
  jsonResponse 200 [
    ("entry_count", .int entries),
    ("cache_filepath", .str (getenv p.env "BLACKLIST_CHANNEL_IDS_CACHE_FILEPATH"
      "/tmp/.blacklisted_channel_ids_cache")),
    ("last_refresh", if 0 < cache.lastRefresh then .str (isoformat cache.lastRefresh) else .null),
    ("age_seconds", .int (roundHalfEven (cache.ageSeconds m.tick.now)))]

/-- How many of the errors have each type, in the order of the first of its type. -/
def errorCounts (errors : List ErrorRecord) : OrderedMap String ℕ :=
  errors.foldl (fun counts err => counts.set err.type ((counts.get? err.type).getD 0 + 1)) .empty

def ErrorRecord.toJson (err : ErrorRecord) : Json :=
  .obj [("type", .str err.type), ("message", .str err.message),
    ("timestamp", .str (isoformat err.timestamp))]

def opsErrors (s : AppState) : Except PyExc Reply :=
  let errors := s.service.recentErrors
  jsonResponse 200 [
    ("total", .int errors.length),
    ("by_type", .obj ((errorCounts errors).entries.map fun kv => (kv.1, .int kv.2))),
    ("recent", .arr ((errors.rtake 10).map ErrorRecord.toJson))]

/-- `GET /health`; any truthy drain mode counts as draining. -/
def health (m : Moment) (s : AppState) : Except PyExc Reply :=
  if s.drainMode.truthy then jsonResponse 503 [("status", .str "draining")]
  else
    let check (probe : Probe) := Json.str (if probe.works then "ok" else "error")
    let allOk := m.rdsProbe.works && m.kafkaProbe.works
    jsonResponse (if allOk then 200 else 503) [
      ("status", .str (if allOk then "healthy" else "unhealthy")),
      ("checks", .obj [("rds", check m.rdsProbe), ("kafka", check m.kafkaProbe)])]

/-- `min(int(n * pct / 100), n - 1)`. -/
def percentileIndex (n pct : ℕ) : ℕ :=
  min (PyFloat.truncRat ((PyFloat.ofRat (n * pct / 100)).toRat?.getD 0)).toNat (n - 1)

def percentileSample (data : List ℚ) (pct : ℕ) : ℚ :=
  (data.mergeSort (· ≤ ·)).getD (percentileIndex data.length pct) 0

def percentile (data : List ℚ) (pct : ℕ) : Json :=
  if data = [] then .float (.fin 0) else roundTo 2 (percentileSample data pct)

/-- The errors of a hundred requests. -/
def errorRate (s : AppState) : ℚ :=
  if 0 < s.requestCount then s.errorCount / s.requestCount * 100 else 0

def opsStatus (p : Process) (m : Moment) (s : AppState) : Except PyExc Reply :=
  let depOk := m.rdsProbe.works && m.kafkaProbe.works
  let verdict :=
    if s.drainMode.truthy then "unhealthy"
    else if !depOk || 10 < errorRate s then "degraded"
    else "healthy"
  jsonResponse 200 [
    ("status", .str verdict),
    ("uptime_seconds", roundTo 1 (m.monotonic - p.startTime)),
    ("request_count", .int s.requestCount),
    ("error_count", .int s.errorCount),
    ("error_rate_pct", roundTo 2 (errorRate s)),
    ("latency_p99_ms", percentile s.latencies.entries 99),
    ("dependencies_ok", .bool depOk),
    ("drain_mode", s.drainMode)]

def opsMetrics (p : Process) (m : Moment) (s : AppState) : Except PyExc Reply := do
  let uptime := m.monotonic - p.startTime
  let trafficRate := if 0 < uptime then roundTo 2 (s.requestCount / uptime) else .float (.fin 0)
  let errorPct := roundTo 2 (errorRate s)
  let quantiles := Json.obj [("p50_ms", percentile s.latencies.entries 50),
    ("p95_ms", percentile s.latencies.entries 95), ("p99_ms", percentile s.latencies.entries 99)]
  let entries ← s.service.cache.entryCount
  jsonResponse 200 [
    ("golden_signals", .obj [
      ("latency", quantiles),
      ("traffic", .obj [("total_requests", .int s.requestCount),
        ("requests_per_second", trafficRate)]),
      ("errors", .obj [("total_errors", .int s.errorCount), ("error_rate_pct", errorPct)]),
      ("saturation", .obj [("cache_entries", .int entries),
        ("recent_errors_buffer", .int s.service.recentErrors.length)])]),
    ("red", .obj [("rate", trafficRate), ("errors", .int s.errorCount), ("duration", quantiles)]),
    ("uptime_seconds", roundTo 1 uptime)]

/-- `POST /ops/drain`; the mode is set before the answer is built. -/
def opsDrain (body : Option Json) (s : AppState) : Except PyExc Reply × AppState :=
  match body with
  | none => (invalidBody, s)
  | some body =>
    match body.get "enabled" (.bool true) with
    | .error e => (.error e, s)
    | .ok mode =>
      (jsonResponse 200 [("status", .str "ok"), ("drain_mode", mode)], { s with drainMode := mode })

def opsCircuits : Except PyExc Reply :=
  let closed (note : String) := Json.obj [("state", .str "closed"), ("note", .str note)]
  jsonResponse 200 [
    ("circuits", .obj [("rds", closed "Connection managed by rds_module"),
      ("kafka", closed "Connection managed by kafka_module")]),
    ("message", .str ("No application-managed circuit breakers. External module connections " ++
      "managed by their respective modules."))]

def opsScale : Except PyExc Reply :=
  jsonResponse 200 [("scaling", .obj [
    ("strategy", .str "KEDA (external HPA)"), ("min_replicas", .int 1),
    ("max_replicas", .int 500),
    ("note", .str ("Scaling managed by KEDA ScaledObject in Helm chart, " ++
      "not application-managed."))])]

variable [Runtime]

/-- A refresh of the cache, answered with the given texts. -/
def answerRefresh (done failed : String) (m : Moment) (s : AppState) :
    Except PyExc Reply × AppState :=
  let refreshed := s.service.cache.refresh m.tick
  let s := { s with service := { s.service with cache := refreshed.2 } }
  match refreshed.1 with
  | .error e => (.error e, s)
  | .ok true =>
    (refreshed.2.entryCount.bind fun entries =>
      jsonResponse 200 [("status", .str "ok"), ("message", .str done), ("entries", .int entries)], s)
  | .ok false => (jsonResponse 500 [("status", .str "error"), ("message", .str failed)], s)

def opsCacheRefresh (m : Moment) (s : AppState) : Except PyExc Reply × AppState :=
  answerRefresh "Cache refreshed" "Cache refresh failed" m s

def opsCacheFlush (m : Moment) (s : AppState) : Except PyExc Reply × AppState :=
  answerRefresh "Cache flushed and refreshed" "Cache flush failed" m s

def validLevels : List (String × ℕ) :=
  [("DEBUG", 10), ("INFO", 20), ("WARNING", 30), ("ERROR", 40), ("CRITICAL", 50)]

def opsLoglevel (body : Option Json) (s : AppState) : Except PyExc Reply × AppState :=
  match body with
  | none => (invalidBody, s)
  | some body =>
    match body.get "level" (.str "") with
    | .error e => (.error e, s)
    | .ok (.str name) =>
      match OrderedMap.find (upper name) validLevels with
      | none =>
        (jsonResponse 400 [("error", .str "invalid_level"), ("message", .str
          "Level must be one of ['DEBUG', 'INFO', 'WARNING', 'ERROR', 'CRITICAL']")], s)
      | some level =>
        (jsonResponse 200 [("status", .str "ok"), ("level", .str (upper name))],
          { s with rootLevel := level })
    | .ok _ => (.error (.builtin .attributeError), s)

/-- `POST /` as a handler of the process. -/
def answerSendRequest (p : Process) (m : Moment) (request : Request) (s : AppState) :
    Except PyExc Reply × AppState :=
  let served := sendRequest p.env m.tick m.kafka request s.service
  (jsonResponse served.response.statusCode served.response.content,
    { s with service := served.service })

end Handlers

end TvEvents
