import TvEvents.App.Ops
import TvEvents.Library.Coroutines

namespace TvEvents

/-- The routes; `other` is a path or a method that the framework answers itself. -/
inductive Route
  | status
  | sendRequest
  | opsHealth
  | opsConfig
  | opsDependencies
  | opsCache
  | opsErrors
  | opsCacheRefresh
  | health
  | opsStatus
  | opsMetrics
  | opsDrain
  | opsCacheFlush
  | opsCircuits
  | opsLoglevel
  | opsScale
  | other (reply : Reply)

def Route.readsBody : Route → Bool
  | .sendRequest | .opsDrain | .opsLoglevel => true
  | _ => false

/-- A request as the middlewares see it: its route, the path of its URL (nothing when the URL does
not parse), and whether its access log record can be written. -/
structure Incoming where
  route : Route
  urlPath : Option String
  loggable : Bool
  request : Request

/-- How far a request has come; `called` and `reading` carry the time at which metrics began. -/
inductive Phase
  | arrived
  | logged
  | called (start : ℚ)
  | reading (start : ℚ)
  | returned (start : ℚ) (reply : Reply)
  | recorded (reply : Reply)
  | raised (e : PyExc)
  | answered (statusCode : ℕ)

structure Task where
  incoming : Incoming
  phase : Phase

def quietPaths : List String := ["/status", "/health", "/ops/health"]

/-- The part of `log_request_middleware` before `call_next`; it raises what logging raises. -/
def logRequest (incoming : Incoming) : Except PyExc Unit :=
  match incoming.urlPath with
  | none => .error (.builtin .valueError)
  | some path =>
    if path ∈ quietPaths then .ok ()
    else if incoming.loggable then .ok ()
    else .error (.builtin .typeError)

/-- The part of `metrics_middleware` after `call_next`. -/
def recordMetrics (now start : ℚ) (reply : Reply) (s : AppState) : AppState :=
  { s with
    latencies := s.latencies.append ((now - start) * 1000)
    requestCount := s.requestCount + 1
    errorCount := if 500 ≤ reply.statusCode then s.errorCount + 1 else s.errorCount }

variable [Runtime] [Framework]

/-- The handler of a request from its last await on. -/
def handle (p : Process) (m : Moment) (incoming : Incoming) (s : AppState) :
    Except PyExc Reply × AppState :=
  match incoming.route with
  | .status => (status, s)
  | .sendRequest => answerSendRequest p m incoming.request s
  | .opsHealth => (opsHealth m s, s)
  | .opsConfig => (opsConfig p, s)
  | .opsDependencies => (opsDependencies m, s)
  | .opsCache => (opsCache p m s, s)
  | .opsErrors => (opsErrors s, s)
  | .opsCacheRefresh => opsCacheRefresh m s
  | .health => (health m s, s)
  | .opsStatus => (opsStatus p m s, s)
  | .opsMetrics => (opsMetrics p m s, s)
  | .opsDrain => opsDrain incoming.request.body s
  | .opsCacheFlush => opsCacheFlush m s
  | .opsCircuits => (opsCircuits, s)
  | .opsLoglevel => opsLoglevel incoming.request.body s
  | .opsScale => (opsScale, s)
  | .other reply => (.ok reply, s)

/-- What `call_next` makes of a handler: a raised exception passes by the middlewares. -/
def callNext (start : ℚ) : Except PyExc Reply → Phase
  | .ok reply => .returned start reply
  | .error e => .raised e

def segment (p : Process) (m : Moment) (s : AppState) (t : Task) : AppState × Task :=
  match t.phase with
  | .arrived =>
    match logRequest t.incoming with
    | .ok _ => (s, { t with phase := .logged })
    | .error e => (s, { t with phase := .raised e })
  | .logged => (s, { t with phase := .called m.monotonic })
  | .called start =>
    if t.incoming.route.readsBody then (s, { t with phase := .reading start })
    else
      let handled := handle p m t.incoming s
      (handled.2, { t with phase := callNext start handled.1 })
  | .reading start =>
    let handled := handle p m t.incoming s
    (handled.2, { t with phase := callNext start handled.1 })
  | .returned start reply =>
    (recordMetrics m.monotonic start reply s, { t with phase := .recorded reply })
  | .recorded reply => (s, { t with phase := .answered reply.statusCode })
  -- the outermost layer of the framework answers what was raised
  | .raised _ => (s, { t with phase := .answered 500 })
  | .answered _ => (s, t)

abbrev Serving := Coroutines AppState Task

def Serving.turn (p : Process) : Serving → ℕ × Moment → Serving := Coroutines.step (segment p)

omit [Runtime] [Framework] in
def arrivals (s : AppState) (requests : List Incoming) : Serving :=
  ⟨s, requests.map fun incoming => ⟨incoming, .arrived⟩⟩

end TvEvents
