import TvEvents.App.Output

namespace TvEvents

variable [Runtime]

structure Request where
  urlParams : UrlParams
  body : Option Json

structure Response where
  statusCode : ℕ
  content : List (String × Json)

structure ErrorRecord where
  type : String
  message : String
  timestamp : ℚ

/-- What a request leaves behind: the blacklist cache and the recent errors. -/
structure Service where
  cache : BlacklistCache
  recentErrors : List ErrorRecord

def maxRecentErrors : ℕ := 100

def recordError (now : ℚ) (type message : String) (errors : List ErrorRecord) :
    List ErrorRecord :=
  let errors := errors ++ [⟨type, String.ofList (message.toList.take 200), now⟩]
  if maxRecentErrors < errors.length then errors.drop 1 else errors

/-- The answer to an exception of the pipeline, and its record. -/
def answerError (now : ℚ) (tvid : String) (e : PyExc) (service : Service) : Response × Service :=
  match e with
  | .tvEvents kind message =>
    (⟨kind.statusCode, [("error", .str kind.name), ("message", .str message)]⟩,
      { service with recentErrors := recordError now kind.name message service.recentErrors })
  | e =>
    let msg := "Exception in send_request: tvid=" ++ tvid ++ " msg=" ++ e.text
    (⟨500, [("error", .str "internal_error"), ("message", .str e.text)]⟩,
      { service with recentErrors :=
          recordError now "TvEventsCatchallError" msg service.recentErrors })

theorem answerError_status (now : ℚ) (tvid : String) (e : PyExc) (service : Service) :
    (answerError now tvid e service).1.statusCode = 400 ∨
      (answerError now tvid e service).1.statusCode = 500 := by
  cases e with
  | tvEvents kind message => cases kind <;> simp [answerError, TvEventsError.statusCode]
  | validation e => exact .inr rfl
  | builtin b => exact .inr rfl

/-- The answer to a request, its calls of `send_message`, and the service afterwards. -/
structure Served where
  response : Response
  attempts : List Attempt
  service : Service

/-- `POST /`; a body that is no JSON is answered before anything is recorded. -/
def sendRequest (env : Env) (t : Tick) (kafka : Kafka) (request : Request) (service : Service) :
    Served :=
  let tvid := (request.urlParams.get? "tvid").getD ""
  match request.body with
  | none =>
    ⟨⟨400, [("error", .str "invalid_payload"), ("message", .str "Invalid JSON body")]⟩, [], service⟩
  | some payload =>
    match validateRequest env request.urlParams payload with
    | .error e =>
      let answer := answerError t.now tvid e service
      ⟨answer.1, [], answer.2⟩
    | .ok _ =>
      let pushed := pushChangesToKafka env t kafka payload service.cache
      let service := { service with cache := pushed.cache }
      match pushed.result with
      | .error e =>
        let answer := answerError t.now tvid e service
        ⟨answer.1, pushed.attempts, answer.2⟩
      | .ok _ => ⟨⟨200, [("status", .str "ok")]⟩, pushed.attempts, service⟩

end TvEvents
