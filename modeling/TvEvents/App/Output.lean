import TvEvents.App.Obfuscation
import TvEvents.App.Validation

namespace TvEvents

open JsonText

variable [Runtime]

def getenv (env : Env) (name default : String) : String := (env name).getD default

/-- A toggle is on when its value reads `true` in any letter case. -/
def toggle (env : Env) (name : String) : Bool := lower (getenv env name "false") == "true"

def zoo (env : Env) : String := getenv env "ZOO" "unknown"

/-- The ignored names of the envelope; the last two come back under names of their own. -/
def tvEventIgnored : List String := ["h", "timestamp", "EventType"]

def generateOutputJson (env : Env) (requestJson : Json) : Except PyExc PyDict := do
  let requestEventType ← (← requestJson.item "TvEvent").item "EventType"
  let tvEventOut ← flattenRequestJson (← requestJson.item "TvEvent") "" tvEventIgnored
  let timestamp ← (← requestJson.item "TvEvent").item "timestamp"
  let out := (((OrderedMap.empty.update tvEventOut).set "tvevent_timestamp" timestamp).set
    "tvevent_eventtype" requestEventType).set "zoo" (.str (zoo env))
  match ← getEventTypeMapping requestEventType with
  | some kind =>
    let et ← EventType.ofClass kind requestJson
    let eventTypeOut ← et.generateEventDataOutputJson
    return ((out.update eventTypeOut).set "namespace" et.eventNamespace).set "appid" et.appid
  | none =>
    let eventData ← requestJson.get "EventData" (.obj [])
    return out.update (← flattenRequestJson eventData "" [])

/-- A call of `send_message`: the bytes are the JSON text of `data`. -/
structure Message where
  topic : String
  data : PyDict
  key : Json
  deriving DecidableEq

def Message.payloadBytes (m : Message) : List Char := dumps (.obj m.data.entries)

structure Attempt where
  message : Message
  raised : Option String

/-- The Kafka module: whether it imports, and what the `n`-th call of a request does on a topic
(`none` succeeds, a text is raised). -/
structure Kafka where
  available : Bool
  outcome : ℕ → String → Option String

def getKafkaTopics (env : Env) (tvEventsDebug : Bool) : List String :=
  if tvEventsDebug then
    (if toggle env "SEND_EVERGREEN" then
      [getenv env "KAFKA_TOPIC_EVERGREEN_DEBUG" "evergreen-tvevents-debug"] else []) ++
    (if toggle env "SEND_LEGACY" then
      [getenv env "KAFKA_TOPIC_LEGACY_DEBUG" "legacy-tvevents-debug"] else [])
  else
    (if toggle env "SEND_EVERGREEN" then
      [getenv env "KAFKA_TOPIC_EVERGREEN" "evergreen-tvevents"] else []) ++
    (if toggle env "SEND_LEGACY" then
      [getenv env "KAFKA_TOPIC_LEGACY" "legacy-tvevents"] else [])

/-- The message that carries `out` to a topic; its key is the `tvid`, or the empty string. -/
def messageTo (out : PyDict) (topic : String) : Message :=
  ⟨topic, out, (out.get? "tvid").getD (.str "")⟩

/-- The loop of `send_to_kafka`, `n` calls of the request being made: the first error ends it. -/
def sendLoop (kafka : Kafka) (out : PyDict) (n : ℕ) :
    List String → Except PyExc Unit × List Attempt
  | [] => (.ok (), [])
  | topic :: topics =>
    match kafka.outcome n topic with
    | some err => (.error (.builtin (.other err)), [⟨messageTo out topic, some err⟩])
    | none =>
      let rest := sendLoop kafka out (n + 1) topics
      (rest.1, ⟨messageTo out topic, none⟩ :: rest.2)

def sendToKafka (kafka : Kafka) (out : PyDict) (n : ℕ) (topics : List String) :
    Except PyExc Unit × List Attempt :=
  if kafka.available then sendLoop kafka out n topics else (.error (.builtin .importError), [])

/-- Nothing is called when no topic is enabled. -/
def sendToTopics (kafka : Kafka) (out : PyDict) (n : ℕ) (topics : List String) :
    Except PyExc Unit × List Attempt :=
  if topics = [] then (.ok (), []) else sendToKafka kafka out n topics

/-- The sends for a generated output whose obfuscation is decided: debug topics first. -/
def deliver (env : Env) (kafka : Kafka) (out : PyDict) (obfuscate : Bool) :
    Except PyExc Unit × List Attempt :=
  if obfuscate then
    let debug := if toggle env "TVEVENTS_DEBUG" then
      sendToTopics kafka out 0 (getKafkaTopics env true) else (.ok (), [])
    match debug.1 with
    | .error e => (.error e, debug.2)
    | .ok _ =>
      let main := sendToTopics kafka (obfuscateChannelFields out) debug.2.length
        (getKafkaTopics env false)
      (main.1, debug.2 ++ main.2)
  else sendToTopics kafka out 0 (getKafkaTopics env false)

structure Pushed where
  result : Except PyExc Unit
  attempts : List Attempt
  cache : BlacklistCache

def pushChangesToKafka (env : Env) (t : Tick) (kafka : Kafka) (payload : Json)
    (s : BlacklistCache) : Pushed :=
  match generateOutputJson env payload with
  | .error e => ⟨.error e, [], s⟩
  | .ok out =>
    match shouldObfuscateChannel t out s with
    | (.error e, s) => ⟨.error e, [], s⟩
    | (.ok obfuscate, s) =>
      let sent := deliver env kafka out obfuscate
      ⟨sent.1, sent.2, s⟩

end TvEvents
