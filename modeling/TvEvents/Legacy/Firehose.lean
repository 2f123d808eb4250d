import TvEvents.App.Output
import TvEvents.Legacy.EventType

namespace TvEvents.Legacy

open JsonText

/-- `os.getenv("FLASK_ENV")`. -/
def zoo (env : Env) : Json :=
  match env "FLASK_ENV" with
  | some s => .str s
  | none => .null

variable [Runtime]

def generateOutputJson (env : Env) (requestJson : Json) : Except PyExc PyDict := do
  let requestEventType ← (← requestJson.item "TvEvent").item "EventType"
  let tvEventOut ← flattenRequestJson (← requestJson.item "TvEvent") "" (.names tvEventIgnored)
  let timestamp ← (← requestJson.item "TvEvent").item "timestamp"
  let out := (((OrderedMap.empty.update tvEventOut).set "tvevent_timestamp" timestamp).set
    "tvevent_eventtype" requestEventType).set "zoo" (zoo env)
  match ← getEventTypeMapping requestEventType with
  | some kind =>
    let et ← EventType.ofClass kind requestJson
    let eventTypeOut ← et.generateEventDataOutputJson
    let ns ← getAttribute et.eventNamespace
    let appid ← getAttribute et.appid
    return ((out.update eventTypeOut).set "namespace" ns).set "appid" appid
  | none =>
    let eventData ← requestJson.item "EventData"
    return out.update (← flattenRequestJson eventData "" (.names []))

def isBlacklistedChannel (blacklist : Held) (channelId : Json) : Except PyExc Bool :=
  if channelId = .null then .ok false else blacklist.has (str channelId)

def shouldObfuscateChannel (blacklist : Held) (out : PyDict) : Except PyExc Bool :=
  if isContentBlocked out then .ok true
  else isBlacklistedChannel blacklist ((out.get? "channelid").getD .null)

/-- A call of `send_records` with one record: the JSON text of `data`. -/
structure Record where
  firehose : Option String
  data : PyDict

def Record.text (r : Record) : List Char := dumps (.obj r.data.entries)

/-- The names are read from the environment and may be missing. -/
def validFirehoses (env : Env) (tvEventsDebug : Bool) : List (Option String) :=
  if tvEventsDebug then
    (if toggle env "SEND_EVERGREEN" then [env "DEBUG_EVERGREEN_FIREHOSE_NAME"] else []) ++
    (if toggle env "SEND_LEGACY" then [env "DEBUG_LEGACY_FIREHOSE_NAME"] else [])
  else
    (if toggle env "SEND_EVERGREEN" then [env "EVERGREEN_FIREHOSE_NAME"] else []) ++
    (if toggle env "SEND_LEGACY" then [env "LEGACY_FIREHOSE_NAME"] else [])

/-- Every stream gets its call; what a call raises stays in its thread. -/
def sendToValidFirehoses (env : Env) (out : PyDict) (tvEventsDebug : Bool) : List Record :=
  (validFirehoses env tvEventsDebug).map fun firehose => ⟨firehose, out⟩

/-- The calls of a request, when no exception ends it. -/
def pushChangesToFirehose (env : Env) (blacklist : Held) (payload : Json) :
    Except PyExc (List Record) := do
  let out ← generateOutputJson env payload
  if ← shouldObfuscateChannel blacklist out then
    let debug := if toggle env "TVEVENTS_DEBUG" then sendToValidFirehoses env out true else []
    return debug ++ sendToValidFirehoses env (obfuscateChannelFields out) false
  else return sendToValidFirehoses env out false

end TvEvents.Legacy
