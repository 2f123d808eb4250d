import TvEvents.App.Validation

namespace TvEvents.Legacy

/-- The names that flattening leaves out: a list, or a string that is searched for the name. -/
inductive IgnoreKeys
  | names (ks : List String)
  | text (s : String)

def IgnoreKeys.has : IgnoreKeys → String → Bool
  | .names ks, k => ks.contains k
  | .text s, k => inStr k s

variable [Runtime]

/-- The loop is the rebuilt one; only the test for ignored names takes a string too. -/
def flattenRequestJson (requestJson : Json) (keyPrefix : String) (ignoreKeys : IgnoreKeys) :
    Except PyExc PyDict := do
  let kvs ← requestJson.items
  return flattenEntries ignoreKeys.has keyPrefix .empty kvs

/-- The last option that is present, or `None`. -/
def getPayloadNamespace (payload : Json) : Except PyExc Json :=
  namespaceOf payload .null namespaceOptions

def divThousand : Json → Except PyExc PyFloat
  | .int n => .ok (.ofRat ((n : ℚ) / 1000))
  | .bool b => .ok (.ofRat (if b then 1 / 1000 else 0))
  | .float (.fin q) => .ok (.ofRat (q / 1000))
  | .float f => .ok f
  | _ => .error (.builtin .typeError)

/-- `datetime.fromtimestamp(ts)` without a conversion to `int`. -/
def fromTimestamp : Json → Except PyExc Unit
  | .int n => fromTimestampInt n
  | .bool b => fromTimestampInt (if b then 1 else 0)
  | .float f => fromTimestampFloat f
  | _ => .error (.builtin .typeError)

/-- A missing timestamp answers `None`, which counts as false, and is no error. -/
def timestampCheck (ts tvid : Json) (isMs : Bool) : Except PyExc Bool :=
  if ts = .null ∨ ts = .str "" then .ok false
  else
    match if isMs then (divThousand ts).bind fromTimestampFloat else fromTimestamp ts with
    | .ok () => .ok true
    | .error e => .error (timestampError (str tvid) (str ts) e)

/-- An instance; only two of the classes set `namespace` and `appid`. -/
structure EventType where
  kind : EventTypeClass
  payload : Json
  eventType : Json
  tvid : Json
  eventDataParams : Json
  eventNamespace : Option Json
  appid : Option Json

/-- Reading an attribute that was never set fails. -/
def getAttribute : Option Json → Except PyExc Json
  | some v => .ok v
  | none => .error (.builtin .attributeError)

namespace EventType

def init (kind : EventTypeClass) (payload : Json) : Except PyExc EventType := do
  let eventType ← (← payload.item "TvEvent").item "EventType"
  let tvid ← (← payload.item "TvEvent").item "tvid"
  let eventDataParams ← payload.item "EventData"
  return ⟨kind, payload, eventType, tvid, eventDataParams, none, none⟩

def initNativeAppTelemetry (payload : Json) : Except PyExc EventType := do
  let et ← init .nativeAppTelemetry payload
  let ns ← getPayloadNamespace et.eventDataParams
  let appid ← et.eventDataParams.get "AppId" .null
  return { et with eventNamespace := some ns, appid := some appid }

def initAcrTunerData (payload : Json) : Except PyExc EventType := do
  let et ← init .acrTunerData payload
  let ns ← getPayloadNamespace (← payload.item "TvEvent")
  let appid ← (← payload.item "TvEvent").get "appId" .null
  return { et with eventNamespace := some ns, appid := some appid }

def initPlatformTelemetry (payload : Json) : Except PyExc EventType :=
  init .platformTelemetry payload

def ofClass (kind : EventTypeClass) (payload : Json) : Except PyExc EventType :=
  match kind with
  | .nativeAppTelemetry => initNativeAppTelemetry payload
  | .acrTunerData => initAcrTunerData payload
  | .platformTelemetry => initPlatformTelemetry payload

def generateNativeAppTelemetry (et : EventType) : Except PyExc PyDict := do
  let eventDataJson ← et.payload.item "EventData"
  let out ← flattenRequestJson eventDataJson "" (.text "Timestamp")
  return out.set "eventdata_timestamp" (← eventDataJson.item "Timestamp")

/-- A start time that is set is checked in seconds and replaced by its milliseconds. -/
def convertStartTime (et : EventType) (out : PyDict) : Except PyExc PyDict :=
  match out.get? "programdata_starttime" with
  | none => .ok out
  | some ts => do
    if ← timestampCheck ts et.tvid false then
      return out.set "programdata_starttime" (← unixTimeToMs ts)
    else return out

def generateAcrTunerData (et : EventType) : Except PyExc PyDict := do
  let eventDataJson ← et.payload.item "EventData"
  let out ← et.convertStartTime (← flattenRequestJson eventDataJson "" (.names []))
  let heartbeat ← eventDataJson.get "Heartbeat" .null
  return if heartbeat.truthy then out.set "eventtype" (.str "Heartbeat") else out

def generatePlatformTelemetry (et : EventType) : Except PyExc PyDict := do
  let eventDataJson ← et.payload.item "EventData"
  TvEvents.EventType.upperPanelState (← flattenRequestJson eventDataJson "" (.names []))

def generateEventDataOutputJson (et : EventType) : Except PyExc PyDict :=
  match et.kind with
  | .nativeAppTelemetry => et.generateNativeAppTelemetry
  | .acrTunerData => et.generateAcrTunerData
  | .platformTelemetry => et.generatePlatformTelemetry

end EventType

end TvEvents.Legacy
