import TvEvents.App.Checks

namespace TvEvents

variable [Runtime]

/-- The output key of member `k` of an object that is called `keyPrefix`. -/
def flatName (keyPrefix k : String) : String :=
  lower (if keyPrefix = "" then k else keyPrefix ++ "_" ++ k)

mutual

/-- One pass of the loop for each member; `ignored` holds at the top level only. -/
def flattenEntries (ignored : String → Bool) (keyPrefix : String) (out : PyDict) :
    List (String × Json) → PyDict
  | [] => out
  | (k, v) :: rest =>
      flattenEntries ignored keyPrefix
        (if ignored k then out else flattenMember keyPrefix k out v) rest

def flattenMember (keyPrefix k : String) (out : PyDict) : Json → PyDict
  | .obj sub => out.update (flattenEntries (fun _ => false) k .empty sub)
  | v => out.set (flatName keyPrefix k) v

end

def flattenRequestJson (requestJson : Json) (keyPrefix : String) (ignoreKeys : List String) :
    Except PyExc PyDict := do
  let kvs ← requestJson.items
  return flattenEntries (fun k => ignoreKeys.contains k) keyPrefix .empty kvs

inductive EventTypeClass
  | nativeAppTelemetry
  | acrTunerData
  | platformTelemetry
  deriving DecidableEq

def eventTypeMap : List (String × EventTypeClass) :=
  [("NATIVEAPP_TELEMETRY", .nativeAppTelemetry), ("ACR_TUNER_DATA", .acrTunerData),
    ("PLATFORM_TELEMETRY", .platformTelemetry)]

structure EventType where
  kind : EventTypeClass
  payload : Json
  eventType : Json
  tvid : Json
  eventDataParams : Json
  eventNamespace : Json
  appid : Json

def namespaceOptions : List String := ["Namespace", "NameSpace", "namespace"]

/-- Every option that is present is taken, so the last one stays. -/
def namespaceOf (v ns : Json) : List String → Except PyExc Json
  | [] => .ok ns
  | option :: options => do
    if ← v.has option then namespaceOf v (← v.item option) options
    else namespaceOf v ns options

namespace EventType

def init (kind : EventTypeClass) (payload : Json) : Except PyExc EventType := do
  let eventType ← (← payload.get "TvEvent" (.obj [])).get "EventType" (.str "")
  let tvid ← (← payload.get "TvEvent" (.obj [])).get "tvid" (.str "")
  let eventDataParams ← payload.get "EventData" (.obj [])
  return ⟨kind, payload, eventType, tvid, eventDataParams, .null, .null⟩

def initNativeAppTelemetry (payload : Json) : Except PyExc EventType := do
  let et ← init .nativeAppTelemetry payload
  let ns ← namespaceOf et.eventDataParams .null namespaceOptions
  let appid ← et.eventDataParams.get "AppId" .null
  return { et with eventNamespace := ns, appid := appid }

def initAcrTunerData (payload : Json) : Except PyExc EventType := do
  let et ← init .acrTunerData payload
  let tvEvent ← payload.get "TvEvent" (.obj [])
  let ns ← namespaceOf tvEvent .null namespaceOptions
  let appid ← tvEvent.get "appId" .null
  return { et with eventNamespace := ns, appid := appid }

def initPlatformTelemetry (payload : Json) : Except PyExc EventType :=
  init .platformTelemetry payload

/-- `et_map(payload)`. -/
def ofClass (kind : EventTypeClass) (payload : Json) : Except PyExc EventType :=
  match kind with
  | .nativeAppTelemetry => initNativeAppTelemetry payload
  | .acrTunerData => initAcrTunerData payload
  | .platformTelemetry => initPlatformTelemetry payload

/-- The part of an error text that names the event. -/
def label (et : EventType) (sep : String) : String :=
  "tvid=" ++ str et.tvid ++ " EventType" ++ sep ++ str et.eventType

def validateNativeAppTelemetry (et : EventType) : Except PyExc Unit := do
  let edTimestamp ← et.eventDataParams.get "Timestamp" .null
  if edTimestamp.truthy then timestampCheck edTimestamp (str et.tvid) true
  else return ()

def sections : List String := ["channelData", "programData"]

def validateHeartbeatEvent (et : EventType) : Except PyExc Unit := do
  if ← et.eventDataParams.hasAny sections then
    throw (.tvEvents .invalidPayload
      ("Heartbeat cannot be sent with channel/program Data: " ++ et.label "="))
  let hbParams ← et.eventDataParams.item "Heartbeat"
  if ← hbParams.hasAny sections then return ()
  else throw (.tvEvents .missingRequiredParam
    ("Required Heartbeat Param: ['channelData', 'programData'] missing: " ++ et.label "="))

/-- A section that is present must have its own required members. -/
def validateSection (edParams : Json) (name : String) (required : List String) :
    Except PyExc Unit := do
  if ← edParams.has name then verifyRequiredParams (← edParams.item name) required
  else return ()

/-- The object whose sections are checked: the heartbeat, or the event data themselves. -/
def acrParams (et : EventType) : Except PyExc Json := do
  if ← et.eventDataParams.has "Heartbeat" then
    et.validateHeartbeatEvent
    et.eventDataParams.item "Heartbeat"
  else if ← et.eventDataParams.hasAny sections then return et.eventDataParams
  else throw (.tvEvents .missingRequiredParam
    ("Missing Required Param: ['channelData', 'programData'] " ++ et.label "="))

def validateAcrTunerData (et : EventType) : Except PyExc Unit := do
  let edParams ← et.acrParams
  validateSection edParams "channelData" ["majorId", "minorId"]
  validateSection edParams "resolution" ["vRes", "hRes"]

end EventType

section Schema

def isNumber : Json → Bool
  | .int _ => true
  | .float _ => true
  | _ => false

/-- `v < bound` of numbers; every comparison with NaN is false. -/
def lessThan (bound : ℤ) : Json → Bool
  | .int n => decide (n < bound)
  | .float (.inf neg) => neg
  | .float f => f.toRat?.any fun q => decide (q < (bound : ℚ))
  | _ => false

/-- `v > bound` of numbers. -/
def greaterThan (bound : ℤ) : Json → Bool
  | .int n => decide (bound < n)
  | .float (.inf neg) => !neg
  | .float f => f.toRat?.any fun q => decide ((bound : ℚ) < q)
  | _ => false

/-- `re.search("^(ON|OFF|on|off|On|Off)$", s)`: `$` also matches before a final newline. -/
def panelStateMatches (s : String) : Bool :=
  ["ON", "OFF", "on", "off", "On", "Off"].any fun w => s == w || s == w ++ "\n"

def schemaError (validator message : String) : List ValidationError := [⟨validator, message, []⟩]

def requiredErrors (required : List String) : Json → List ValidationError
  | .obj kvs => required.flatMap fun p =>
      if (OrderedMap.find p kvs).isSome then []
      else schemaError "required" ("'" ++ p ++ "' is a required property")
  | _ => []

def typeErrors (ok : Bool) (type : String) (v : Json) : List ValidationError :=
  if ok then [] else schemaError "type" (Runtime.repr v ++ " is not of type '" ++ type ++ "'")

/-- Errors below property `p`, each with `p` in front of its path. -/
def propertyErrors (p : String) (below : Json → List ValidationError) : Json → List ValidationError
  | .obj kvs =>
    match OrderedMap.find p kvs with
    | some v => (below v).map fun e => { e with path := p :: e.path }
    | none => []
  | _ => []

def timestampErrors (v : Json) : List ValidationError := typeErrors (isNumber v) "number" v

def panelStateErrors (v : Json) : List ValidationError :=
  match v with
  | .str s =>
    if panelStateMatches s then []
    else schemaError "pattern"
      (Runtime.repr v ++ " does not match '^(ON|OFF|on|off|On|Off)$'")
  | _ => typeErrors false "string" v

def wakeupReasonErrors (v : Json) : List ValidationError :=
  typeErrors (isNumber v) "number" v ++
    (if lessThan 0 v then schemaError "minimum" (Runtime.repr v ++ " is less than the minimum of 0")
      else []) ++
    (if greaterThan 128 v then
      schemaError "maximum" (Runtime.repr v ++ " is greater than the maximum of 128") else [])

/-- `iter_errors` of `panel_data_schema`, in the order of its keywords. -/
def panelDataErrors (v : Json) : List ValidationError :=
  requiredErrors ["Timestamp", "PanelState", "WakeupReason"] v ++ typeErrors v.isObj "object" v ++
    propertyErrors "Timestamp" timestampErrors v ++
    propertyErrors "PanelState" panelStateErrors v ++
    propertyErrors "WakeupReason" wakeupReasonErrors v

def platformTelemetryErrors (v : Json) : List ValidationError :=
  requiredErrors ["PanelData"] v ++ typeErrors v.isObj "object" v ++
    propertyErrors "PanelData" panelDataErrors v

/-- `jsonschema.validate` raises the best match among the errors. -/
def raiseBest : List ValidationError → Except PyExc Unit
  | [] => .ok ()
  | e :: es => .error (.validation (bestMatch e es))

/-- `s.split()[0]`. -/
def firstWord (s : String) : Except PyExc String :=
  match (s.toList.dropWhile isSpace).takeWhile (fun c => !isSpace c) with
  | [] => .error (.builtin .indexError)
  | cs => .ok (String.ofList cs)

end Schema

namespace EventType

def validatePanelData (et : EventType) : Except PyExc Unit := do
  let pdParams ← et.eventDataParams.item "PanelData"
  raiseBest (panelDataErrors pdParams)
  timestampCheck (← pdParams.item "Timestamp") (str et.tvid) true

/-- The `except ValidationError` branch; `e.path.pop()` fails on the path of a root error. -/
def schemaFailure (et : EventType) (e : ValidationError) : Except PyExc Unit :=
  if e.validator = "required" then do
    let word ← firstWord e.message
    throw (.tvEvents .missingRequiredParam ("Missing Required Param: " ++ word ++ " " ++ et.label "="))
  else
    match e.path.getLast? with
    | none => .error (.builtin .indexError)
    | some last => .error (.tvEvents .invalidPayload
        ("Invalid Payload: " ++ et.label ": " ++ ", " ++ last ++ "-" ++ e.message))

def validatePlatformTelemetry (et : EventType) : Except PyExc Unit :=
  match (do raiseBest (platformTelemetryErrors et.eventDataParams); et.validatePanelData) with
  | .error (.validation e) => et.schemaFailure e
  | r => r

def validateEventTypePayload (et : EventType) : Except PyExc Unit :=
  match et.kind with
  | .nativeAppTelemetry => et.validateNativeAppTelemetry
  | .acrTunerData => et.validateAcrTunerData
  | .platformTelemetry => et.validatePlatformTelemetry

def generateNativeAppTelemetry (et : EventType) : Except PyExc PyDict := do
  let eventDataJson ← et.payload.item "EventData"
  let out ← flattenRequestJson eventDataJson "" ["Timestamp"]
  return out.set "eventdata_timestamp" (← eventDataJson.item "Timestamp")

/-- A start time that is present is checked in seconds and replaced by its milliseconds. -/
def convertStartTime (et : EventType) (out : PyDict) : Except PyExc PyDict :=
  match out.get? "programdata_starttime" with
  | none => .ok out
  | some ts => do
    timestampCheck ts (str et.tvid) false
    return out.set "programdata_starttime" (← unixTimeToMs ts)

def generateAcrTunerData (et : EventType) : Except PyExc PyDict := do
  let eventDataJson ← et.payload.item "EventData"
  let out ← et.convertStartTime (← flattenRequestJson eventDataJson "" [])
  let heartbeat ← eventDataJson.get "Heartbeat" .null
  return if heartbeat.truthy then out.set "eventtype" (.str "Heartbeat") else out

/-- `out["paneldata_panelstate"].upper()`. -/
def upperPanelState (out : PyDict) : Except PyExc PyDict :=
  match out.get? "paneldata_panelstate" with
  | some (.str s) => .ok (out.set "paneldata_panelstate" (.str (upper s)))
  | some _ => .error (.builtin .attributeError)
  | none => .error (.builtin (.keyError "paneldata_panelstate"))

def generatePlatformTelemetry (et : EventType) : Except PyExc PyDict := do
  let eventDataJson ← et.payload.item "EventData"
  upperPanelState (← flattenRequestJson eventDataJson "" [])

def generateEventDataOutputJson (et : EventType) : Except PyExc PyDict :=
  match et.kind with
  | .nativeAppTelemetry => et.generateNativeAppTelemetry
  | .acrTunerData => et.generateAcrTunerData
  | .platformTelemetry => et.generatePlatformTelemetry

end EventType

end TvEvents
