import TvEvents.Legacy.EventType

namespace TvEvents.Legacy

/-- The names are looked for in the member `TvEvent`, when the value has one; an empty list of names
stands for those of the service. -/
def verifyRequiredParams (payload : Json) (required : List String) : Except PyExc Unit := do
  let payloadParams ← if ← payload.has "TvEvent" then payload.item "TvEvent" else pure payload
  requireAll payloadParams (if required = [] then requiredParams else required)

variable [Runtime]

/-- Neither a missing token nor a missing salt can be added to a string. -/
def securityHashMatch (token : Option String) (passedHash : Json) (salt : Option String) :
    Except PyExc Bool :=
  match token, salt with
  | some token, some salt => .ok (passedHash == .str (securityHashToken token salt))
  | _, _ => .error (.builtin .typeError)

def validateSecurityHash (env : Env) (tvid : Option String) (hValue : Json) : Except PyExc Unit := do
  if ← securityHashMatch tvid hValue (saltKey env) then return ()
  else throw (.tvEvents .securityValidation
    ("Security hash decryption failure for tvid=" ++ strParam tvid ++ "."))

namespace EventType

/-- The instance as the rebuilt code has it, where an attribute that was never set is `None`. -/
def view (et : EventType) : TvEvents.EventType :=
  ⟨et.kind, et.payload, et.eventType, et.tvid, et.eventDataParams, et.eventNamespace.getD .null,
    et.appid.getD .null⟩

def validateNativeAppTelemetry (et : EventType) : Except PyExc Unit := do
  verifyRequiredParams et.eventDataParams ["Timestamp"]
  let _ ← timestampCheck (← et.eventDataParams.item "Timestamp") et.tvid true

def validateSection (edParams : Json) (name : String) (required : List String) :
    Except PyExc Unit := do
  if ← edParams.has name then verifyRequiredParams (← edParams.item name) required
  else return ()

/-- The checks before those of the sections, and their texts, are the rebuilt ones. -/
def validateAcrTunerData (et : EventType) : Except PyExc Unit := do
  let edParams ← et.view.acrParams
  validateSection edParams "channelData" ["majorId", "minorId"]
  validateSection edParams "resolution" ["vRes", "hRes"]

def validatePanelData (et : EventType) : Except PyExc Unit := do
  let pdParams ← et.eventDataParams.item "PanelData"
  raiseBest (panelDataErrors pdParams)
  let _ ← timestampCheck (← pdParams.item "Timestamp") et.tvid true

/-- The schemas and the error branch are the rebuilt ones. -/
def validatePlatformTelemetry (et : EventType) : Except PyExc Unit :=
  match (do raiseBest (platformTelemetryErrors et.eventDataParams); et.validatePanelData) with
  | .error (.validation e) => et.view.schemaFailure e
  | r => r

def validateEventTypePayload (et : EventType) : Except PyExc Unit :=
  match et.kind with
  | .nativeAppTelemetry => et.validateNativeAppTelemetry
  | .acrTunerData => et.validateAcrTunerData
  | .platformTelemetry => et.validatePlatformTelemetry

end EventType

def validateRequest (env : Env) (urlParams : UrlParams) (payload : Json) : Except PyExc Bool := do
  let tvid := urlParams.get? "tvid"
  verifyRequiredParams payload []
  let payloadEventType ← (← payload.item "TvEvent").item "EventType"
  let _tvidMatch := paramsMatchCheck tvid (← (← payload.item "TvEvent").item "tvid")
  let _eventTypeMatch := paramsMatchCheck (urlParams.get? "event_type") payloadEventType
  let payloadEventTimestamp ← (← payload.item "TvEvent").item "timestamp"
  let _ ← timestampCheck payloadEventTimestamp (tvid.elim .null .str) true
  let hValue ← (← payload.item "TvEvent").item "h"
  validateSecurityHash env tvid hValue
  match ← getEventTypeMapping payloadEventType with
  | some kind =>
    let et ← EventType.ofClass kind payload
    et.validateEventTypePayload
  | none => pure ()
  return true

end TvEvents.Legacy
