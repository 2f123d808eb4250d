import TvEvents.App.EventType

namespace TvEvents

abbrev Env := String → Option String

/-- The query parameters of a request, one value a name. -/
abbrev UrlParams := OrderedMap String String

/-- The class for an event type; a list or an object is no dict key. -/
def getEventTypeMapping (eventType : Json) : Except PyExc (Option EventTypeClass) :=
  match eventType with
  | .str s => .ok (OrderedMap.find s eventTypeMap)
  | .arr _ => .error (.builtin .typeError)
  | .obj _ => .error (.builtin .typeError)
  | _ => .ok none

variable [Runtime]

def securityHashToken (token salt : String) : String := hexdigest (token ++ salt)

/-- Without `T1_SALT` the salt is `None` and no string can be added to it. -/
def securityHashMatch (token passedHash : String) (salt : Option String) : Except PyExc Bool :=
  match salt with
  | none => .error (.builtin .typeError)
  | some salt => .ok (passedHash == securityHashToken token salt)

def saltKey (env : Env) : Option String := env "T1_SALT"

def validateSecurityHash (env : Env) (tvid hValue : String) : Except PyExc Unit := do
  if ← securityHashMatch tvid hValue (saltKey env) then return ()
  else throw (.tvEvents .securityValidation
    ("Security hash decryption failure for tvid=" ++ tvid ++ "."))

def strParam : Option String → String
  | none => "None"
  | some s => s

/-- The pipeline raises or answers `True`; the answers of the two match checks are only logged. -/
def validateRequest (env : Env) (urlParams : UrlParams) (payload : Json) : Except PyExc Bool := do
  let tvid := urlParams.get? "tvid"
  verifyRequiredParams payload requiredParams
  let payloadEventType ← (← payload.item "TvEvent").item "EventType"
  let _tvidMatch := paramsMatchCheck tvid (← (← payload.item "TvEvent").item "tvid")
  let _eventTypeMatch := paramsMatchCheck (urlParams.get? "event_type") payloadEventType
  let payloadEventTimestamp ← (← payload.item "TvEvent").item "timestamp"
  timestampCheck payloadEventTimestamp (strParam tvid) true
  let hValue ← (← payload.item "TvEvent").item "h"
  validateSecurityHash env (strParam tvid) (str hValue)
  match ← getEventTypeMapping payloadEventType with
  | some kind =>
    let et ← EventType.ofClass kind payload
    et.validateEventTypePayload
  | none => pure ()
  return true

end TvEvents
