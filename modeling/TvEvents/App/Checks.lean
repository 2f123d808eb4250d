import TvEvents.App.Dynamic

namespace TvEvents

def requiredParams : List String := ["tvid", "client", "h", "EventType", "timestamp"]

def requireAll (v : Json) : List String → Except PyExc Unit
  | [] => .ok ()
  | param :: params => do
    if ← v.has param then requireAll v params
    else throw (.tvEvents .missingRequiredParam ("Missing Required Param: " ++ param))

/-- The check reads the `TvEvent` member when there is one, else the payload itself. -/
def verifyRequiredParams (payload : Json) (required : List String) : Except PyExc Unit := do
  let checkPayload ← payload.get "TvEvent" payload
  requireAll checkPayload required

variable [Runtime]

/-- The failed check names the timestamp as it stood: converted when `int` had succeeded. -/
def timestampError (tvid ts : String) (e : PyExc) : PyExc :=
  .tvEvents .invalidPayload
    ("Timestamp check failed: tvid=" ++ tvid ++ " ts=" ++ ts ++ " with error " ++ e.text)

def timestampCheck (ts : Json) (tvid : String) (isMs : Bool) : Except PyExc Unit :=
  match toInt ts with
  | .error e => .error (timestampError tvid (str ts) e)
  | .ok n =>
    match if isMs then fromTimestampFloat (.ofRat ((n : ℚ) / 1000)) else fromTimestampInt n with
    | .error e => .error (timestampError tvid (toString n) e)
    | .ok () => .ok ()

def unixTimeToMs (ts : Json) : Except PyExc Json := timesThousand ts

/-- `url_param == payload_param`; an absent URL parameter is `None`. -/
def paramsMatchCheck (urlParam : Option String) (payloadParam : Json) : Bool :=
  match urlParam with
  | none => payloadParam == .null
  | some s => payloadParam == .str s

end TvEvents
