import TvEvents.Python.Runtime

namespace TvEvents

inductive TvEventsError
  | default
  | catchall
  | missingRequiredParam
  | securityValidation
  | invalidPayload
  deriving DecidableEq

namespace TvEventsError

def statusCode : TvEventsError → ℕ
  | .catchall => 500
  | _ => 400

def name : TvEventsError → String
  | .default => "TvEventsDefaultError"
  | .catchall => "TvEventsCatchallError"
  | .missingRequiredParam => "TvEventsMissingRequiredParamError"
  | .securityValidation => "TvEventsSecurityValidationError"
  | .invalidPayload => "TvEventsInvalidPayloadError"

end TvEventsError

/-- A raised exception: the service's own, one of `jsonschema`, or any other. -/
inductive PyExc
  | tvEvents (kind : TvEventsError) (message : String)
  | validation (e : ValidationError)
  | builtin (b : Builtin)
  deriving DecidableEq

def PyExc.text [Runtime] : PyExc → String
  | .tvEvents _ message => message
  | .validation e => e.message
  | .builtin b => excText b

end TvEvents
