import TvEvents.Accept.Faults
import TvEvents.App.EventType

namespace TvEvents

open OrderedMap

section Language

def panelStates : List String := ["ON", "OFF", "on", "off", "On", "Off"]

def InBounds (lo hi : ℤ) : Json → Prop
  | .int n => lo ≤ n ∧ n ≤ hi
  | .float f => ∃ q, f.toRat? = some q ∧ (lo : ℚ) ≤ q ∧ q ≤ (hi : ℚ)
  | _ => False

variable [Runtime]

/-- Panel data: a timestamp in milliseconds, one of six states, a reason from 0 to 128. -/
structure PanelData (pd : List (String × Json)) : Prop where
  timestamp : ∃ ts, find "Timestamp" pd = some ts ∧ isNumber ts = true ∧ MillisOk ts
  panelState : ∃ s, find "PanelState" pd = some (.str s) ∧ s ∈ panelStates
  wakeupReason : ∃ w, find "WakeupReason" pd = some w ∧ InBounds 0 128 w

def PlatformGrammar (ed : Json) : Prop :=
  ∃ kvs pd, ed = .obj kvs ∧ find "PanelData" kvs = some (.obj pd) ∧ PanelData pd

/-- The panel data that the schemas let pass: a newline may follow the state, and NaN is neither below
nor above a bound. -/
structure PassingPanel (pd : List (String × Json)) : Prop where
  timestamp : ∃ ts, find "Timestamp" pd = some ts ∧ isNumber ts = true ∧ MillisOk ts
  panelState : ∃ s, find "PanelState" pd = some (.str s) ∧
    (s ∈ panelStates ∨ ∃ w ∈ panelStates, s = w ++ "\n")
  wakeupReason : ∃ w, find "WakeupReason" pd = some w ∧ (InBounds 0 128 w ∨ w = .float .nan)

/-- The state of the panel data is followed by a newline, or their reason is NaN. -/
def Overlooked (pd : List (String × Json)) : Prop :=
  (∃ w ∈ panelStates, find "PanelState" pd = some (.str (w ++ "\n"))) ∨
    find "WakeupReason" pd = some (.float .nan)

end Language

section Schemas

theorem panelStateMatches_iff (s : String) :
    panelStateMatches s = true ↔ s ∈ panelStates ∨ ∃ w ∈ panelStates, s = w ++ "\n" := by
  have hany : panelStateMatches s = panelStates.any fun w => s == w || s == w ++ "\n" := rfl
  rw [hany, List.any_eq_true]
  constructor
  · intro h
    obtain ⟨w, hw, hs⟩ := h
    rcases Bool.or_eq_true_iff.mp hs with hs | hs
    · left
      rwa [eq_of_beq hs]
    · right
      exact ⟨w, hw, eq_of_beq hs⟩
  · intro h
    rcases h with hs | ⟨w, hw, rfl⟩
    · exact ⟨s, hs, by simp⟩
    · exact ⟨w, hw, by simp⟩

private theorem bounds_iff (w : Json) :
    (isNumber w = true ∧ lessThan 0 w = false ∧ greaterThan 128 w = false) ↔
      InBounds 0 128 w ∨ w = .float .nan := by
  cases w with
  | int n => simp [isNumber, lessThan, greaterThan, InBounds]
  | float f =>
    cases f with
    | nan => simp [isNumber, lessThan, greaterThan, InBounds, PyFloat.toRat?]
    | inf neg => cases neg <;> simp [isNumber, lessThan, greaterThan, InBounds, PyFloat.toRat?]
    | negZero => simp [isNumber, lessThan, greaterThan, InBounds, PyFloat.toRat?]
    | fin q => simp [isNumber, lessThan, greaterThan, InBounds, PyFloat.toRat?]
  | null => simp [isNumber, InBounds]
  | bool b => simp [isNumber, InBounds]
  | str s => simp [isNumber, InBounds]
  | arr l => simp [isNumber, InBounds]
  | obj kvs => simp [isNumber, InBounds]

theorem requiredErrors_nil_iff (required : List String) (kvs : List (String × Json)) :
    requiredErrors required (.obj kvs) = [] ↔ ∀ p ∈ required, (find p kvs).isSome := by
  simp only [requiredErrors, List.flatMap_eq_nil_iff]
  apply forall_congr'
  intro p
  apply imp_congr_right
  intro _
  by_cases hp : (find p kvs).isSome
  · simp [hp]
  · simp [hp, schemaError]

theorem propertyErrors_nil_iff {p : String} {below : Json → List ValidationError}
    {kvs : List (String × Json)} :
    propertyErrors p below (.obj kvs) = [] ↔ ∀ v, find p kvs = some v → below v = [] := by
  simp only [propertyErrors]
  cases find p kvs with
  | none => simp
  | some v => simp

variable [Runtime]

theorem typeErrors_nil_iff (ok : Bool) (type : String) (v : Json) :
    typeErrors ok type v = [] ↔ ok = true := by
  cases ok <;> simp [typeErrors, schemaError]

private theorem panelStateErrors_nil_iff (v : Json) :
    panelStateErrors v = [] ↔ ∃ s, v = .str s ∧ panelStateMatches s = true := by
  unfold panelStateErrors
  cases v with
  | str s => by_cases hs : panelStateMatches s = true <;> simp [hs, schemaError]
  | null => simp [typeErrors, schemaError]
  | bool b => simp [typeErrors, schemaError]
  | int n => simp [typeErrors, schemaError]
  | float f => simp [typeErrors, schemaError]
  | arr l => simp [typeErrors, schemaError]
  | obj kvs => simp [typeErrors, schemaError]

private theorem wakeupReasonErrors_nil_iff (v : Json) :
    wakeupReasonErrors v = [] ↔ InBounds 0 128 v ∨ v = .float .nan := by
  rw [← bounds_iff]
  unfold wakeupReasonErrors
  cases lessThan 0 v <;> cases greaterThan 128 v <;>
    simp [typeErrors_nil_iff, schemaError]

/-- The schema of the panel data finds no error exactly in members of these shapes. -/
theorem panelDataErrors_nil_iff (v : Json) :
    panelDataErrors v = [] ↔ ∃ pd, v = .obj pd ∧
      (∃ ts, find "Timestamp" pd = some ts ∧ isNumber ts = true) ∧
      (∃ s, find "PanelState" pd = some (.str s) ∧
        (s ∈ panelStates ∨ ∃ w ∈ panelStates, s = w ++ "\n")) ∧
      ∃ w, find "WakeupReason" pd = some w ∧ (InBounds 0 128 w ∨ w = .float .nan) := by
  unfold panelDataErrors
  cases v with
  | obj pd =>
    simp only [List.append_eq_nil_iff, requiredErrors_nil_iff, typeErrors_nil_iff,
      propertyErrors_nil_iff, List.mem_cons, List.not_mem_nil, or_false, forall_eq_or_imp, forall_eq,
      timestampErrors, panelStateErrors_nil_iff, panelStateMatches_iff, wakeupReasonErrors_nil_iff]
    constructor
    · intro h
      obtain ⟨⟨⟨⟨⟨hts, hstate, hreason⟩, -⟩, hnumber⟩, hword⟩, hbounds⟩ := h
      obtain ⟨ts, hts⟩ := Option.isSome_iff_exists.mp hts
      obtain ⟨state, hstate⟩ := Option.isSome_iff_exists.mp hstate
      obtain ⟨w, hreason⟩ := Option.isSome_iff_exists.mp hreason
      obtain ⟨s, rfl, hs⟩ := hword state hstate
      exact ⟨pd, rfl, ⟨ts, hts, hnumber ts hts⟩, ⟨s, hstate, hs⟩, w, hreason, hbounds w hreason⟩
    · intro h
      obtain ⟨pd', hpd, ⟨ts, hts, hnumber⟩, ⟨s, hstate, hs⟩, w, hreason, hbounds⟩ := h
      obtain rfl := Json.obj.inj hpd
      refine ⟨⟨⟨⟨⟨by simp [hts], by simp [hstate], by simp [hreason]⟩, rfl⟩, ?_⟩, ?_⟩, ?_⟩
      · intro v hv
        rwa [← Option.some.inj (hts.symm.trans hv)]
      · intro v hv
        rw [← Option.some.inj (hstate.symm.trans hv)]
        exact ⟨s, rfl, hs⟩
      · intro v hv
        rwa [← Option.some.inj (hreason.symm.trans hv)]
  | null => simp [requiredErrors, propertyErrors, typeErrors, schemaError, Json.isObj]
  | bool b => simp [requiredErrors, propertyErrors, typeErrors, schemaError, Json.isObj]
  | int n => simp [requiredErrors, propertyErrors, typeErrors, schemaError, Json.isObj]
  | float f => simp [requiredErrors, propertyErrors, typeErrors, schemaError, Json.isObj]
  | str s => simp [requiredErrors, propertyErrors, typeErrors, schemaError, Json.isObj]
  | arr l => simp [requiredErrors, propertyErrors, typeErrors, schemaError, Json.isObj]

theorem platformTelemetryErrors_nil_iff (kvs : List (String × Json)) :
    platformTelemetryErrors (.obj kvs) = [] ↔
      ∃ v, find "PanelData" kvs = some v ∧ panelDataErrors v = [] := by
  simp only [platformTelemetryErrors, List.append_eq_nil_iff, requiredErrors_nil_iff,
    typeErrors_nil_iff, propertyErrors_nil_iff, List.mem_singleton, forall_eq]
  constructor
  · intro h
    obtain ⟨⟨hsome, -⟩, hbelow⟩ := h
    obtain ⟨v, hv⟩ := Option.isSome_iff_exists.mp hsome
    exact ⟨v, hv, hbelow v hv⟩
  · intro h
    obtain ⟨v, hv, hbelow⟩ := h
    refine ⟨⟨by simp [hv], rfl⟩, ?_⟩
    intro v' hv'
    rwa [← Option.some.inj (hv.symm.trans hv')]

end Schemas

section Reports

/-- An error whose text is built without a failure: a missing name, or one that has a path. -/
def Reportable (e : ValidationError) : Prop :=
  (e.validator = "required" ∧ ∃ p, e.message = "'" ++ p ++ "' is a required property") ∨
    (e.validator ≠ "required" ∧ e.path ≠ [])

/-- What a path makes of an error of a schema below it. -/
def Named (e : ValidationError) : Prop :=
  e.validator = "required" → ∃ p, e.message = "'" ++ p ++ "' is a required property"

theorem reportable_below {p : String} {e : ValidationError} (h : Named e) :
    Reportable { e with path := p :: e.path } := by
  by_cases hrequired : e.validator = "required"
  · exact .inl ⟨hrequired, h hrequired⟩
  · exact .inr ⟨hrequired, by simp⟩

theorem mem_schemaError {validator message : String} {e : ValidationError}
    (h : e ∈ schemaError validator message) : e = ⟨validator, message, []⟩ := List.mem_singleton.mp h

/-- Only the keyword `required` promises its text. -/
theorem named_of_schemaError {validator message : String} {e : ValidationError}
    (hother : validator ≠ "required") (h : e ∈ schemaError validator message) : Named e := by
  rw [mem_schemaError h]
  exact fun hrequired => absurd hrequired hother

theorem requiredErrors_mem {required : List String} {v : Json} {e : ValidationError}
    (h : e ∈ requiredErrors required v) : ∃ p, e.validator = "required" ∧
      e.message = "'" ++ p ++ "' is a required property" := by
  cases v <;> simp only [requiredErrors, List.not_mem_nil] at h
  obtain ⟨p, -, he⟩ := List.mem_flatMap.mp h
  split at he
  · cases he
  · rw [mem_schemaError he]
    exact ⟨p, rfl, rfl⟩

theorem propertyErrors_mem {p : String} {below : Json → List ValidationError} {v : Json}
    {e : ValidationError} (h : e ∈ propertyErrors p below v) :
    ∃ v', ∃ e' ∈ below v', e = { e' with path := p :: e'.path } := by
  cases v <;> simp only [propertyErrors, List.not_mem_nil] at h
  split at h
  · obtain ⟨e', he', rfl⟩ := List.mem_map.mp h
    exact ⟨_, e', he', rfl⟩
  · cases h

variable [Runtime]

theorem typeErrors_mem {ok : Bool} {type : String} {v : Json} {e : ValidationError}
    (h : e ∈ typeErrors ok type v) : Named e := by
  unfold typeErrors at h
  split at h
  · cases h
  · exact named_of_schemaError (by decide) h

private theorem panelStateErrors_mem {v : Json} {e : ValidationError} (h : e ∈ panelStateErrors v) :
    Named e := by
  unfold panelStateErrors at h
  split at h
  · split at h
    · cases h
    · exact named_of_schemaError (by decide) h
  · exact typeErrors_mem h

private theorem wakeupReasonErrors_mem {v : Json} {e : ValidationError}
    (h : e ∈ wakeupReasonErrors v) : Named e := by
  unfold wakeupReasonErrors at h
  rcases List.mem_append.mp h with h | h
  · rcases List.mem_append.mp h with h | h
    · exact typeErrors_mem h
    · split at h
      · exact named_of_schemaError (by decide) h
      · cases h
  · split at h
    · exact named_of_schemaError (by decide) h
    · cases h

omit [Runtime] in
private theorem named_below {p : String} {below : Json → List ValidationError} {v : Json}
    {e : ValidationError} (hbelow : ∀ v', ∀ e' ∈ below v', Named e')
    (h : e ∈ propertyErrors p below v) : Named e := by
  obtain ⟨v', e', he', rfl⟩ := propertyErrors_mem h
  exact hbelow v' e' he'

theorem panelDataErrors_mem {v : Json} {e : ValidationError} (h : e ∈ panelDataErrors v) :
    Named e := by
  unfold panelDataErrors at h
  simp only [List.mem_append] at h
  rcases h with (((h | h) | h) | h) | h
  · obtain ⟨p, -, hmessage⟩ := requiredErrors_mem h
    exact fun _ => ⟨p, hmessage⟩
  · exact typeErrors_mem h
  · exact named_below (fun v' e' he' => typeErrors_mem he') h
  · exact named_below (fun v' e' he' => panelStateErrors_mem he') h
  · exact named_below (fun v' e' he' => wakeupReasonErrors_mem he') h

/-- Every error that the schema finds in an object can be reported. -/
theorem platformTelemetryErrors_mem {kvs : List (String × Json)} {e : ValidationError}
    (h : e ∈ platformTelemetryErrors (.obj kvs)) : Reportable e := by
  unfold platformTelemetryErrors at h
  simp only [List.mem_append] at h
  rcases h with (h | h) | h
  · obtain ⟨p, hrequired, hmessage⟩ := requiredErrors_mem h
    exact .inl ⟨hrequired, p, hmessage⟩
  · cases h
  · obtain ⟨v, e', he', rfl⟩ := propertyErrors_mem h
    exact reportable_below (panelDataErrors_mem he')

theorem firstWord_quoted (p : String) :
    ∃ w, firstWord ("'" ++ p ++ "' is a required property") = .ok w := by
  have hquote : isSpace '\'' = false := by
    rw [Runtime.isSpace_ascii _ (by decide)]
    decide
  have hlist : ("'" ++ p ++ "' is a required property").toList =
      '\'' :: (p.toList ++ "' is a required property".toList) := by
    rw [String.toList_append, String.toList_append]
    rfl
  unfold firstWord
  rw [hlist, List.dropWhile_cons_of_neg (by simp [hquote]),
    List.takeWhile_cons_of_pos (by simp [hquote])]
  exact ⟨_, rfl⟩

/-- The error branch reports such an error as a fault of the payload. -/
theorem schemaFailure_reports (et : EventType) {e : ValidationError} (h : Reportable e) :
    ∃ f, et.schemaFailure e = .error f ∧ PayloadFault f := by
  unfold EventType.schemaFailure
  rcases h with ⟨hrequired, p, hmessage⟩ | ⟨hother, hpath⟩
  · obtain ⟨w, hw⟩ := firstWord_quoted p
    rw [if_pos hrequired, hmessage, hw]
    exact ⟨_, rfl, _, .inl rfl⟩
  · rw [if_neg hother, List.getLast?_eq_some_getLast hpath]
    exact ⟨_, rfl, _, .inr rfl⟩

theorem schemaFailure_raises (et : EventType) (e : ValidationError) :
    et.schemaFailure e ≠ .ok () := by
  unfold EventType.schemaFailure
  split
  · cases firstWord e.message <;> simp
  · split <;> simp

end Reports

section Validator

/-- What the validator should do with the event data of platform telemetry: accept the grammar and
report everything else as a fault of the payload. -/
structure DecidesPanel [Runtime] (r : Except PyExc Unit) (ed : Json) : Prop where
  accepts : r = .ok () ↔ PlatformGrammar ed
  rejects : ¬PlatformGrammar ed → ∃ e, r = .error e ∧ PayloadFault e

private theorem overlooked_word {w : String} (h : w ∈ panelStates) : w ++ "\n" ∉ panelStates := by
  simp only [panelStates, List.mem_cons, List.not_mem_nil, or_false] at h
  rcases h with rfl | rfl | rfl | rfl | rfl | rfl <;> decide

variable [Runtime]

theorem raiseBest_ok {es : List ValidationError} (h : raiseBest es = .ok ()) : es = [] := by
  cases es with
  | nil => rfl
  | cons e es => cases h

theorem raiseBest_error {es : List ValidationError} (h : es ≠ []) :
    ∃ e ∈ es, raiseBest es = .error (.validation e) := by
  cases es with
  | nil => exact absurd rfl h
  | cons e es => exact ⟨bestMatch e es, Runtime.bestMatch_mem e es, rfl⟩

/-- The passing panel data that nothing overlooks are those of the grammar. -/
theorem panelData_iff (pd : List (String × Json)) :
    PanelData pd ↔ PassingPanel pd ∧ ¬Overlooked pd := by
  constructor
  · intro h
    obtain ⟨s, hstate, hs⟩ := h.panelState
    obtain ⟨w, hreason, hw⟩ := h.wakeupReason
    refine ⟨⟨h.timestamp, ⟨s, hstate, .inl hs⟩, w, hreason, .inl hw⟩, ?_⟩
    intro hover
    rcases hover with ⟨word, hword, hnewline⟩ | hnan
    · obtain rfl := Json.str.inj (Option.some.inj (hstate.symm.trans hnewline))
      exact overlooked_word hword hs
    · obtain rfl := Option.some.inj (hreason.symm.trans hnan)
      obtain ⟨q, hq, -⟩ := hw
      cases hq
  · intro h
    obtain ⟨hpass, hseen⟩ := h
    refine ⟨hpass.timestamp, ?_, ?_⟩
    · obtain ⟨s, hstate, hs | ⟨w, hw, rfl⟩⟩ := hpass.panelState
      · exact ⟨s, hstate, hs⟩
      · exact absurd (.inl ⟨w, hw, hstate⟩) hseen
    · obtain ⟨w, hreason, hw | rfl⟩ := hpass.wakeupReason
      · exact ⟨w, hreason, hw⟩
      · exact absurd (.inr hreason) hseen

/-- An object is in the grammar exactly when its panel data pass and nothing is overlooked. -/
theorem platformGrammar_obj (kvs : List (String × Json)) :
    PlatformGrammar (.obj kvs) ↔
      ∃ pd, find "PanelData" kvs = some (.obj pd) ∧ PassingPanel pd ∧ ¬Overlooked pd := by
  constructor
  · intro h
    obtain ⟨kvs', pd, hsame, hpd, hpanel⟩ := h
    obtain rfl := Json.obj.inj hsame
    exact ⟨pd, hpd, (panelData_iff pd).mp hpanel⟩
  · intro h
    obtain ⟨pd, hpd, hpanel⟩ := h
    exact ⟨kvs, pd, rfl, hpd, (panelData_iff pd).mpr hpanel⟩

/-- On an object the validator accepts the passing panel data and reports everything else. -/
theorem validatePlatformTelemetry_obj {et : EventType} {kvs : List (String × Json)}
    (hed : et.eventDataParams = .obj kvs) :
    (et.validatePlatformTelemetry = .ok () ∧
        ∃ pd, find "PanelData" kvs = some (.obj pd) ∧ PassingPanel pd) ∨
      ((∃ e, et.validatePlatformTelemetry = .error e ∧ PayloadFault e) ∧
        ¬∃ pd, find "PanelData" kvs = some (.obj pd) ∧ PassingPanel pd) := by
  unfold EventType.validatePlatformTelemetry
  rw [hed]
  by_cases herrors : platformTelemetryErrors (.obj kvs) = []
  · obtain ⟨v, hv, hpanel⟩ := (platformTelemetryErrors_nil_iff kvs).mp herrors
    obtain ⟨pd, rfl, ⟨ts, hts, hnumber⟩, hstate, hreason⟩ := (panelDataErrors_nil_iff v).mp hpanel
    have hdata : et.validatePanelData = timestampCheck ts (str et.tvid) true := by
      simp [EventType.validatePanelData, hed, Json.item, hv, hpanel, raiseBest, hts]
    rw [herrors, raiseBest, Except.ok_bind, hdata]
    cases hcheck : timestampCheck ts (str et.tvid) true with
    | ok u =>
      left
      have hmillis := (timestampCheck_millis ts (str et.tvid)).mp hcheck
      exact ⟨rfl, pd, hv, ⟨ts, hts, hnumber, hmillis⟩, hstate, hreason⟩
    | error e =>
      right
      have hfault := timestampCheck_fails ts (str et.tvid) true e hcheck
      refine ⟨⟨e, ?_, hfault⟩, ?_⟩
      · obtain ⟨message, rfl | rfl⟩ := hfault <;> rfl
      · intro hpass
        obtain ⟨pd', hpd', ⟨ts', hts', -, hmillis⟩, -, -⟩ := hpass
        obtain rfl := Json.obj.inj (Option.some.inj (hv.symm.trans hpd'))
        obtain rfl := Option.some.inj (hts.symm.trans hts')
        rw [(timestampCheck_millis ts (str et.tvid)).mpr hmillis] at hcheck
        cases hcheck
  · right
    obtain ⟨e, he, hraise⟩ := raiseBest_error herrors
    obtain ⟨f, hf, hfault⟩ := schemaFailure_reports et (platformTelemetryErrors_mem he)
    rw [hraise, Except.error_bind]
    refine ⟨⟨f, hf, hfault⟩, ?_⟩
    intro hpass
    obtain ⟨pd, hpd, ⟨ts, hts, hnumber, -⟩, hstate, hreason⟩ := hpass
    apply herrors
    rw [platformTelemetryErrors_nil_iff]
    refine ⟨.obj pd, hpd, ?_⟩
    rw [panelDataErrors_nil_iff]
    exact ⟨pd, rfl, ⟨ts, hts, hnumber⟩, hstate, hreason⟩

/-- On event data that are no object the error branch itself fails: the path of the error is empty. -/
theorem validatePlatformTelemetry_other {et : EventType} (hed : et.eventDataParams.isObj = false) :
    et.validatePlatformTelemetry = .error (.builtin .indexError) := by
  have herrors : platformTelemetryErrors et.eventDataParams =
      typeErrors false "object" et.eventDataParams := by
    cases h : et.eventDataParams <;> rw [h] at hed <;> simp [Json.isObj] at hed <;> rfl
  have hsome : typeErrors false "object" et.eventDataParams ≠ [] := by
    simp [typeErrors, schemaError]
  obtain ⟨e, he, hraise⟩ := raiseBest_error hsome
  rw [mem_schemaError he] at hraise
  unfold EventType.validatePlatformTelemetry
  rw [herrors, hraise]
  rfl

/-- The validator decides by the grammar exactly for the event data that are an object and whose
panel data, if they pass, have neither a newline after the state nor a reason that is NaN. -/
theorem validatePlatformTelemetry_iff {et : EventType} (hkind : et.kind = .platformTelemetry) :
    DecidesPanel et.validateEventTypePayload et.eventDataParams ↔
      ∃ kvs, et.eventDataParams = .obj kvs ∧
        ¬∃ pd, find "PanelData" kvs = some (.obj pd) ∧ PassingPanel pd ∧ Overlooked pd := by
  have hvalid : et.validateEventTypePayload = et.validatePlatformTelemetry := by
    rw [EventType.validateEventTypePayload, hkind]
  rw [hvalid]
  by_cases hobj : et.eventDataParams.isObj = true
  · obtain ⟨kvs, hed⟩ := isObj_obj hobj
    have hgrammar := platformGrammar_obj kvs
    rw [← hed] at hgrammar
    rcases validatePlatformTelemetry_obj hed with ⟨hok, pd, hpd, hpass⟩ | ⟨⟨e, he, hfault⟩, hnone⟩
    · rw [hok]
      constructor
      · intro h
        refine ⟨kvs, hed, ?_⟩
        intro hover
        obtain ⟨pd', hpd', -, hover⟩ := hover
        obtain ⟨pd'', hpd'', -, hseen⟩ := hgrammar.mp (h.accepts.mp rfl)
        obtain rfl := Json.obj.inj (Option.some.inj (hpd'.symm.trans hpd''))
        exact hseen hover
      · intro h
        obtain ⟨kvs', hed', hnone⟩ := h
        obtain rfl := Json.obj.inj (hed.symm.trans hed')
        have hin : PlatformGrammar et.eventDataParams :=
          hgrammar.mpr ⟨pd, hpd, hpass, fun hover => hnone ⟨pd, hpd, hpass, hover⟩⟩
        exact ⟨iff_of_true rfl hin, fun hout => absurd hin hout⟩
    · have hout : ¬PlatformGrammar et.eventDataParams := by
        intro hin
        obtain ⟨pd, hpd, hpass, -⟩ := hgrammar.mp hin
        exact hnone ⟨pd, hpd, hpass⟩
      refine iff_of_true ⟨iff_of_false (by simp [he]) hout, fun _ => ⟨e, he, hfault⟩⟩ ?_
      refine ⟨kvs, hed, ?_⟩
      intro hover
      obtain ⟨pd, hpd, hpass, -⟩ := hover
      exact hnone ⟨pd, hpd, hpass⟩
  · rw [validatePlatformTelemetry_other (by simpa using hobj)]
    have hnone : ¬∃ kvs, et.eventDataParams = .obj kvs := by
      intro h
      obtain ⟨kvs, hed⟩ := h
      rw [hed] at hobj
      exact hobj rfl
    have hout : ¬PlatformGrammar et.eventDataParams := by
      intro hin
      obtain ⟨kvs, pd, hed, -⟩ := hin
      exact hnone ⟨kvs, hed⟩
    refine iff_of_false ?_ fun ⟨kvs, hed, _⟩ => hnone ⟨kvs, hed⟩
    intro h
    obtain ⟨e, he, message, hfault⟩ := h.rejects hout
    obtain rfl := Except.error.inj he
    rcases hfault with hfault | hfault <;> cases hfault

end Validator

section Samples

def samplePanelPayload (state : String) (reason : Json) : Json :=
  .obj [("TvEvent", .obj [("tvid", .str "tv1"), ("EventType", .str "PLATFORM_TELEMETRY")]),
    ("EventData", .obj [("PanelData", .obj [("Timestamp", .int 1700000000000),
      ("PanelState", .str state), ("WakeupReason", reason)])])]

def samplePanel (state : String) (reason : Json) : EventType :=
  ⟨.platformTelemetry, samplePanelPayload state reason, .str "PLATFORM_TELEMETRY", .str "tv1",
    .obj [("PanelData", .obj [("Timestamp", .int 1700000000000), ("PanelState", .str state),
      ("WakeupReason", reason)])], .null, .null⟩

/-- A state without a newline and a reason that is an integer are decided by the grammar. -/
theorem validatePlatformTelemetry_plain :
    @DecidesPanel asciiRuntime
      (@EventType.validateEventTypePayload asciiRuntime (samplePanel "Off" (.int 128)))
      (samplePanel "Off" (.int 128)).eventDataParams := by
  let _ : Runtime := asciiRuntime
  refine (@validatePlatformTelemetry_iff asciiRuntime (samplePanel "Off" (.int 128)) rfl).mpr
    ⟨_, rfl, ?_⟩
  intro h
  obtain ⟨pd, hpd, -, hover⟩ := h
  obtain rfl := Json.obj.inj (Option.some.inj hpd)
  rcases hover with ⟨w, hw, hstate⟩ | hnan
  · have hword : w ++ "\n" = "Off" := (Json.str.inj (Option.some.inj hstate)).symm
    exact overlooked_word hw (hword ▸ by decide)
  · cases hnan

/-- A state that a newline follows is accepted. -/
theorem newline_state_accepted :
    EventType.ofClass .platformTelemetry (samplePanelPayload "ON\n" (.int 0)) =
        .ok (samplePanel "ON\n" (.int 0)) ∧
      @EventType.validateEventTypePayload asciiRuntime (samplePanel "ON\n" (.int 0)) = .ok () ∧
      ¬@PlatformGrammar asciiRuntime (samplePanel "ON\n" (.int 0)).eventDataParams := by
  refine ⟨rfl, by decide +kernel, ?_⟩
  intro h
  obtain ⟨kvs, pd, hed, hpd, -, ⟨s, hstate, hs⟩, -⟩ := h
  obtain rfl := Json.obj.inj hed
  obtain rfl := Json.obj.inj (Option.some.inj hpd)
  obtain rfl := Json.str.inj (Option.some.inj hstate)
  exact absurd hs (by decide)

end Samples

end TvEvents
