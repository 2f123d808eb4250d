import TvEvents.App.Output
import TvEvents.Merge.Leaves

namespace TvEvents

open OrderedMap

variable [Runtime]

section Parts

def membersOf : Option Json → List (String × Json)
  | some (.obj kvs) => kvs
  | _ => []

def tvEventOf (p : Json) : List (String × Json) := membersOf (p.member? "TvEvent")

def eventDataOf (p : Json) : List (String × Json) := membersOf (p.member? "EventData")

/-- The event data as the classes take them: an empty object by default. -/
def eventDataMember (p : Json) : Json := (p.member? "EventData").getD (.obj [])

def tvEventField (p : Json) (k : String) : Json := (find k (tvEventOf p)).getD .null

def eventTypeOf (p : Json) : Json := tvEventField p "EventType"

/-- The class of an event type; one that is no string has none. -/
def kindOfType : Json → Option EventTypeClass
  | .str s => find s eventTypeMap
  | _ => none

def kindOf (p : Json) : Option EventTypeClass := kindOfType (eventTypeOf p)

/-- The members of the event data that do not come back under their own name. -/
def eventDataIgnored : Option EventTypeClass → List String
  | some .nativeAppTelemetry => ["Timestamp"]
  | _ => []

def tvEventLeaves (p : Json) : List (String × Json) :=
  leaves (fun k => tvEventIgnored.contains k) "" (tvEventOf p)

def kindLeaves (kind : Option EventTypeClass) (ed : List (String × Json)) : List (String × Json) :=
  leaves (fun k => (eventDataIgnored kind).contains k) "" ed

def eventDataLeaves (p : Json) : List (String × Json) := kindLeaves (kindOf p) (eventDataOf p)

/-- The leaves that are delivered, in the order of their writes. -/
def payloadLeaves (p : Json) : List (String × Json) := tvEventLeaves p ++ eventDataLeaves p

end Parts

section Writes

def envelopeWrites (env : Env) (p : Json) : List (String × Json) :=
  [("tvevent_timestamp", tvEventField p "timestamp"), ("tvevent_eventtype", eventTypeOf p),
    ("zoo", .str (zoo env))]

/-- The start time in milliseconds, when the leaves end with one. -/
def startTimeWrites (ws : List (String × Json)) : List (String × Json) :=
  match lastWrite "programdata_starttime" ws with
  | none => []
  | some ts =>
    match unixTimeToMs ts with
    | .ok v => [("programdata_starttime", v)]
    | .error _ => []

def heartbeatWrites (ed : List (String × Json)) : List (String × Json) :=
  if ((find "Heartbeat" ed).getD .null).truthy then [("eventtype", .str "Heartbeat")] else []

def panelStateWrites (ws : List (String × Json)) : List (String × Json) :=
  match lastWrite "paneldata_panelstate" ws with
  | some (.str s) => [("paneldata_panelstate", .str (upper s))]
  | _ => []

/-- What a class writes after the leaves of its event data. -/
def kindWrites (kind : EventTypeClass) (ed : List (String × Json)) : List (String × Json) :=
  match kind with
  | .nativeAppTelemetry => [("eventdata_timestamp", (find "Timestamp" ed).getD .null)]
  | .acrTunerData => startTimeWrites (kindLeaves (some .acrTunerData) ed) ++ heartbeatWrites ed
  | .platformTelemetry => panelStateWrites (kindLeaves (some .platformTelemetry) ed)

/-- The option that is present and stands last. -/
def namespaceIn (kvs : List (String × Json)) (ns : Json) : List String → Json
  | [] => ns
  | option :: options => namespaceIn kvs ((find option kvs).getD ns) options

def namespaceValue (kind : EventTypeClass) (tv ed : List (String × Json)) : Json :=
  match kind with
  | .nativeAppTelemetry => namespaceIn ed .null namespaceOptions
  | .acrTunerData => namespaceIn tv .null namespaceOptions
  | .platformTelemetry => .null

def appidValue (kind : EventTypeClass) (tv ed : List (String × Json)) : Json :=
  match kind with
  | .nativeAppTelemetry => (find "AppId" ed).getD .null
  | .acrTunerData => (find "appId" tv).getD .null
  | .platformTelemetry => .null

def routingWrites (kind : EventTypeClass) (tv ed : List (String × Json)) : List (String × Json) :=
  [("namespace", namespaceValue kind tv ed), ("appid", appidValue kind tv ed)]

/-- What follows the leaves of the event data. -/
def classWrites (p : Json) : List (String × Json) :=
  match kindOf p with
  | some kind =>
    kindWrites kind (eventDataOf p) ++ routingWrites kind (tvEventOf p) (eventDataOf p)
  | none => []

/-- Every write of `generate_output_json`, in order. -/
def outputWrites (env : Env) (p : Json) : List (String × Json) :=
  tvEventLeaves p ++ envelopeWrites env p ++ eventDataLeaves p ++ classWrites p

end Writes

section Lookup

/-- The keys that the pipeline writes itself. -/
def derivedKeys : List String :=
  ["tvevent_timestamp", "tvevent_eventtype", "zoo", "eventdata_timestamp", "programdata_starttime",
    "eventtype", "paneldata_panelstate", "namespace", "appid"]

/-- Those of them that a class writes, after the leaves of the event data. -/
def classKeys : List String :=
  ["eventdata_timestamp", "programdata_starttime", "eventtype", "paneldata_panelstate", "namespace",
    "appid"]

theorem kindWrites_keys (kind : EventTypeClass) (ed : List (String × Json)) :
    ∀ w ∈ kindWrites kind ed, w.1 ∈ classKeys := by
  intro w hw
  cases kind with
  | nativeAppTelemetry =>
    rw [List.mem_singleton.mp hw]
    simp [classKeys]
  | acrTunerData =>
    rcases List.mem_append.mp hw with hstart | hheart
    · unfold startTimeWrites at hstart
      grind [classKeys]
    · unfold heartbeatWrites at hheart
      grind [classKeys]
  | platformTelemetry =>
    change w ∈ panelStateWrites _ at hw
    unfold panelStateWrites at hw
    grind [classKeys]

theorem classWrites_keys (p : Json) : ∀ w ∈ classWrites p, w.1 ∈ classKeys := by
  intro w hw
  unfold classWrites at hw
  cases hkind : kindOf p with
  | none => simp [hkind] at hw
  | some kind =>
    rw [hkind] at hw
    rcases List.mem_append.mp hw with hw | hw
    · exact kindWrites_keys kind _ w hw
    · simp only [routingWrites, List.mem_cons, List.not_mem_nil, or_false] at hw
      rcases hw with rfl | rfl <;> simp [classKeys]

theorem classWrites_lookup (p : Json) {k : String} (hk : k ∉ classKeys) :
    lastWrite k (classWrites p) = none := by
  apply lastWrite_eq_none
  intro hmem
  obtain ⟨w, hw, rfl⟩ := List.mem_map.mp hmem
  exact hk (classWrites_keys p w hw)

/-- Any other key holds the last leaf of that name. -/
theorem outputWrites_lookup (env : Env) (p : Json) {k : String} (hk : k ∉ derivedKeys) :
    lastWrite k (outputWrites env p) = lastWrite k (payloadLeaves p) := by
  have henvelope : lastWrite k (envelopeWrites env p) = none := by
    apply lastWrite_eq_none
    simp only [derivedKeys, List.mem_cons, not_or] at hk
    simp [envelopeWrites, hk]
  have hsub : ∀ k' ∈ classKeys, k' ∈ derivedKeys := by decide
  have hclass := classWrites_lookup p fun hmem => hk (hsub k hmem)
  rw [outputWrites, payloadLeaves, lastWrite_append, lastWrite_append, lastWrite_append, henvelope,
    hclass, lastWrite_append, Option.none_or, Option.none_or]

end Lookup

section Conditions

/-- `fromtimestamp` accepts the whole seconds that `int` reads from the value. -/
def SecondsOk (ts : Json) : Prop := ∃ n, toInt ts = .ok n ∧ minTime ≤ n ∧ n ≤ maxTime

/-- What the generator of a class reads from the event data is there. -/
def KindGenerable (kind : EventTypeClass) (ed : List (String × Json)) : Prop :=
  match kind with
  | .nativeAppTelemetry => (find "Timestamp" ed).isSome
  | .acrTunerData =>
    ∀ ts, lastWrite "programdata_starttime" (kindLeaves (some .acrTunerData) ed) = some ts →
      SecondsOk ts
  | .platformTelemetry =>
    ∃ s, lastWrite "paneldata_panelstate" (kindLeaves (some .platformTelemetry) ed) =
      some (.str s)

/-- A value that a loop over its members accepts. -/
def Iterable (v : Json) : Prop := v.isObj = true ∨ v = .arr [] ∨ v = .str ""

def IsKey : Json → Prop
  | .arr _ => False
  | .obj _ => False
  | _ => True

/-- What the generator reads from the payload is there. -/
structure Generable (p : Json) : Prop where
  tvEvent : ∃ tv, p.member? "TvEvent" = some (.obj tv)
  eventType : ∃ et, find "EventType" (tvEventOf p) = some et ∧ IsKey et
  timestamp : (find "timestamp" (tvEventOf p)).isSome
  eventData :
    match kindOf p with
    | some kind => (∃ ed, p.member? "EventData" = some (.obj ed)) ∧ KindGenerable kind (eventDataOf p)
    | none => ∀ v, p.member? "EventData" = some v → Iterable v

end Conditions

section Values

omit [Runtime] in
theorem startTimeWrites_none {ws : List (String × Json)}
    (h : lastWrite "programdata_starttime" ws = none) : startTimeWrites ws = [] := by
  rw [startTimeWrites, h]

omit [Runtime] in
theorem startTimeWrites_some {ws : List (String × Json)} {ts v : Json}
    (h : lastWrite "programdata_starttime" ws = some ts) (hv : unixTimeToMs ts = .ok v) :
    startTimeWrites ws = [("programdata_starttime", v)] := by
  simp only [startTimeWrites, h, hv]

theorem timestampCheck_seconds (ts : Json) (tvid : String) :
    timestampCheck ts tvid false = .ok () ↔ SecondsOk ts := by
  unfold timestampCheck SecondsOk
  cases hn : toInt ts with
  | error e => simp
  | ok n =>
    by_cases h : minTime ≤ n ∧ n ≤ maxTime
    · simp [fromTimestampInt, h]
    · simp [fromTimestampInt, h]

/-- A value that `int` reads can be multiplied. -/
theorem unixTimeToMs_ok {ts : Json} {n : ℤ} (h : toInt ts = .ok n) : ∃ v, unixTimeToMs ts = .ok v := by
  cases ts with
  | null => simp [toInt] at h
  | arr l => simp [toInt] at h
  | obj kvs => simp [toInt] at h
  | bool b => exact ⟨_, rfl⟩
  | int n => exact ⟨_, rfl⟩
  | float f => exact ⟨_, rfl⟩
  | str s => exact ⟨_, rfl⟩

omit [Runtime] in
theorem namespaceOf_obj (kvs : List (String × Json)) (ns : Json) (options : List String) :
    namespaceOf (.obj kvs) ns options = .ok (namespaceIn kvs ns options) := by
  induction options generalizing ns with
  | nil => rfl
  | cons option options ih =>
    rw [namespaceOf, namespaceIn]
    cases h : find option kvs with
    | none => simp [Json.has, h, ih]
    | some v => simp [Json.has, Json.item, h, ih]

omit [Runtime] in
theorem item_eq_ok {v x : Json} {k : String} : v.item k = .ok x ↔ v.member? k = some x := by
  cases v with
  | obj kvs =>
    simp only [Json.item, Json.member?]
    cases find k kvs with
    | none => simp
    | some y => simp
  | null => simp [Json.item, Json.member?]
  | bool b => simp [Json.item, Json.member?]
  | int n => simp [Json.item, Json.member?]
  | float f => simp [Json.item, Json.member?]
  | str s => simp [Json.item, Json.member?]
  | arr l => simp [Json.item, Json.member?]

omit [Runtime] in
theorem getEventTypeMapping_iff (et : Json) (m : Option EventTypeClass) :
    getEventTypeMapping et = .ok m ↔ IsKey et ∧ kindOfType et = m := by
  cases et <;> simp [getEventTypeMapping, IsKey, kindOfType]

omit [Runtime] in
theorem get_eq_ok {v x d : Json} {k : String} :
    v.get k d = .ok x ↔ v.isObj = true ∧ (v.member? k).getD d = x := by
  cases v <;> simp [Json.get, Json.member?, Json.isObj]

end Values

end TvEvents
