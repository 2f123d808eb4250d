import TvEvents.Accept.Sufficient
import TvEvents.Merge.Reference

namespace TvEvents

open OrderedMap

/-- The object without its member `h`. -/
def dropHash : Json → Json
  | .obj kvs => .obj (kvs.filter fun e => e.1 != "h")
  | v => v

/-- The payload whose `TvEvent` has no security hash. -/
def withoutHash : Json → Json
  | .obj kvs => .obj (kvs.map fun e => (e.1, if e.1 = "TvEvent" then dropHash e.2 else e.2))
  | v => v

section Reads

private theorem find_dropHash {k : String} (hk : k ≠ "h") (kvs : List (String × Json)) :
    find k (kvs.filter fun e => e.1 != "h") = find k kvs :=
  find_filter (p := fun k => k != "h") (by simpa using hk) kvs

theorem dropHash_get {k : String} (hk : k ≠ "h") (v default : Json) :
    (dropHash v).get k default = v.get k default := by
  cases v with
  | obj kvs => simp only [dropHash, Json.get, find_dropHash hk]
  | _ => rfl

theorem dropHash_item {k : String} (hk : k ≠ "h") (v : Json) : (dropHash v).item k = v.item k := by
  cases v with
  | obj kvs => simp only [dropHash, Json.item, find_dropHash hk]
  | _ => rfl

theorem dropHash_has {k : String} (hk : k ≠ "h") (v : Json) : (dropHash v).has k = v.has k := by
  cases v with
  | obj kvs => simp only [dropHash, Json.has, find_dropHash hk]
  | _ => rfl

private theorem find_withoutHash (k : String) (kvs : List (String × Json)) :
    find k (kvs.map fun e => (e.1, if e.1 = "TvEvent" then dropHash e.2 else e.2)) =
      (find k kvs).map fun v => if k = "TvEvent" then dropHash v else v :=
  find_map k (fun k v => if k = "TvEvent" then dropHash v else v) kvs

theorem withoutHash_item_tvEvent (p : Json) :
    (withoutHash p).item "TvEvent" = (p.item "TvEvent").map dropHash := by
  cases p with
  | obj kvs =>
    simp only [withoutHash, Json.item, find_withoutHash, if_true]
    cases find "TvEvent" kvs <;> rfl
  | _ => rfl

theorem withoutHash_item {k : String} (hk : k ≠ "TvEvent") (p : Json) :
    (withoutHash p).item k = p.item k := by
  cases p with
  | obj kvs => simp only [withoutHash, Json.item, find_withoutHash, if_neg hk, Option.map_id']
  | _ => rfl

theorem withoutHash_get_tvEvent (p : Json) :
    (withoutHash p).get "TvEvent" (.obj []) = (p.get "TvEvent" (.obj [])).map dropHash := by
  cases p with
  | obj kvs =>
    simp only [withoutHash, Json.get, find_withoutHash, if_true]
    cases find "TvEvent" kvs <;> rfl
  | _ => rfl

theorem withoutHash_get {k : String} (hk : k ≠ "TvEvent") (p default : Json) :
    (withoutHash p).get k default = p.get k default := by
  cases p with
  | obj kvs => simp only [withoutHash, Json.get, find_withoutHash, if_neg hk, Option.map_id']
  | _ => rfl

theorem namespaceOf_dropHash (v ns : Json) {options : List String} (h : "h" ∉ options) :
    namespaceOf (dropHash v) ns options = namespaceOf v ns options := by
  induction options generalizing ns with
  | nil => rfl
  | cons option options ih =>
    have hoption : option ≠ "h" := by
      rintro rfl
      exact h List.mem_cons_self
    have hrest : "h" ∉ options := fun hmem => h (List.mem_cons_of_mem _ hmem)
    simp only [namespaceOf, dropHash_has hoption, dropHash_item hoption, ih _ hrest]

end Reads

section Classes

/-- A class built without the hash differs in the payload it carries. -/
theorem init_withoutHash (kind : EventTypeClass) (p : Json) :
    EventType.init kind (withoutHash p) =
      (EventType.init kind p).map fun et => { et with payload := withoutHash p } := by
  unfold EventType.init
  rw [withoutHash_get_tvEvent, withoutHash_get (by decide)]
  cases p.get "TvEvent" (.obj []) with
  | error e => rfl
  | ok tv =>
    simp only [Except.map, Except.ok_bind, dropHash_get (show "EventType" ≠ "h" by decide),
      dropHash_get (show "tvid" ≠ "h" by decide)]
    cases tv.get "EventType" (.str "") with
    | error e => rfl
    | ok eventType =>
      cases tv.get "tvid" (.str "") with
      | error e => rfl
      | ok tvid => cases p.get "EventData" (.obj []) <;> rfl

theorem ofClass_withoutHash (kind : EventTypeClass) (p : Json) :
    EventType.ofClass kind (withoutHash p) =
      (EventType.ofClass kind p).map fun et => { et with payload := withoutHash p } := by
  cases kind with
  | nativeAppTelemetry =>
    simp only [EventType.ofClass, EventType.initNativeAppTelemetry, init_withoutHash]
    cases EventType.init .nativeAppTelemetry p with
    | error e => rfl
    | ok et =>
      simp only [Except.map, Except.ok_bind]
      cases namespaceOf et.eventDataParams .null namespaceOptions with
      | error e => rfl
      | ok ns => cases et.eventDataParams.get "AppId" .null <;> rfl
  | acrTunerData =>
    simp only [EventType.ofClass, EventType.initAcrTunerData, init_withoutHash,
      withoutHash_get_tvEvent]
    cases EventType.init .acrTunerData p with
    | error e => rfl
    | ok et =>
      cases p.get "TvEvent" (.obj []) with
      | error e => rfl
      | ok tv =>
        simp only [Except.map, Except.ok_bind, dropHash_get (show "appId" ≠ "h" by decide),
          namespaceOf_dropHash tv .null (show "h" ∉ namespaceOptions by decide)]
        cases namespaceOf tv .null namespaceOptions with
        | error e => rfl
        | ok ns => cases tv.get "appId" .null <;> rfl
  | platformTelemetry => exact init_withoutHash .platformTelemetry p

end Classes

section Output

variable [Runtime]

/-- The envelope ignores the hash, so leaving it out changes no leaf. -/
theorem flattenRequestJson_dropHash (v : Json) :
    flattenRequestJson (dropHash v) "" tvEventIgnored = flattenRequestJson v "" tvEventIgnored := by
  cases v with
  | obj kvs =>
    have hsame : (kvs.filter fun e => e.1 != "h").filter (fun e => !tvEventIgnored.contains e.1) =
        kvs.filter fun e => !tvEventIgnored.contains e.1 := by
      rw [List.filter_filter]
      apply List.filter_congr
      intro e _
      by_cases he : e.1 = "h"
      · simp [he, tvEventIgnored]
      · simp [he]
    rw [dropHash, flattenRequestJson_obj, flattenRequestJson_obj,
      leaves_filter (fun k => tvEventIgnored.contains k), hsame, ← leaves_filter]
  | _ => rfl

/-- The generators read the event data of the payload only. -/
theorem generateEventDataOutputJson_withoutHash (et : EventType) :
    { et with payload := withoutHash et.payload }.generateEventDataOutputJson =
      et.generateEventDataOutputJson := by
  have hdata : (withoutHash et.payload).item "EventData" = et.payload.item "EventData" :=
    withoutHash_item (by decide) et.payload
  simp only [EventType.generateEventDataOutputJson, EventType.generateNativeAppTelemetry,
    EventType.generateAcrTunerData, EventType.generatePlatformTelemetry, hdata]
  rfl

/-- What is made of a class and its output, when the payload is not used for it. -/
theorem mapped_withoutHash (kind : EventTypeClass) (p : Json) (f : EventType → PyDict → PyDict)
    (hf : ∀ et payload out, f { et with payload := payload } out = f et out) :
    (do
      let et ← (EventType.ofClass kind p).map fun et => { et with payload := withoutHash p }
      let eventTypeOut ← et.generateEventDataOutputJson
      return f et eventTypeOut : Except PyExc PyDict) = (do
      let et ← EventType.ofClass kind p
      let eventTypeOut ← et.generateEventDataOutputJson
      return f et eventTypeOut) := by
  cases het : EventType.ofClass kind p with
  | error e => rfl
  | ok et =>
    obtain ⟨rfl, -⟩ := ofClass_payload het
    simp only [Except.map, Except.ok_bind, generateEventDataOutputJson_withoutHash, hf]

theorem generateOutputJson_withoutHash (env : Env) (p : Json) :
    generateOutputJson env (withoutHash p) = generateOutputJson env p := by
  unfold generateOutputJson
  rw [withoutHash_item_tvEvent, withoutHash_get (by decide)]
  cases p.item "TvEvent" with
  | error e => rfl
  | ok tv =>
    simp only [Except.map, Except.ok_bind, dropHash_item (show "EventType" ≠ "h" by decide),
      dropHash_item (show "timestamp" ≠ "h" by decide), flattenRequestJson_dropHash,
      ofClass_withoutHash]
    apply bind_congr
    intro requestEventType
    apply bind_congr
    intro tvEventOut
    apply bind_congr
    intro timestamp
    apply bind_congr
    intro mapping
    cases mapping with
    | none => rfl
    | some kind => exact mapped_withoutHash kind p _ fun _ _ _ => rfl

/-- Payloads that are one payload without the hash give one output and are delivered alike. -/
theorem generateOutputJson_hides_hash {p p' : Json} (h : withoutHash p = withoutHash p') (env : Env) :
    generateOutputJson env p = generateOutputJson env p' ∧
      ∀ (t : Tick) (kafka : Kafka) (s : BlacklistCache),
        pushChangesToKafka env t kafka p s = pushChangesToKafka env t kafka p' s := by
  have hsame : generateOutputJson env p = generateOutputJson env p' := by
    rw [← generateOutputJson_withoutHash, h, generateOutputJson_withoutHash]
  refine ⟨hsame, fun t kafka s => ?_⟩
  simp only [pushChangesToKafka, hsame]

end Output

section Samples

def sampleHash (h : Json) : Json :=
  .obj [("TvEvent", .obj [("tvid", .str "tv1"), ("h", h), ("EventType", .str "NATIVEAPP_TELEMETRY"),
      ("timestamp", .int 1700000000000)]),
    ("EventData", .obj [("AppId", .str "app"), ("Timestamp", .int 1700000000000)])]

theorem sampleHash_variant (h h' : Json) :
    withoutHash (sampleHash h) = withoutHash (sampleHash h') := by
  simp [sampleHash, withoutHash, dropHash]

/-- A nested hash is as invisible as a text. -/
theorem generateOutputJson_hides_nested :
    let _ : Runtime := asciiRuntime
    let p := sampleHash (.str "digest")
    let p' := sampleHash (.obj [("appId", .int 1), ("h", .null)])
    generateOutputJson sampleEnv p = generateOutputJson sampleEnv p' ∧
      ∀ (t : Tick) (kafka : Kafka) (s : BlacklistCache),
        pushChangesToKafka sampleEnv t kafka p s = pushChangesToKafka sampleEnv t kafka p' s :=
  @generateOutputJson_hides_hash asciiRuntime _ _ (sampleHash_variant _ _) sampleEnv

end Samples

end TvEvents
