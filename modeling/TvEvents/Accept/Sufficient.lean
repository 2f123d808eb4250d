import TvEvents.Accept.Accepted
import TvEvents.Merge.Generate

namespace TvEvents

open OrderedMap

section Reading

variable [Runtime]

structure ObjectParts (p : Json) : Prop where
  payload : p.isObj = true
  tvEvent : ∀ v, p.member? "TvEvent" = some v → v.isObj = true
  eventData : ∀ v, p.member? "EventData" = some v → v.isObj = true

/-- What the generator of the payload's class reads from the event data is there. -/
def Readable (p : Json) : Prop := ∀ kind, kindOf p = some kind → KindGenerable kind (eventDataOf p)

omit [Runtime] in
private theorem sections_absent : (Json.obj []).hasAny EventType.sections = .ok false := by
  simp [Json.hasAny, EventType.sections, Json.has, find]

theorem acrTunerData_needs_eventData {p : Json} {et : EventType}
    (het : EventType.ofClass .acrTunerData p = .ok et) (hvalid : et.validateEventTypePayload = .ok ()) :
    (p.member? "EventData").isSome := by
  by_contra hnone
  rw [Option.not_isSome_iff_eq_none] at hnone
  have hdata : et.eventDataParams = .obj [] := by
    simp only [EventType.ofClass, EventType.initAcrTunerData, EventType.init, Except.bind_eq_ok,
      get_eq_ok, Except.pure_eq_ok, Except.ok.injEq] at het
    obtain ⟨et', ⟨_, _, _, _, _, _, _, _, _, ⟨_, rfl⟩, rfl⟩, _, _, _, _, _, _, rfl⟩ := het
    simp [hnone]
  have hkind := (ofClass_payload het).2
  simp [EventType.validateEventTypePayload, hkind, EventType.validateAcrTunerData, EventType.acrParams,
    hdata, Json.has, find, sections_absent] at hvalid

/-- An accepted payload is generated exactly when its event data hold what the generator reads:
acceptance itself does not see to it. -/
theorem accepted_generates_iff {env : Env} {urlParams : UrlParams} {p : Json} (hparts : ObjectParts p)
    (hvalid : validateRequest env urlParams p = .ok true) :
    (∃ out, generateOutputJson env p = .ok out) ↔ Readable p := by
  have hacc := ((validateRequest_iff env urlParams p true).mp hvalid).2
  simp only [generateOutputJson_iff]
  constructor
  · rintro ⟨out, hgen, -⟩ kind hkind
    have hdata := hgen.eventData
    rw [hkind] at hdata
    exact hdata.2
  · intro hread
    refine ⟨_, ⟨hacc.tvEvent, ?_, hacc.required "timestamp" (by simp [requiredParams]), ?_⟩, rfl⟩
    · obtain ⟨et, het⟩ := Option.isSome_iff_exists.mp
        (hacc.required "EventType" (by simp [requiredParams]))
      have hkey := hacc.eventType
      rw [eventTypeOf, tvEventField, het, Option.getD_some] at hkey
      exact ⟨et, het, hkey⟩
    · cases hkind : kindOf p with
      | none => exact fun v hv => .inl (hparts.eventData v hv)
      | some kind =>
        refine ⟨?_, hread kind hkind⟩
        have hsome : (p.member? "EventData").isSome := by
          by_contra hnone
          rw [Option.not_isSome_iff_eq_none] at hnone
          have hgen := hread kind hkind
          have hempty : eventDataOf p = [] := by rw [eventDataOf, hnone]; rfl
          rw [hempty] at hgen
          cases kind with
          | nativeAppTelemetry => simp [KindGenerable, find] at hgen
          | acrTunerData =>
            obtain ⟨et, het, hpayload⟩ := hacc.eventData _ hkind
            have hneeds := acrTunerData_needs_eventData het hpayload
            simp [hnone] at hneeds
          | platformTelemetry => simp [KindGenerable, kindLeaves, leaves, lastWrite] at hgen
        obtain ⟨v, hv⟩ := Option.isSome_iff_exists.mp hsome
        have hobj := hparts.eventData v hv
        cases v <;> simp [Json.isObj] at hobj
        exact ⟨_, hv⟩

end Reading

section Samples

def sampleEnv : Env := fun name => find name [("T1_SALT", "salt"), ("SEND_EVERGREEN", "true")]

def sampleUrl : UrlParams := .ofWrites [("tvid", "tv1")]

/-- The database does not answer, the cache file can be read and written. -/
def sampleTick : Tick := ⟨.fails, false, .completes, 1⟩

def sampleKafka : Kafka := ⟨true, fun _ _ => none⟩

/-- A payload whose hash fits the sample URL under the ASCII runtime. -/
def samplePayload (eventType : String) (extra ed : List (String × Json)) : Json :=
  .obj [("TvEvent", .obj ([("tvid", .str "tv1"), ("client", .str "c1"),
    ("h", .str "digest of tv1salt"), ("EventType", .str eventType),
    ("timestamp", .int 1700000000000)] ++ extra)), ("EventData", .obj ed)]

theorem samplePayload_parts (eventType : String) (extra ed : List (String × Json)) :
    ObjectParts (samplePayload eventType extra ed) := by
  constructor
  · rfl
  · intro v hv
    obtain rfl := Option.some.inj hv
    rfl
  · intro v hv
    obtain rfl := Option.some.inj hv
    rfl

theorem accepted_generates_tuner : ∃ out, @generateOutputJson asciiRuntime sampleEnv
    (samplePayload "ACR_TUNER_DATA" [] [("programData", .obj [("startTime", .int 1700000000)])]) =
      .ok out := by
  let _ : Runtime := asciiRuntime
  apply (accepted_generates_iff (samplePayload_parts _ _ _)
    (by decide +kernel : validateRequest sampleEnv sampleUrl _ = .ok true)).mpr
  intro kind hkind
  have hclass : kindOf (samplePayload "ACR_TUNER_DATA" []
      [("programData", .obj [("startTime", .int 1700000000)])]) = some .acrTunerData := by
    decide +kernel
  rw [hclass] at hkind
  obtain rfl := Option.some.inj hkind
  intro ts hts
  have hlast : lastWrite "programdata_starttime" (kindLeaves (some .acrTunerData)
      (eventDataOf (samplePayload "ACR_TUNER_DATA" []
        [("programData", .obj [("startTime", .int 1700000000)])]))) = some (.int 1700000000) := by
    decide +kernel
  rw [hlast] at hts
  obtain rfl := Option.some.inj hts
  exact ⟨1700000000, rfl, by decide, by decide⟩

/-- Native telemetry without a timestamp of its own is accepted, and then has no output. -/
theorem accepted_not_generated :
    ObjectParts (samplePayload "NATIVEAPP_TELEMETRY" [] [("AppId", .str "app")]) ∧
      @validateRequest asciiRuntime sampleEnv sampleUrl
        (samplePayload "NATIVEAPP_TELEMETRY" [] [("AppId", .str "app")]) = .ok true ∧
      ¬∃ out, @generateOutputJson asciiRuntime sampleEnv
        (samplePayload "NATIVEAPP_TELEMETRY" [] [("AppId", .str "app")]) = .ok out := by
  refine ⟨samplePayload_parts _ _ _, by decide +kernel, ?_⟩
  intro hparts
  obtain ⟨out, hout⟩ := hparts
  have hfails : (@generateOutputJson asciiRuntime sampleEnv
      (samplePayload "NATIVEAPP_TELEMETRY" [] [("AppId", .str "app")])).isOk = false := by
    decide +kernel
  rw [hout] at hfails
  cases hfails

end Samples

end TvEvents
