import TvEvents.Legacy.Migration

namespace TvEvents.Legacy

open Coroutines OrderedMap Runs BlacklistCache

variable [Runtime]

section Events

/-- Event data of native telemetry: a whole number as timestamp, no envelope inside, and no other name
that is a part of the word `Timestamp`. -/
structure PlainNative (ed : List (String × Json)) : Prop where
  timestamp : ∃ n, find "Timestamp" ed = some (.int n)
  tvEvent : find "TvEvent" ed = none
  names : ∀ k ∈ ed.map Prod.fst, inStr k "Timestamp" = true → k = "Timestamp"

/-- Tuner data: the sections that are checked are objects, and a start time is a whole number. -/
structure PlainTuner (p : Json) : Prop where
  sections : ObjectSections (membersOf (some (sectionsHolder p)))
  startTime : ∀ ts, lastWrite "programdata_starttime" (TvEvents.eventDataLeaves p) = some ts →
    ∃ n, ts = .int n

/-- An event whose values have the types that both services expect of them; its URL names a TV, and it is
no platform telemetry, on which the services differ. -/
structure PlainEvent (urlParams : UrlParams) (p : Json) : Prop where
  tvid : (urlParams.get? "tvid").isSome
  hash : ∃ s, tvEventField p "h" = .str s
  timestamp : ∃ n, tvEventField p "timestamp" = .int n
  eventData : ∃ ed, p.member? "EventData" = some (.obj ed)
  supported : kindOf p ≠ some .platformTelemetry
  native : kindOf p = some .nativeAppTelemetry → PlainNative (eventDataOf p)
  tuner : kindOf p = some .acrTunerData → PlainTuner p

theorem PlainEvent.kept {urlParams : UrlParams} {p : Json} (h : PlainEvent urlParams p) (z : String) :
    Kept z p := by
  refine ⟨?_, fun hkind => (h.tuner hkind).sections, ?_⟩
  · obtain ⟨n, hn⟩ := h.timestamp
    rw [hn]
    rintro (hnull | hempty)
    · cases hnull
    · cases hempty
  · cases hkind : kindOf p with
    | none =>
      rw [CarriesOver, hkind]
      trivial
    | some kind =>
      cases kind with
      | nativeAppTelemetry => exact carriesOver_of_names hkind (h.native hkind).names
      | acrTunerData =>
        rw [CarriesOver, hkind]
        intro ts hts
        obtain ⟨n, rfl⟩ := (h.tuner hkind).startTime ts hts
        exact ⟨fun hnull => (by cases hnull), fun hempty => (by cases hempty)⟩
      | platformTelemetry => exact absurd hkind h.supported

end Events

section Validation

omit [Runtime] in
theorem ofClass_total (kind : EventTypeClass) {p et tvid : Json} {tv ed : List (String × Json)}
    (htv : p.member? "TvEvent" = some (.obj tv)) (het : find "EventType" tv = some et)
    (htvid : find "tvid" tv = some tvid) (hed : p.member? "EventData" = some (.obj ed)) :
    ∃ event, EventType.ofClass kind p = .ok event := by
  have htv' := item_eq_ok.mpr htv
  have hed' := item_eq_ok.mpr hed
  have het' : (Json.obj tv).item "EventType" = .ok et := item_eq_ok.mpr het
  have htvid' : (Json.obj tv).item "tvid" = .ok tvid := item_eq_ok.mpr htvid
  have hinit : ∀ kind, EventType.init kind p = .ok ⟨kind, p, et, tvid, .obj ed, none, none⟩ := by
    intro kind
    simp only [EventType.init, htv', het', htvid', hed', Except.ok_bind, Except.pure_eq_ok]
  have hget : ∀ (kvs : List (String × Json)) k, ∃ v, (Json.obj kvs).get k .null = .ok v :=
    fun _ _ => ⟨_, rfl⟩
  cases kind with
  | nativeAppTelemetry =>
    obtain ⟨appid, happid⟩ := hget ed "AppId"
    simp only [EventType.ofClass, EventType.initNativeAppTelemetry, hinit, getPayloadNamespace,
      namespaceOf_obj, happid, Except.ok_bind, Except.pure_eq_ok]
    exact ⟨_, rfl⟩
  | acrTunerData =>
    obtain ⟨appid, happid⟩ := hget tv "appId"
    simp only [EventType.ofClass, EventType.initAcrTunerData, hinit, htv', getPayloadNamespace,
      namespaceOf_obj, happid, Except.ok_bind, Except.pure_eq_ok]
    exact ⟨_, rfl⟩
  | platformTelemetry => exact ⟨_, hinit _⟩

end Validation

section Output

end Output

section Request

end Request

section Results

variable [Framework]

end Results

section Samples

omit [Runtime]

end Samples

end TvEvents.Legacy
