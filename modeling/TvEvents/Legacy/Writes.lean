import TvEvents.Legacy.Firehose
import TvEvents.Merge.Generate

namespace TvEvents.Legacy

open OrderedMap

variable [Runtime]

section Leaves

def eventDataIgnored : Option EventTypeClass → IgnoreKeys
  | some .nativeAppTelemetry => .text "Timestamp"
  | _ => .names []

def kindLeaves (kind : Option EventTypeClass) (ed : List (String × Json)) : List (String × Json) :=
  leaves (eventDataIgnored kind).has "" ed

/-- The writes of the legacy generator: those of the rebuilt one, with its own leaves of the event
data. -/
def outputWrites (env : Env) (p : Json) : List (String × Json) :=
  tvEventLeaves p ++ envelopeWrites env p ++ kindLeaves (kindOf p) (eventDataOf p) ++ classWrites p

theorem kindLeaves_eq {kind : Option EventTypeClass} (h : kind ≠ some .nativeAppTelemetry)
    (ed : List (String × Json)) : kindLeaves kind ed = TvEvents.kindLeaves kind ed := by
  cases kind with
  | none => rfl
  | some kind =>
    cases kind with
    | nativeAppTelemetry => exact absurd rfl h
    | acrTunerData => rfl
    | platformTelemetry => rfl

theorem flattenRequestJson_obj (keyPrefix : String) (ignoreKeys : IgnoreKeys)
    (kvs : List (String × Json)) :
    flattenRequestJson (.obj kvs) keyPrefix ignoreKeys =
      .ok (ofWrites (leaves ignoreKeys.has keyPrefix kvs)) := by
  rw [flattenRequestJson]
  simp only [Json.items, Except.ok_bind, Except.pure_eq_ok, flattenEntries_write]
  rfl

theorem flattenRequestJson_iterable {v : Json} {out : PyDict}
    (h : flattenRequestJson v "" (.names []) = .ok out) :
    Iterable v ∧ out = ofWrites (kindLeaves none (membersOf (some v))) := by
  obtain ⟨kvs, hkvs, hout⟩ := Except.bind_eq_ok.mp h
  have hiter : Iterable v := (iterable_items v).mpr ⟨kvs, hkvs⟩
  refine ⟨hiter, ?_⟩
  rcases hiter with hobj | rfl | rfl
  · obtain ⟨kvs', rfl⟩ := isObj_obj hobj
    rw [flattenRequestJson_obj] at h
    exact (Except.ok.inj h).symm
  · exact (Except.ok.inj h).symm
  · exact (Except.ok.inj h).symm

end Leaves

section StartTime

/-- The legacy check on a number implies the rebuilt one, which truncates it first. -/
theorem fromTimestamp_seconds {ts : Json} (h : fromTimestamp ts = .ok ()) : SecondsOk ts := by
  have hrange : ∀ n : ℤ, fromTimestampInt n = .ok () → minTime ≤ n ∧ n ≤ maxTime := by
    intro n hn
    by_contra hout
    simp [fromTimestampInt, hout] at hn
  cases ts with
  | int n => exact ⟨n, rfl, hrange n h⟩
  | bool b => exact ⟨if b then 1 else 0, rfl, hrange _ h⟩
  | float f =>
    cases f with
    | nan => cases h
    | inf neg => cases h
    | negZero => exact ⟨0, rfl, hrange 0 h⟩
    | fin q =>
      refine ⟨PyFloat.truncRat q, rfl, ?_⟩
      obtain ⟨hmin, hmax⟩ := hrange _ h
      have hepoch := Runtime.minTime_epoch
      have hepoch' := Runtime.maxTime_epoch
      unfold PyFloat.truncRat
      split_ifs with hq
      · have hfloor : (((⌊q⌋ * 1000000 : ℤ)) : ℚ) ≤ q * 1000000 := by
          have := Int.floor_le q
          push_cast
          linarith
        have hround := roundHalfEven_ge hfloor
        have hnonneg : 0 ≤ ⌊q⌋ := Int.floor_nonneg.mpr hq
        omega
      · have hceil : q * 1000000 ≤ (((⌈q⌉ * 1000000 : ℤ)) : ℚ) := by
          have := Int.le_ceil q
          push_cast
          linarith
        have hround := roundHalfEven_le hceil
        have hneg : ⌈q⌉ ≤ 0 := Int.ceil_le.mpr (by push_cast; linarith)
        omega
  | null => cases h
  | str s => cases h
  | arr l => cases h
  | obj kvs => cases h

/-- A start time that the legacy check lets pass: not set, or within the range of the rebuilt one. -/
def StartTimeRead (ts : Json) : Prop := ts = .null ∨ ts = .str "" ∨ SecondsOk ts

theorem timestampCheck_cases {ts tvid : Json} {b : Bool} (h : timestampCheck ts tvid false = .ok b) :
    (b = false ∧ (ts = .null ∨ ts = .str "")) ∨ (b = true ∧ SecondsOk ts) := by
  unfold timestampCheck at h
  split_ifs at h with hunset hms
  · exact .inl ⟨(Except.ok.inj h).symm, hunset⟩
  · cases hms
  · cases hcheck : fromTimestamp ts with
    | error e =>
      rw [hcheck] at h
      cases h
    | ok u =>
      rw [hcheck] at h
      exact .inr ⟨(Except.ok.inj h).symm, fromTimestamp_seconds hcheck⟩

omit [Runtime] in
private theorem unixTimeToMs_empty : unixTimeToMs (.str "") = .ok (.str "") := by
  have hflat : (List.replicate 1000 "".toList).flatten = [] := List.flatten_replicate_nil
  rw [unixTimeToMs, timesThousand, hflat]

omit [Runtime] in
/-- A start time that is not set stays as it is: the empty text times a thousand would be written
over itself. -/
private theorem unset_writes {ws : List (String × Json)} {ts : Json}
    (hts : lastWrite "programdata_starttime" ws = some ts) (hunset : ts = .null ∨ ts = .str "") :
    ofWrites ws = ofWrites (ws ++ startTimeWrites ws) := by
  rcases hunset with rfl | rfl
  · simp only [startTimeWrites, hts, unixTimeToMs, timesThousand, List.append_nil]
  · rw [startTimeWrites_some hts unixTimeToMs_empty, ofWrites_again hts]

theorem convertStartTime_writes {et : EventType} {ws : List (String × Json)} {out : PyDict}
    (h : et.convertStartTime (ofWrites ws) = .ok out) :
    (∀ ts, lastWrite "programdata_starttime" ws = some ts → StartTimeRead ts) ∧
      out = ofWrites (ws ++ startTimeWrites ws) := by
  unfold EventType.convertStartTime at h
  rw [ofWrites_get?] at h
  cases hts : lastWrite "programdata_starttime" ws with
  | none =>
    rw [hts] at h
    rw [startTimeWrites_none hts, List.append_nil]
    exact ⟨fun _ hnone => (by cases hnone), (Except.ok.inj h).symm⟩
  | some ts =>
    rw [hts] at h
    obtain ⟨b, hcheck, hout⟩ := Except.bind_eq_ok.mp h
    have hread : StartTimeRead ts → ∀ ts', some ts = some ts' → StartTimeRead ts' := by
      intro hread ts' hsame
      rwa [← Option.some.inj hsame]
    rcases timestampCheck_cases hcheck with ⟨rfl, hunset⟩ | ⟨rfl, hok⟩
    · refine ⟨hread (or_assoc.mp (.inl hunset)), ?_⟩
      rw [← unset_writes hts hunset]
      exact (Except.ok.inj hout).symm
    · obtain ⟨v, hv, hset⟩ := Except.bind_eq_ok.mp hout
      refine ⟨hread (.inr (.inr hok)), ?_⟩
      rw [startTimeWrites_some hts hv, ofWrites_append]
      exact (Except.ok.inj hset).symm

end StartTime

section Classes

/-- What the generator of a class found in the event data; one class never gets to an output. -/
def KindRead (kind : EventTypeClass) (ed : List (String × Json)) : Prop :=
  match kind with
  | .nativeAppTelemetry => (find "Timestamp" ed).isSome
  | .acrTunerData =>
    ∀ ts, lastWrite "programdata_starttime" (kindLeaves (some .acrTunerData) ed) = some ts →
      StartTimeRead ts
  | .platformTelemetry => False

omit [Runtime] in
/-- The attributes that the constructors set, and those that they do not. -/
theorem ofClass_eq_ok {kind : EventTypeClass} {p : Json} {et : EventType}
    (h : EventType.ofClass kind p = .ok et) :
    et.payload = p ∧ et.kind = kind ∧
      (kind = .platformTelemetry → et.eventNamespace = none) ∧
      (kind ≠ .platformTelemetry →
        et.eventNamespace = some (namespaceValue kind (tvEventOf p) (eventDataOf p)) ∧
          et.appid = some (appidValue kind (tvEventOf p) (eventDataOf p))) := by
  cases kind <;>
    simp only [EventType.ofClass, EventType.initNativeAppTelemetry, EventType.initAcrTunerData,
      EventType.initPlatformTelemetry, EventType.init, Except.bind_eq_ok, Except.pure_eq_ok,
      Except.ok.injEq, item_eq_ok, get_eq_ok, getPayloadNamespace] at h
  · obtain ⟨et', ⟨_, _, _, _, _, _, _, _, v, hv, rfl⟩, ns, hns, appid, ⟨hobj, happid⟩, rfl⟩ := h
    obtain ⟨ed, rfl⟩ := isObj_obj hobj
    have hpart : eventDataOf p = ed := by rw [eventDataOf, hv]; rfl
    rw [namespaceOf_obj] at hns
    refine ⟨rfl, rfl, fun hplatform => (by cases hplatform), fun _ => ?_⟩
    rw [hpart, ← Except.ok.inj hns, ← happid]
    exact ⟨rfl, rfl⟩
  · obtain ⟨et', ⟨_, _, _, _, _, _, _, _, v, hv, rfl⟩, tv, htv, ns, hns, tv', htv', appid,
      ⟨hobj, happid⟩, rfl⟩ := h
    obtain rfl : tv = tv' := Option.some.inj (htv.symm.trans htv')
    obtain ⟨kvs, rfl⟩ := isObj_obj hobj
    have hpart : tvEventOf p = kvs := by rw [tvEventOf, htv]; rfl
    rw [namespaceOf_obj] at hns
    refine ⟨rfl, rfl, fun hplatform => (by cases hplatform), fun _ => ?_⟩
    rw [hpart, ← Except.ok.inj hns, ← happid]
    exact ⟨rfl, rfl⟩
  · obtain ⟨_, _, _, _, _, _, _, _, _, _, rfl⟩ := h
    exact ⟨rfl, rfl, fun _ => rfl, fun hk => absurd rfl hk⟩

theorem generateNativeAppTelemetry_writes {et : EventType} {out : PyDict}
    (h : et.generateNativeAppTelemetry = .ok out) :
    ∃ ed, et.payload.member? "EventData" = some (.obj ed) ∧ KindRead .nativeAppTelemetry ed ∧
      out = ofWrites (kindLeaves (some .nativeAppTelemetry) ed ++
        kindWrites .nativeAppTelemetry ed) := by
  unfold EventType.generateNativeAppTelemetry at h
  simp only [Except.bind_eq_ok, item_eq_ok] at h
  obtain ⟨v, hv, flat, hflat, ts, hts, hout⟩ := h
  obtain ⟨ed, rfl, hfind⟩ := member_obj hts
  rw [flattenRequestJson_obj] at hflat
  refine ⟨ed, hv, by simp [KindRead, hfind], ?_⟩
  rw [kindWrites, hfind, ofWrites_append, ← Except.ok.inj hout, ← Except.ok.inj hflat]
  rfl

theorem generateAcrTunerData_writes {et : EventType} {out : PyDict}
    (h : et.generateAcrTunerData = .ok out) :
    ∃ ed, et.payload.member? "EventData" = some (.obj ed) ∧ KindRead .acrTunerData ed ∧
      out = ofWrites (kindLeaves (some .acrTunerData) ed ++ kindWrites .acrTunerData ed) := by
  unfold EventType.generateAcrTunerData at h
  simp only [Except.bind_eq_ok, item_eq_ok, get_eq_ok, Except.pure_eq_ok] at h
  obtain ⟨v, hv, flat, hflat, converted, hconv, heartbeat, ⟨hobj, hheart⟩, hout⟩ := h
  obtain ⟨ed, rfl⟩ := isObj_obj hobj
  rw [flattenRequestJson_obj] at hflat
  rw [← Except.ok.inj hflat] at hconv
  obtain ⟨hread, hconv⟩ := convertStartTime_writes hconv
  refine ⟨ed, hv, hread, ?_⟩
  rw [← Except.ok.inj hout, ← hheart, hconv, kindWrites, ← List.append_assoc]
  exact heartbeat_write ed _

/-- The two classes that get to an output read the same from the event data, and write the same
after their leaves. -/
theorem generateEventDataOutputJson_writes {et : EventType} {out : PyDict}
    (hkind : et.kind ≠ .platformTelemetry) (h : et.generateEventDataOutputJson = .ok out) :
    ∃ ed, et.payload.member? "EventData" = some (.obj ed) ∧ KindRead et.kind ed ∧
      out = ofWrites (kindLeaves (some et.kind) ed ++ kindWrites et.kind ed) := by
  unfold EventType.generateEventDataOutputJson at h
  cases hclass : et.kind with
  | nativeAppTelemetry =>
    rw [hclass] at h
    exact generateNativeAppTelemetry_writes h
  | acrTunerData =>
    rw [hclass] at h
    exact generateAcrTunerData_writes h
  | platformTelemetry => exact absurd hclass hkind

end Classes

section Output

structure Generated (p : Json) : Prop where
  tvEvent : ∃ tv, p.member? "TvEvent" = some (.obj tv)
  eventType : ∃ et, find "EventType" (tvEventOf p) = some et ∧ IsKey et
  timestamp : (find "timestamp" (tvEventOf p)).isSome
  eventData :
    match kindOf p with
    | some kind => (∃ ed, p.member? "EventData" = some (.obj ed)) ∧ KindRead kind (eventDataOf p)
    | none => ∃ v, p.member? "EventData" = some v ∧ Iterable v

/-- The mapped part of the output; a class without its two attributes never gets there. -/
private theorem mapped_writes {kind : EventTypeClass} {p : Json} {ws : List (String × Json)}
    {out : PyDict} (h : (do
      let et ← EventType.ofClass kind p
      let eventTypeOut ← et.generateEventDataOutputJson
      let ns ← getAttribute et.eventNamespace
      let appid ← getAttribute et.appid
      return (((ofWrites ws).update eventTypeOut).set "namespace" ns).set "appid" appid) =
        Except.ok out) :
    ((∃ ed, p.member? "EventData" = some (.obj ed)) ∧ KindRead kind (eventDataOf p)) ∧
      out = ofWrites (ws ++ kindLeaves (some kind) (eventDataOf p) ++
        (kindWrites kind (eventDataOf p) ++
          routingWrites kind (tvEventOf p) (eventDataOf p))) := by
  simp only [Except.bind_eq_ok, Except.pure_eq_ok, Except.ok.injEq] at h
  obtain ⟨et, het, flat, hflat, ns, hns, appid, happid, hout⟩ := h
  obtain ⟨hpayload, hkind, hunset, hset⟩ := ofClass_eq_ok het
  by_cases hplatform : kind = .platformTelemetry
  · rw [hunset hplatform] at hns
    cases hns
  · obtain ⟨hns', happid'⟩ := hset hplatform
    rw [hns'] at hns
    rw [happid'] at happid
    obtain ⟨ed, hed, hread, hflat⟩ :=
      generateEventDataOutputJson_writes (by rwa [hkind]) hflat
    rw [hpayload] at hed
    rw [hkind] at hread hflat
    have hpart : eventDataOf p = ed := by rw [eventDataOf, hed]; rfl
    rw [hpart] at hns happid ⊢
    refine ⟨⟨⟨ed, hed⟩, hread⟩, ?_⟩
    rw [← hout, hflat, ← Except.ok.inj hns, ← Except.ok.inj happid]
    exact merge_writes ws _ _ _ _

/-- A legacy output tells what its payload contains, and is the map that the legacy writes make. -/
theorem generateOutputJson_writes {env lenv : Env} {p : Json} {out : PyDict}
    (hzoo : zoo lenv = .str (TvEvents.zoo env)) (h : generateOutputJson lenv p = .ok out) :
    Generated p ∧ out = ofWrites (outputWrites env p) := by
  simp only [generateOutputJson, Except.bind_eq_ok] at h
  obtain ⟨tvEvent, htvItem, et, hetItem, tvEvent', htvItem', flat, hflat, tvEvent'', htvItem'', ts,
    htsItem, m, hm, hout⟩ := h
  obtain ⟨tv, rfl, het⟩ := member_obj (item_eq_ok.mp hetItem)
  obtain rfl : .obj tv = tvEvent' := Except.ok.inj (htvItem.symm.trans htvItem')
  obtain rfl : .obj tv = tvEvent'' := Except.ok.inj (htvItem.symm.trans htvItem'')
  have htv := item_eq_ok.mp htvItem
  have hts : find "timestamp" tv = some ts := item_eq_ok.mp htsItem
  have hpart : tvEventOf p = tv := by rw [tvEventOf, htv]; rfl
  obtain ⟨hkey, hclass⟩ := (getEventTypeMapping_iff et m).mp hm
  have hkind : kindOf p = m := (kindOf_eq htv het).trans hclass
  rw [flattenRequestJson_obj] at hflat
  have henvelope := @envelope_writes _ env _ _ _ _ htv het hts
  have hleft : (IgnoreKeys.names tvEventIgnored).has = fun k => tvEventIgnored.contains k := rfl
  rw [← Except.ok.inj hflat, hleft, hzoo, henvelope] at hout
  cases m with
  | some kind =>
    obtain ⟨hdata, hwrites⟩ := mapped_writes hout
    refine ⟨⟨⟨tv, htv⟩, ⟨et, by rwa [hpart], hkey⟩, by rw [hpart, hts]; rfl, ?_⟩, ?_⟩
    · rw [hkind]
      exact hdata
    · rw [outputWrites, classWrites, hkind]
      exact hwrites
  | none =>
    obtain ⟨v, hv, hflatten⟩ := Except.bind_eq_ok.mp hout
    obtain ⟨flatData, hflatData, hmerged⟩ := Except.bind_eq_ok.mp hflatten
    obtain ⟨hiter, hleaves⟩ := flattenRequestJson_iterable hflatData
    have hdata := item_eq_ok.mp hv
    refine ⟨⟨⟨tv, htv⟩, ⟨et, by rwa [hpart], hkey⟩, by rw [hpart, hts]; rfl, ?_⟩, ?_⟩
    · rw [hkind]
      exact ⟨v, hdata, hiter⟩
    · rw [outputWrites, classWrites, hkind, List.append_nil, eventDataOf, hdata, ofWrites_append,
        ← update_ofWrites, ← hleaves]
      exact (Except.ok.inj hmerged).symm

/-- Platform telemetry has no legacy output: its class lacks the two attributes that are read. -/
theorem platformTelemetry_not_generated {env lenv : Env} {p : Json}
    (hzoo : zoo lenv = .str (TvEvents.zoo env)) (hkind : kindOf p = some .platformTelemetry)
    (out : PyDict) : generateOutputJson lenv p ≠ .ok out := by
  intro h
  have hdata := (generateOutputJson_writes hzoo h).1.eventData
  rw [hkind] at hdata
  exact hdata.2

end Output

end TvEvents.Legacy
