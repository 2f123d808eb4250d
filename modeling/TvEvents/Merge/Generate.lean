import TvEvents.Merge.OutputWrites

namespace TvEvents

open OrderedMap

variable [Runtime]

theorem convertStartTime_iff (et : EventType) (ws : List (String × Json)) (out : PyDict) :
    et.convertStartTime (ofWrites ws) = .ok out ↔
      (∀ ts, lastWrite "programdata_starttime" ws = some ts → SecondsOk ts) ∧
        out = ofWrites (ws ++ startTimeWrites ws) := by
  unfold EventType.convertStartTime startTimeWrites
  rw [ofWrites_get?]
  cases hts : lastWrite "programdata_starttime" ws with
  | none => simp [eq_comm]
  | some ts =>
    simp only [Except.bind_eq_ok]
    constructor
    · intro hparts
      obtain ⟨_, hcheck, v, hv, hout⟩ := hparts
      refine ⟨fun ts' h => ?_, ?_⟩
      · rw [← Option.some.inj h]
        exact (timestampCheck_seconds ts _).mp hcheck
      · rw [hv, ofWrites_append]
        exact (Except.ok.inj hout).symm
    · intro hparts
      obtain ⟨hok, hout⟩ := hparts
      obtain ⟨n, hn, -⟩ := hok ts rfl
      obtain ⟨v, hv⟩ := unixTimeToMs_ok hn
      refine ⟨(), (timestampCheck_seconds ts _).mpr (hok ts rfl), v, hv, ?_⟩
      rw [hout, hv, ofWrites_append]
      rfl

theorem upperPanelState_iff (ws : List (String × Json)) (out : PyDict) :
    EventType.upperPanelState (ofWrites ws) = .ok out ↔
      (∃ s, lastWrite "paneldata_panelstate" ws = some (.str s)) ∧
        out = ofWrites (ws ++ panelStateWrites ws) := by
  unfold EventType.upperPanelState panelStateWrites
  rw [ofWrites_get?]
  cases h : lastWrite "paneldata_panelstate" ws with
  | none => simp
  | some v =>
    cases v <;> simp [ofWrites_append, eq_comm]

theorem generateNativeAppTelemetry_iff (et : EventType) (out : PyDict) :
    et.generateNativeAppTelemetry = .ok out ↔
      ∃ ed, et.payload.member? "EventData" = some (.obj ed) ∧
        KindGenerable .nativeAppTelemetry ed ∧
        out = ofWrites (kindLeaves (some .nativeAppTelemetry) ed ++
          kindWrites .nativeAppTelemetry ed) := by
  unfold EventType.generateNativeAppTelemetry KindGenerable
  simp only [Except.bind_eq_ok, item_eq_ok]
  constructor
  · intro hparts
    obtain ⟨v, hv, flat, hflat, ts, hts, hout⟩ := hparts
    obtain ⟨ed, rfl, hfind⟩ := member_obj hts
    rw [flattenRequestJson_obj] at hflat
    refine ⟨ed, hv, by simp [hfind], ?_⟩
    rw [kindWrites, hfind, ofWrites_append, ← Except.ok.inj hout, ← Except.ok.inj hflat]
    rfl
  · intro hparts
    obtain ⟨ed, hv, hts, rfl⟩ := hparts
    obtain ⟨ts, hfind⟩ := Option.isSome_iff_exists.mp hts
    refine ⟨_, hv, _, flattenRequestJson_obj _ _ _, ts, hfind, ?_⟩
    rw [kindWrites, hfind, ofWrites_append]
    rfl

omit [Runtime] in
theorem heartbeat_write (ed ws : List (String × Json)) :
    (if ((find "Heartbeat" ed).getD .null).truthy then
        (ofWrites ws).set "eventtype" (.str "Heartbeat") else ofWrites ws) =
      ofWrites (ws ++ heartbeatWrites ed) := by
  unfold heartbeatWrites
  rw [ofWrites_append]
  split_ifs <;> rfl

theorem generateAcrTunerData_iff (et : EventType) (out : PyDict) :
    et.generateAcrTunerData = .ok out ↔
      ∃ ed, et.payload.member? "EventData" = some (.obj ed) ∧
        KindGenerable .acrTunerData ed ∧
        out = ofWrites (kindLeaves (some .acrTunerData) ed ++ kindWrites .acrTunerData ed) := by
  unfold EventType.generateAcrTunerData KindGenerable kindWrites
  simp only [Except.bind_eq_ok, item_eq_ok, get_eq_ok, Except.pure_eq_ok]
  constructor
  · intro hparts
    obtain ⟨v, hv, flat, hflat, converted, hconv, heartbeat, ⟨hobj, hheart⟩, hout⟩ := hparts
    obtain ⟨ed, rfl⟩ := isObj_obj hobj
    rw [flattenRequestJson_obj] at hflat
    rw [← Except.ok.inj hflat, convertStartTime_iff] at hconv
    obtain ⟨hok, hconv⟩ := hconv
    refine ⟨ed, hv, hok, ?_⟩
    rw [← Except.ok.inj hout, ← hheart, hconv, ← List.append_assoc]
    exact heartbeat_write ed _
  · intro hparts
    obtain ⟨ed, hv, hok, rfl⟩ := hparts
    refine ⟨_, hv, _, flattenRequestJson_obj _ _ _, _,
      (convertStartTime_iff et _ _).mpr ⟨hok, rfl⟩, _, ⟨rfl, rfl⟩, ?_⟩
    rw [← List.append_assoc]
    exact congrArg Except.ok (heartbeat_write ed _)

theorem generatePlatformTelemetry_iff (et : EventType) (out : PyDict) :
    et.generatePlatformTelemetry = .ok out ↔
      ∃ ed, et.payload.member? "EventData" = some (.obj ed) ∧
        KindGenerable .platformTelemetry ed ∧
        out = ofWrites (kindLeaves (some .platformTelemetry) ed ++
          kindWrites .platformTelemetry ed) := by
  unfold EventType.generatePlatformTelemetry KindGenerable kindWrites
  simp only [Except.bind_eq_ok, item_eq_ok]
  constructor
  · intro hparts
    obtain ⟨v, hv, flat, hflat, hout⟩ := hparts
    rcases flattenRequestJson_eq_ok hflat with ⟨ed, rfl, hwrites⟩ | ⟨-, hempty⟩
    · rw [hwrites, upperPanelState_iff] at hout
      exact ⟨ed, hv, hout⟩
    · rw [hempty] at hout
      simp [EventType.upperPanelState] at hout
  · intro hparts
    obtain ⟨ed, hv, hout⟩ := hparts
    exact ⟨_, hv, _, flattenRequestJson_obj _ _ _, (upperPanelState_iff _ _).mpr hout⟩

/-- The generator of a class succeeds on the event data that it can read, and writes their leaves
and its own keys. -/
theorem generateEventDataOutputJson_iff (et : EventType) (out : PyDict) :
    et.generateEventDataOutputJson = .ok out ↔
      ∃ ed, et.payload.member? "EventData" = some (.obj ed) ∧ KindGenerable et.kind ed ∧
        out = ofWrites (kindLeaves (some et.kind) ed ++ kindWrites et.kind ed) := by
  unfold EventType.generateEventDataOutputJson
  cases hkind : et.kind with
  | nativeAppTelemetry => exact generateNativeAppTelemetry_iff et out
  | acrTunerData => exact generateAcrTunerData_iff et out
  | platformTelemetry => exact generatePlatformTelemetry_iff et out

section Output

omit [Runtime] in
/-- On object parts the constructor of a class never fails. -/
theorem ofClass_obj (kind : EventTypeClass) {p : Json} {tv ed : List (String × Json)}
    (htv : p.member? "TvEvent" = some (.obj tv)) (hed : p.member? "EventData" = some (.obj ed)) :
    ∃ eventType tvid, EventType.ofClass kind p =
      .ok ⟨kind, p, eventType, tvid, .obj ed, namespaceValue kind tv ed, appidValue kind tv ed⟩ := by
  obtain ⟨kvs, rfl, hfind⟩ := member_obj htv
  have hed' : find "EventData" kvs = some (.obj ed) := hed
  refine ⟨(find "EventType" tv).getD (.str ""), (find "tvid" tv).getD (.str ""), ?_⟩
  cases kind with
  | nativeAppTelemetry =>
    simp [EventType.ofClass, EventType.initNativeAppTelemetry, EventType.init, Json.get, hfind, hed',
      namespaceOf_obj, namespaceValue, appidValue]
  | acrTunerData =>
    simp [EventType.ofClass, EventType.initAcrTunerData, EventType.init, Json.get, hfind, hed',
      namespaceOf_obj, namespaceValue, appidValue]
  | platformTelemetry =>
    simp [EventType.ofClass, EventType.initPlatformTelemetry, EventType.init, Json.get, hfind, hed',
      namespaceValue, appidValue]

omit [Runtime] in
theorem ofClass_payload {kind : EventTypeClass} {p : Json} {et : EventType}
    (h : EventType.ofClass kind p = .ok et) : et.payload = p ∧ et.kind = kind := by
  cases kind <;>
    simp only [EventType.ofClass, EventType.initNativeAppTelemetry, EventType.initAcrTunerData,
      EventType.initPlatformTelemetry, EventType.init, Except.bind_eq_ok, Except.pure_eq_ok,
      Except.ok.injEq] at h
  · obtain ⟨et', ⟨_, _, _, _, _, _, _, _, _, _, rfl⟩, _, _, _, _, rfl⟩ := h
    exact ⟨rfl, rfl⟩
  · obtain ⟨et', ⟨_, _, _, _, _, _, _, _, _, _, rfl⟩, _, _, _, _, _, _, rfl⟩ := h
    exact ⟨rfl, rfl⟩
  · obtain ⟨_, _, _, _, _, _, _, _, _, _, rfl⟩ := h
    exact ⟨rfl, rfl⟩

omit [Runtime] in
theorem ofClass_eventData {kind : EventTypeClass} {p : Json} {et : EventType}
    (h : EventType.ofClass kind p = .ok et) :
    et.eventDataParams = eventDataMember p := by
  cases kind <;>
    simp only [EventType.ofClass, EventType.initNativeAppTelemetry, EventType.initAcrTunerData,
      EventType.initPlatformTelemetry, EventType.init, Except.bind_eq_ok, Except.pure_eq_ok,
      Except.ok.injEq, get_eq_ok] at h
  · obtain ⟨et', ⟨_, _, _, _, _, _, _, _, _, ⟨_, hdata⟩, rfl⟩, _, _, _, _, rfl⟩ := h
    exact hdata.symm
  · obtain ⟨et', ⟨_, _, _, _, _, _, _, _, _, ⟨_, hdata⟩, rfl⟩, _, _, _, _, _, _, rfl⟩ := h
    exact hdata.symm
  · obtain ⟨_, _, _, _, _, _, _, _, _, ⟨_, hdata⟩, rfl⟩ := h
    exact hdata.symm

omit [Runtime] in
/-- The writes of a class, merged into those of the envelope and followed by the routing keys. -/
theorem merge_writes (ws ls ks : List (String × Json)) (ns appid : Json) :
    (((ofWrites ws).update (ofWrites (ls ++ ks))).set "namespace" ns).set "appid" appid =
      ofWrites (ws ++ ls ++ (ks ++ [("namespace", ns), ("appid", appid)])) := by
  have hassoc : ws ++ ls ++ (ks ++ [("namespace", ns), ("appid", appid)]) =
      (ws ++ (ls ++ ks)) ++ [("namespace", ns), ("appid", appid)] := by
    simp only [List.append_assoc]
  rw [update_ofWrites, hassoc, ofWrites_append, ofWrites_append ws]
  rfl

/-- The mapped part of the output: the class is built, generates, and adds its routing keys. -/
theorem mapped_iff (kind : EventTypeClass) {p : Json} {tv : List (String × Json)}
    (htv : p.member? "TvEvent" = some (.obj tv)) (ws : List (String × Json)) (out : PyDict) :
    (do
      let et ← EventType.ofClass kind p
      let eventTypeOut ← et.generateEventDataOutputJson
      return (((ofWrites ws).update eventTypeOut).set "namespace" et.eventNamespace).set "appid"
        et.appid) = Except.ok out ↔
      ((∃ ed, p.member? "EventData" = some (.obj ed)) ∧ KindGenerable kind (eventDataOf p)) ∧
        out = ofWrites (ws ++ kindLeaves (some kind) (eventDataOf p) ++
          (kindWrites kind (eventDataOf p) ++ routingWrites kind tv (eventDataOf p))) := by
  simp only [Except.bind_eq_ok, Except.pure_eq_ok, Except.ok.injEq]
  constructor
  · intro hparts
    obtain ⟨et, het, flat, hflat, rfl⟩ := hparts
    obtain ⟨hpayload, hkind⟩ := ofClass_payload het
    obtain ⟨ed, hed, hgen, rfl⟩ := (generateEventDataOutputJson_iff et flat).mp hflat
    rw [hkind] at hgen
    rw [hpayload] at hed
    have hpart : eventDataOf p = ed := by rw [eventDataOf, hed]; rfl
    obtain ⟨eventType, tvid, hclass⟩ := ofClass_obj kind htv hed
    have hsame := Except.ok.inj (hclass.symm.trans het)
    subst hsame
    refine ⟨⟨⟨ed, hed⟩, by rwa [hpart]⟩, ?_⟩
    rw [hpart]
    exact merge_writes ws _ _ _ _
  · intro hparts
    obtain ⟨⟨⟨ed, hed⟩, hgen⟩, rfl⟩ := hparts
    have hpart : eventDataOf p = ed := by rw [eventDataOf, hed]; rfl
    rw [hpart] at hgen ⊢
    obtain ⟨eventType, tvid, hclass⟩ := ofClass_obj kind htv hed
    refine ⟨_, hclass, _, (generateEventDataOutputJson_iff _ _).mpr ⟨ed, hed, hgen, rfl⟩, ?_⟩
    exact merge_writes ws _ _ _ _

omit [Runtime] in
theorem iterable_items (v : Json) : Iterable v ↔ ∃ kvs, v.items = .ok kvs := by
  unfold Iterable
  cases v with
  | arr l => cases l <;> simp [Json.items, Json.isObj]
  | str s => by_cases hs : s = "" <;> simp [Json.items, Json.isObj, hs]
  | null => simp [Json.items, Json.isObj]
  | bool b => simp [Json.items, Json.isObj]
  | int n => simp [Json.items, Json.isObj]
  | float f => simp [Json.items, Json.isObj]
  | obj kvs => simp [Json.items, Json.isObj]

/-- A loop over the members runs over those of an object, or over nothing. -/
private theorem flatten_iterable {v : Json} (h : Iterable v) :
    flattenRequestJson v "" [] = .ok (ofWrites (kindLeaves none (membersOf (some v)))) := by
  rcases h with hobj | rfl | rfl
  · obtain ⟨kvs, rfl⟩ := isObj_obj hobj
    exact flattenRequestJson_obj _ _ _
  · rfl
  · rfl

/-- The unmapped part of the output: the event data are flattened when a loop can run over them. -/
theorem unmapped_iff {p : Json} (hobj : p.isObj = true) (ws : List (String × Json)) (out : PyDict) :
    (do
      let eventData ← p.get "EventData" (.obj [])
      return (ofWrites ws).update (← flattenRequestJson eventData "" [])) = Except.ok out ↔
      (∀ v, p.member? "EventData" = some v → Iterable v) ∧
        out = ofWrites (ws ++ kindLeaves none (eventDataOf p)) := by
  have hmerge : ∀ ls, (ofWrites ws).update (ofWrites ls) = ofWrites (ws ++ ls) := by
    intro ls
    rw [update_ofWrites, ofWrites_append]
  have hget : p.get "EventData" (.obj []) = .ok ((p.member? "EventData").getD (.obj [])) :=
    get_eq_ok.mpr ⟨hobj, rfl⟩
  rw [hget, Except.ok_bind, eventDataOf]
  cases hed : p.member? "EventData" with
  | none =>
    change Except.ok ((ofWrites ws).update (ofWrites [])) = _ ↔ _
    rw [hmerge]
    simp [kindLeaves, membersOf, leaves, eq_comm]
  | some v =>
    by_cases hv : Iterable v
    · rw [Option.getD_some, flatten_iterable hv, Except.ok_bind, hmerge]
      simp [hv, eq_comm]
    · have hfail : ∀ flat, flattenRequestJson v "" [] ≠ .ok flat := by
        intro flat h
        obtain ⟨kvs, hkvs, -⟩ := Except.bind_eq_ok.mp h
        exact hv ((iterable_items v).mpr ⟨kvs, hkvs⟩)
      simp [Except.bind_eq_ok, hfail, hv]

/-- The envelope of an output: the leaves of the TV event and the keys that it gets. -/
theorem envelope_writes {env : Env} {p et ts : Json} {tv : List (String × Json)}
    (htv : p.member? "TvEvent" = some (.obj tv)) (het : find "EventType" tv = some et)
    (hts : find "timestamp" tv = some ts) :
    (((OrderedMap.empty.update (ofWrites (leaves (fun k => tvEventIgnored.contains k) "" tv))).set
      "tvevent_timestamp" ts).set "tvevent_eventtype" et).set "zoo" (.str (zoo env)) =
      ofWrites (tvEventLeaves p ++ envelopeWrites env p) := by
  have hpart : tvEventOf p = tv := by rw [tvEventOf, htv]; rfl
  rw [update_ofWrites, ofWrites_append, tvEventLeaves, envelopeWrites, eventTypeOf, tvEventField,
    tvEventField, hpart, het, hts]
  rfl

private theorem generate_envelope {env : Env} {p et ts : Json} {tv : List (String × Json)}
    (htv : p.member? "TvEvent" = some (.obj tv)) (het : find "EventType" tv = some et)
    (hts : find "timestamp" tv = some ts) :
    generateOutputJson env p = (do
      match ← getEventTypeMapping et with
      | some kind =>
        let event ← EventType.ofClass kind p
        let eventTypeOut ← event.generateEventDataOutputJson
        return (((ofWrites (tvEventLeaves p ++ envelopeWrites env p)).update eventTypeOut).set
          "namespace" event.eventNamespace).set "appid" event.appid
      | none =>
        let eventData ← p.get "EventData" (.obj [])
        return (ofWrites (tvEventLeaves p ++ envelopeWrites env p)).update
          (← flattenRequestJson eventData "" [])) := by
  have htv' : p.item "TvEvent" = .ok (.obj tv) := item_eq_ok.mpr htv
  have het' : (Json.obj tv).item "EventType" = .ok et := item_eq_ok.mpr het
  have hts' : (Json.obj tv).item "timestamp" = .ok ts := item_eq_ok.mpr hts
  apply Eq.trans
  · rw [generateOutputJson, htv', Except.ok_bind, het', Except.ok_bind, Except.ok_bind,
      flattenRequestJson_obj, Except.ok_bind, Except.ok_bind, hts', Except.ok_bind,
      envelope_writes htv het hts]
  · rfl

omit [Runtime] in
theorem kindOf_eq {p et : Json} {tv : List (String × Json)}
    (htv : p.member? "TvEvent" = some (.obj tv)) (het : find "EventType" tv = some et) :
    kindOf p = kindOfType et := by
  rw [kindOf, eventTypeOf, tvEventField, tvEventOf, htv, membersOf, het]
  rfl

private theorem generate_reads {env : Env} {p : Json} {out : PyDict}
    (h : generateOutputJson env p = .ok out) :
    ∃ tv et ts, p.member? "TvEvent" = some (.obj tv) ∧ find "EventType" tv = some et ∧
      find "timestamp" tv = some ts := by
  simp only [generateOutputJson, Except.bind_eq_ok] at h
  obtain ⟨tvEvent, htv, et, het, _, _, _, _, tvEvent', htv', ts, hts, -⟩ := h
  obtain ⟨tv, rfl, hfind⟩ := member_obj (item_eq_ok.mp het)
  have hsame : tvEvent' = .obj tv := Except.ok.inj (htv'.symm.trans htv)
  rw [hsame] at hts
  exact ⟨tv, et, ts, item_eq_ok.mp htv, hfind, item_eq_ok.mp hts⟩

/-- The event data part of the output, whatever class the event type has. -/
private theorem classified_iff {env : Env} {p : Json} {tv : List (String × Json)}
    {out : PyDict} (htv : p.member? "TvEvent" = some (.obj tv)) :
    (match kindOf p with
      | some kind => do
        let event ← EventType.ofClass kind p
        let eventTypeOut ← event.generateEventDataOutputJson
        return (((ofWrites (tvEventLeaves p ++ envelopeWrites env p)).update eventTypeOut).set
          "namespace" event.eventNamespace).set "appid" event.appid
      | none => do
        let eventData ← p.get "EventData" (.obj [])
        return (ofWrites (tvEventLeaves p ++ envelopeWrites env p)).update
          (← flattenRequestJson eventData "" [])) = Except.ok out ↔
      (match kindOf p with
        | some kind =>
          (∃ ed, p.member? "EventData" = some (.obj ed)) ∧ KindGenerable kind (eventDataOf p)
        | none => ∀ v, p.member? "EventData" = some v → Iterable v) ∧
        out = ofWrites (outputWrites env p) := by
  have hpart : tvEventOf p = tv := by rw [tvEventOf, htv]; rfl
  have hobj : p.isObj = true := by
    obtain ⟨kvs, rfl, -⟩ := member_obj htv
    rfl
  rw [outputWrites, classWrites, eventDataLeaves, hpart]
  cases kindOf p with
  | some kind => exact mapped_iff kind htv _ out
  | none =>
    rw [List.append_nil]
    exact unmapped_iff hobj _ out

private theorem generate_iff_of_reads {env : Env} {p et ts : Json} {tv : List (String × Json)}
    (out : PyDict) (htv : p.member? "TvEvent" = some (.obj tv))
    (het : find "EventType" tv = some et) (hts : find "timestamp" tv = some ts) :
    generateOutputJson env p = .ok out ↔ Generable p ∧ out = ofWrites (outputWrites env p) := by
  have hpart : tvEventOf p = tv := by rw [tvEventOf, htv]; rfl
  have htype := kindOf_eq htv het
  rw [generate_envelope htv het hts, Except.bind_eq_ok]
  simp only [getEventTypeMapping_iff]
  constructor
  · intro h
    obtain ⟨m, ⟨hkey, hm⟩, hout⟩ := h
    obtain rfl : kindOf p = m := htype.trans hm
    obtain ⟨hdata, hwrites⟩ := (classified_iff htv).mp hout
    exact ⟨⟨⟨tv, htv⟩, ⟨et, by rwa [hpart], hkey⟩, by rw [hpart, hts]; rfl, hdata⟩, hwrites⟩
  · intro h
    obtain ⟨hgen, hwrites⟩ := h
    obtain ⟨et', het', hkey⟩ := hgen.eventType
    rw [hpart, het] at het'
    rw [← Option.some.inj het'] at hkey
    exact ⟨kindOf p, ⟨hkey, htype.symm⟩, (classified_iff htv).mpr ⟨hgen.eventData, hwrites⟩⟩

/-- The output exists exactly for the payloads that the generator can read, and is the map that its
writes make. -/
theorem generateOutputJson_iff (env : Env) (p : Json) (out : PyDict) :
    generateOutputJson env p = .ok out ↔ Generable p ∧ out = ofWrites (outputWrites env p) := by
  constructor
  · intro h
    obtain ⟨tv, et, ts, htv, het, hts⟩ := generate_reads h
    exact (generate_iff_of_reads out htv het hts).mp h
  · intro h
    obtain ⟨tv, htv⟩ := h.1.tvEvent
    obtain ⟨et, het, -⟩ := h.1.eventType
    obtain ⟨ts, hts⟩ := Option.isSome_iff_exists.mp h.1.timestamp
    rw [tvEventOf, htv] at het hts
    exact (generate_iff_of_reads out htv het hts).mpr h

end Output

end TvEvents
