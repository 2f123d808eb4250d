import TvEvents.Accept.PanelGrammar
import TvEvents.Accept.Sufficient

namespace TvEvents

open OrderedMap

section Panel

variable [Runtime]

def panelDataOf (p : Json) : List (String × Json) := membersOf (find "PanelData" (eventDataOf p))

/-- The leaves that are written after member `name` of the panel data. -/
def laterPanelLeaves (p : Json) (name : String) : List (String × Json) :=
  leaves (fun _ => false) "PanelData" (after name (panelDataOf p)) ++
    kindLeaves (some .platformTelemetry) (after "PanelData" (eventDataOf p))

/-- The output carries the panel data, the state in upper case. -/
structure PanelDelivered (p : Json) (out : PyDict) : Prop where
  panelState : ∃ s, find "PanelState" (panelDataOf p) = some (.str s) ∧
    out.get? "paneldata_panelstate" = some (.str (upper s))
  timestamp : out.get? "paneldata_timestamp" = find "Timestamp" (panelDataOf p)
  wakeupReason : out.get? "paneldata_wakeupreason" = find "WakeupReason" (panelDataOf p)

/-- No leaf that is written later has the key of a panel value and ends with another value; another
letter case of the state does no harm. -/
structure PanelUnshadowed (p : Json) : Prop where
  panelState : ∀ s w, find "PanelState" (panelDataOf p) = some (.str s) →
    lastWrite "paneldata_panelstate" (laterPanelLeaves p "PanelState") = some w →
    ∃ s', w = .str s' ∧ upper s' = upper s
  timestamp : ∀ v, find "Timestamp" (panelDataOf p) = some v →
    NotShadowed "paneldata_timestamp" v (laterPanelLeaves p "Timestamp")
  wakeupReason : ∀ v, find "WakeupReason" (panelDataOf p) = some v →
    NotShadowed "paneldata_wakeupreason" v (laterPanelLeaves p "WakeupReason")

theorem panel_of_valid {p : Json} {et : EventType}
    (het : EventType.ofClass .platformTelemetry p = .ok et)
    (hvalid : et.validateEventTypePayload = .ok ()) :
    p.member? "EventData" = some (.obj (eventDataOf p)) ∧
      find "PanelData" (eventDataOf p) = some (.obj (panelDataOf p)) ∧
      PassingPanel (panelDataOf p) := by
  have hrun : et.validatePlatformTelemetry = .ok () := by
    rw [EventType.validateEventTypePayload, (ofClass_payload het).2] at hvalid
    exact hvalid
  have hdata := ofClass_eventData het
  by_cases hobj : et.eventDataParams.isObj = true
  · obtain ⟨ed, hed⟩ := isObj_obj hobj
    rcases validatePlatformTelemetry_obj hed with ⟨-, pd, hpd, hpass⟩ | ⟨⟨e, he, -⟩, -⟩
    · have hmember : p.member? "EventData" = some (.obj ed) := by
        rw [hed, eventDataMember] at hdata
        cases h : p.member? "EventData" with
        | none =>
          rw [h, Option.getD_none] at hdata
          obtain rfl := Json.obj.inj hdata
          cases hpd
        | some v =>
          rw [h, Option.getD_some] at hdata
          rw [hdata]
      have hpart : eventDataOf p = ed := by rw [eventDataOf, hmember]; rfl
      have hpanel : panelDataOf p = pd := by rw [panelDataOf, hpart, hpd]; rfl
      rw [hpart, hpanel]
      exact ⟨hmember, hpd, hpass⟩
    · rw [hrun] at he
      cases he
  · rw [validatePlatformTelemetry_other (by simpa using hobj)] at hrun
    cases hrun

theorem flatName_panel {name key : String} (hascii : IsAscii ("PanelData" ++ "_" ++ name))
    (hkey : asciiLower ("PanelData" ++ "_" ++ name) = key) : flatName "PanelData" name = key := by
  rw [flatName, if_neg (by decide), Runtime.lower_ascii _ hascii, hkey]

theorem panelLeaves_member {p v : Json} {name key : String}
    (hpanel : find "PanelData" (eventDataOf p) = some (.obj (panelDataOf p)))
    (hv : find name (panelDataOf p) = some v) (hleaf : v.isObj = false)
    (hkey : flatName "PanelData" name = key) :
    ∃ before, kindLeaves (some .platformTelemetry) (eventDataOf p) =
      before ++ [(key, v)] ++ laterPanelLeaves p name := by
  obtain ⟨outer, houter⟩ := @leaves_member _ (fun k => (eventDataIgnored
    (some .platformTelemetry)).contains k) "" _ _ _ hpanel rfl
  obtain ⟨inner, hinner⟩ := @leaves_member _ (fun _ => false) "PanelData" _ _ _ hv rfl
  rw [memberLeaves_plain hleaf, hkey] at hinner
  rw [memberLeaves, hinner] at houter
  refine ⟨outer ++ inner, ?_⟩
  rw [kindLeaves, houter, laterPanelLeaves, kindLeaves]
  simp only [List.append_assoc]

theorem panel_lookup_iff {p v : Json} {name key : String}
    (hpanel : find "PanelData" (eventDataOf p) = some (.obj (panelDataOf p)))
    (hv : find name (panelDataOf p) = some v) (hleaf : v.isObj = false)
    (hkey : flatName "PanelData" name = key) :
    lastWrite key (kindLeaves (some .platformTelemetry) (eventDataOf p)) = some v ↔
      NotShadowed key v (laterPanelLeaves p name) := by
  obtain ⟨before, hbefore⟩ := panelLeaves_member hpanel hv hleaf hkey
  have hwritten : lastWrite key (before ++ [(key, v)]) = some v := by
    rw [lastWrite_append]
    simp [lastWrite]
  rw [hbefore]
  exact lastWrite_append_eq_iff hwritten _

/-- The generator leaves every key but the state as the leaves have it. -/
theorem panelStateWrites_lookup (ws : List (String × Json)) {k : String}
    (hk : k ≠ "paneldata_panelstate") : lastWrite k (ws ++ panelStateWrites ws) = lastWrite k ws := by
  have hnone : lastWrite k (panelStateWrites ws) = none := by
    apply lastWrite_eq_none
    unfold panelStateWrites
    split
    · simpa using hk
    · simp
  rw [lastWrite_append, hnone, Option.none_or]

theorem panelState_lookup {ws : List (String × Json)} {s : String}
    (h : lastWrite "paneldata_panelstate" ws = some (.str s)) :
    lastWrite "paneldata_panelstate" (ws ++ panelStateWrites ws) = some (.str (upper s)) := by
  have hwrites : panelStateWrites ws = [("paneldata_panelstate", .str (upper s))] := by
    rw [panelStateWrites, h]
  rw [lastWrite_append, hwrites]
  rfl

/-- The leaves end with the state of the panel data or with another text that is the same in upper
case, exactly when later leaves do no harm to it. -/
theorem panelState_last_iff {p : Json} {s : String}
    (hpanel : find "PanelData" (eventDataOf p) = some (.obj (panelDataOf p)))
    (hs : find "PanelState" (panelDataOf p) = some (.str s)) :
    (∃ s', lastWrite "paneldata_panelstate" (kindLeaves (some .platformTelemetry) (eventDataOf p)) =
        some (.str s') ∧ upper s' = upper s) ↔
      ∀ w, lastWrite "paneldata_panelstate" (laterPanelLeaves p "PanelState") = some w →
        ∃ s', w = .str s' ∧ upper s' = upper s := by
  have hkey : flatName "PanelData" "PanelState" = "paneldata_panelstate" :=
    flatName_panel (by decide) (by decide)
  obtain ⟨before, hbefore⟩ := panelLeaves_member hpanel hs rfl hkey
  rw [hbefore, lastWrite_append]
  cases lastWrite "paneldata_panelstate" (laterPanelLeaves p "PanelState") with
  | none =>
    refine iff_of_true ⟨s, ?_, rfl⟩ (fun w hw => by cases hw)
    rw [Option.none_or, lastWrite_append]
    rfl
  | some w => simp [eq_comm]

theorem generate_panel_iff {p : Json} {et : EventType} {out : PyDict}
    (het : EventType.ofClass .platformTelemetry p = .ok et)
    (hmember : p.member? "EventData" = some (.obj (eventDataOf p))) :
    et.generateEventDataOutputJson = .ok out ↔
      (∃ s, lastWrite "paneldata_panelstate" (kindLeaves (some .platformTelemetry) (eventDataOf p)) =
        some (.str s)) ∧
      out = ofWrites (kindLeaves (some .platformTelemetry) (eventDataOf p) ++
        panelStateWrites (kindLeaves (some .platformTelemetry) (eventDataOf p))) := by
  obtain ⟨hpayload, hkind⟩ := ofClass_payload het
  rw [generateEventDataOutputJson_iff, hpayload, hkind]
  constructor
  · intro h
    obtain ⟨ed, hed, hgen, hout⟩ := h
    obtain rfl := Json.obj.inj (Option.some.inj (hmember.symm.trans hed))
    exact ⟨hgen, hout⟩
  · intro h
    exact ⟨_, hmember, h.1, h.2⟩

/-- Validated panel data are delivered exactly when no later leaf shadows them. -/
theorem panelDelivered_iff {p : Json} {et : EventType}
    (het : EventType.ofClass .platformTelemetry p = .ok et)
    (hvalid : et.validateEventTypePayload = .ok ()) :
    (∃ out, et.generateEventDataOutputJson = .ok out ∧ PanelDelivered p out) ↔
      PanelUnshadowed p := by
  obtain ⟨hmember, hpanel, ⟨ts, hts, hnumber, -⟩, ⟨s, hs, -⟩, w, hw, hbounds⟩ := panel_of_valid het hvalid
  have htsLeaf : ts.isObj = false := by
    cases ts <;> simp [isNumber] at hnumber <;> rfl
  have hwLeaf : w.isObj = false := by
    rcases hbounds with hbounds | rfl
    · cases w <;> simp [InBounds] at hbounds <;> rfl
    · rfl
  have htsIff := panel_lookup_iff hpanel hts htsLeaf
    (flatName_panel (by decide) (by decide) : _ = "paneldata_timestamp")
  have hwIff := panel_lookup_iff hpanel hw hwLeaf
    (flatName_panel (by decide) (by decide) : _ = "paneldata_wakeupreason")
  have hsIff := panelState_last_iff hpanel hs
  constructor
  · intro h
    obtain ⟨out, hgen, hstate, htimestamp, hreason⟩ := h
    obtain ⟨⟨s', hlast⟩, rfl⟩ := (generate_panel_iff het hmember).mp hgen
    rw [ofWrites_get?, panelStateWrites_lookup _ (by decide), hts] at htimestamp
    rw [ofWrites_get?, panelStateWrites_lookup _ (by decide), hw] at hreason
    obtain ⟨t, ht, hstate⟩ := hstate
    obtain rfl := Json.str.inj (Option.some.inj (hs.symm.trans ht))
    rw [ofWrites_get?, panelState_lookup hlast] at hstate
    have hupper := Json.str.inj (Option.some.inj hstate)
    refine ⟨?_, ?_, ?_⟩
    · intro s₁ w₁ hs₁
      obtain rfl := Json.str.inj (Option.some.inj (hs.symm.trans hs₁))
      exact hsIff.mp ⟨s', hlast, hupper⟩ w₁
    · intro v hv
      obtain rfl := Option.some.inj (hts.symm.trans hv)
      exact htsIff.mp htimestamp
    · intro v hv
      obtain rfl := Option.some.inj (hw.symm.trans hv)
      exact hwIff.mp hreason
  · intro h
    obtain ⟨s', hlast, hupper⟩ := hsIff.mpr fun w₁ hw₁ => h.panelState s w₁ hs hw₁
    refine ⟨_, (generate_panel_iff het hmember).mpr ⟨⟨s', hlast⟩, rfl⟩, ⟨s, hs, ?_⟩, ?_, ?_⟩
    · rw [ofWrites_get?, panelState_lookup hlast, hupper]
    · rw [ofWrites_get?, panelStateWrites_lookup _ (by decide), hts]
      exact htsIff.mpr (h.timestamp ts hts)
    · rw [ofWrites_get?, panelStateWrites_lookup _ (by decide), hw]
      exact hwIff.mpr (h.wakeupReason w hw)

end Panel

section Samples

def sampleBeside (name : String) (v : Json) : Json :=
  .obj [("TvEvent", .obj [("tvid", .str "tv1"), ("EventType", .str "PLATFORM_TELEMETRY")]),
    ("EventData", .obj [("PanelData", .obj [("Timestamp", .int 1700000000000),
      ("PanelState", .str "On"), ("WakeupReason", .int 0)]), (name, v)])]

def sampleBesideEvent (name : String) (v : Json) : EventType :=
  ⟨.platformTelemetry, sampleBeside name v, .str "PLATFORM_TELEMETRY", .str "tv1",
    .obj [("PanelData", .obj [("Timestamp", .int 1700000000000),
      ("PanelState", .str "On"), ("WakeupReason", .int 0)]), (name, v)], .null, .null⟩

theorem panelDelivered_beside : ∃ out,
    @EventType.generateEventDataOutputJson asciiRuntime (sampleBesideEvent "volume" (.int 3)) = .ok out ∧
      @PanelDelivered asciiRuntime (sampleBeside "volume" (.int 3)) out := by
  let _ : Runtime := asciiRuntime
  refine (@panelDelivered_iff asciiRuntime (sampleBeside "volume" (.int 3))
    (sampleBesideEvent "volume" (.int 3)) rfl (by decide +kernel)).mpr ?_
  refine ⟨?_, ?_, ?_⟩
  · intro s w _ hw
    have hnone : lastWrite "paneldata_panelstate"
        (laterPanelLeaves (sampleBeside "volume" (.int 3)) "PanelState") = none := by decide +kernel
    rw [hnone] at hw
    cases hw
  · intro v _ w hw
    have hnone : lastWrite "paneldata_timestamp"
        (laterPanelLeaves (sampleBeside "volume" (.int 3)) "Timestamp") = none := by decide +kernel
    rw [hnone] at hw
    cases hw
  · intro v _ w hw
    have hnone : lastWrite "paneldata_wakeupreason"
        (laterPanelLeaves (sampleBeside "volume" (.int 3)) "WakeupReason") = none := by decide +kernel
    rw [hnone] at hw
    cases hw

/-- A member of the event data that is called like the flattened state replaces the validated one. -/
theorem panel_state_replaced :
    EventType.ofClass .platformTelemetry (sampleBeside "PanelData_PanelState" (.str "off")) =
        .ok (sampleBesideEvent "PanelData_PanelState" (.str "off")) ∧
      @EventType.validateEventTypePayload asciiRuntime
        (sampleBesideEvent "PanelData_PanelState" (.str "off")) = .ok () ∧
      find "PanelState" (panelDataOf (sampleBeside "PanelData_PanelState" (.str "off"))) =
        some (.str "On") ∧
      ∃ out, @EventType.generateEventDataOutputJson asciiRuntime
        (sampleBesideEvent "PanelData_PanelState" (.str "off")) = .ok out ∧
      out.get? "paneldata_panelstate" = some (.str "OFF") := by
  refine ⟨rfl, by decide +kernel, rfl, ofWrites (@kindLeaves asciiRuntime (some .platformTelemetry)
    (eventDataOf (sampleBeside "PanelData_PanelState" (.str "off"))) ++
      [("paneldata_panelstate", .str "OFF")]), ?_⟩
  decide +kernel

end Samples

end TvEvents
