import TvEvents.Accept.PanelGrammar
import TvEvents.Accept.Sufficient
import TvEvents.Accept.TunerGrammar
import TvEvents.Legacy.Validation
import TvEvents.Legacy.Writes

namespace TvEvents.Legacy

open OrderedMap

section Timestamps

variable [Runtime]

private theorem truncRat_millis {q : ℚ}
    (h : minTime ≤ secondsOf (q / 1000) ∧ secondsOf (q / 1000) ≤ maxTime) :
    minTime * 1000 ≤ PyFloat.truncRat q ∧ PyFloat.truncRat q < (maxTime + 1) * 1000 := by
  have hyear := Runtime.minTime_year
  have hepoch := Runtime.minTime_epoch
  have hepoch' := Runtime.maxTime_epoch
  have hyear' := Runtime.maxTime_year
  have hmin : |minTime| ≤ 2 ^ 40 := abs_le.mpr ⟨by omega, by omega⟩
  have hmax : |maxTime + 1| ≤ 2 ^ 40 := abs_le.mpr ⟨by omega, by omega⟩
  unfold PyFloat.truncRat
  split_ifs with hq
  · have hnonneg : 0 ≤ ⌊q⌋ := Int.floor_nonneg.mpr hq
    refine ⟨by omega, ?_⟩
    by_contra hlate
    have hfloor : (((maxTime + 1) * 1000 : ℤ) : ℚ) ≤ q := Int.le_floor.mp (not_lt.mp hlate)
    push_cast at hfloor
    have hreached := le_secondsOf (q := q / 1000) hmax (by push_cast; linarith)
    omega
  · have hneg : ⌈q⌉ ≤ 0 := Int.ceil_le.mpr (by push_cast; linarith)
    refine ⟨?_, by omega⟩
    by_contra hearly
    have hceil : q ≤ ((minTime * 1000 - 1 : ℤ) : ℚ) := Int.ceil_le.mp (by omega)
    push_cast at hceil
    have hmissed := secondsOf_lt (q := q / 1000) hmin (by linarith)
    omega

/-- A number that the legacy check accepts in milliseconds is accepted after truncation too. -/
theorem millisOk_of_divThousand {ts : Json} (h : (divThousand ts).bind fromTimestampFloat = .ok ()) :
    MillisOk ts := by
  have hepoch := Runtime.minTime_epoch
  have hepoch' := Runtime.maxTime_epoch
  cases ts with
  | int n => exact ⟨n, rfl, (fromTimestampFloat_millis_iff n).mp h⟩
  | bool b =>
    refine ⟨if b then 1 else 0, rfl, ?_, ?_⟩
    · split <;> omega
    · split <;> omega
  | float f =>
    cases f with
    | nan => cases h
    | inf neg => cases h
    | negZero => exact ⟨0, rfl, by omega, by omega⟩
    | fin q => exact ⟨_, rfl, truncRat_millis ((fromTimestampFloat_ofRat_iff (q / 1000)).mp h)⟩
  | null => cases h
  | str s => cases h
  | arr l => cases h
  | obj kvs => cases h

/-- A timestamp that is not set: the legacy check answers without a look at it. -/
def Unset (ts : Json) : Prop := ts = .null ∨ ts = .str ""

theorem timestampCheck_accepts {ts tvid : Json} {b : Bool} (h : timestampCheck ts tvid true = .ok b) :
    Unset ts ∨ MillisOk ts := by
  unfold timestampCheck at h
  split_ifs at h with hunset hms
  · exact .inl hunset
  · right
    apply millisOk_of_divThousand
    cases hcheck : (divThousand ts).bind fromTimestampFloat with
    | ok u => rfl
    | error e =>
      rw [hcheck] at h
      cases h
  · exact absurd rfl hms

theorem not_millisOk_unset {ts : Json} (h : Unset ts) : ¬MillisOk ts := by
  intro hok
  obtain ⟨n, hn, -⟩ := hok
  rcases h with rfl | rfl
  · cases hn
  · cases hn

end Timestamps

section Constructors

theorem not_truthy_unset {ts : Json} (h : Unset ts) : ts.truthy = false := by
  obtain rfl | rfl := h
  · rfl
  · rfl

/-- The rebuilt constructor takes defaults where the legacy one fails; else they set the same. -/
theorem ofClass_view {kind : EventTypeClass} {p : Json} {et : EventType}
    (h : EventType.ofClass kind p = .ok et) : TvEvents.EventType.ofClass kind p = .ok et.view := by
  have hget : ∀ {v x d : Json} {k : String}, v.item k = .ok x → v.get k d = .ok x := by
    intro v x d k hitem
    obtain ⟨kvs, rfl, hfind⟩ := member_obj (item_eq_ok.mp hitem)
    simp [Json.get, hfind]
  cases kind <;>
    simp only [EventType.ofClass, EventType.initNativeAppTelemetry, EventType.initAcrTunerData,
      EventType.initPlatformTelemetry, EventType.init, Except.bind_eq_ok, Except.pure_eq_ok,
      Except.ok.injEq, getPayloadNamespace] at h
  · obtain ⟨et', ⟨tv, htv, eventType, htype, tv', htv', tvid, htvid, ed, hed, rfl⟩, ns, hns, appid,
      happid, rfl⟩ := h
    obtain rfl : tv = tv' := Except.ok.inj (htv.symm.trans htv')
    simp [TvEvents.EventType.ofClass, TvEvents.EventType.initNativeAppTelemetry,
      TvEvents.EventType.init, hget htv, hget htype, hget htvid, hget hed, hns, happid,
      EventType.view]
  · obtain ⟨et', ⟨tv, htv, eventType, htype, tv', htv', tvid, htvid, ed, hed, rfl⟩, tv₁, htv₁, ns,
      hns, tv₂, htv₂, appid, happid, rfl⟩ := h
    obtain rfl : tv = tv' := Except.ok.inj (htv.symm.trans htv')
    obtain rfl : tv = tv₁ := Except.ok.inj (htv.symm.trans htv₁)
    obtain rfl : tv = tv₂ := Except.ok.inj (htv.symm.trans htv₂)
    simp [TvEvents.EventType.ofClass, TvEvents.EventType.initAcrTunerData,
      TvEvents.EventType.init, hget htv, hget htype, hget htvid, hget hed, hns, happid,
      EventType.view]
  · obtain ⟨tv, htv, eventType, htype, tv', htv', tvid, htvid, ed, hed, rfl⟩ := h
    obtain rfl : tv = tv' := Except.ok.inj (htv.symm.trans htv')
    simp [TvEvents.EventType.ofClass, TvEvents.EventType.initPlatformTelemetry,
      TvEvents.EventType.init, hget htv, hget htype, hget htvid, hget hed,
      EventType.view]

end Constructors

section Sections

theorem verifyRequiredParams_obj {v : Json} (hv : v.isObj = true) (param : String)
    (params : List String) :
    verifyRequiredParams v (param :: params) = TvEvents.verifyRequiredParams v (param :: params) := by
  obtain ⟨kvs, rfl⟩ := isObj_obj hv
  unfold verifyRequiredParams TvEvents.verifyRequiredParams
  cases h : find "TvEvent" kvs with
  | none => simp [Json.has, Json.get, h]
  | some tv => simp [Json.has, Json.item, Json.get, h]

/-- A section that passed the legacy check passes the rebuilt one exactly when it is an object. -/
theorem validateSection_obj_iff {sel : Json} {name param : String} {params : List String}
    (h : EventType.validateSection sel name (param :: params) = .ok ()) :
    TvEvents.EventType.validateSection sel name (param :: params) = .ok () ↔
      ∀ v, find name (membersOf (some sel)) = some v → v.isObj = true := by
  have hmember : ∀ v, find name (membersOf (some sel)) = some v ↔ sel.item name = .ok v := by
    intro v
    rw [item_eq_ok]
    cases sel <;> simp [membersOf, Json.member?, find]
  simp only [hmember]
  unfold EventType.validateSection at h
  unfold TvEvents.EventType.validateSection
  obtain ⟨present, hpresent, hcheck⟩ := Except.bind_eq_ok.mp h
  rw [hpresent, Except.ok_bind]
  cases present with
  | false =>
    refine iff_of_true rfl ?_
    intro v hv
    obtain ⟨kvs, rfl, hfind⟩ := member_obj (item_eq_ok.mp hv)
    simp [Json.has, hfind] at hpresent
  | true =>
    obtain ⟨v, hv, hverify⟩ := Except.bind_eq_ok.mp hcheck
    simp only [if_true, hv, Except.ok_bind, Except.ok.injEq, forall_eq']
    by_cases hobj : v.isObj = true
    · rw [← verifyRequiredParams_obj hobj]
      exact iff_of_true hverify hobj
    · rw [TvEvents.verifyRequiredParams_other (by simpa using hobj)]
      exact iff_of_false (by simp) hobj

end Sections

section Classes

variable [Runtime]

theorem nativeAppTelemetry_accepts {et : EventType} (h : et.validateNativeAppTelemetry = .ok ()) :
    et.view.validateNativeAppTelemetry = .ok () := by
  unfold EventType.validateNativeAppTelemetry at h
  simp only [Except.bind_eq_ok] at h
  obtain ⟨_, -, ts, hts, b, hcheck, -⟩ := h
  obtain ⟨ed, hed, hfind⟩ := member_obj (item_eq_ok.mp hts)
  have hget : et.view.eventDataParams.get "Timestamp" .null = .ok ts := by
    rw [show et.view.eventDataParams = .obj ed from hed]
    simp [Json.get, hfind]
  unfold TvEvents.EventType.validateNativeAppTelemetry
  rw [hget, Except.ok_bind]
  rcases timestampCheck_accepts hcheck with hunset | hmillis
  · rw [not_truthy_unset hunset]
    rfl
  · split
    · exact (timestampCheck_millis ts _).mpr hmillis
    · rfl

/-- Tuner data that passed the legacy checks pass the rebuilt ones exactly when the sections of the
object that is checked are objects. -/
theorem acrTunerData_accepts_iff {et : EventType} {sel : Json} (hsel : et.view.acrParams = .ok sel)
    (h : et.validateAcrTunerData = .ok ()) :
    et.view.validateAcrTunerData = .ok () ↔ ObjectSections (membersOf (some sel)) := by
  unfold EventType.validateAcrTunerData at h
  unfold TvEvents.EventType.validateAcrTunerData
  rw [hsel, Except.ok_bind] at h ⊢
  obtain ⟨_, hchannel, hresolution⟩ := Except.bind_eq_ok.mp h
  have hiff := validateSection_obj_iff hchannel
  have hiff' := validateSection_obj_iff hresolution
  constructor
  · intro hok
    obtain ⟨_, hok, hok'⟩ := Except.bind_eq_ok.mp hok
    exact ⟨hiff.mp hok, hiff'.mp hok'⟩
  · intro hobj
    rw [hiff.mpr hobj.channelData, Except.ok_bind]
    exact hiff'.mpr hobj.resolution

theorem acrParams_selects {et : TvEvents.EventType} {sel : Json} (h : et.acrParams = .ok sel) :
    sel = (et.eventDataParams.member? "Heartbeat").getD et.eventDataParams := by
  unfold TvEvents.EventType.acrParams at h
  obtain ⟨heartbeat, hhas, hrest⟩ := Except.bind_eq_ok.mp h
  cases heartbeat with
  | true =>
    obtain ⟨_, -, hitem⟩ := Except.bind_eq_ok.mp hrest
    rw [item_eq_ok.mp hitem]
    rfl
  | false =>
    have hnone : et.eventDataParams.member? "Heartbeat" = none := by
      cases hed : et.eventDataParams <;> rw [hed] at hhas <;> simp [Json.has] at hhas <;>
        simp [Json.member?, hhas]
    rw [hnone, Option.getD_none]
    obtain ⟨sections, -, hsel⟩ := Except.bind_eq_ok.mp hrest
    cases sections with
    | true => exact (Except.ok.inj hsel).symm
    | false => cases hsel

theorem platformTelemetry_accepts {et : EventType} (h : et.validatePlatformTelemetry = .ok ()) :
    et.view.validatePlatformTelemetry = .ok () := by
  have hrun : (do raiseBest (platformTelemetryErrors et.eventDataParams); et.validatePanelData) =
      Except.ok () := by
    unfold EventType.validatePlatformTelemetry at h
    split at h
    · exact absurd h (schemaFailure_raises _ _)
    · exact h
  unfold EventType.validatePanelData at hrun
  simp only [Except.bind_eq_ok] at hrun
  obtain ⟨_, -, v, hv, _, hpanel, ts, hts, b, hcheck, -⟩ := hrun
  obtain ⟨kvs, hed, hfind⟩ := member_obj (item_eq_ok.mp hv)
  obtain ⟨pd, rfl, ⟨ts', hts', hnumber⟩, hstate, hreason⟩ :=
    (panelDataErrors_nil_iff v).mp (raiseBest_ok hpanel)
  have hfound : find "Timestamp" pd = some ts := item_eq_ok.mp hts
  obtain rfl : ts = ts' := Option.some.inj (hfound.symm.trans hts')
  have hmillis : MillisOk ts := by
    rcases timestampCheck_accepts hcheck with (rfl | rfl) | hmillis
    · cases hnumber
    · cases hnumber
    · exact hmillis
  have hpass : PassingPanel pd := ⟨⟨ts, hts', hnumber, hmillis⟩, hstate, hreason⟩
  have hview : et.view.eventDataParams = .obj kvs := hed
  rcases validatePlatformTelemetry_obj hview with ⟨hok, -⟩ | ⟨-, hnone⟩
  · exact hok
  · exact absurd ⟨pd, hfind, hpass⟩ hnone

end Classes

section Request

variable [Runtime]

/-- What the legacy `validate_request` has established when it answers. -/
structure Accepted (env : Env) (urlParams : UrlParams) (p : Json) : Prop where
  tvEvent : ∃ tv, p.member? "TvEvent" = some (.obj tv)
  required : ∀ k ∈ requiredParams, (find k (tvEventOf p)).isSome
  timestamp : Unset (tvEventField p "timestamp") ∨ MillisOk (tvEventField p "timestamp")
  hash : ∃ tvid salt, urlParams.get? "tvid" = some tvid ∧ saltKey env = some salt ∧
    tvEventField p "h" = .str (securityHashToken tvid salt)
  eventType : IsKey (eventTypeOf p)
  eventData : ∀ kind, kindOf p = some kind →
    ∃ et, EventType.ofClass kind p = .ok et ∧ et.validateEventTypePayload = .ok ()

theorem validateSecurityHash_matches {env : Env} {tvid : Option String} {hValue : Json}
    (h : validateSecurityHash env tvid hValue = .ok ()) :
    ∃ token salt, tvid = some token ∧ saltKey env = some salt ∧
      hValue = .str (securityHashToken token salt) := by
  unfold validateSecurityHash securityHashMatch at h
  cases tvid with
  | none => cases h
  | some token =>
    cases hsalt : saltKey env with
    | none =>
      rw [hsalt] at h
      cases h
    | some salt =>
      rw [hsalt] at h
      by_cases hvalue : hValue = .str (securityHashToken token salt)
      · exact ⟨token, salt, rfl, rfl, hvalue⟩
      · simp [hvalue] at h

theorem validateRequest_accepted {env : Env} {urlParams : UrlParams} {p : Json} {b : Bool}
    (h : validateRequest env urlParams p = .ok b) : Accepted env urlParams p := by
  simp only [validateRequest, Except.bind_eq_ok] at h
  obtain ⟨_, hreq, tvEvent, htv, et, het, tv₁, htv₁, tvid, htvid, tv₂, htv₂, ts, hts, b', hcheck, tv₃,
    htv₃, hValue, hh, _, hhash, m, hm, hrest⟩ := h
  obtain rfl : tvEvent = tv₁ := Except.ok.inj (htv.symm.trans htv₁)
  obtain rfl : tvEvent = tv₂ := Except.ok.inj (htv.symm.trans htv₂)
  obtain rfl : tvEvent = tv₃ := Except.ok.inj (htv.symm.trans htv₃)
  obtain ⟨tv, rfl, hetype⟩ := member_obj (item_eq_ok.mp het)
  have hmember := item_eq_ok.mp htv
  have hpart : tvEventOf p = tv := by rw [tvEventOf, hmember]; rfl
  have hfield : ∀ {k x}, (Json.obj tv).item k = .ok x → tvEventField p k = x := by
    intro k x hitem
    have hfind : find k tv = some x := item_eq_ok.mp hitem
    rw [tvEventField, hpart, hfind]
    rfl
  have hall : requireAll (.obj tv) requiredParams = .ok () := by
    obtain ⟨kvs, rfl, hfind⟩ := member_obj hmember
    simpa [verifyRequiredParams, Json.has, Json.item, hfind] using hreq
  obtain ⟨hkey, hkind⟩ := (getEventTypeMapping_iff et m).mp hm
  have hclass : kindOf p = m := (kindOf_eq hmember hetype).trans hkind
  refine ⟨⟨tv, hmember⟩, ?_, ?_, ?_, ?_, ?_⟩
  · rw [hpart]
    exact (requireAll_obj tv requiredParams).mp hall
  · rw [hfield hts]
    exact timestampCheck_accepts hcheck
  · rw [hfield hh]
    exact validateSecurityHash_matches hhash
  · rw [eventTypeOf, hfield het]
    exact hkey
  · intro kind hsome
    rw [hclass] at hsome
    rw [hsome] at hrest
    obtain ⟨event, hevent, hvalid⟩ := Except.bind_eq_ok.mp hrest
    obtain ⟨_, hvalid, -⟩ := Except.bind_eq_ok.mp hvalid
    exact ⟨event, hevent, hvalid⟩

/-- The object whose sections the class of tuner data checks: the heartbeat, where there is one. -/
def sectionsHolder (p : Json) : Json :=
  ((eventDataMember p).member? "Heartbeat").getD (eventDataMember p)

/-- Event data that the legacy class accepts are accepted by the rebuilt one, tuner data exactly when
the sections that are checked are objects. -/
theorem validateEventTypePayload_accepts_iff {kind : EventTypeClass} {p : Json} {et : EventType}
    (het : EventType.ofClass kind p = .ok et) (h : et.validateEventTypePayload = .ok ()) :
    et.view.validateEventTypePayload = .ok () ↔
      (kind = .acrTunerData → ObjectSections (membersOf (some (sectionsHolder p)))) := by
  have hview := ofClass_view het
  have hkind : et.kind = kind := (ofClass_payload hview).2
  have hviewKind : et.view.kind = et.kind := rfl
  unfold TvEvents.EventType.validateEventTypePayload
  unfold EventType.validateEventTypePayload at h
  rw [hviewKind, hkind]
  rw [hkind] at h
  cases kind with
  | nativeAppTelemetry => exact iff_of_true (nativeAppTelemetry_accepts h) (fun hk => by cases hk)
  | acrTunerData =>
    obtain ⟨sel, hsel, -⟩ := Except.bind_eq_ok.mp h
    have hholder : sel = sectionsHolder p := by
      rw [acrParams_selects hsel, ofClass_eventData hview]
      rfl
    rw [← hholder]
    simp only [forall_const]
    exact acrTunerData_accepts_iff hsel h
  | platformTelemetry => exact iff_of_true (platformTelemetry_accepts h) (fun hk => by cases hk)

/-- A request that the legacy service accepts is accepted by the rebuilt one exactly when its
timestamp is set and the sections of tuner data that are checked are objects. -/
theorem legacyAccepted_iff {env : Env} {urlParams : UrlParams} {p : Json}
    (h : validateRequest env urlParams p = .ok true) :
    TvEvents.validateRequest env urlParams p = .ok true ↔
      (tvEventField p "timestamp" ≠ .null ∧ tvEventField p "timestamp" ≠ .str "") ∧
        (kindOf p = some .acrTunerData →
          ObjectSections (membersOf (some (sectionsHolder p)))) := by
  have hlegacy := validateRequest_accepted h
  rw [validateRequest_iff, and_iff_right rfl]
  constructor
  · intro hacc
    have hmillis := (timestampCheck_millis _ _).mp hacc.timestamp
    refine ⟨⟨fun hnull => not_millisOk_unset (.inl hnull) hmillis,
      fun hempty => not_millisOk_unset (.inr hempty) hmillis⟩, ?_⟩
    intro hkind
    obtain ⟨et, het, hvalid⟩ := hlegacy.eventData _ hkind
    obtain ⟨et', het', hvalid'⟩ := hacc.eventData _ hkind
    obtain rfl : et.view = et' := Except.ok.inj ((ofClass_view het).symm.trans het')
    exact (validateEventTypePayload_accepts_iff het hvalid).mp hvalid' rfl
  · intro hcond
    obtain ⟨⟨hnull, hempty⟩, hsections⟩ := hcond
    obtain ⟨tvid, salt, htvid, hsalt, hh⟩ := hlegacy.hash
    refine ⟨hlegacy.tvEvent, hlegacy.required, ?_, ⟨salt, hsalt, ?_⟩, hlegacy.eventType, ?_⟩
    · rcases hlegacy.timestamp with hunset | hmillis
      · exact absurd hunset (not_or.mpr ⟨hnull, hempty⟩)
      · exact (timestampCheck_millis _ _).mpr hmillis
    · rw [hh, htvid]
      rfl
    · intro kind hkind
      obtain ⟨et, het, hvalid⟩ := hlegacy.eventData kind hkind
      refine ⟨et.view, ofClass_view het, ?_⟩
      rw [validateEventTypePayload_accepts_iff het hvalid]
      rintro rfl
      exact hsections hkind

end Request

section Samples

def sampleTimed (timestamp : Json) : Json :=
  .obj [("TvEvent", .obj [("tvid", .str "tv1"), ("client", .str "c1"),
    ("h", .str "digest of tv1salt"), ("EventType", .str "OTHER"), ("timestamp", timestamp)]),
    ("EventData", .obj [])]

theorem legacyAccepted_timed : @TvEvents.validateRequest asciiRuntime sampleEnv sampleUrl
    (sampleTimed (.int 1700000000000)) = .ok true := by
  let _ : Runtime := asciiRuntime
  apply (legacyAccepted_iff (by decide +kernel : validateRequest sampleEnv sampleUrl _ = .ok true)).mpr
  exact ⟨by decide, fun hkind => absurd hkind (by decide +kernel)⟩

/-- A timestamp that is null is accepted by the legacy service only, and so is a channel that is
given as a list. -/
theorem unset_timestamp_refused :
    (@validateRequest asciiRuntime sampleEnv sampleUrl (sampleTimed .null) = .ok true ∧
      @TvEvents.validateRequest asciiRuntime sampleEnv sampleUrl (sampleTimed .null) ≠ .ok true) ∧
    (@validateRequest asciiRuntime sampleEnv sampleUrl (samplePayload "ACR_TUNER_DATA" []
        [("channelData", .arr [.str "majorId", .str "minorId"])]) = .ok true ∧
      @TvEvents.validateRequest asciiRuntime sampleEnv sampleUrl (samplePayload "ACR_TUNER_DATA" []
        [("channelData", .arr [.str "majorId", .str "minorId"])]) ≠ .ok true) := by
  decide +kernel

end Samples

end TvEvents.Legacy
