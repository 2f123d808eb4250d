import TvEvents.Accept.PanelGrammar
import TvEvents.Accept.Sufficient
import TvEvents.Accept.TunerGrammar

namespace TvEvents

open OrderedMap

section Types

/-- Section `name`, if it is present, can be checked: it is an object, and its member `TvEvent`, which
would be searched in its place, can be searched. -/
def SectionTyped (sel : Json) (name : String) : Prop :=
  Holds sel name → ∃ v, sel.member? name = some v ∧ v.isObj = true ∧ Searchable (checkedValue v)

def SectionPasses (sel : Json) (name : String) (required : List String) : Prop :=
  ∀ v, sel.member? name = some v → HoldsAll (checkedValue v) required

/-- The sections can be checked; the second one counts when the first one passes. -/
structure SectionsTyped (sel : Json) : Prop where
  channelData : SectionTyped sel "channelData"
  resolution : SectionPasses sel "channelData" channelParams → SectionTyped sel "resolution"

def HoldsSection (v : Json) : Prop := Holds v "channelData" ∨ Holds v "programData"

/-- Tuner data whose types the validator can work with, as far as it reads them. -/
structure TunerTyped (ed : Json) : Prop where
  searchable : Searchable ed
  heartbeat : Holds ed "Heartbeat" → ¬HoldsSection ed →
    ∃ hb, ed.member? "Heartbeat" = some hb ∧ Searchable hb ∧ (HoldsSection hb → SectionsTyped hb)
  plain : ¬Holds ed "Heartbeat" → HoldsSection ed → SectionsTyped ed

def EventDataTyped : EventTypeClass → Json → Prop
  | .acrTunerData, ed => TunerTyped ed
  | _, ed => ed.isObj = true

end Types

section Sections

theorem hasAny_holds {v : Json} (hv : Searchable v) :
    (HoldsSection v ∧ v.hasAny EventType.sections = .ok true) ∨
      (¬HoldsSection v ∧ v.hasAny EventType.sections = .ok false) := by
  unfold HoldsSection EventType.sections
  by_cases hchannel : Holds v "channelData"
  · left
    refine ⟨.inl hchannel, ?_⟩
    rw [Json.hasAny, show v.has "channelData" = .ok true from hchannel]
    rfl
  · have hno := has_of_not_holds hv hchannel
    by_cases hprogram : Holds v "programData"
    · left
      refine ⟨.inr hprogram, ?_⟩
      rw [Json.hasAny, hno, Except.ok_bind]
      simp [Json.hasAny, show v.has "programData" = .ok true from hprogram]
    · right
      refine ⟨not_or.mpr ⟨hchannel, hprogram⟩, ?_⟩
      rw [Json.hasAny, hno, Except.ok_bind]
      simp [Json.hasAny, has_of_not_holds hv hprogram]

theorem hasAny_unsearchable {v : Json} (hv : ¬Searchable v) :
    v.hasAny EventType.sections = .error (.builtin .typeError) := by
  rw [EventType.sections, Json.hasAny, has_unsearchable hv]
  rfl

theorem item_cases (v : Json) (k : String) :
    (∃ x, v.member? k = some x ∧ v.item k = .ok x) ∨
      (v.member? k = none ∧ ∃ b, v.item k = .error (.builtin b)) := by
  cases v with
  | obj kvs =>
    cases h : find k kvs with
    | none => exact .inr ⟨h, .keyError k, by simp [Json.item, h]⟩
    | some x => exact .inl ⟨x, h, by simp [Json.item, h]⟩
  | null => exact .inr ⟨rfl, _, rfl⟩
  | bool b => exact .inr ⟨rfl, _, rfl⟩
  | int n => exact .inr ⟨rfl, _, rfl⟩
  | float f => exact .inr ⟨rfl, _, rfl⟩
  | str s => exact .inr ⟨rfl, _, rfl⟩
  | arr l => exact .inr ⟨rfl, _, rfl⟩

theorem validateSection_fails_iff {sel : Json} (hsel : Searchable sel) (name param : String)
    (params : List String) :
    (EventType.validateSection sel name (param :: params)).FailsOnly ClientFault ↔
      SectionTyped sel name := by
  unfold EventType.validateSection SectionTyped
  by_cases hhas : Holds sel name
  · rw [show sel.has name = .ok true from hhas, Except.ok_bind, if_pos rfl]
    simp only [hhas, forall_const]
    rcases item_cases sel name with ⟨v, hmember, hitem⟩ | ⟨hmember, b, hitem⟩
    · rw [hitem, Except.ok_bind]
      simp only [hmember, Option.some.injEq, exists_eq_left']
      by_cases hobj : v.isObj = true
      · rw [verifyRequiredParams_obj hobj, requireAll_fails_iff]
        simp [hobj]
      · rw [verifyRequiredParams_other (by simpa using hobj), Except.failsOnly_error]
        exact iff_of_false (not_clientFault_builtin _) (fun h => hobj h.1)
    · rw [hitem, Except.error_bind, Except.failsOnly_error]
      refine iff_of_false (not_clientFault_builtin b) ?_
      simp [hmember]
  · rw [has_of_not_holds hsel hhas, Except.ok_bind]
    exact iff_of_true (Except.failsOnly_ok _) (fun h => absurd h hhas)

theorem validateSection_passes_iff {sel : Json} {name : String} (htyped : SectionTyped sel name)
    (hsel : Searchable sel) (required : List String) :
    EventType.validateSection sel name required = .ok () ↔ SectionPasses sel name required := by
  unfold EventType.validateSection SectionPasses
  by_cases hhas : Holds sel name
  · obtain ⟨v, hmember, hobj, -⟩ := htyped hhas
    rw [show sel.has name = .ok true from hhas, Except.ok_bind, if_pos rfl, item_eq_ok.mpr hmember,
      Except.ok_bind, verifyRequiredParams_obj hobj, requireAll_iff]
    simp [hmember]
  · rw [has_of_not_holds hsel hhas, Except.ok_bind]
    refine iff_of_true rfl ?_
    intro v hv
    exact absurd (member_isSome_holds (by rw [hv]; rfl)) hhas

theorem sections_fail_iff {sel : Json} (hsel : Searchable sel) :
    (do
      EventType.validateSection sel "channelData" ["majorId", "minorId"]
      EventType.validateSection sel "resolution" ["vRes", "hRes"]).FailsOnly ClientFault ↔
      SectionsTyped sel := by
  rw [Except.failsOnly_bind, validateSection_fails_iff hsel]
  simp only [validateSection_fails_iff hsel]
  constructor
  · intro h
    obtain ⟨htyped, hrest⟩ := h
    refine ⟨htyped, ?_⟩
    intro hpass
    exact hrest () ((validateSection_passes_iff htyped hsel _).mpr hpass)
  · intro h
    refine ⟨h.channelData, ?_⟩
    intro u hpass
    exact h.resolution ((validateSection_passes_iff h.channelData hsel _).mp hpass)

end Sections

section Classes

theorem clientFault_payload (message : String) : ClientFault (.tvEvents .invalidPayload message) :=
  ⟨_, _, rfl, rfl⟩

theorem clientFault_missing (message : String) :
    ClientFault (.tvEvents .missingRequiredParam message) := ⟨_, _, rfl, rfl⟩

variable [Runtime]

/-- A heartbeat without sections beside it blames the client exactly when it can be searched and has
no section of a wrong type. -/
theorem heartbeat_fails_iff {et : EventType} (hed : Searchable et.eventDataParams)
    (halone : ¬HoldsSection et.eventDataParams) :
    (do
      et.validateHeartbeatEvent
      let sel ← et.eventDataParams.item "Heartbeat"
      EventType.validateSection sel "channelData" ["majorId", "minorId"]
      EventType.validateSection sel "resolution" ["vRes", "hRes"]).FailsOnly ClientFault ↔
      ∃ hb, et.eventDataParams.member? "Heartbeat" = some hb ∧ Searchable hb ∧
        (HoldsSection hb → SectionsTyped hb) := by
  have hany : et.eventDataParams.hasAny EventType.sections = .ok false := by
    rcases hasAny_holds hed with ⟨hsection, -⟩ | ⟨-, hany⟩
    · exact absurd hsection halone
    · exact hany
  unfold EventType.validateHeartbeatEvent
  simp only [hany, Except.ok_bind, Bool.false_eq_true, if_false]
  rcases item_cases et.eventDataParams "Heartbeat" with ⟨hb, hmember, hitem⟩ | ⟨hmember, b, hitem⟩
  · simp only [hitem, hmember, Except.ok_bind, Option.some.injEq, exists_eq_left']
    by_cases hhb : Searchable hb
    · rcases hasAny_holds hhb with ⟨hinner, hany'⟩ | ⟨hinner, hany'⟩
      · simp only [hany', Except.ok_bind, if_true, Except.pure_eq_ok, sections_fail_iff hhb]
        simp [hhb, hinner]
      · simp only [hany', Except.ok_bind, Bool.false_eq_true, if_false, Except.throw_eq_error,
          Except.error_bind, Except.failsOnly_error]
        exact iff_of_true (clientFault_missing _) ⟨hhb, fun h => absurd h hinner⟩
    · simp only [hasAny_unsearchable hhb, Except.error_bind, Except.failsOnly_error]
      exact iff_of_false (not_clientFault_builtin _) fun h => hhb h.1
  · simp only [hitem, Except.error_bind, Except.failsOnly_error]
    refine iff_of_false (not_clientFault_builtin b) ?_
    simp [hmember]

/-- The choice of the checked object, and then its sections, blame the client exactly on typed tuner
data. -/
theorem validateAcrTunerData_fails_iff (et : EventType) :
    et.validateAcrTunerData.FailsOnly ClientFault ↔ TunerTyped et.eventDataParams := by
  unfold EventType.validateAcrTunerData EventType.acrParams
  by_cases hed : Searchable et.eventDataParams
  · by_cases hheart : Holds et.eventDataParams "Heartbeat"
    · rw [show et.eventDataParams.has "Heartbeat" = .ok true from hheart, Except.ok_bind, if_pos rfl,
        bind_assoc]
      by_cases hsection : HoldsSection et.eventDataParams
      · have hrefused : ∃ message, et.validateHeartbeatEvent =
            .error (.tvEvents .invalidPayload message) := by
          rcases hasAny_holds hed with ⟨-, hany⟩ | ⟨halone, -⟩
          · simp [EventType.validateHeartbeatEvent, hany]
          · exact absurd hsection halone
        obtain ⟨message, hrefused⟩ := hrefused
        rw [hrefused, Except.error_bind, Except.failsOnly_error]
        exact iff_of_true (clientFault_payload message)
          ⟨hed, fun _ halone => absurd hsection halone, fun hnone => absurd hheart hnone⟩
      · refine (heartbeat_fails_iff hed hsection).trans ?_
        constructor
        · intro h
          exact ⟨hed, fun _ _ => h, fun hnone => absurd hheart hnone⟩
        · intro h
          exact h.heartbeat hheart hsection
    · rw [has_of_not_holds hed hheart]
      rcases hasAny_holds hed with ⟨hsection, hany⟩ | ⟨hsection, hany⟩
      · simp only [hany, Except.ok_bind, if_true, Except.pure_eq_ok, Bool.false_eq_true, if_false]
        rw [sections_fail_iff hed]
        constructor
        · intro h
          exact ⟨hed, fun hholds => absurd hholds hheart, fun _ _ => h⟩
        · intro h
          exact h.plain hheart hsection
      · simp only [hany, Except.ok_bind, Except.throw_eq_error, Except.error_bind, Bool.false_eq_true,
          if_false, Except.failsOnly_error]
        exact iff_of_true (clientFault_missing _)
          ⟨hed, fun hholds => absurd hholds hheart, fun _ hsome => absurd hsome hsection⟩
  · rw [has_unsearchable hed, Except.error_bind, Except.error_bind, Except.failsOnly_error]
    exact iff_of_false (not_clientFault_builtin _) fun h => hed h.searchable

theorem validatePlatformTelemetry_fails_iff (et : EventType) :
    et.validatePlatformTelemetry.FailsOnly ClientFault ↔ et.eventDataParams.isObj = true := by
  by_cases hobj : et.eventDataParams.isObj = true
  · refine iff_of_true ?_ hobj
    obtain ⟨kvs, hed⟩ := isObj_obj hobj
    rcases validatePlatformTelemetry_obj hed with ⟨hok, -⟩ | ⟨⟨e, he, hfault⟩, -⟩
    · rw [hok]
      exact Except.failsOnly_ok ()
    · rw [he, Except.failsOnly_error]
      exact hfault.client
  · rw [validatePlatformTelemetry_other (by simpa using hobj), Except.failsOnly_error]
    exact iff_of_false (not_clientFault_builtin _) hobj

theorem validateNativeAppTelemetry_fails {et : EventType} (hobj : et.eventDataParams.isObj = true) :
    et.validateNativeAppTelemetry.FailsOnly ClientFault := by
  obtain ⟨kvs, hed⟩ := isObj_obj hobj
  unfold EventType.validateNativeAppTelemetry
  rw [hed, Json.get, Except.ok_bind]
  split
  · intro e he
    exact (timestampCheck_fails _ _ _ e he).client
  · exact Except.failsOnly_ok ()

omit [Runtime] in
theorem init_total (kind : EventTypeClass) {p : Json} {tv : List (String × Json)}
    (htv : p.member? "TvEvent" = some (.obj tv)) :
    ∃ eventType tvid, EventType.init kind p =
      .ok ⟨kind, p, eventType, tvid, eventDataMember p, .null, .null⟩ := by
  obtain ⟨kvs, rfl, hfind⟩ := member_obj htv
  refine ⟨(find "EventType" tv).getD (.str ""), (find "tvid" tv).getD (.str ""), ?_⟩
  simp [EventType.init, Json.get, hfind, eventDataMember, Json.member?]

omit [Runtime] in
/-- On a payload whose TV event is an object only one constructor can fail: it reads the event data. -/
theorem ofClass_total {kind : EventTypeClass} {p : Json} {tv : List (String × Json)}
    (htv : p.member? "TvEvent" = some (.obj tv))
    (hnative : kind = .nativeAppTelemetry → (eventDataMember p).isObj = true) :
    ∃ et, EventType.ofClass kind p = .ok et := by
  obtain ⟨eventType, tvid, hinit⟩ := init_total kind htv
  cases kind with
  | nativeAppTelemetry =>
    obtain ⟨ed, hed⟩ := isObj_obj (hnative rfl)
    rw [hed] at hinit
    simp [EventType.ofClass, EventType.initNativeAppTelemetry, hinit, namespaceOf_obj, Json.get]
  | acrTunerData =>
    obtain ⟨kvs, rfl, hfind⟩ := member_obj htv
    simp [EventType.ofClass, EventType.initAcrTunerData, hinit, namespaceOf_obj, Json.get, hfind]
  | platformTelemetry => exact ⟨_, hinit⟩

omit [Runtime] in
private theorem namespaceOf_cases (v ns : Json) (options : List String) :
    (∃ x, namespaceOf v ns options = .ok x) ∨
      ∃ b, namespaceOf v ns options = .error (.builtin b) := by
  induction options generalizing ns with
  | nil => exact .inl ⟨ns, rfl⟩
  | cons option options ih =>
    rw [namespaceOf]
    by_cases hv : Searchable v
    · obtain ⟨b, hhas⟩ := has_searchable hv option
      rw [hhas, Except.ok_bind]
      cases b with
      | true =>
        rcases item_cases v option with ⟨x, -, hitem⟩ | ⟨-, b, hitem⟩
        · rw [if_pos rfl, hitem]
          exact ih x
        · right
          rw [if_pos rfl, hitem]
          exact ⟨b, rfl⟩
      | false => exact ih ns
    · right
      rw [has_unsearchable hv]
      exact ⟨_, rfl⟩

omit [Runtime] in
theorem ofClass_native_raises {p : Json} {tv : List (String × Json)}
    (htv : p.member? "TvEvent" = some (.obj tv)) (hobj : (eventDataMember p).isObj = false) :
    ∃ b, EventType.ofClass .nativeAppTelemetry p = .error (.builtin b) := by
  obtain ⟨eventType, tvid, hinit⟩ := init_total .nativeAppTelemetry htv
  have hget : (eventDataMember p).get "AppId" .null = .error (.builtin .attributeError) := by
    cases h : eventDataMember p <;> rw [h] at hobj <;> simp [Json.isObj] at hobj <;> rfl
  simp only [EventType.ofClass, EventType.initNativeAppTelemetry, hinit, Except.ok_bind]
  rcases namespaceOf_cases (eventDataMember p) .null namespaceOptions with ⟨x, hx⟩ | ⟨b, hb⟩
  · rw [hx, Except.ok_bind, hget]
    exact ⟨_, rfl⟩
  · rw [hb]
    exact ⟨b, rfl⟩

/-- The class of the payload blames the client exactly on event data of its types. -/
theorem eventData_fails_iff (kind : EventTypeClass) {p : Json} {tv : List (String × Json)}
    (htv : p.member? "TvEvent" = some (.obj tv)) :
    (do
      let et ← EventType.ofClass kind p
      et.validateEventTypePayload).FailsOnly ClientFault ↔
      EventDataTyped kind (eventDataMember p) := by
  by_cases hnative : kind = .nativeAppTelemetry → (eventDataMember p).isObj = true
  · obtain ⟨et, het⟩ := ofClass_total htv hnative
    have hed : et.eventDataParams = eventDataMember p := ofClass_eventData het
    rw [het, Except.ok_bind, EventType.validateEventTypePayload, (ofClass_payload het).2, ← hed]
    cases kind with
    | nativeAppTelemetry =>
      have hobj : et.eventDataParams.isObj = true := by
        rw [hed]
        exact hnative rfl
      exact iff_of_true (validateNativeAppTelemetry_fails hobj) hobj
    | acrTunerData => exact validateAcrTunerData_fails_iff et
    | platformTelemetry => exact validatePlatformTelemetry_fails_iff et
  · rw [Classical.not_imp] at hnative
    obtain ⟨rfl, hobj⟩ := hnative
    obtain ⟨b, hb⟩ := ofClass_native_raises htv (by simpa using hobj)
    rw [hb, Except.error_bind, Except.failsOnly_error]
    exact iff_of_false (not_clientFault_builtin b) hobj

end Classes

section Requests

variable [Runtime]

/-- A request whose types the pipeline can work with, as far as the pipeline gets. -/
structure RequestTyped (salt : String) (urlParams : UrlParams) (p : Json) : Prop where
  searchable : Searchable (checkedValue p)
  tvEvent : HoldsAll (checkedValue p) requiredParams →
    ∃ tv, p.member? "TvEvent" = some (.obj tv)
  eventType : HoldsAll (checkedValue p) requiredParams → MillisOk (tvEventField p "timestamp") →
    str (tvEventField p "h") = securityHashToken (strParam (urlParams.get? "tvid")) salt →
    IsKey (eventTypeOf p)
  eventData : HoldsAll (checkedValue p) requiredParams → MillisOk (tvEventField p "timestamp") →
    str (tvEventField p "h") = securityHashToken (strParam (urlParams.get? "tvid")) salt →
    ∀ kind, kindOf p = some kind → EventDataTyped kind (eventDataMember p)

theorem validateSecurityHash_fails {env : Env} {salt : String} (hsalt : saltKey env = some salt)
    (tvid hValue : String) : (validateSecurityHash env tvid hValue).FailsOnly ClientFault := by
  intro e he
  unfold validateSecurityHash securityHashMatch at he
  simp only [hsalt, Except.ok_bind] at he
  split at he
  · cases he
  · rw [← Except.error.inj he]
    exact ⟨_, _, rfl, rfl⟩

omit [Runtime] in
theorem getEventTypeMapping_fails_iff (et : Json) :
    (getEventTypeMapping et).FailsOnly ClientFault ↔ IsKey et := by
  cases et with
  | arr l => exact iff_of_false (fun h => not_clientFault_builtin _ (h _ rfl)) id
  | obj kvs => exact iff_of_false (fun h => not_clientFault_builtin _ (h _ rfl)) id
  | null => exact iff_of_true (Except.failsOnly_ok _) trivial
  | bool b => exact iff_of_true (Except.failsOnly_ok _) trivial
  | int n => exact iff_of_true (Except.failsOnly_ok _) trivial
  | float f => exact iff_of_true (Except.failsOnly_ok _) trivial
  | str s => exact iff_of_true (Except.failsOnly_ok _) trivial

/-- On an envelope that has what is read the pipeline blames the client exactly on what it reads
next. -/
theorem validate_envelope_fails_iff {env : Env} {salt : String} (hsalt : saltKey env = some salt)
    (urlParams : UrlParams) {p : Json} {tv : List (String × Json)}
    (htv : p.member? "TvEvent" = some (.obj tv))
    (hreq : ∀ k ∈ requiredParams, (find k (tvEventOf p)).isSome) :
    (validateRequest env urlParams p).FailsOnly ClientFault ↔
      (MillisOk (tvEventField p "timestamp") →
        str (tvEventField p "h") = securityHashToken (strParam (urlParams.get? "tvid")) salt →
        IsKey (eventTypeOf p) ∧
          ∀ kind, kindOf p = some kind → EventDataTyped kind (eventDataMember p)) := by
  have hts := timestampCheck_millis (tvEventField p "timestamp") (strParam (urlParams.get? "tvid"))
  have hfails : (timestampCheck (tvEventField p "timestamp") (strParam (urlParams.get? "tvid"))
      true).FailsOnly ClientFault :=
    fun e he => (timestampCheck_fails _ _ _ e he).client
  have hhash : validateSecurityHash env (strParam (urlParams.get? "tvid"))
      (str (tvEventField p "h")) = .ok () ↔
        str (tvEventField p "h") = securityHashToken (strParam (urlParams.get? "tvid")) salt := by
    rw [validateSecurityHash_iff]
    simp [hsalt]
  have hclass : ∀ m, getEventTypeMapping (eventTypeOf p) = .ok m ↔
      IsKey (eventTypeOf p) ∧ kindOf p = m := getEventTypeMapping_iff (eventTypeOf p)
  rw [validate_envelope htv hreq, Except.failsOnly_bind, and_iff_right hfails]
  simp only [hts, Except.failsOnly_bind, validateSecurityHash_fails hsalt, hhash, true_and,
    getEventTypeMapping_fails_iff, hclass, forall_const]
  apply imp_congr_right
  intro _
  apply imp_congr_right
  intro _
  apply and_congr_right
  intro hkey
  cases hkind : kindOf p with
  | none => simp [hkey, Except.failsOnly_ok]
  | some kind =>
    have hevent := eventData_fails_iff kind htv
    rw [← @Except.failsOnly_answer _ _ _ _ _ true, bind_assoc] at hevent
    simp only [hkey, true_and, forall_eq', Option.some.injEq]
    exact hevent

/-- A request that is not accepted fails, so answering is failing only as the client's fault. -/
theorem answered_iff_failsOnly (env : Env) (urlParams : UrlParams) (p : Json) :
    (validateRequest env urlParams p = .ok true ∨
      ∃ e, validateRequest env urlParams p = .error e ∧ ClientFault e) ↔
        (validateRequest env urlParams p).FailsOnly ClientFault := by
  cases hresult : validateRequest env urlParams p with
  | error e => simp [Except.failsOnly_error]
  | ok b =>
    obtain ⟨rfl, -⟩ := (validateRequest_iff env urlParams p b).mp hresult
    exact iff_of_true (.inl rfl) (Except.failsOnly_ok true)

/-- Past the required names a TV event that is no object raises. -/
theorem validateRequest_no_tvEvent (env : Env) (urlParams : UrlParams) {p : Json}
    (hobj : p.isObj = true) (hall : HoldsAll (checkedValue p) requiredParams)
    (htv : ¬∃ tv, p.member? "TvEvent" = some (.obj tv)) :
    ∃ b, validateRequest env urlParams p = .error (.builtin b) := by
  rw [validateRequest, verifyRequiredParams_obj hobj, (requireAll_iff _ _).mpr hall, Except.ok_bind]
  rcases item_cases p "TvEvent" with ⟨v, hmember, hitem⟩ | ⟨-, b, hitem⟩
  · rw [hitem, Except.ok_bind]
    rcases item_cases v "EventType" with ⟨x, hx, -⟩ | ⟨-, b, hitem'⟩
    · obtain ⟨tv, rfl, -⟩ := member_obj hx
      exact absurd ⟨tv, hmember⟩ htv
    · rw [hitem']
      exact ⟨b, rfl⟩
  · rw [hitem]
    exact ⟨b, rfl⟩

/-- A request is answered or refused as the client's fault exactly when the pipeline can work with the
types that it reads. -/
theorem validateRequest_answers_iff {env : Env} {salt : String} (hsalt : saltKey env = some salt)
    (urlParams : UrlParams) {p : Json} (hobj : p.isObj = true) :
    (validateRequest env urlParams p = .ok true ∨
        ∃ e, validateRequest env urlParams p = .error e ∧ ClientFault e) ↔
      RequestTyped salt urlParams p := by
  have hverify : verifyRequiredParams p requiredParams =
      requireAll (checkedValue p) requiredParams := verifyRequiredParams_obj hobj _
  rw [answered_iff_failsOnly]
  by_cases hsearch : Searchable (checkedValue p)
  · by_cases hall : HoldsAll (checkedValue p) requiredParams
    · by_cases htv : ∃ tv, p.member? "TvEvent" = some (.obj tv)
      · obtain ⟨tv, htv⟩ := htv
        have hpart : tvEventOf p = tv := by rw [tvEventOf, htv]; rfl
        have hcheck : checkedValue p = .obj tv := by rw [checkedValue, htv]; rfl
        have hreq : ∀ k ∈ requiredParams, (find k (tvEventOf p)).isSome := by
          intro k hk
          have hholds := hall k hk
          rw [hcheck, holds_obj] at hholds
          rwa [hpart]
        rw [validate_envelope_fails_iff hsalt urlParams htv hreq]
        constructor
        · intro h
          exact ⟨hsearch, fun _ => ⟨tv, htv⟩, fun _ hts hh => (h hts hh).1,
            fun _ hts hh => (h hts hh).2⟩
        · intro h hts hh
          exact ⟨h.eventType hall hts hh, h.eventData hall hts hh⟩
      · refine iff_of_false ?_ fun h => htv (h.tvEvent hall)
        obtain ⟨b, hraise⟩ := validateRequest_no_tvEvent env urlParams hobj hall htv
        rw [hraise, Except.failsOnly_error]
        exact not_clientFault_builtin b
    · obtain ⟨message, hmissing⟩ := requireAll_missing hsearch hall
      have hraise : validateRequest env urlParams p =
          .error (.tvEvents .missingRequiredParam message) := by
        rw [validateRequest, hverify, hmissing]
        rfl
      rw [hraise, Except.failsOnly_error]
      exact iff_of_true (clientFault_missing message)
        ⟨hsearch, fun h => absurd h hall, fun h => absurd h hall, fun h => absurd h hall⟩
  · have hraise : validateRequest env urlParams p = .error (.builtin .typeError) := by
      rw [validateRequest, hverify, requiredParams, requireAll_unsearchable hsearch]
      rfl
    rw [hraise, Except.failsOnly_error]
    exact iff_of_false (not_clientFault_builtin _) fun h => hsearch h.searchable

end Requests

section Samples

theorem validateRequest_answers_usual :
    @validateRequest asciiRuntime sampleEnv sampleUrl (samplePayload "OTHER" [] []) = .ok true ∨
      ∃ e, @validateRequest asciiRuntime sampleEnv sampleUrl (samplePayload "OTHER" [] []) =
        .error e ∧ ClientFault e := by
  let _ : Runtime := asciiRuntime
  have hkind : kindOf (samplePayload "OTHER" [] []) = none := by decide +kernel
  refine (@validateRequest_answers_iff asciiRuntime sampleEnv "salt" rfl sampleUrl _ rfl).mpr ⟨trivial, ?_, ?_, ?_⟩
  · intro _
    exact ⟨_, rfl⟩
  · intro _ _ _
    trivial
  · intro _ _ _ kind hsome
    rw [hkind] at hsome
    cases hsome

/-- A TV event that is a number fails in the check of the required names, and event data that are a
list fail in the report of their own error: neither is answered as the client's fault. -/
theorem untyped_request_raises :
    (@validateRequest asciiRuntime sampleEnv sampleUrl (.obj [("TvEvent", .int 5)]) =
        .error (.builtin .typeError) ∧
      @validateRequest asciiRuntime sampleEnv sampleUrl (.obj [("TvEvent", .obj [("tvid", .str "tv1"),
        ("client", .str "c1"), ("h", .str "digest of tv1salt"), ("EventType", .str "PLATFORM_TELEMETRY"),
        ("timestamp", .int 0)]), ("EventData", .arr [])]) = .error (.builtin .indexError)) ∧
    ¬(@validateRequest asciiRuntime sampleEnv sampleUrl (.obj [("TvEvent", .int 5)]) = .ok true ∨
      ∃ e, @validateRequest asciiRuntime sampleEnv sampleUrl (.obj [("TvEvent", .int 5)]) = .error e ∧
        ClientFault e) := by
  refine ⟨by decide +kernel, ?_⟩
  have hraise : @validateRequest asciiRuntime sampleEnv sampleUrl (.obj [("TvEvent", .int 5)]) =
      .error (.builtin .typeError) := by decide +kernel
  rw [hraise]
  intro h
  rcases h with hok | ⟨e, he, hfault⟩
  · cases hok
  · rw [← Except.error.inj he] at hfault
    exact not_clientFault_builtin _ hfault

end Samples

end TvEvents
