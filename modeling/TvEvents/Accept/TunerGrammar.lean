import TvEvents.Accept.RequiredParams
import TvEvents.App.EventType

namespace TvEvents

open OrderedMap

section Grammar

def HasSection (o : List (String × Json)) : Prop :=
  (find "channelData" o).isSome ∨ (find "programData" o).isSome

/-- Section `name`, if it is present, has the required members itself. -/
def OwnsParams (o : List (String × Json)) (name : String) (required : List String) : Prop :=
  ∀ v, find name o = some v → ∀ k ∈ required, (v.member? k).isSome

def channelParams : List String := ["majorId", "minorId"]

def resolutionParams : List String := ["vRes", "hRes"]

def SectionsOwned (o : List (String × Json)) : Prop :=
  OwnsParams o "channelData" channelParams ∧ OwnsParams o "resolution" resolutionParams

def Mixed (ed : List (String × Json)) : Prop := (find "Heartbeat" ed).isSome ∧ HasSection ed

/-- Tuner data: sections of the event data themselves, or of a heartbeat alone. -/
def TunerGrammar (ed : List (String × Json)) : Prop :=
  (find "Heartbeat" ed = none ∧ HasSection ed ∧ SectionsOwned ed) ∨
    ∃ hb, find "Heartbeat" ed = some (.obj hb) ∧ ¬HasSection ed ∧ HasSection hb ∧ SectionsOwned hb

/-- The members that are read as objects are objects where they are present. -/
structure ObjectSections (o : List (String × Json)) : Prop where
  channelData : ∀ v, find "channelData" o = some v → v.isObj = true
  resolution : ∀ v, find "resolution" o = some v → v.isObj = true

/-- The object whose sections are checked, when it comes to that. -/
def Selected (ed sel : List (String × Json)) : Prop :=
  (find "Heartbeat" ed = none ∧ HasSection ed ∧ sel = ed) ∨
    (find "Heartbeat" ed = some (.obj sel) ∧ ¬HasSection ed ∧ HasSection sel)

end Grammar

section Redirection

/-- The check of section `name` finds its required names where it looks for them. -/
def FindsParams (o : List (String × Json)) (name : String) (required : List String) : Prop :=
  ∀ v, find name o = some v → HoldsAll (checkedValue v) required

/-- It looks for them in a value that can be searched. -/
def LooksInto (o : List (String × Json)) (name : String) : Prop :=
  ∀ v, find name o = some v → Searchable (checkedValue v)

/-- Reading a member `TvEvent` of a section in its place changes no verdict. -/
structure RedirectHarmless (o : List (String × Json)) : Prop where
  channelData : LooksInto o "channelData"
  resolution : FindsParams o "channelData" channelParams → LooksInto o "resolution"
  verdict : FindsParams o "channelData" channelParams ∧ FindsParams o "resolution" resolutionParams ↔
    SectionsOwned o

/-- A section check passes, reports a missing name, or fails on a value that cannot be searched. -/
theorem validateSection_cases {o : List (String × Json)} {name : String} (param : String)
    (params : List String) (hobj : ∀ v, find name o = some v → v.isObj = true) :
    (EventType.validateSection (.obj o) name (param :: params) = .ok () ∧ LooksInto o name ∧
        FindsParams o name (param :: params)) ∨
      ((∃ message, EventType.validateSection (.obj o) name (param :: params) =
          .error (.tvEvents .missingRequiredParam message)) ∧ LooksInto o name ∧
        ¬FindsParams o name (param :: params)) ∨
      (EventType.validateSection (.obj o) name (param :: params) = .error (.builtin .typeError) ∧
        ¬LooksInto o name) := by
  unfold EventType.validateSection LooksInto FindsParams
  cases hfind : find name o with
  | none =>
    left
    simp [Json.has, hfind]
  | some v =>
    have hverify := verifyRequiredParams_obj (hobj v hfind) (param :: params)
    simp only [Json.has, Json.item, hfind, Option.isSome_some, Except.ok_bind, if_true, hverify,
      Option.some.injEq, forall_eq']
    by_cases hv : Searchable (checkedValue v)
    · by_cases hall : HoldsAll (checkedValue v) (param :: params)
      · left
        exact ⟨(requireAll_iff _ _).mpr hall, hv, hall⟩
      · right
        left
        exact ⟨requireAll_missing hv hall, hv, hall⟩
    · right
      right
      exact ⟨requireAll_unsearchable hv params, hv⟩

/-- What the validator should do with tuner data: accept the grammar, refuse a mixed heartbeat as an
invalid payload, and report a missing name in every other case. -/
structure DecidesTuner (r : Except PyExc Unit) (ed : List (String × Json)) : Prop where
  accepts : r = .ok () ↔ TunerGrammar ed
  mixed : (∃ message, r = .error (.tvEvents .invalidPayload message)) ↔ Mixed ed
  missing : ¬TunerGrammar ed → ¬Mixed ed →
    ∃ message, r = .error (.tvEvents .missingRequiredParam message)

def checkSections (o : List (String × Json)) : Except PyExc Unit := do
  EventType.validateSection (.obj o) "channelData" channelParams
  EventType.validateSection (.obj o) "resolution" resolutionParams

/-- The outcome of the section checks is the one that the sections' own members ask for. -/
structure DecidesSections (r : Except PyExc Unit) (o : List (String × Json)) : Prop where
  accepts : r = .ok () ↔ SectionsOwned o
  notMixed : ∀ message, r ≠ .error (.tvEvents .invalidPayload message)
  missing : ¬SectionsOwned o → ∃ message, r = .error (.tvEvents .missingRequiredParam message)

private theorem decides_passed_iff (o : List (String × Json)) :
    DecidesSections (.ok ()) o ↔ SectionsOwned o := by
  constructor
  · intro h
    exact h.accepts.mp rfl
  · intro h
    exact ⟨by simp [h], by simp, fun hnot => absurd h hnot⟩

private theorem decides_refused_iff (o : List (String × Json)) (message : String) :
    DecidesSections (.error (.tvEvents .missingRequiredParam message)) o ↔ ¬SectionsOwned o := by
  constructor
  · intro h howned
    have hok := h.accepts.mpr howned
    cases hok
  · intro h
    exact ⟨by simp [h], by simp, fun _ => ⟨message, rfl⟩⟩

private theorem not_decides_failed (o : List (String × Json)) :
    ¬DecidesSections (.error (.builtin .typeError)) o := by
  intro h
  by_cases howned : SectionsOwned o
  · have hok := h.accepts.mpr howned
    cases hok
  · obtain ⟨message, herror⟩ := h.missing howned
    cases herror

/-- The section checks decide by the sections' own members exactly when no redirection harms. -/
theorem checkSections_iff {o : List (String × Json)} (hobj : ObjectSections o) :
    DecidesSections (checkSections o) o ↔ RedirectHarmless o := by
  rcases validateSection_cases "majorId" ["minorId"] hobj.channelData with
    ⟨hchannel, hlook, hfind⟩ | ⟨⟨message, hchannel⟩, hlook, hfind⟩ | ⟨hchannel, hlook⟩
  · rcases validateSection_cases "vRes" ["hRes"] hobj.resolution with
      ⟨hres, hlook', hfind'⟩ | ⟨⟨message, hres⟩, hlook', hfind'⟩ | ⟨hres, hlook'⟩
    · have hok : checkSections o = .ok () := by
        rw [checkSections, channelParams, hchannel, Except.ok_bind, resolutionParams, hres]
      rw [hok, decides_passed_iff]
      constructor
      · intro howned
        exact ⟨hlook, fun _ => hlook', fun _ => howned, fun _ => ⟨hfind, hfind'⟩⟩
      · intro h
        exact h.verdict.mp ⟨hfind, hfind'⟩
    · have herror : checkSections o = .error (.tvEvents .missingRequiredParam message) := by
        rw [checkSections, channelParams, hchannel, Except.ok_bind, resolutionParams, hres]
      rw [herror, decides_refused_iff]
      constructor
      · intro h
        exact ⟨hlook, fun _ => hlook', fun hboth => absurd hboth.2 hfind', fun howned => absurd howned h⟩
      · intro h howned
        exact hfind' (h.verdict.mpr howned).2
    · have herror : checkSections o = .error (.builtin .typeError) := by
        rw [checkSections, channelParams, hchannel, Except.ok_bind, resolutionParams, hres]
      rw [herror]
      exact iff_of_false (not_decides_failed o) fun h => hlook' (h.resolution hfind)
  · have herror : checkSections o = .error (.tvEvents .missingRequiredParam message) := by
      rw [checkSections, channelParams, hchannel]
      rfl
    rw [herror, decides_refused_iff]
    constructor
    · intro h
      exact ⟨hlook, fun hall => absurd hall hfind, fun hboth => absurd hboth.1 hfind,
        fun howned => absurd howned h⟩
    · intro h howned
      exact hfind (h.verdict.mpr howned).1
  · have herror : checkSections o = .error (.builtin .typeError) := by
      rw [checkSections, channelParams, hchannel]
      rfl
    rw [herror]
    exact iff_of_false (not_decides_failed o) fun h => hlook h.channelData

end Redirection

section Validator

theorem hasAny_sections {o : List (String × Json)} (h : HasSection o) :
    (Json.obj o).hasAny EventType.sections = .ok true := by
  by_cases hchannel : (find "channelData" o).isSome
  · simp [Json.hasAny, EventType.sections, Json.has, hchannel]
  · have hprogram := h.resolve_left hchannel
    simp [Json.hasAny, EventType.sections, Json.has, hchannel, hprogram]

theorem hasAny_no_sections {o : List (String × Json)} (h : ¬HasSection o) :
    (Json.obj o).hasAny EventType.sections = .ok false := by
  rw [HasSection, not_or] at h
  simp [Json.hasAny, EventType.sections, Json.has, h.1, h.2]

theorem tunerGrammar_iff (ed : List (String × Json)) :
    TunerGrammar ed ↔ ∃ sel, Selected ed sel ∧ SectionsOwned sel := by
  constructor
  · intro h
    rcases h with ⟨hnone, hsection, howned⟩ | ⟨hb, hhb, halone, hsection, howned⟩
    · exact ⟨ed, .inl ⟨hnone, hsection, rfl⟩, howned⟩
    · exact ⟨hb, .inr ⟨hhb, halone, hsection⟩, howned⟩
  · intro h
    obtain ⟨sel, ⟨hnone, hsection, rfl⟩ | ⟨hhb, halone, hsection⟩, howned⟩ := h
    · exact .inl ⟨hnone, hsection, howned⟩
    · exact .inr ⟨sel, hhb, halone, hsection, howned⟩

theorem selected_unique {ed sel sel' : List (String × Json)} (h : Selected ed sel)
    (h' : Selected ed sel') : sel = sel' := by
  rcases h with ⟨hnone, -, rfl⟩ | ⟨hhb, -, -⟩
  · rcases h' with ⟨-, -, rfl⟩ | ⟨hhb', -, -⟩
    · rfl
    · rw [hnone] at hhb'
      cases hhb'
  · rcases h' with ⟨hnone, -, -⟩ | ⟨hhb', -, -⟩
    · rw [hnone] at hhb
      cases hhb
    · exact Json.obj.inj (Option.some.inj (hhb.symm.trans hhb'))

theorem selected_not_mixed {ed sel : List (String × Json)} (h : Selected ed sel) : ¬Mixed ed := by
  intro hmixed
  rcases h with ⟨hnone, -, -⟩ | ⟨-, halone, -⟩
  · have hsome := hmixed.1
    rw [hnone] at hsome
    cases hsome
  · exact halone hmixed.2

theorem not_tunerGrammar {ed : List (String × Json)} (h : ∀ sel, ¬Selected ed sel) :
    ¬TunerGrammar ed := by
  rw [tunerGrammar_iff]
  rintro ⟨sel, hsel, -⟩
  exact h sel hsel

/-- The grammar asks for the members of the object that is checked. -/
theorem tunerGrammar_selected {ed sel : List (String × Json)} (hsel : Selected ed sel) :
    TunerGrammar ed ↔ SectionsOwned sel := by
  rw [tunerGrammar_iff]
  constructor
  · rintro ⟨sel', hsel', howned⟩
    rwa [selected_unique hsel hsel']
  · intro howned
    exact ⟨sel, hsel, howned⟩

/-- Deciding by the grammar is deciding by the sections of the object that is checked. -/
theorem decidesTuner_selected {ed sel : List (String × Json)} (hsel : Selected ed sel)
    (r : Except PyExc Unit) : DecidesTuner r ed ↔ DecidesSections r sel := by
  have hmixed := selected_not_mixed hsel
  have hgrammar := tunerGrammar_selected hsel
  constructor
  · intro h
    refine ⟨h.accepts.trans hgrammar, ?_, ?_⟩
    · intro message hmessage
      exact hmixed (h.mixed.mp ⟨message, hmessage⟩)
    · intro howned
      exact h.missing (fun hg => howned (hgrammar.mp hg)) hmixed
  · intro h
    refine ⟨h.accepts.trans hgrammar.symm, ?_, ?_⟩
    · exact iff_of_false (fun ⟨message, hmessage⟩ => h.notMixed message hmessage) hmixed
    · intro hg _
      exact h.missing fun howned => hg (hgrammar.mpr howned)

variable [Runtime]

theorem acrParams_cases {et : EventType} {ed : List (String × Json)}
    (hed : et.eventDataParams = .obj ed)
    (hhb : ∀ v, find "Heartbeat" ed = some v → v.isObj = true) :
    (Mixed ed ∧ ∃ message, et.acrParams = .error (.tvEvents .invalidPayload message)) ∨
      (¬Mixed ed ∧ (¬∃ sel, Selected ed sel) ∧
        ∃ message, et.acrParams = .error (.tvEvents .missingRequiredParam message)) ∨
      ∃ sel, Selected ed sel ∧ et.acrParams = .ok (.obj sel) := by
  unfold EventType.acrParams EventType.validateHeartbeatEvent
  rw [hed]
  cases hfind : find "Heartbeat" ed with
  | none =>
    right
    by_cases hsection : HasSection ed
    · right
      refine ⟨ed, .inl ⟨hfind, hsection, rfl⟩, ?_⟩
      simp [Json.has, hfind, hasAny_sections hsection]
    · left
      refine ⟨fun hmixed => hsection hmixed.2, ?_, ?_⟩
      · intro hsel
        obtain ⟨sel, ⟨-, hhas, -⟩ | ⟨hsome, -, -⟩⟩ := hsel
        · exact hsection hhas
        · rw [hfind] at hsome
          cases hsome
      · simp [Json.has, hfind, hasAny_no_sections hsection]
  | some v =>
    obtain ⟨hb, rfl⟩ : ∃ hb, v = .obj hb := by
      have hobj := hhb v hfind
      cases v <;> simp [Json.isObj] at hobj
      exact ⟨_, rfl⟩
    by_cases hsection : HasSection ed
    · left
      refine ⟨⟨by simp [hfind], hsection⟩, ?_⟩
      simp [Json.has, hfind, hasAny_sections hsection]
    · right
      by_cases hinner : HasSection hb
      · right
        refine ⟨hb, .inr ⟨hfind, hsection, hinner⟩, ?_⟩
        simp [Json.has, Json.item, hfind, hasAny_no_sections hsection, hasAny_sections hinner]
      · left
        refine ⟨fun hmixed => hsection hmixed.2, ?_, ?_⟩
        · intro hsel
          obtain ⟨sel, ⟨hnone, -, -⟩ | ⟨hsome, -, hhas⟩⟩ := hsel
          · rw [hfind] at hnone
            cases hnone
          · have hsame := Json.obj.inj (Option.some.inj (hfind.symm.trans hsome))
            rw [hsame] at hinner
            exact hinner hhas
        · simp [Json.has, Json.item, hfind, hasAny_no_sections hsection,
            hasAny_no_sections hinner]

/-- The validator decides by the grammar exactly when no member `TvEvent` of a section that it checks
changes a verdict. -/
theorem validateAcrTunerData_iff {et : EventType} {ed : List (String × Json)}
    (hkind : et.kind = .acrTunerData) (hed : et.eventDataParams = .obj ed)
    (hhb : ∀ v, find "Heartbeat" ed = some v → v.isObj = true) (hown : ObjectSections ed)
    (hinner : ∀ hb, find "Heartbeat" ed = some (.obj hb) → ObjectSections hb) :
    DecidesTuner et.validateEventTypePayload ed ↔ ∀ sel, Selected ed sel → RedirectHarmless sel := by
  have hvalid : et.validateEventTypePayload = (do
      let edParams ← et.acrParams
      EventType.validateSection edParams "channelData" channelParams
      EventType.validateSection edParams "resolution" resolutionParams) := by
    rw [EventType.validateEventTypePayload, hkind]
    rfl
  rw [hvalid]
  rcases acrParams_cases hed hhb with ⟨hmixed, message, hparams⟩ | ⟨hmixed, hnone, message, hparams⟩ |
    ⟨sel, hsel, hparams⟩
  · rw [hparams, Except.error_bind]
    have hnone : ∀ sel, ¬Selected ed sel := fun sel hsel => selected_not_mixed hsel hmixed
    have hgrammar := not_tunerGrammar hnone
    refine iff_of_true ⟨by simp [hgrammar], ?_, fun _ hnot => absurd hmixed hnot⟩
      fun sel hsel => absurd hsel (hnone sel)
    exact iff_of_true ⟨message, rfl⟩ hmixed
  · rw [hparams, Except.error_bind]
    have hgrammar := not_tunerGrammar fun sel hsel => hnone ⟨sel, hsel⟩
    refine iff_of_true ⟨by simp [hgrammar], by simp [hmixed], fun _ _ => ⟨message, rfl⟩⟩ ?_
    intro sel hsel
    exact absurd ⟨sel, hsel⟩ hnone
  · have hchecks : (do
        let edParams ← et.acrParams
        EventType.validateSection edParams "channelData" channelParams
        EventType.validateSection edParams "resolution" resolutionParams) = checkSections sel := by
      rw [hparams]
      rfl
    have hobj : ObjectSections sel := by
      rcases hsel with ⟨-, -, rfl⟩ | ⟨hfind, -, -⟩
      · exact hown
      · exact hinner sel hfind
    rw [hchecks, decidesTuner_selected hsel, checkSections_iff hobj]
    constructor
    · intro h sel' hsel'
      rwa [← selected_unique hsel hsel']
    · intro h
      exact h sel hsel

end Validator

section Samples

def sampleTunerPayload (channelData : List (String × Json)) : Json :=
  .obj [("TvEvent", .obj [("tvid", .str "tv1"), ("EventType", .str "ACR_TUNER_DATA")]),
    ("EventData", .obj [("channelData", .obj channelData)])]

def sampleTuner (channelData : List (String × Json)) : EventType :=
  ⟨.acrTunerData, sampleTunerPayload channelData, .str "ACR_TUNER_DATA", .str "tv1",
    .obj [("channelData", .obj channelData)], .null, .null⟩

theorem validateAcrTunerData_plain :
    DecidesTuner (@EventType.validateEventTypePayload asciiRuntime
      (sampleTuner [("majorId", .int 1), ("minorId", .int 2)]))
      [("channelData", .obj [("majorId", .int 1), ("minorId", .int 2)])] := by
  let _ : Runtime := asciiRuntime
  have hsections : ObjectSections [("channelData", .obj [("majorId", .int 1), ("minorId", .int 2)])] := by
    constructor
    · intro v hv
      obtain rfl := Option.some.inj hv
      rfl
    · intro v hv
      cases hv
  refine (validateAcrTunerData_iff rfl rfl (by intro v hv; cases hv) hsections
    (by intro hb hhb; cases hhb)).mpr ?_
  intro sel hsel
  rcases hsel with ⟨-, -, rfl⟩ | ⟨hhb, -, -⟩
  · have hchannel : FindsParams [("channelData", .obj [("majorId", .int 1), ("minorId", .int 2)])]
        "channelData" channelParams := by
      intro v hv k hk
      obtain rfl := Option.some.inj hv
      rcases List.mem_cons.mp hk with rfl | hk
      · rfl
      · rw [List.mem_singleton.mp hk]
        rfl
    have howned : SectionsOwned [("channelData", .obj [("majorId", .int 1), ("minorId", .int 2)])] := by
      constructor
      · intro v hv k hk
        obtain rfl := Option.some.inj hv
        rcases List.mem_cons.mp hk with rfl | hk
        · rfl
        · rw [List.mem_singleton.mp hk]
          rfl
      · intro v hv
        cases hv
    refine ⟨?_, ?_, iff_of_true ⟨hchannel, ?_⟩ howned⟩
    · intro v hv
      obtain rfl := Option.some.inj hv
      trivial
    · intro _ v hv
      cases hv
    · intro v hv
      cases hv
  · cases hhb

/-- A channel whose numbers stand below a member `TvEvent` is accepted, although it has none itself. -/
theorem redirected_section_accepted :
    EventType.ofClass .acrTunerData (sampleTunerPayload
        [("TvEvent", .obj [("majorId", .int 1), ("minorId", .int 2)])]) =
      .ok (sampleTuner [("TvEvent", .obj [("majorId", .int 1), ("minorId", .int 2)])]) ∧
    @EventType.validateEventTypePayload asciiRuntime
        (sampleTuner [("TvEvent", .obj [("majorId", .int 1), ("minorId", .int 2)])]) = .ok () ∧
      ¬TunerGrammar [("channelData",
        .obj [("TvEvent", .obj [("majorId", .int 1), ("minorId", .int 2)])])] := by
  refine ⟨rfl, by decide +kernel, ?_⟩
  intro h
  rcases h with ⟨-, -, howned, -⟩ | ⟨hb, hhb, -⟩
  · have hmajor := howned _ rfl "majorId" List.mem_cons_self
    cases hmajor
  · cases hhb

end Samples

end TvEvents
