import TvEvents.Delivery.Identity
import TvEvents.JsonText.RoundTrip

namespace TvEvents

open OrderedMap FirstFailure JsonText

variable [Runtime]

section Parts

omit [Runtime] in
theorem wellFormed_int {n : ℤ} (h : n.natAbs < 10 ^ 15) : WellFormed (.int n) := by
  refine .leaf ?_ rfl
  have hshort := (Nat.length_toDigits_le_iff (by decide) (by decide)).mpr h
  exact Nat.le_trans hshort (by decide)

omit [Runtime] in
/-- What an object of well-formed members gives for a key. -/
theorem wellFormed_find {kvs : List (String × Json)} (h : ∀ e ∈ kvs, WellFormed e.2) {k : String}
    {v : Json} (hfind : find k kvs = some v) : WellFormed v := by
  induction kvs with
  | nil => cases hfind
  | cons e kvs ih =>
    rw [find] at hfind
    split_ifs at hfind with hk
    · rw [← Option.some.inj hfind]
      exact h e List.mem_cons_self
    · exact ih (fun e he => h e (List.mem_cons_of_mem _ he)) hfind

omit [Runtime] in
theorem wellFormed_getD {kvs : List (String × Json)} (h : ∀ e ∈ kvs, WellFormed e.2) (k : String) :
    WellFormed ((find k kvs).getD .null) := by
  cases hfind : find k kvs with
  | none => exact .leaf trivial rfl
  | some v => exact wellFormed_find h hfind

omit [Runtime] in
theorem wellFormed_namespaceIn {kvs : List (String × Json)} (h : ∀ e ∈ kvs, WellFormed e.2)
    {ns : Json} (hns : WellFormed ns) (options : List String) :
    WellFormed (namespaceIn kvs ns options) := by
  induction options generalizing ns with
  | nil => exact hns
  | cons option options ih =>
    apply ih
    cases hfind : find option kvs with
    | none => exact hns
    | some v => exact wellFormed_find h hfind

omit [Runtime] in
theorem wellFormed_membersOf {v : Json} (h : WellFormed v) (k : String) :
    ∀ e ∈ membersOf (v.member? k), WellFormed e.2 := by
  intro e he
  cases hmember : v.member? k with
  | none =>
    rw [hmember] at he
    cases he
  | some x =>
    obtain ⟨kvs, rfl, hfind⟩ := member_obj hmember
    have hx : WellFormed x := wellFormed_find (fun e he => h.member he) hfind
    rw [hmember] at he
    cases x with
    | obj sub => exact hx.member he
    | null | bool _ | int _ | float _ | str _ | arr _ => cases he

mutual

theorem leaves_wellFormed {ignored : String → Bool} {keyPrefix : String}
    {kvs : List (String × Json)} (hkvs : ∀ e ∈ kvs, WellFormed e.2) {w : String × Json}
    (h : w ∈ leaves ignored keyPrefix kvs) : WellFormed w.2 := by
  match kvs with
  | [] => simp [leaves] at h
  | (k, v) :: rest =>
    rw [leaves] at h
    rcases List.mem_append.mp h with h | h
    · split_ifs at h
      · cases h
      · exact memberLeaves_wellFormed (hkvs (k, v) List.mem_cons_self) h
    · exact leaves_wellFormed (fun e he => hkvs e (List.mem_cons_of_mem _ he)) h

theorem memberLeaves_wellFormed {keyPrefix k : String} {v : Json} (hv : WellFormed v)
    {w : String × Json} (h : w ∈ memberLeaves keyPrefix k v) : WellFormed w.2 := by
  match v with
  | .obj sub =>
    rw [memberLeaves] at h
    exact leaves_wellFormed (fun e he => hv.member he) h
  | .null | .bool _ | .int _ | .float _ | .str _ | .arr _ =>
    simp only [memberLeaves, List.mem_singleton] at h
    subst h
    exact hv

end

/-- The seconds of a date, times a thousand, have few digits. -/
theorem wellFormed_startTime {ts v : Json} (hts : SecondsOk ts) (h : unixTimeToMs ts = .ok v) :
    WellFormed v := by
  obtain ⟨n, hn, hlow, hhigh⟩ := hts
  have hyear := Runtime.minTime_year
  have hyear' := Runtime.maxTime_year
  cases ts with
  | int m =>
    obtain rfl := Except.ok.inj hn
    obtain rfl := Except.ok.inj h
    apply wellFormed_int
    omega
  | bool b =>
    obtain rfl := Except.ok.inj h
    apply wellFormed_int
    cases b <;> decide
  | float f =>
    obtain rfl := Except.ok.inj h
    exact .leaf trivial rfl
  | str s =>
    obtain rfl := Except.ok.inj h
    exact .leaf trivial rfl
  | null | arr _ | obj _ => cases hn

end Parts

section Output

theorem kindWrites_wellFormed {kind : EventTypeClass} {ed : List (String × Json)}
    (hed : ∀ e ∈ ed, WellFormed e.2) (hgen : KindGenerable kind ed) :
    ∀ w ∈ kindWrites kind ed, WellFormed w.2 := by
  intro w hw
  cases kind with
  | nativeAppTelemetry =>
    rw [List.mem_singleton.mp hw]
    exact wellFormed_getD hed _
  | acrTunerData =>
    rcases List.mem_append.mp hw with hw | hw
    · cases hlast : lastWrite "programdata_starttime" (kindLeaves (some .acrTunerData) ed) with
      | none =>
        rw [startTimeWrites_none hlast] at hw
        cases hw
      | some ts =>
        have hts : SecondsOk ts := hgen ts hlast
        obtain ⟨v, hv⟩ := unixTimeToMs_ok hts.choose_spec.1
        rw [startTimeWrites_some hlast hv] at hw
        rw [List.mem_singleton.mp hw]
        exact wellFormed_startTime hts hv
    · unfold heartbeatWrites at hw
      split_ifs at hw
      · rw [List.mem_singleton.mp hw]
        exact .leaf trivial rfl
      · cases hw
  | platformTelemetry =>
    obtain ⟨s, hs⟩ := hgen
    change w ∈ panelStateWrites _ at hw
    simp only [panelStateWrites, hs, List.mem_singleton] at hw
    rw [hw]
    exact .leaf trivial rfl

omit [Runtime] in
theorem routingWrites_wellFormed (kind : EventTypeClass) {tv ed : List (String × Json)}
    (htv : ∀ e ∈ tv, WellFormed e.2) (hed : ∀ e ∈ ed, WellFormed e.2) :
    ∀ w ∈ routingWrites kind tv ed, WellFormed w.2 := by
  have hnull : WellFormed .null := .leaf trivial rfl
  simp only [routingWrites, List.forall_mem_cons, List.not_mem_nil, false_implies, implies_true,
    and_true]
  cases kind with
  | nativeAppTelemetry => exact ⟨wellFormed_namespaceIn hed hnull _, wellFormed_getD hed _⟩
  | acrTunerData => exact ⟨wellFormed_namespaceIn htv hnull _, wellFormed_getD htv _⟩
  | platformTelemetry => exact ⟨hnull, hnull⟩

/-- What is written for a well-formed payload is well formed. -/
theorem outputWrites_wellFormed (env : Env) {p : Json} (hp : WellFormed p) (hgen : Generable p) :
    ∀ w ∈ outputWrites env p, WellFormed w.2 := by
  have htv : ∀ e ∈ tvEventOf p, WellFormed e.2 := wellFormed_membersOf hp _
  have hed : ∀ e ∈ eventDataOf p, WellFormed e.2 := wellFormed_membersOf hp _
  intro w hw
  simp only [outputWrites, List.mem_append] at hw
  rcases hw with ((hw | hw) | hw) | hw
  · exact leaves_wellFormed htv hw
  · simp only [envelopeWrites, List.mem_cons, List.not_mem_nil, or_false] at hw
    rcases hw with rfl | rfl | rfl
    · exact wellFormed_getD htv _
    · exact wellFormed_getD htv _
    · exact .leaf trivial rfl
  · exact leaves_wellFormed hed hw
  · have heventData := hgen.eventData
    unfold classWrites at hw
    cases hkind : kindOf p with
    | none =>
      rw [hkind] at hw
      cases hw
    | some kind =>
      rw [hkind] at hw heventData
      rcases List.mem_append.mp hw with hw | hw
      · exact kindWrites_wellFormed hed heventData.2 w hw
      · exact routingWrites_wellFormed kind htv hed w hw

theorem generated_wellFormed {env : Env} {p : Json} {out : PyDict} (hp : WellFormed p)
    (h : generateOutputJson env p = .ok out) : WellFormed (.obj out.entries) := by
  obtain ⟨hgen, rfl⟩ := (generateOutputJson_iff env p out).mp h
  refine ⟨OrderedMap.nodup _, ?_⟩
  intro v hv
  obtain ⟨e, he, rfl⟩ := List.mem_map.mp hv
  exact outputWrites_wellFormed env hp hgen e (mem_ofWrites he)

omit [Runtime] in
theorem delivered_wellFormed {out : PyDict} (h : WellFormed (.obj out.entries)) (obfuscate : Bool) :
    WellFormed (.obj (delivered out obfuscate).entries) := by
  have hset : ∀ (m : PyDict) (k : String), WellFormed (.obj m.entries) →
      WellFormed (.obj (m.set k obfuscatedStr).entries) := by
    intro m k hm
    refine ⟨OrderedMap.nodup _, ?_⟩
    intro v hv
    obtain ⟨e, he, rfl⟩ := List.mem_map.mp hv
    have hget := mem_of_find (m.set k obfuscatedStr).nodup he
    change (m.set k obfuscatedStr).get? e.1 = some e.2 at hget
    rw [set_get?] at hget
    split_ifs at hget with hk
    · rw [← Option.some.inj hget]
      exact .leaf trivial rfl
    · exact wellFormed_find (fun e he => hm.member he) hget
  cases obfuscate with
  | false => exact h
  | true => exact hset _ _ (hset _ _ (hset _ _ h))

end Output

section Attempts

omit [Runtime] in
theorem deliverPlan_mem {kafka : Kafka} {plan : List Message} {a : Attempt}
    (h : a ∈ (deliverPlan kafka plan).2) : a.message ∈ plan := by
  unfold deliverPlan at h
  split_ifs at h
  · obtain ⟨x, hx, rfl⟩ := List.mem_map.mp h
    exact performed_mem hx
  · cases h

/-- Every call of a request is for a planned message of its output, planned as the blacklist
decides. -/
theorem attempted_planned {env : Env} {t : Tick} {kafka : Kafka} {request : Request}
    {service : Service} {a : Attempt}
    (h : a ∈ (sendRequest env t kafka request service).attempts) :
    ∃ payload out obfuscate, request.body = some payload ∧
      generateOutputJson env payload = .ok out ∧
      (shouldObfuscateChannel t out service.cache).1 = .ok obfuscate ∧
      a.message ∈ planned env out obfuscate := by
  have hpushed : ∀ payload, a ∈ (pushChangesToKafka env t kafka payload service.cache).attempts →
      ∃ out obfuscate, generateOutputJson env payload = .ok out ∧
        (shouldObfuscateChannel t out service.cache).1 = .ok obfuscate ∧
        a.message ∈ planned env out obfuscate := by
    intro payload hmem
    rcases pushChangesToKafka_cases env t kafka payload service.cache with
      ⟨e, -, hnone⟩ | ⟨out, obfuscate, cache, hgen, hshould, hpush⟩
    · rw [hnone] at hmem
      cases hmem
    · rw [hpush] at hmem
      exact ⟨out, obfuscate, hgen, by rw [hshould], deliverPlan_mem hmem⟩
  unfold sendRequest at h
  cases hbody : request.body with
  | none =>
    simp only [hbody] at h
    cases h
  | some payload =>
    simp only [hbody] at h
    cases hvalid : validateRequest env request.urlParams payload with
    | error e =>
      simp only [hvalid] at h
      cases h
    | ok b =>
      simp only [hvalid] at h
      cases hresult : (pushChangesToKafka env t kafka payload service.cache).result with
      | error e =>
        simp only [hresult] at h
        obtain ⟨out, obfuscate, hparts⟩ := hpushed payload h
        exact ⟨payload, out, obfuscate, rfl, hparts⟩
      | ok u =>
        simp only [hresult] at h
        obtain ⟨out, obfuscate, hparts⟩ := hpushed payload h
        exact ⟨payload, out, obfuscate, rfl, hparts⟩

/-- A planned message carries the output in the clear or with its channel hidden. -/
theorem planned_data {env : Env} {out : PyDict} {obfuscate : Bool} {m : Message}
    (h : m ∈ planned env out obfuscate) : ∃ hidden, m.data = delivered out hidden := by
  unfold planned at h
  rcases List.mem_append.mp h with h | h
  · split_ifs at h
    · obtain ⟨topic, -, rfl⟩ := List.mem_map.mp h
      exact ⟨false, rfl⟩
    · cases h
  · obtain ⟨topic, -, rfl⟩ := List.mem_map.mp h
    exact ⟨obfuscate, rfl⟩

/-- From text to text: when the body of a request was decoded from a text, the bytes of each of its
messages are the text of a document, and decode to the output of the event with its members in order. -/
theorem sendRequest_decodes {env : Env} {t : Tick} {kafka : Kafka} {request : Request}
    {service : Service} {text : List Char} {payload : Json} (hbody : request.body = some payload)
    (htext : loads text = .ok payload) :
    ∀ a ∈ (sendRequest env t kafka request service).attempts,
      ∃ out hidden, generateOutputJson env payload = .ok out ∧
        a.message.data = delivered out hidden ∧
        (FloatsRead (.obj (delivered out hidden).entries) →
          loads a.message.payloadBytes = .ok (.obj (delivered out hidden).entries)) := by
  intro a ha
  obtain ⟨payload', out, obfuscate, hbody', hgen, -, hplanned⟩ := attempted_planned ha
  obtain rfl : payload = payload' := Option.some.inj (hbody.symm.trans hbody')
  obtain ⟨hidden, hdata⟩ := planned_data hplanned
  refine ⟨out, hidden, hgen, hdata, ?_⟩
  intro hfloats
  rw [Message.payloadBytes, hdata]
  have hout := generated_wellFormed (loads_wellFormed htext) hgen
  exact loads_printed (delivered_wellFormed hout hidden) hfloats

end Attempts

section Samples

/-- The ASCII runtime, with the printed form of one float. -/
@[reducible] def decimalRuntime : Runtime where
  __ := asciiRuntime
  repr
    | .float f => if f = .fin (3 / 2) then "1.5" else "float"
    | v => asciiRuntime.repr v
  repr_null := rfl
  repr_bool _ := rfl
  repr_int _ := rfl

def sampleText : String :=
  "\x7b\"TvEvent\": \x7b\"tvid\": \"tv1\", \"client\": \"c1\", \"h\": \"digest of tv1salt\", " ++
    "\"EventType\": \"OTHER\", \"timestamp\": 1700000000000\x7d, " ++
    "\"EventData\": \x7b\"Score\": 1.5\x7d\x7d"

def samplePayloadScored : Json := samplePayload "OTHER" [] [("Score", .float (.fin (3 / 2)))]

omit [Runtime] in
/-- A request with a float in its event data. -/
theorem sendRequest_decodes_scored : ∃ a,
    (@sendRequest decimalRuntime sampleEnv sampleTick sampleKafka ⟨sampleUrl, some samplePayloadScored⟩
      sampleService).attempts = [a] ∧
    loads (@Message.payloadBytes decimalRuntime a.message) = .ok (.obj a.message.data.entries) := by
  let _ : Runtime := decimalRuntime
  have hdata : (sendRequest sampleEnv sampleTick sampleKafka ⟨sampleUrl, some samplePayloadScored⟩
      sampleService).attempts.map (fun a => a.message.data.entries) =
      [[("tvid", .str "tv1"), ("client", .str "c1"), ("tvevent_timestamp", .int 1700000000000),
        ("tvevent_eventtype", .str "OTHER"), ("zoo", .str "unknown"),
        ("score", .float (.fin (3 / 2)))]] := by decide +kernel
  obtain ⟨a, hone, hentries⟩ := List.map_eq_singleton_iff.mp hdata
  obtain ⟨out, hidden, -, hsame, hloads⟩ := @sendRequest_decodes decimalRuntime sampleEnv sampleTick
    sampleKafka ⟨sampleUrl, some samplePayloadScored⟩ sampleService sampleText.toList
    samplePayloadScored rfl (by decide +kernel) a (by rw [hone]; exact List.mem_cons_self)
  refine ⟨a, hone, ?_⟩
  rw [hsame] at hentries ⊢
  apply hloads
  rw [hentries]
  refine ⟨trivial, ?_⟩
  simp only [Json.children, List.map_cons, List.map_nil, List.forall_mem_cons]
  have hfloat : ReprReads (.float (.fin (3 / 2))) := fun _ => by decide +kernel
  exact ⟨.leaf trivial rfl, .leaf trivial rfl, .leaf trivial rfl, .leaf trivial rfl,
    .leaf trivial rfl, .leaf hfloat rfl, fun v hv => absurd hv List.not_mem_nil⟩

end Samples

end TvEvents
