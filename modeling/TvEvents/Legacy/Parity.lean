import TvEvents.Accept.Sufficient
import TvEvents.Delivery.Protocol
import TvEvents.Legacy.Writes

namespace TvEvents.Legacy

open OrderedMap JsonText FirstFailure

section Generator

variable [Runtime]

def zooEnv (z : String) : Env := fun name => if name = "ZOO" then some z else none

/-- The leaves of native event data, marked as kept where their member is: legacy leaves out every
member whose name is a part of the word. -/
def markedLeaves (ed : List (String × Json)) : List (Bool × (String × Json)) :=
  ed.flatMap fun e => if e.1 = "Timestamp" then []
    else (memberLeaves "" e.1 e.2).map (Prod.mk (!inStr e.1 "Timestamp"))

/-- These leaves where they stand: after those of the TV event and the envelope keys, before the keys
of the class. -/
def markedWrites (z : String) (p : Json) : List (Bool × (String × Json)) :=
  (tvEventLeaves p ++ envelopeWrites (zooEnv z) p).map (Prod.mk true) ++
    markedLeaves (eventDataOf p) ++ (classWrites p).map (Prod.mk true)

/-- When a legacy output is the rebuilt one too. Tuner data: a start time is set. Native telemetry:
every leaf that only legacy leaves out can be left out where it stands. -/
def CarriesOver (z : String) (p : Json) : Prop :=
  match kindOf p with
  | some .nativeAppTelemetry => ∀ before leaf after,
      markedWrites z p = before ++ (false, leaf) :: after → Redundant before leaf after
  | some .acrTunerData =>
    ∀ ts, lastWrite "programdata_starttime" (TvEvents.eventDataLeaves p) = some ts →
      ts ≠ .null ∧ ts ≠ .str ""
  | _ => True

theorem outputWrites_eq {p : Json} (h : kindOf p ≠ some .nativeAppTelemetry) (env : Env) :
    outputWrites env p = TvEvents.outputWrites env p := by
  rw [outputWrites, kindLeaves_eq h]
  rfl

theorem markedLeaves_all (ed : List (String × Json)) :
    (markedLeaves ed).map Prod.snd = TvEvents.kindLeaves (some .nativeAppTelemetry) ed := by
  induction ed with
  | nil => simp [markedLeaves, TvEvents.kindLeaves, leaves]
  | cons e ed ih =>
    have hname : ["Timestamp"].contains e.1 = decide (e.1 = "Timestamp") := by simp
    have hrest : (markedLeaves ed).map Prod.snd =
        leaves (fun k => ["Timestamp"].contains k) "" ed := ih
    rw [markedLeaves, List.flatMap_cons, List.map_append, ← markedLeaves, hrest]
    rw [TvEvents.kindLeaves, TvEvents.eventDataIgnored, leaves, hname]
    by_cases hts : e.1 = "Timestamp"
    · simp [hts]
    · simp [hts, Function.comp_def]

theorem markedLeaves_kept (ed : List (String × Json)) :
    keptWrites (markedLeaves ed) = kindLeaves (some .nativeAppTelemetry) ed := by
  have hself : inStr "Timestamp" "Timestamp" = true := by decide
  induction ed with
  | nil => simp [markedLeaves, kindLeaves, leaves, keptWrites]
  | cons e ed ih =>
    have hrest : keptWrites (markedLeaves ed) = leaves (fun k => inStr k "Timestamp") "" ed := ih
    rw [markedLeaves, List.flatMap_cons, keptWrites_append, ← markedLeaves, hrest]
    show _ = leaves (fun k => inStr k "Timestamp") "" (e :: ed)
    rw [leaves]
    by_cases hts : e.1 = "Timestamp"
    · simp [hts, hself, keptWrites]
    · cases hdrop : inStr e.1 "Timestamp" with
      | true => simp [hts, keptWrites]
      | false => simp [hts, keptWrites_all]

/-- So native telemetry carries over when the two generators write one map. -/
theorem markedWrites_sameMap {z : String} {p : Json} (hkind : kindOf p = some .nativeAppTelemetry) :
    SameMap (outputWrites (zooEnv z) p) (TvEvents.outputWrites (zooEnv z) p) ↔
      ∀ before leaf after, markedWrites z p = before ++ (false, leaf) :: after →
        Redundant before leaf after := by
  have hall : (markedWrites z p).map Prod.snd = TvEvents.outputWrites (zooEnv z) p := by
    rw [markedWrites, List.map_append, List.map_append, markedLeaves_all, ← hkind]
    simp [TvEvents.outputWrites, eventDataLeaves, Function.comp_def]
  have hkept : keptWrites (markedWrites z p) = outputWrites (zooEnv z) p := by
    rw [markedWrites, keptWrites_append, keptWrites_append, markedLeaves_kept, keptWrites_all,
      keptWrites_all, ← hkind, outputWrites]
  rw [← sameMap_kept_iff, hall, hkept]

/-- Native telemetry carries over when no other member of its event data is named by a part of the
word `Timestamp`. -/
theorem carriesOver_of_names {z : String} {p : Json} (hkind : kindOf p = some .nativeAppTelemetry)
    (h : ∀ k ∈ (eventDataOf p).map Prod.fst, inStr k "Timestamp" = true → k = "Timestamp") :
    CarriesOver z p := by
  rw [CarriesOver, hkind]
  intro before leaf after hsplit
  have hmem : (false, leaf) ∈ markedWrites z p := by
    rw [hsplit]
    exact List.mem_append_right _ List.mem_cons_self
  have hkept : (false, leaf) ∈ markedLeaves (eventDataOf p) := by
    simpa [markedWrites] using hmem
  obtain ⟨e, he, hleaf⟩ := List.mem_flatMap.mp hkept
  split_ifs at hleaf with hts
  · cases hleaf
  · obtain ⟨w, -, hw⟩ := List.mem_map.mp hleaf
    have hname : inStr e.1 "Timestamp" = true := by simpa using congrArg Prod.fst hw
    exact absurd (h e.1 (List.mem_map_of_mem he) hname) hts

/-- It does not when such a member holds a leaf whose key nothing else writes. -/
theorem not_carriesOver_of_lone_leaf {z k : String} {v : Json} {p : Json}
    (hkind : kindOf p = some .nativeAppTelemetry) (hmem : (k, v) ∈ eventDataOf p)
    (hname : k ≠ "Timestamp") (hv : v.isObj = false)
    (hlone : flatName "" k ∉ (outputWrites (zooEnv z) p).map Prod.fst) : ¬CarriesOver z p := by
  intro h
  rw [CarriesOver, hkind] at h
  have hlast := ((markedWrites_sameMap hkind).mpr h).2 (flatName "" k)
  have hkept : ["Timestamp"].contains k = false := by simpa using hname
  have hleaf : (flatName "" k, v) ∈ TvEvents.eventDataLeaves p := by
    rw [eventDataLeaves, hkind]
    exact mem_leaves hmem hkept hv
  have hwrite : flatName "" k ∈ (TvEvents.outputWrites (zooEnv z) p).map Prod.fst :=
    List.mem_map.mpr ⟨_, List.mem_append_left _ (List.mem_append_right _ hleaf), rfl⟩
  rw [lastWrite_eq_none hlone] at hlast
  rw [← lastWrite_isSome, ← hlast] at hwrite
  cases hwrite

/-- Of the start times that the legacy check lets pass, the rebuilt one refuses those not set. -/
private theorem secondsOk_iff {ts : Json} (h : StartTimeRead ts) :
    SecondsOk ts ↔ ts ≠ .null ∧ ts ≠ .str "" := by
  constructor
  · intro hok
    obtain ⟨n, hn, -⟩ := hok
    constructor
    · intro heq
      subst heq
      cases hn
    · intro heq
      subst heq
      simp [toInt, intOfStr, unsignedOf] at hn
  · intro hset
    rcases h with h | h | h
    · exact absurd h hset.1
    · exact absurd h hset.2
    · exact h

private theorem generable_iff {p : Json} (h : Generated p) :
    Generable p ↔ ∀ kind, kindOf p = some kind → KindGenerable kind (eventDataOf p) := by
  have hdata := h.eventData
  constructor
  · intro hgen kind hkind
    have hread := hgen.eventData
    rw [hkind] at hread
    exact hread.2
  · intro hgen
    refine ⟨h.tvEvent, h.eventType, h.timestamp, ?_⟩
    cases hclass : kindOf p with
    | none =>
      rw [hclass] at hdata
      obtain ⟨v, hv, hiter⟩ := hdata
      intro v' hv'
      rwa [← Option.some.inj (hv.symm.trans hv')]
    | some kind =>
      rw [hclass] at hdata
      exact ⟨hdata.1, hgen kind hclass⟩

private theorem kindGenerable_iff {kind : EventTypeClass} {ed : List (String × Json)}
    (h : KindRead kind ed) :
    KindGenerable kind ed ↔ (kind = .acrTunerData → ∀ ts, lastWrite "programdata_starttime"
      (TvEvents.kindLeaves (some .acrTunerData) ed) = some ts → ts ≠ .null ∧ ts ≠ .str "") := by
  cases kind with
  | nativeAppTelemetry => exact ⟨fun _ hother => (by cases hother), fun _ => h⟩
  | acrTunerData =>
    constructor
    · intro hgen _ ts hts
      exact (secondsOk_iff (h ts hts)).mp (hgen ts hts)
    · intro hset ts hts
      exact (secondsOk_iff (h ts hts)).mpr (hset rfl ts hts)
  | platformTelemetry => exact h.elim

/-- The rebuilt generator makes the legacy output exactly when the payload carries over. -/
theorem generateOutputJson_carries_iff {env lenv : Env} {p : Json} {out : PyDict}
    (hzoo : zoo lenv = .str (TvEvents.zoo env)) (h : generateOutputJson lenv p = .ok out) :
    TvEvents.generateOutputJson env p = .ok out ↔ CarriesOver (TvEvents.zoo env) p := by
  obtain ⟨hread, hout⟩ := generateOutputJson_writes hzoo h
  have hdata := hread.eventData
  rw [generateOutputJson_iff, hout, ofWrites_eq_iff, generable_iff hread, CarriesOver]
  cases hclass : kindOf p with
  | none =>
    have hother : kindOf p ≠ some .nativeAppTelemetry := by simp [hclass]
    rw [outputWrites_eq hother]
    simp [SameMap.refl]
  | some kind =>
    rw [hclass] at hdata
    simp only [Option.some.injEq, forall_eq', kindGenerable_iff hdata.2]
    cases kind with
    | nativeAppTelemetry =>
      -- of the environment only the zoo is written
      have hzooEnv : TvEvents.outputWrites (zooEnv (TvEvents.zoo env)) p =
          TvEvents.outputWrites env p := rfl
      have hzooEnv' : outputWrites (zooEnv (TvEvents.zoo env)) p = outputWrites env p := rfl
      rw [← markedWrites_sameMap hclass, hzooEnv, hzooEnv']
      simp
    | acrTunerData =>
      have hother : kindOf p ≠ some .nativeAppTelemetry := by simp [hclass]
      rw [outputWrites_eq hother, eventDataLeaves, hclass]
      simp [SameMap.refl]
    | platformTelemetry => exact hdata.2.elim

end Generator

section Destinations

variable [Runtime]

/-- The two destinations, each behind a toggle. -/
inductive Sink
  | evergreen
  | legacy

def sinks (env : Env) : List Sink :=
  (if toggle env "SEND_EVERGREEN" then [.evergreen] else []) ++
    (if toggle env "SEND_LEGACY" then [.legacy] else [])

def firehoseOf (env : Env) (debug : Bool) : Sink → Option String
  | .evergreen =>
    if debug then env "DEBUG_EVERGREEN_FIREHOSE_NAME" else env "EVERGREEN_FIREHOSE_NAME"
  | .legacy => if debug then env "DEBUG_LEGACY_FIREHOSE_NAME" else env "LEGACY_FIREHOSE_NAME"

def topicOf (env : Env) (debug : Bool) : Sink → String
  | .evergreen =>
    if debug then getenv env "KAFKA_TOPIC_EVERGREEN_DEBUG" "evergreen-tvevents-debug"
    else getenv env "KAFKA_TOPIC_EVERGREEN" "evergreen-tvevents"
  | .legacy =>
    if debug then getenv env "KAFKA_TOPIC_LEGACY_DEBUG" "legacy-tvevents-debug"
    else getenv env "KAFKA_TOPIC_LEGACY" "legacy-tvevents"

theorem validFirehoses_sinks (env : Env) (debug : Bool) :
    validFirehoses env debug = (sinks env).map (firehoseOf env debug) := by
  unfold validFirehoses sinks
  cases debug <;> cases toggle env "SEND_EVERGREEN" <;> cases toggle env "SEND_LEGACY" <;> rfl

theorem getKafkaTopics_sinks (env : Env) (debug : Bool) :
    getKafkaTopics env debug = (sinks env).map (topicOf env debug) := by
  unfold getKafkaTopics sinks
  cases debug <;> cases toggle env "SEND_EVERGREEN" <;> cases toggle env "SEND_LEGACY" <;> rfl

structure Delivery where
  sink : Sink
  debug : Bool
  data : PyDict

namespace Delivery

def record (env : Env) (d : Delivery) : Record := ⟨firehoseOf env d.debug d.sink, d.data⟩

def attempt (env : Env) (d : Delivery) : Attempt :=
  ⟨messageTo d.data (topicOf env d.debug d.sink), none⟩

theorem text_eq (env lenv : Env) (d : Delivery) :
    (d.attempt env).message.payloadBytes = (d.record lenv).text := rfl

end Delivery

/-- What both services deliver for an output whose obfuscation is decided. -/
def deliveries (env : Env) (out : PyDict) (obfuscate : Bool) : List Delivery :=
  (if obfuscate && toggle env "TVEVENTS_DEBUG" then (sinks env).map fun k => ⟨k, true, out⟩
    else []) ++
  (sinks env).map fun k => ⟨k, false, delivered out obfuscate⟩

theorem planned_deliveries (env : Env) (out : PyDict) (obfuscate : Bool) :
    (planned env out obfuscate).map (fun m => (⟨m, none⟩ : Attempt)) =
      (deliveries env out obfuscate).map (Delivery.attempt env) := by
  have hmain : ∀ topic, messageTo (delivered out obfuscate) topic =
      ⟨topic, delivered out obfuscate, tvidKey out⟩ := messageTo_delivered out obfuscate
  unfold planned deliveries
  rw [getKafkaTopics_sinks, getKafkaTopics_sinks, List.map_append, List.map_append]
  congr 1
  · split_ifs
    · simp [Delivery.attempt, messageTo, tvidKey]
    · rfl
  · simp [Delivery.attempt, hmain]

/-- The legacy calls are those of the deliveries, once the decision is made. -/
theorem pushChangesToFirehose_eq_ok {env : Env} {blacklist : Held} {p : Json}
    {records : List Record} :
    pushChangesToFirehose env blacklist p = .ok records ↔
      ∃ out obfuscate, generateOutputJson env p = .ok out ∧
        shouldObfuscateChannel blacklist out = .ok obfuscate ∧
        records = (deliveries env out obfuscate).map (Delivery.record env) := by
  have hsend : ∀ (out : PyDict) (debug : Bool), sendToValidFirehoses env out debug =
      ((sinks env).map fun k => (⟨k, debug, out⟩ : Delivery)).map (Delivery.record env) := by
    intro out debug
    rw [sendToValidFirehoses, validFirehoses_sinks, List.map_map, List.map_map]
    rfl
  simp only [pushChangesToFirehose, Except.bind_eq_ok]
  constructor
  · intro hparts
    obtain ⟨out, hout, obfuscate, hshould, hrecords⟩ := hparts
    refine ⟨out, obfuscate, hout, hshould, ?_⟩
    cases obfuscate <;> cases hdebug : toggle env "TVEVENTS_DEBUG" <;>
      simp_all [deliveries, delivered]
  · intro hparts
    obtain ⟨out, obfuscate, hout, hshould, rfl⟩ := hparts
    refine ⟨out, hout, obfuscate, hshould, ?_⟩
    cases obfuscate <;> cases hdebug : toggle env "TVEVENTS_DEBUG" <;>
      simp_all [deliveries, delivered]

end Destinations

section Push

variable [Runtime]

/-- Both services run with one zoo, one set of destinations and one debug toggle. -/
structure SameSetting (lenv env : Env) : Prop where
  zoo : zoo lenv = .str (TvEvents.zoo env)
  evergreen : lenv "SEND_EVERGREEN" = env "SEND_EVERGREEN"
  legacy : lenv "SEND_LEGACY" = env "SEND_LEGACY"
  debug : lenv "TVEVENTS_DEBUG" = env "TVEVENTS_DEBUG"

structure SendsSucceed (kafka : Kafka) : Prop where
  available : kafka.available = true
  outcome : ∀ n topic, kafka.outcome n topic = none

/-- The rebuilt push completes, and destination by destination it sends the dict of the legacy call,
and so its text. -/
def Matches (lenv env : Env) (records : List Record) (pushed : Pushed) : Prop :=
  pushed.result = .ok () ∧
    (∃ ds : List Delivery, records = ds.map (Delivery.record lenv) ∧
      pushed.attempts = ds.map (Delivery.attempt env)) ∧
    pushed.attempts.map (fun a => a.message.payloadBytes) = records.map Record.text

/-- In every common setting with this zoo and on every common blacklist, the rebuilt push matches a
legacy push that completes. -/
def DeliversLikeLegacy (z : String) (p : Json) : Prop :=
  ∀ (lenv env : Env) (t : Tick) (kafka : Kafka) (s : BlacklistCache) (blacklist : Held)
    (records : List Record), SameSetting lenv env → TvEvents.zoo env = z → SendsSucceed kafka →
    (s.getChannelIds t).1 = .ok blacklist → pushChangesToFirehose lenv blacklist p = .ok records →
    Matches lenv env records (pushChangesToKafka env t kafka p s)

theorem deliveries_setting {lenv env : Env} (h : SameSetting lenv env) (out : PyDict)
    (obfuscate : Bool) : deliveries lenv out obfuscate = deliveries env out obfuscate := by
  have htoggle : ∀ name, lenv name = env name → toggle lenv name = toggle env name := by
    intro name hname
    rw [toggle, toggle, getenv, getenv, hname]
  rw [deliveries, deliveries, sinks, sinks, htoggle _ h.evergreen, htoggle _ h.legacy,
    htoggle _ h.debug]

theorem shouldObfuscateChannel_agrees {t : Tick} {s : BlacklistCache} {blacklist : Held}
    {out : PyDict} {obfuscate : Bool} (hlist : (s.getChannelIds t).1 = .ok blacklist)
    (h : shouldObfuscateChannel blacklist out = .ok obfuscate) :
    (TvEvents.shouldObfuscateChannel t out s).1 = .ok obfuscate := by
  unfold shouldObfuscateChannel isBlacklistedChannel at h
  unfold TvEvents.shouldObfuscateChannel BlacklistCache.isBlacklisted
  rcases hids : s.getChannelIds t with ⟨result, s'⟩
  rw [hids] at hlist
  obtain rfl : result = .ok blacklist := hlist
  split_ifs at h ⊢ <;> exact h

omit [Runtime] in
theorem deliverPlan_succeeds {kafka : Kafka} (h : SendsSucceed kafka) (plan : List Message) :
    deliverPlan kafka plan = (.ok (), plan.map fun m => ⟨m, none⟩) := by
  have hnone : ∀ n m, callOutcome kafka n m = none := fun n m => h.outcome n m.topic
  rw [deliverPlan, h.available, performed_all hnone, Bool.true_or, if_pos rfl, report, failure_all,
    List.map_map]
  rfl

theorem pushChangesToKafka_succeeds {env : Env} {t : Tick} {kafka : Kafka} {p : Json}
    {s : BlacklistCache} {out : PyDict} {obfuscate : Bool} (hkafka : SendsSucceed kafka)
    (hgen : TvEvents.generateOutputJson env p = .ok out)
    (hshould : (TvEvents.shouldObfuscateChannel t out s).1 = .ok obfuscate) :
    (pushChangesToKafka env t kafka p s).result = .ok () ∧
      (pushChangesToKafka env t kafka p s).attempts =
        (deliveries env out obfuscate).map (Delivery.attempt env) := by
  rcases hdecision : TvEvents.shouldObfuscateChannel t out s with ⟨decision, cache⟩
  rw [hdecision] at hshould
  obtain rfl : decision = .ok obfuscate := hshould
  simp only [pushChangesToKafka, hgen, hdecision, deliver_plan, deliverPlan_succeeds hkafka,
    planned_deliveries]
  exact ⟨trivial, trivial⟩

/-- The setting that shows every output: one destination, and its stream for debugging. -/
def showAll (z : String) : Env := fun name =>
  if name = "ZOO" ∨ name = "FLASK_ENV" then some z
  else if name = "SEND_EVERGREEN" ∨ name = "TVEVENTS_DEBUG" then some "true" else none

private theorem showAll_toggles (z : String) :
    toggle (showAll z) "SEND_EVERGREEN" = true ∧ toggle (showAll z) "TVEVENTS_DEBUG" = true ∧
      toggle (showAll z) "SEND_LEGACY" = false := by
  have htrue : lower "true" = "true" := (Runtime.lower_ascii "true" (by decide)).trans (by decide)
  have hfalse : lower "false" = "false" := (Runtime.lower_ascii "false" (by decide)).trans (by decide)
  simp [toggle, getenv, showAll, htrue, hfalse]

private theorem deliveries_showAll (z : String) (out : PyDict) (obfuscate : Bool) :
    ((deliveries (showAll z) out obfuscate).map Delivery.data).head? = some out := by
  obtain ⟨hevergreen, hdebug, hlegacy⟩ := showAll_toggles z
  cases obfuscate <;> simp [deliveries, sinks, hevergreen, hdebug, hlegacy, delivered]

private theorem generateOutputJson_zoo {lenv lenv' : Env} (h : zoo lenv = zoo lenv') (p : Json) :
    generateOutputJson lenv p = generateOutputJson lenv' p := by
  simp only [generateOutputJson, h]

theorem shouldObfuscateChannel_list (ids : List ChannelId) (out : PyDict) :
    ∃ obfuscate, shouldObfuscateChannel (.list ids) out = .ok obfuscate := by
  unfold shouldObfuscateChannel isBlacklistedChannel
  split_ifs
  · exact ⟨true, rfl⟩
  · exact ⟨false, rfl⟩
  · exact ⟨_, rfl⟩

/-- Where both services show everything, a match means that they generate the same output. -/
private theorem generates_of_matches {z : String} {p : Json} {out : PyDict} {obfuscate : Bool}
    {t : Tick} {kafka : Kafka} {s : BlacklistCache} (hkafka : SendsSucceed kafka)
    (h : Matches (showAll z) (showAll z)
      ((deliveries (showAll z) out obfuscate).map (Delivery.record (showAll z)))
      (pushChangesToKafka (showAll z) t kafka p s)) :
    TvEvents.generateOutputJson (showAll z) p = .ok out := by
  obtain ⟨hresult, ⟨ds, hrecords, hattempts⟩, -⟩ := h
  rcases pushChangesToKafka_cases (showAll z) t kafka p s with
    ⟨e, herror, -⟩ | ⟨out', obfuscate', cache, hgen, hshould, -⟩
  · rw [hresult] at herror
    cases herror
  · have hpushed := (pushChangesToKafka_succeeds hkafka hgen (by rw [hshould])).2
    have hlegacy := congrArg (List.map Record.data) hrecords
    have hrebuilt := congrArg (List.map fun a => a.message.data) (hpushed.symm.trans hattempts)
    rw [List.map_map, List.map_map] at hlegacy hrebuilt
    have hdata : (deliveries (showAll z) out obfuscate).map Delivery.data =
        (deliveries (showAll z) out' obfuscate').map Delivery.data := hlegacy.trans hrebuilt.symm
    have hhead := congrArg List.head? hdata
    rw [deliveries_showAll, deliveries_showAll] at hhead
    rw [hgen, Option.some.inj hhead]

/-- A payload with a legacy output is delivered as the legacy service delivers it exactly when it
carries over. -/
theorem deliversLikeLegacy_iff {z : String} {lenv : Env} {p : Json} {out : PyDict}
    (hzoo : zoo lenv = .str z) (h : generateOutputJson lenv p = .ok out) :
    DeliversLikeLegacy z p ↔ CarriesOver z p := by
  constructor
  · intro hall
    have hshow : zoo (showAll z) = .str z := rfl
    have hgen : generateOutputJson (showAll z) p = .ok out := by
      rw [← h]
      exact generateOutputJson_zoo (hshow.trans hzoo.symm) p
    obtain ⟨obfuscate, hshould⟩ := shouldObfuscateChannel_list [] out
    have hkafka : SendsSucceed ⟨true, fun _ _ => none⟩ := ⟨rfl, fun _ _ => rfl⟩
    have hmatch := hall (showAll z) (showAll z) sampleTick ⟨true, fun _ _ => none⟩
      ⟨some (.list []), 0, .absent⟩ (.list []) _ ⟨rfl, rfl, rfl, rfl⟩ rfl hkafka rfl
      (pushChangesToFirehose_eq_ok.mpr ⟨out, obfuscate, hgen, hshould, rfl⟩)
    exact (@generateOutputJson_carries_iff _ (showAll z) _ _ _ rfl hgen).mp
      (generates_of_matches hkafka hmatch)
  · intro hcarries lenv' env t kafka s blacklist records hsetting hz hkafka hlist hpush
    obtain ⟨out', obfuscate, hgen, hshould, hrecords⟩ := pushChangesToFirehose_eq_ok.mp hpush
    rw [← hz] at hcarries
    have hrebuilt := (generateOutputJson_carries_iff hsetting.zoo hgen).mpr hcarries
    obtain ⟨hresult, hattempts⟩ :=
      pushChangesToKafka_succeeds hkafka hrebuilt (shouldObfuscateChannel_agrees hlist hshould)
    rw [deliveries_setting hsetting] at hrecords
    refine ⟨hresult, ⟨_, hrecords, hattempts⟩, ?_⟩
    rw [hrecords, hattempts, List.map_map, List.map_map]
    apply List.map_congr_left
    intro d _
    exact Delivery.text_eq env lenv' d

end Push

section Samples

def sampleNative : Json :=
  samplePayload "NATIVEAPP_TELEMETRY" [] [("Timestamp", .int 1700000000000), ("AppId", .str "app")]

theorem deliversLikeLegacy_native : @DeliversLikeLegacy asciiRuntime "prod" sampleNative := by
  let _ : Runtime := asciiRuntime
  have hgen : generateOutputJson (showAll "prod") sampleNative =
      .ok (ofWrites (outputWrites (showAll "prod") sampleNative)) := by decide +kernel
  have hkind : kindOf sampleNative = some .nativeAppTelemetry := by decide +kernel
  have hnames : ∀ k ∈ (eventDataOf sampleNative).map Prod.fst,
      inStr k "Timestamp" = true → k = "Timestamp" := by decide +kernel
  exact (deliversLikeLegacy_iff rfl hgen).mpr (carriesOver_of_names hkind hnames)

def sampleUnset : Json :=
  samplePayload "ACR_TUNER_DATA" [] [("programData", .obj [("startTime", .null)])]

/-- The legacy service delivers it, the rebuilt one fails. -/
theorem unset_start_time_undelivered :
    (@pushChangesToFirehose asciiRuntime (showAll "prod") (.list []) sampleUnset).isOk = true ∧
      (@pushChangesToKafka asciiRuntime (showAll "prod") sampleTick sampleKafka sampleUnset
        ⟨some (.list []), 0, .absent⟩).result.isOk = false ∧
      ¬@DeliversLikeLegacy asciiRuntime "prod" sampleUnset := by
  let _ : Runtime := asciiRuntime
  have hlegacy : (pushChangesToFirehose (showAll "prod") (.list []) sampleUnset).isOk = true := by
    decide +kernel
  have hrebuilt : (pushChangesToKafka (showAll "prod") sampleTick sampleKafka sampleUnset
      ⟨some (.list []), 0, .absent⟩).result.isOk = false := by
    decide +kernel
  refine ⟨hlegacy, hrebuilt, ?_⟩
  intro h
  cases hpush : pushChangesToFirehose (showAll "prod") (.list []) sampleUnset with
  | error e =>
    rw [hpush] at hlegacy
    cases hlegacy
  | ok records =>
    have hkafka : SendsSucceed sampleKafka := ⟨rfl, fun _ _ => rfl⟩
    have hmatch := h (showAll "prod") (showAll "prod") sampleTick sampleKafka
      ⟨some (.list []), 0, .absent⟩ (.list []) records ⟨rfl, rfl, rfl, rfl⟩ rfl hkafka rfl hpush
    rw [hmatch.1] at hrebuilt
    cases hrebuilt

end Samples

end TvEvents.Legacy
