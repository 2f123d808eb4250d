import TvEvents.Accept.Sufficient
import TvEvents.Delivery.Protocol

namespace TvEvents

open OrderedMap FirstFailure

section Redaction

variable [Runtime]

/-- One name, and one value unless the name is that of a channel field and both values are plain. -/
def SameButChannel (m m' : String × Json) : Prop :=
  m.1 = m'.1 ∧ (m.2 = m'.2 ∨ lower m.1 ∈ channelFields ∧ m.2.isObj = false ∧ m'.2.isObj = false)

/-- Objects whose members differ in plain channel values only; any other values are equal. -/
def PartVariant : Option Json → Option Json → Prop
  | some (.obj kvs), some (.obj kvs') => List.Forall₂ SameButChannel kvs kvs'
  | v, v' => v = v'

/-- Payloads that differ at most in plain values of the channel members of their two parts. -/
structure ChannelVariant (p p' : Json) : Prop where
  tvEvent : PartVariant (p.member? "TvEvent") (p'.member? "TvEvent")
  eventData : PartVariant (p.member? "EventData") (p'.member? "EventData")

theorem sameButChannel_refl (kvs : List (String × Json)) : List.Forall₂ SameButChannel kvs kvs := by
  induction kvs with
  | nil => exact .nil
  | cons m kvs ih => exact .cons ⟨rfl, .inl rfl⟩ ih

theorem PartVariant.membersOf {v v' : Option Json} (h : PartVariant v v') :
    List.Forall₂ SameButChannel (membersOf v) (membersOf v') := by
  unfold PartVariant at h
  split at h
  · exact h
  · rw [h]
    exact sameButChannel_refl _

theorem find_variant {kvs kvs' : List (String × Json)} (h : List.Forall₂ SameButChannel kvs kvs')
    {k : String} (hk : lower k ∉ channelFields) : find k kvs = find k kvs' := by
  induction h with
  | nil => rfl
  | @cons m m' kvs kvs' hm _ ih =>
    rw [find, find, ih, ← hm.1]
    split_ifs with heq
    · rcases hm.2 with hv | ⟨hchannel, -⟩
      · rw [hv]
      · exact absurd (heq ▸ hchannel) hk
    · rfl

/-- Leaf by leaf the variants agree off the channel fields. -/
theorem leaves_variant {kvs kvs' : List (String × Json)} (h : List.Forall₂ SameButChannel kvs kvs')
    (ignored : String → Bool) : AgreeOff channelFields (leaves ignored "" kvs) (leaves ignored "" kvs') := by
  induction h with
  | nil => exact .refl _ _
  | @cons m m' kvs kvs' hm _ ih =>
    obtain ⟨k, v⟩ := m
    obtain ⟨k', v'⟩ := m'
    obtain ⟨hk, hv⟩ := hm
    obtain rfl : k = k' := hk
    rw [leaves, leaves]
    refine AgreeOff.append ?_ ih
    split_ifs
    · exact .refl _ _
    · rcases hv with heq | ⟨hchannel, hplain, hplain'⟩
      · obtain rfl : v = v' := heq
        exact .refl _ _
      · rw [memberLeaves_plain hplain, memberLeaves_plain hplain']
        have hname : flatName "" k = lower k := by simp [flatName]
        refine .cons ⟨rfl, fun hoff => ?_⟩ .nil
        exact absurd (hname ▸ hchannel) hoff

omit [Runtime] in
/-- A name of ASCII letters whose lower-case form is no channel field. -/
def OffChannel (k : String) : Prop := IsAscii k ∧ asciiLower k ∉ channelFields

instance (k : String) : Decidable (OffChannel k) :=
  inferInstanceAs (Decidable (IsAscii k ∧ asciiLower k ∉ channelFields))

theorem OffChannel.lower {k : String} (h : OffChannel k) : lower k ∉ channelFields := by
  rw [Runtime.lower_ascii k h.1]
  exact h.2

private theorem tvEventOf_variant {p p' : Json} (h : ChannelVariant p p') {k : String}
    (hk : OffChannel k) : find k (tvEventOf p) = find k (tvEventOf p') :=
  find_variant h.tvEvent.membersOf hk.lower

private theorem eventDataOf_variant {p p' : Json} (h : ChannelVariant p p') {k : String}
    (hk : OffChannel k) : find k (eventDataOf p) = find k (eventDataOf p') :=
  find_variant h.eventData.membersOf hk.lower

private theorem kindLeaves_variant {p p' : Json} (h : ChannelVariant p p')
    (kind : Option EventTypeClass) :
    AgreeOff channelFields (kindLeaves kind (eventDataOf p)) (kindLeaves kind (eventDataOf p')) :=
  leaves_variant h.eventData.membersOf _

theorem kindOf_variant {p p' : Json} (h : ChannelVariant p p') : kindOf p = kindOf p' := by
  unfold kindOf eventTypeOf tvEventField
  rw [tvEventOf_variant h (by decide +kernel)]

omit [Runtime] in
theorem namespaceIn_congr {kvs kvs' : List (String × Json)} (ns : Json) (options : List String)
    (h : ∀ k ∈ options, find k kvs = find k kvs') :
    namespaceIn kvs ns options = namespaceIn kvs' ns options := by
  induction options generalizing ns with
  | nil => rfl
  | cons option options ih =>
    rw [namespaceIn, namespaceIn, h option List.mem_cons_self]
    exact ih _ (fun k hk => h k (List.mem_cons_of_mem _ hk))

theorem kindWrites_variant {p p' : Json} (h : ChannelVariant p p') (kind : EventTypeClass) :
    kindWrites kind (eventDataOf p) = kindWrites kind (eventDataOf p') := by
  cases kind with
  | nativeAppTelemetry =>
    simp only [kindWrites]
    rw [eventDataOf_variant h (by decide +kernel)]
  | acrTunerData =>
    simp only [kindWrites, startTimeWrites, heartbeatWrites]
    rw [(kindLeaves_variant h _).lastWrite (by decide), eventDataOf_variant h (by decide +kernel)]
  | platformTelemetry =>
    simp only [kindWrites, panelStateWrites]
    rw [(kindLeaves_variant h _).lastWrite (by decide)]

theorem routingWrites_variant {p p' : Json} (h : ChannelVariant p p') (kind : EventTypeClass) :
    routingWrites kind (tvEventOf p) (eventDataOf p) =
      routingWrites kind (tvEventOf p') (eventDataOf p') := by
  have hoptions : ∀ k ∈ namespaceOptions, OffChannel k := by decide +kernel
  unfold routingWrites
  cases kind with
  | nativeAppTelemetry =>
    unfold namespaceValue appidValue
    rw [namespaceIn_congr .null namespaceOptions (fun k hk => eventDataOf_variant h (hoptions k hk)),
      eventDataOf_variant h (by decide +kernel)]
  | acrTunerData =>
    unfold namespaceValue appidValue
    rw [namespaceIn_congr .null namespaceOptions (fun k hk => tvEventOf_variant h (hoptions k hk)),
      tvEventOf_variant h (by decide +kernel)]
  | platformTelemetry => rfl

theorem classWrites_variant {p p' : Json} (h : ChannelVariant p p') : classWrites p = classWrites p' := by
  unfold classWrites
  rw [kindOf_variant h]
  cases kindOf p' with
  | none => rfl
  | some kind => simp only [kindWrites_variant h, routingWrites_variant h]

/-- Write by write the outputs of variants agree off the channel fields. -/
theorem outputWrites_variant {p p' : Json} (h : ChannelVariant p p') (env : Env) :
    AgreeOff channelFields (outputWrites env p) (outputWrites env p') := by
  have htv : AgreeOff channelFields (tvEventLeaves p) (tvEventLeaves p') :=
    leaves_variant h.tvEvent.membersOf _
  have hed : AgreeOff channelFields (eventDataLeaves p) (eventDataLeaves p') := by
    unfold eventDataLeaves
    rw [kindOf_variant h]
    exact leaves_variant h.eventData.membersOf _
  have henvelope : envelopeWrites env p = envelopeWrites env p' := by
    unfold envelopeWrites eventTypeOf tvEventField
    have htimestamp : OffChannel "timestamp" := by decide +kernel
    have htype : OffChannel "EventType" := by decide +kernel
    rw [tvEventOf_variant h htimestamp, tvEventOf_variant h htype]
  unfold outputWrites
  rw [henvelope, classWrites_variant h]
  exact ((htv.append (.refl _ _)).append hed).append (.refl _ _)

/-- The hidden outputs of variants are one map. -/
theorem delivered_variant {p p' : Json} (h : ChannelVariant p p') (env : Env) :
    delivered (ofWrites (outputWrites env p)) true = delivered (ofWrites (outputWrites env p')) true := by
  have hmasked : ∀ ws : List (String × Json), delivered (ofWrites ws) true =
      ofWrites (ws ++ channelFields.map fun k => (k, obfuscatedStr)) := by
    intro ws
    rw [ofWrites_append]
    rfl
  have hagree : AgreeOff ((channelFields.map fun k => (k, obfuscatedStr)).map Prod.fst)
      (outputWrites env p) (outputWrites env p') := outputWrites_variant h env
  rw [hmasked, hmasked]
  exact hagree.ofWrites_masked

theorem tvidKey_variant {p p' : Json} (h : ChannelVariant p p') (env : Env) :
    tvidKey (ofWrites (outputWrites env p)) = tvidKey (ofWrites (outputWrites env p')) := by
  unfold tvidKey
  rw [ofWrites_get?, ofWrites_get?, (outputWrites_variant h env).lastWrite (by decide)]

def slots (env : Env) : List (Bool × String) :=
  (if toggle env "TVEVENTS_DEBUG" then (getKafkaTopics env true).map fun topic => (true, topic)
    else []) ++ (getKafkaTopics env false).map fun topic => (false, topic)

/-- The message of a hidden output for a slot: clear in the debug phase only. -/
def slotMessage (out : PyDict) (slot : Bool × String) : Message :=
  ⟨slot.2, if slot.1 then out else delivered out true, tvidKey out⟩

theorem planned_slots (env : Env) (out : PyDict) :
    planned env out true = (slots env).map (slotMessage out) := by
  unfold planned slots
  rw [Bool.true_and, List.map_append, List.map_map]
  cases toggle env "TVEVENTS_DEBUG" with
  | false => rfl
  | true => simp only [if_true, List.map_map]; rfl

theorem slots_main {env : Env} {slot : Bool × String} (hslot : slot ∈ slots env)
    (htopic : slot.2 ∉ getKafkaTopics env true) : slot.1 = false := by
  rcases List.mem_append.mp hslot with hdebug | hmain
  · split_ifs at hdebug
    · obtain ⟨topic, hmem, rfl⟩ := List.mem_map.mp hdebug
      exact absurd hmem htopic
    · cases hdebug
  · obtain ⟨topic, -, rfl⟩ := List.mem_map.mp hmain
    rfl

/-- The calls for topics that are no debug topic. -/
def mainCalls (env : Env) (as : List Attempt) : List Attempt :=
  as.filter fun a => !(getKafkaTopics env true).contains a.message.topic

/-- The run of the slots decides what is called; the outputs only fill the messages. -/
private theorem deliverPlan_slots (env : Env) (kafka : Kafka) (out : PyDict) :
    deliverPlan kafka (planned env out true) =
      if kafka.available || (slots env).isEmpty then
        (resultOf (failure (performed (fun n slot => kafka.outcome n slot.2) 0 (slots env))),
          (performed (fun n slot => kafka.outcome n slot.2) 0 (slots env)).map
            fun a => ⟨slotMessage out a.1, a.2⟩)
      else (.error (.builtin .importError), []) := by
  have hcall : (fun n slot => callOutcome kafka n (slotMessage out slot)) =
      fun (n : ℕ) (slot : Bool × String) => kafka.outcome n slot.2 := rfl
  unfold deliverPlan report
  rw [planned_slots, List.isEmpty_map, performed_map, failure_map, hcall, List.map_map]
  rfl

/-- Two runs on payloads that differ in plain channel values, both hidden, call the main topics with
the same keys and the same bytes. -/
theorem pushChangesToKafka_hides_channel {env : Env} {t : Tick} {kafka : Kafka} {p p' : Json}
    {out out' : PyDict} {s cache cache' : BlacklistCache} (hvariant : ChannelVariant p p')
    (hgen : generateOutputJson env p = .ok out) (hgen' : generateOutputJson env p' = .ok out')
    (hhidden : shouldObfuscateChannel t out s = (.ok true, cache))
    (hhidden' : shouldObfuscateChannel t out' s = (.ok true, cache')) :
    mainCalls env (pushChangesToKafka env t kafka p s).attempts =
        mainCalls env (pushChangesToKafka env t kafka p' s).attempts ∧
      (pushChangesToKafka env t kafka p s).result =
        (pushChangesToKafka env t kafka p' s).result := by
  obtain ⟨-, rfl⟩ := (generateOutputJson_iff env p out).mp hgen
  obtain ⟨-, rfl⟩ := (generateOutputJson_iff env p' out').mp hgen'
  have hmessage : ∀ slot ∈ slots env, slot.2 ∉ getKafkaTopics env true →
      slotMessage (ofWrites (outputWrites env p)) slot =
        slotMessage (ofWrites (outputWrites env p')) slot := by
    intro slot hslot htopic
    unfold slotMessage
    rw [slots_main hslot htopic, delivered_variant hvariant, tvidKey_variant hvariant]
    rfl
  unfold pushChangesToKafka
  simp only [hgen, hgen', hhidden, hhidden', deliver_plan, deliverPlan_slots]
  cases kafka.available || (slots env).isEmpty with
  | false => exact ⟨rfl, rfl⟩
  | true =>
    refine ⟨?_, rfl⟩
    simp only [if_true, mainCalls, List.filter_map]
    apply List.map_congr_left
    intro a ha
    obtain ⟨hrun, hmain⟩ := List.mem_filter.mp ha
    have htopic : a.1.2 ∉ getKafkaTopics env true := by
      simpa [slotMessage] using hmain
    rw [hmessage a.1 (performed_mem hrun) htopic]

end Redaction

section Samples

def sampleChannel (id : String) : Json :=
  samplePayload "OTHER" [] [("isContentBlocked", .bool true), ("channelId", .str id)]

/-- A blocked payload whose channel id stands inside the program data. -/
def sampleNestedChannel (id : String) : Json :=
  samplePayload "ACR_TUNER_DATA" [("isContentBlocked", .bool true)]
    [("programData", .obj [("channelId", .str id)])]

theorem sampleChannel_variant (id id' : String) :
    @ChannelVariant asciiRuntime (sampleChannel id) (sampleChannel id') := by
  let _ : Runtime := asciiRuntime
  have hchannel : lower "channelId" ∈ channelFields := by decide +kernel
  exact ⟨sameButChannel_refl _, .cons ⟨rfl, .inl rfl⟩ (.cons ⟨rfl, .inr ⟨hchannel, rfl, rfl⟩⟩ .nil)⟩

theorem pushChangesToKafka_hides_sample :
    @mainCalls asciiRuntime sampleEnv (@pushChangesToKafka asciiRuntime sampleEnv sampleTick
        sampleKafka (sampleChannel "ch1") (.fresh .absent)).attempts =
      @mainCalls asciiRuntime sampleEnv (@pushChangesToKafka asciiRuntime sampleEnv sampleTick
        sampleKafka (sampleChannel "ch2") (.fresh .absent)).attempts := by
  have hhidden : ∀ out, @isContentBlocked asciiRuntime out = true →
      @shouldObfuscateChannel asciiRuntime sampleTick out (.fresh .absent) =
        (.ok true, .fresh .absent) := by
    intro out h
    simp only [shouldObfuscateChannel, h, if_true]
  exact (@pushChangesToKafka_hides_channel asciiRuntime sampleEnv sampleTick sampleKafka
    (sampleChannel "ch1") (sampleChannel "ch2")
    (ofWrites (@outputWrites asciiRuntime sampleEnv (sampleChannel "ch1")))
    (ofWrites (@outputWrites asciiRuntime sampleEnv (sampleChannel "ch2"))) _ _ _
    (sampleChannel_variant "ch1" "ch2") (by decide +kernel) (by decide +kernel)
    (hhidden _ (by decide +kernel)) (hhidden _ (by decide +kernel))).1

/-- A channel id inside the program data is sent to the main topic although the channel is hidden. -/
theorem nested_channel_shown :
    (∀ id ∈ ["ch1", "ch2"],
      @validateRequest asciiRuntime sampleEnv sampleUrl (sampleNestedChannel id) = .ok true ∧
      ∃ out, @generateOutputJson asciiRuntime sampleEnv (sampleNestedChannel id) = .ok out ∧
        (@shouldObfuscateChannel asciiRuntime sampleTick out (.fresh .absent)).1 = .ok true) ∧
    (@mainCalls asciiRuntime sampleEnv (@pushChangesToKafka asciiRuntime sampleEnv sampleTick
        sampleKafka (sampleNestedChannel "ch1") (.fresh .absent)).attempts).map
          (fun a => @Message.payloadBytes asciiRuntime a.message) ≠
      (@mainCalls asciiRuntime sampleEnv (@pushChangesToKafka asciiRuntime sampleEnv sampleTick
        sampleKafka (sampleNestedChannel "ch2") (.fresh .absent)).attempts).map
          (fun a => @Message.payloadBytes asciiRuntime a.message) := by
  refine ⟨fun id hid => ?_, by decide +kernel⟩
  refine ⟨?_, ofWrites (@outputWrites asciiRuntime sampleEnv (sampleNestedChannel id)), ?_⟩
  · revert id
    decide +kernel
  · revert id
    decide +kernel

end Samples

end TvEvents
