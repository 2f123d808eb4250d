import TvEvents.Accept.Sufficient

namespace TvEvents

open OrderedMap

section Envelope

variable [Runtime]

/-- `client` is a leaf of the TV event with value `v`, and no other member has that name in another
letter case. -/
structure PlainClient (p v : Json) : Prop where
  member : find "client" (tvEventOf p) = some v
  leaf : v.isObj = false
  only : ∀ k ∈ (tvEventOf p).map Prod.fst, lower k = lower "client" → k = "client"

structure EnvelopeKept (env : Env) (p : Json) (out : PyDict) : Prop where
  timestamp : out.get? "tvevent_timestamp" = some (tvEventField p "timestamp")
  eventType : out.get? "tvevent_eventtype" = some (eventTypeOf p)
  zoo : out.get? "zoo" = some (.str (zoo env))
  client : ∀ v, PlainClient p v → out.get? "client" = some v

def laterLeaves (p : Json) : List (String × Json) :=
  leaves (fun k => tvEventIgnored.contains k) "" (after "client" (tvEventOf p)) ++ eventDataLeaves p

/-- No leaf that is written later has the key of a metadata value and ends with another value. -/
structure EnvelopeUnshadowed (env : Env) (p : Json) : Prop where
  timestamp : NotShadowed "tvevent_timestamp" (tvEventField p "timestamp") (eventDataLeaves p)
  eventType : NotShadowed "tvevent_eventtype" (eventTypeOf p) (eventDataLeaves p)
  zoo : NotShadowed "zoo" (.str (zoo env)) (eventDataLeaves p)
  client : ∀ v, PlainClient p v → NotShadowed "client" v (laterLeaves p)

/-- A key of the envelope keeps its value exactly when the leaves of the event data do not end with
another one: the class writes none of these keys. -/
theorem envelope_lookup_iff {env : Env} {p : Json} {k : String} {v : Json} (hk : k ∉ classKeys)
    (hv : lastWrite k (envelopeWrites env p) = some v) :
    lastWrite k (outputWrites env p) = some v ↔ NotShadowed k v (eventDataLeaves p) := by
  have hwritten : lastWrite k (tvEventLeaves p ++ envelopeWrites env p) = some v := by
    rw [lastWrite_append, hv, Option.some_or]
  rw [outputWrites, lastWrite_append, classWrites_lookup p hk, Option.none_or]
  exact lastWrite_append_eq_iff hwritten _

theorem flatName_client : flatName "" "client" = "client" := by
  have hascii : IsAscii "client" := by decide
  rw [flatName, if_pos rfl, Runtime.lower_ascii _ hascii]
  decide

theorem client_lookup_iff (env : Env) {p v : Json} (h : PlainClient p v) :
    lastWrite "client" (outputWrites env p) = some v ↔ NotShadowed "client" v (laterLeaves p) := by
  obtain ⟨before, hbefore⟩ := @leaves_member _ (fun k => tvEventIgnored.contains k) "" _ _ _ h.member
    (by decide)
  rw [memberLeaves_plain h.leaf, flatName_client] at hbefore
  have hwritten : lastWrite "client" (before ++ [("client", v)]) = some v := by
    rw [lastWrite_append]
    rfl
  have hleaves : payloadLeaves p = before ++ [("client", v)] ++ laterLeaves p := by
    rw [payloadLeaves, tvEventLeaves, hbefore, laterLeaves, List.append_assoc]
  have hkey : "client" ∉ derivedKeys := by decide
  rw [outputWrites_lookup env p hkey, hleaves]
  exact lastWrite_append_eq_iff hwritten _

/-- The metadata of the envelope come out exactly when no later leaf shadows them. -/
theorem envelopeKept_iff {env : Env} {p : Json} {out : PyDict}
    (h : generateOutputJson env p = .ok out) :
    EnvelopeKept env p out ↔ EnvelopeUnshadowed env p := by
  obtain ⟨-, rfl⟩ := (generateOutputJson_iff env p out).mp h
  have htimestamp := @envelope_lookup_iff _ env p "tvevent_timestamp" _ (by decide) rfl
  have heventType := @envelope_lookup_iff _ env p "tvevent_eventtype" _ (by decide) rfl
  have hzoo := @envelope_lookup_iff _ env p "zoo" _ (by decide) rfl
  constructor
  · intro hkept
    refine ⟨htimestamp.mp ?_, heventType.mp ?_, hzoo.mp ?_, ?_⟩
    · rw [← ofWrites_get?]
      exact hkept.timestamp
    · rw [← ofWrites_get?]
      exact hkept.eventType
    · rw [← ofWrites_get?]
      exact hkept.zoo
    · intro v hclient
      apply (client_lookup_iff env hclient).mp
      rw [← ofWrites_get?]
      exact hkept.client v hclient
  · intro hfree
    refine ⟨?_, ?_, ?_, ?_⟩
    · rw [ofWrites_get?]
      exact htimestamp.mpr hfree.timestamp
    · rw [ofWrites_get?]
      exact heventType.mpr hfree.eventType
    · rw [ofWrites_get?]
      exact hzoo.mpr hfree.zoo
    · intro v hclient
      rw [ofWrites_get?]
      exact (client_lookup_iff env hclient).mpr (hfree.client v hclient)

end Envelope

section Samples

theorem envelopeKept_plain : @EnvelopeKept asciiRuntime sampleEnv
    (samplePayload "OTHER" [] [("volume", .int 3)])
    (ofWrites (@outputWrites asciiRuntime sampleEnv (samplePayload "OTHER" [] [("volume", .int 3)]))) := by
  let _ : Runtime := asciiRuntime
  refine (@envelopeKept_iff asciiRuntime sampleEnv (samplePayload "OTHER" [] [("volume", .int 3)]) _
    (by decide +kernel)).mpr ?_
  have hvolume : ∀ {k v}, k ≠ "volume" → NotShadowed k v [("volume", Json.int 3)] := by
    intro k v hk w hw
    simp [lastWrite, Ne.symm hk] at hw
  have hdata : eventDataLeaves (samplePayload "OTHER" [] [("volume", .int 3)]) =
      [("volume", .int 3)] := by decide +kernel
  have hlater : laterLeaves (samplePayload "OTHER" [] [("volume", .int 3)]) =
      [("volume", .int 3)] := by decide +kernel
  refine ⟨?_, ?_, ?_, ?_⟩
  · rw [hdata]
    exact hvolume (by decide)
  · rw [hdata]
    exact hvolume (by decide)
  · rw [hdata]
    exact hvolume (by decide)
  · intro v _
    rw [hlater]
    exact hvolume (by decide)

/-- A member of the event data comes out as the timestamp of the TV event. -/
theorem forged_timestamp_delivered :
    ∃ out, @generateOutputJson asciiRuntime sampleEnv
        (samplePayload "OTHER" [] [("TvEvent", .obj [("timestamp", .int 0)])]) = .ok out ∧
      out.get? "tvevent_timestamp" ≠
        some (tvEventField (samplePayload "OTHER" [] [("TvEvent", .obj [("timestamp", .int 0)])])
          "timestamp") := by
  refine ⟨ofWrites (@outputWrites asciiRuntime sampleEnv
    (samplePayload "OTHER" [] [("TvEvent", .obj [("timestamp", .int 0)])])), ?_⟩
  decide +kernel

end Samples

end TvEvents
