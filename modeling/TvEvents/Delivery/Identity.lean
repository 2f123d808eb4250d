import TvEvents.Accept.Sufficient
import TvEvents.Delivery.Protocol

namespace TvEvents

open OrderedMap

section Identity

variable [Runtime]

theorem generated_tvid {env : Env} {p : Json} {out : PyDict}
    (h : generateOutputJson env p = .ok out) : out.get? "tvid" = lastWrite "tvid" (payloadLeaves p) := by
  obtain ⟨-, rfl⟩ := (generateOutputJson_iff env p out).mp h
  rw [ofWrites_get?]
  exact outputWrites_lookup env p (by decide)

theorem planned_tvid {env : Env} {out : PyDict} {obfuscate : Bool} {m : Message}
    (hm : m ∈ planned env out obfuscate) :
    m.data.get? "tvid" = out.get? "tvid" ∧ m.key = tvidKey out := by
  have hmasked : (delivered out obfuscate).get? "tvid" = out.get? "tvid" := by
    rw [delivered_get?]
    simp [channelFields]
  unfold planned at hm
  rcases List.mem_append.mp hm with hdebug | hmain
  · split_ifs at hdebug with hsend
    · obtain ⟨topic, -, rfl⟩ := List.mem_map.mp hdebug
      exact ⟨rfl, rfl⟩
    · cases hdebug
  · obtain ⟨topic, -, rfl⟩ := List.mem_map.mp hmain
    exact ⟨hmasked, rfl⟩

theorem planned_eq_nil (env : Env) (out : PyDict) (obfuscate : Bool) :
    planned env out obfuscate = [] ↔ getKafkaTopics env false = [] := by
  have hempty := getKafkaTopics_isEmpty env
  constructor
  · intro h
    exact List.map_eq_nil_iff.mp (List.append_eq_nil_iff.mp h).2
  · intro h
    rw [h] at hempty
    have hdebug : getKafkaTopics env true = [] := List.isEmpty_iff.mp hempty
    simp [planned, h, hdebug]

/-- The identity that was authenticated is the one that is sent: the token of the hash is the URL's
`tvid`, and the JSON and the key carry it. -/
def SendsAuthenticated (env : Env) (urlParams : UrlParams) (payload : Json) (m : Message) : Prop :=
  ∃ tvid salt, urlParams.get? "tvid" = some tvid ∧ saltKey env = some salt ∧
    tvEventField payload "h" = .str (securityHashToken tvid salt) ∧
    m.data.get? "tvid" = some (.str tvid) ∧ m.key = .str tvid

/-- The last leaf called `tvid` is the string of the URL, and the hash is given as a string. -/
def SameTvid (urlParams : UrlParams) (payload : Json) : Prop :=
  ∃ tvid h, urlParams.get? "tvid" = some tvid ∧ tvEventField payload "h" = .str h ∧
    lastWrite "tvid" (payloadLeaves payload) = some (.str tvid)

/-- Every message of a served request carries the authenticated identity exactly when there is no
message, or the payload delivers the `tvid` of the URL. -/
theorem sendRequest_identity_iff {env : Env} {t : Tick} {kafka : Kafka} {request : Request}
    {service : Service} {payload : Json} (hbody : request.body = some payload)
    (h200 : (sendRequest env t kafka request service).response.statusCode = 200) :
    (∀ a ∈ (sendRequest env t kafka request service).attempts,
        SendsAuthenticated env request.urlParams payload a.message) ↔
      getKafkaTopics env false = [] ∨ SameTvid request.urlParams payload := by
  rcases sendRequest_cases env t kafka request service with ⟨hstatus, -⟩ |
    ⟨payload', out, obfuscate, cache, hbody', hvalid, hgen, -, hsent⟩
  · omega
  · obtain rfl : payload = payload' := Option.some.inj (hbody.symm.trans hbody')
    rcases hsent with ⟨-, hattempts⟩ | ⟨h500, -⟩
    · have hacc := ((validateRequest_iff env request.urlParams payload true).mp hvalid).2
      obtain ⟨salt, hsalt, hhash⟩ := hacc.hash
      have htvid := generated_tvid hgen
      rw [hattempts]
      constructor
      · intro hall
        cases hplan : planned env out obfuscate with
        | nil => exact .inl ((planned_eq_nil env out obfuscate).mp hplan)
        | cons m ms =>
          right
          have hm : m ∈ planned env out obfuscate := by rw [hplan]; exact List.mem_cons_self
          obtain ⟨tvid, salt, hurl, -, hh, hdata, -⟩ :=
            hall ⟨m, none⟩ (List.mem_map.mpr ⟨m, hm, rfl⟩)
          refine ⟨tvid, _, hurl, hh, ?_⟩
          rw [← htvid, ← (planned_tvid hm).1]
          exact hdata
      · intro hcond a ha
        obtain ⟨m, hm, rfl⟩ := List.mem_map.mp ha
        rcases hcond with hnone | ⟨tvid, h, hurl, hh, hlast⟩
        · rw [(planned_eq_nil env out obfuscate).mpr hnone] at hm
          cases hm
        · obtain ⟨hdata, hkey⟩ := planned_tvid hm
          rw [← htvid] at hlast
          rw [hurl, hh] at hhash
          refine ⟨tvid, salt, hurl, hsalt, ?_, hdata.trans hlast, ?_⟩
          · rw [hh]
            exact congrArg Json.str hhash
          · rw [hkey, tvidKey, hlast]
            rfl
    · omega

end Identity

section Samples

def sampleService : Service := ⟨.fresh .absent, []⟩

theorem sendRequest_identity_same :
    ∃ a, (@sendRequest asciiRuntime sampleEnv sampleTick sampleKafka
        ⟨sampleUrl, some (samplePayload "OTHER" [] [])⟩ sampleService).attempts = [a] ∧
      @SendsAuthenticated asciiRuntime sampleEnv sampleUrl (samplePayload "OTHER" [] []) a.message := by
  have hone : (@sendRequest asciiRuntime sampleEnv sampleTick sampleKafka
      ⟨sampleUrl, some (samplePayload "OTHER" [] [])⟩ sampleService).attempts.length = 1 := by
    decide +kernel
  obtain ⟨a, ha⟩ := List.length_eq_one_iff.mp hone
  have hsame := (@sendRequest_identity_iff asciiRuntime sampleEnv sampleTick sampleKafka
    ⟨sampleUrl, some (samplePayload "OTHER" [] [])⟩ sampleService _ rfl (by decide +kernel)).mpr
    (.inr ⟨"tv1", "digest of tv1salt", by decide +kernel, by decide +kernel, by decide +kernel⟩)
  exact ⟨a, ha, hsame a (by rw [ha]; exact List.mem_singleton_self a)⟩

/-- The hash fits the `tvid` of the URL, the payload carries another one: the request is accepted and
sends the other one. -/
theorem sendRequest_sends_other_tvid :
    ∃ payload, (@sendRequest asciiRuntime sampleEnv sampleTick sampleKafka
        ⟨sampleUrl, some payload⟩ sampleService).response.statusCode = 200 ∧
      sampleUrl.get? "tvid" = some "tv1" ∧
      ∃ a ∈ (@sendRequest asciiRuntime sampleEnv sampleTick sampleKafka
        ⟨sampleUrl, some payload⟩ sampleService).attempts,
        a.message.data.get? "tvid" = some (.str "tv2") ∧ a.message.key = .str "tv2" := by
  refine ⟨.obj [("TvEvent", .obj [("tvid", .str "tv2"), ("client", .str "c1"),
    ("h", .str "digest of tv1salt"), ("EventType", .str "OTHER"),
    ("timestamp", .int 1700000000000)])], ?_⟩
  decide +kernel

end Samples

end TvEvents
