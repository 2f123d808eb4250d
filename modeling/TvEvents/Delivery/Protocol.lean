import TvEvents.Accept.Accepted
import TvEvents.Delivery.Plan

namespace TvEvents

open OrderedMap FirstFailure

variable [Runtime]

def sent (as : List Attempt) : List Message :=
  (as.filter fun a => a.raised.isNone).map Attempt.message

omit [Runtime] in
theorem sent_attemptOf (as : List (Message × Option String)) :
    sent (as.map attemptOf) = succeeded as := by
  simp [sent, succeeded, List.filter_map, attemptOf, Function.comp_def]

omit [Runtime] in
/-- A plan is carried out, or an exception of the transport ends it within a proper prefix. -/
theorem deliverPlan_cases (kafka : Kafka) (plan : List Message) :
    deliverPlan kafka plan = (.ok (), plan.map fun m => ⟨m, none⟩) ∨
      ∃ b as, deliverPlan kafka plan = (.error (.builtin b), as) ∧ sent as <+: plan ∧
        sent as ≠ plan := by
  unfold deliverPlan
  split_ifs with h
  · unfold report
    cases hfail : failure (performed (callOutcome kafka) 0 plan) with
    | none =>
      left
      rw [succeeded_of_no_failure hfail, List.map_map]
      rfl
    | some err =>
      right
      refine ⟨.other err, _, rfl, ?_⟩
      rw [sent_attemptOf]
      exact succeeded_of_failure hfail
  · right
    refine ⟨.importError, [], rfl, List.nil_prefix, ?_⟩
    intro hnil
    have hplan : plan = [] := hnil.symm
    simp [hplan] at h

/-- What is pushed: nothing when the output or the decision fails, else the plan of the output. -/
theorem pushChangesToKafka_cases (env : Env) (t : Tick) (kafka : Kafka) (payload : Json)
    (s : BlacklistCache) :
    (∃ e, (pushChangesToKafka env t kafka payload s).result = .error e ∧
        (pushChangesToKafka env t kafka payload s).attempts = []) ∨
      ∃ out obfuscate cache, generateOutputJson env payload = .ok out ∧
        shouldObfuscateChannel t out s = (.ok obfuscate, cache) ∧
        pushChangesToKafka env t kafka payload s =
          ⟨(deliverPlan kafka (planned env out obfuscate)).1,
            (deliverPlan kafka (planned env out obfuscate)).2, cache⟩ := by
  unfold pushChangesToKafka
  cases hgen : generateOutputJson env payload with
  | error e => exact .inl ⟨e, rfl, rfl⟩
  | ok out =>
    rcases hshould : shouldObfuscateChannel t out s with ⟨decision, cache⟩
    cases decision with
    | error e =>
      left
      simp [hshould]
    | ok obfuscate =>
      right
      refine ⟨out, obfuscate, cache, rfl, hshould, ?_⟩
      simp only [hshould, deliver_plan]

/-- A request is refused before any send, or its accepted payload is pushed and answered by what
the push did. -/
theorem sendRequest_cases (env : Env) (t : Tick) (kafka : Kafka) (request : Request)
    (service : Service) :
    (((sendRequest env t kafka request service).response.statusCode = 400 ∨
        (sendRequest env t kafka request service).response.statusCode = 500) ∧
      (sendRequest env t kafka request service).attempts = []) ∨
    ∃ payload out obfuscate cache, request.body = some payload ∧
      validateRequest env request.urlParams payload = .ok true ∧
      generateOutputJson env payload = .ok out ∧
      shouldObfuscateChannel t out service.cache = (.ok obfuscate, cache) ∧
      (((sendRequest env t kafka request service).response.statusCode = 200 ∧
          (sendRequest env t kafka request service).attempts =
            (planned env out obfuscate).map fun m => ⟨m, none⟩) ∨
        ((sendRequest env t kafka request service).response.statusCode = 500 ∧
          sent (sendRequest env t kafka request service).attempts <+: planned env out obfuscate ∧
          sent (sendRequest env t kafka request service).attempts ≠ planned env out obfuscate)) := by
  unfold sendRequest
  cases hbody : request.body with
  | none => exact .inl ⟨.inl rfl, rfl⟩
  | some payload =>
    cases hvalid : validateRequest env request.urlParams payload with
    | error e =>
      left
      simp only [hvalid]
      exact ⟨answerError_status _ _ _ _, trivial⟩
    | ok b =>
      simp only [hvalid]
      rcases pushChangesToKafka_cases env t kafka payload service.cache with
        ⟨e, hresult, hnone⟩ | ⟨out, obfuscate, cache, hgen, hshould, hpush⟩
      · left
        simp only [hresult, hnone]
        exact ⟨answerError_status _ _ _ _, trivial⟩
      · right
        obtain ⟨rfl, -⟩ := (validateRequest_iff env request.urlParams payload b).mp hvalid
        refine ⟨payload, out, obfuscate, cache, rfl, hvalid, hgen, hshould, ?_⟩
        rcases deliverPlan_cases kafka (planned env out obfuscate) with
          hplan | ⟨b, as, hplan, hpart, hproper⟩
        · left
          rw [hpush, hplan]
          exact ⟨rfl, rfl⟩
        · right
          rw [hpush, hplan]
          exact ⟨rfl, hpart, hproper⟩

omit [Runtime] in
private theorem sent_all (plan : List Message) : sent (plan.map fun m => ⟨m, none⟩) = plan := by
  have hattempts : (plan.map fun m => (⟨m, none⟩ : Attempt)) =
      (plan.map fun m => (m, (none : Option String))).map attemptOf := by
    rw [List.map_map]
    rfl
  rw [hattempts, sent_attemptOf, succeeded_all]

/-- An answer tells what was delivered: 200 the whole plan in order and once, 400 nothing, 500 a
proper part of the plan or nothing. -/
theorem sendRequest_protocol (env : Env) (t : Tick) (kafka : Kafka) (request : Request)
    (service : Service) :
    let served := sendRequest env t kafka request service
    (served.response.statusCode = 200 ∨ served.response.statusCode = 400 ∨
      served.response.statusCode = 500) ∧
    (served.response.statusCode = 200 → ∃ payload out obfuscate cache,
      request.body = some payload ∧ generateOutputJson env payload = .ok out ∧
      shouldObfuscateChannel t out service.cache = (.ok obfuscate, cache) ∧
      sent served.attempts =
        (if obfuscate && toggle env "TVEVENTS_DEBUG" then
          (getKafkaTopics env true).map fun topic => ⟨topic, out, tvidKey out⟩ else []) ++
        (getKafkaTopics env false).map (fun topic =>
          ⟨topic, delivered out obfuscate, tvidKey out⟩) ∧
      (∀ k, (delivered out obfuscate).get? k =
        if obfuscate = true ∧ k ∈ channelFields then some obfuscatedStr else out.get? k)) ∧
    (served.response.statusCode = 400 → served.attempts = []) ∧
    (served.response.statusCode = 500 → sent served.attempts = [] ∨
      ∃ payload out obfuscate cache, request.body = some payload ∧
        generateOutputJson env payload = .ok out ∧
        shouldObfuscateChannel t out service.cache = (.ok obfuscate, cache) ∧
        sent served.attempts <+: planned env out obfuscate ∧
        sent served.attempts ≠ planned env out obfuscate) ∧
    ((∃ a ∈ served.attempts, a.raised.isSome) → served.response.statusCode = 500) := by
  intro served
  rcases sendRequest_cases env t kafka request service with ⟨hstatus, hnone⟩ |
    ⟨payload, out, obfuscate, cache, hbody, -, hgen, hshould, hsent⟩
  · have hattempts : served.attempts = [] := hnone
    refine ⟨.inr hstatus, ?_, fun _ => hattempts, fun _ => .inl (by rw [hattempts]; rfl), ?_⟩
    · intro h200
      have h200' : (sendRequest env t kafka request service).response.statusCode = 200 := h200
      omega
    · intro hparts
      obtain ⟨a, ha, -⟩ := hparts
      rw [hattempts] at ha
      cases ha
  · rcases hsent with ⟨h200, hall⟩ | ⟨h500, hpart, hproper⟩
    · have hstatus : served.response.statusCode = 200 := h200
      have hattempts : served.attempts = (planned env out obfuscate).map fun m => ⟨m, none⟩ := hall
      refine ⟨.inl h200, fun _ => ⟨payload, out, obfuscate, cache, hbody, hgen, hshould, ?_,
        delivered_get? out obfuscate⟩, ?_, ?_, ?_⟩
      · rw [hattempts, sent_all]
        rfl
      · intro h400
        omega
      · intro h500
        omega
      · intro hparts
        obtain ⟨a, ha, hraised⟩ := hparts
        rw [hattempts] at ha
        obtain ⟨m, -, rfl⟩ := List.mem_map.mp ha
        cases hraised
    · have hstatus : served.response.statusCode = 500 := h500
      refine ⟨.inr (.inr h500), ?_, ?_, fun _ => .inr ⟨payload, out, obfuscate, cache, hbody, hgen,
        hshould, hpart, hproper⟩, fun _ => h500⟩
      · intro h200
        omega
      · intro h400
        omega

end TvEvents
