import TvEvents.Serving.Serial

namespace TvEvents

open Coroutines Runs

variable [Runtime]

section Answers

/-- What an answer to `POST /` says of the calls made for it: 200 that the whole plan of its output
was sent once and in order, 400 that nothing was, 500 that nothing or a proper part of the plan was. -/
def Tells (env : Env) (request : Request) (attempts : List Attempt) (statusCode : ℕ) : Prop :=
  (statusCode = 400 ∨ statusCode = 500) ∧ attempts = [] ∨
    ∃ payload out obfuscate, request.body = some payload ∧
      validateRequest env request.urlParams payload = .ok true ∧
      generateOutputJson env payload = .ok out ∧
      (statusCode = 200 ∧ attempts = (planned env out obfuscate).map (fun m => ⟨m, none⟩) ∨
        statusCode = 500 ∧ sent attempts <+: planned env out obfuscate ∧
          sent attempts ≠ planned env out obfuscate)

theorem sendRequest_tells (env : Env) (t : Tick) (kafka : Kafka) (request : Request)
    (service : Service) : Tells env request (sendRequest env t kafka request service).attempts
      (sendRequest env t kafka request service).response.statusCode := by
  rcases sendRequest_cases env t kafka request service with
    hrefused | ⟨payload, out, obfuscate, cache, hbody, hvalid, hgen, -, hends⟩
  · exact .inl hrefused
  · exact .inr ⟨payload, out, obfuscate, hbody, hvalid, hgen, hends⟩

/-- Where an error is answered by a bare 500, that tells the same. -/
theorem Tells.bare {env : Env} {request : Request} {attempts : List Attempt} {statusCode : ℕ}
    (h : Tells env request attempts statusCode) (hnot : statusCode ≠ 200) :
    Tells env request attempts 500 := by
  rcases h with ⟨-, hnone⟩ | ⟨payload, out, obfuscate, hbody, hvalid, hgen, hends⟩
  · exact .inl ⟨.inr rfl, hnone⟩
  · right
    refine ⟨payload, out, obfuscate, hbody, hvalid, hgen, .inr ?_⟩
    rcases hends with ⟨hok, -⟩ | ⟨-, hpart⟩
    · exact absurd hok hnot
    · exact ⟨rfl, hpart⟩

end Answers

variable [Framework]

section Blocks

omit [Runtime] [Framework] in
def attemptsFor (i : ℕ) (log : List (ℕ × ℕ × List Attempt)) : List Attempt :=
  (log.filter fun e => e.1 = i).flatMap fun e => e.2.2

omit [Runtime] [Framework] in
theorem attemptsFor_absent {i : ℕ} {log : List (ℕ × ℕ × List Attempt)}
    (h : i ∉ log.map Prod.fst) : attemptsFor i log = [] := by
  have hnone : log.filter (fun e => e.1 = i) = [] := by
    rw [List.filter_eq_nil_iff]
    intro e he hi
    exact h (List.mem_map.mpr ⟨e, he, of_decide_eq_true hi⟩)
  rw [attemptsFor, hnone, List.flatMap_nil]

omit [Runtime] [Framework] in
/-- With one entry at most for a request its calls are those of the entry. -/
theorem attemptsFor_entry {i statusCode : ℕ} {attempts : List Attempt}
    {log : List (ℕ × ℕ × List Attempt)} (honce : (log.map Prod.fst).Nodup)
    (h : (i, statusCode, attempts) ∈ log) : attemptsFor i log = attempts := by
  induction log with
  | nil => cases h
  | cons e log ih =>
    rw [List.map_cons, List.nodup_cons] at honce
    unfold attemptsFor
    rcases List.mem_cons.mp h with rfl | h
    · have hrest := attemptsFor_absent honce.1
      rw [List.filter_cons_of_pos (by simp), List.flatMap_cons]
      unfold attemptsFor at hrest
      rw [hrest, List.append_nil]
    · have hother : e.1 ≠ i := by
        rintro rfl
        exact honce.1 (List.mem_map.mpr ⟨_, h, rfl⟩)
      rw [List.filter_cons_of_neg (by simpa using hother)]
      exact ih honce.2 h

theorem serveAlone_tells (p : Process) (m : Moment) (s : AppState) {incoming : Incoming}
    (h : incoming.route = .sendRequest) : Tells p.env incoming.request
      (serveAlone p incoming m s).2.2 (serveAlone p incoming m s).2.1 := by
  cases hlog : logRequest incoming with
  | error e =>
    rw [serveAlone, hlog]
    exact .inl ⟨.inr rfl, rfl⟩
  | ok u =>
    rw [serveAlone_sendRequest p h hlog m s]
    have htells := sendRequest_tells p.env m.tick m.kafka incoming.request s.service
    rcases answerSendRequest_status p m incoming.request s with hsent | ⟨hbare, hnot⟩
    · rw [hsent]
      exact htells
    · rw [hbare]
      exact htells.bare hnot

end Blocks

section Results

/-- Every `POST /` is worked on once at most, in whatever order the requests take turns: its calls
go to Kafka as one block that no other request breaks into, and its answer tells what became of
them. -/
theorem posts_once (p : Process) (s : AppState) (requests : List Incoming)
    (turns : List (ℕ × Moment)) :
    let final := run (Serving.turn p) (arrivals s requests) turns
    let log := servedLog p s requests turns
    (log.map Prod.fst).Nodup ∧
      kafkaLog p (arrivals s requests) turns = log.flatMap (fun e => e.2.2) ∧
      ∀ i incoming statusCode, requests[i]? = some incoming → incoming.route = .sendRequest →
        answerAt i final = some statusCode →
          Tells p.env incoming.request (attemptsFor i log) statusCode := by
  intro final log
  have honce := servedLog_once p s requests turns
  refine ⟨honce, servedLog_kafka p s requests turns, ?_⟩
  intro i incoming statusCode hrequest hroute hanswer
  obtain ⟨before, m, after, attempts, -, hmem, hentry⟩ :=
    answered_served p s requests turns hrequest hanswer
  obtain ⟨hstatus, hattempts⟩ := Prod.mk.inj hentry
  rw [attemptsFor_entry honce hmem, hstatus, hattempts]
  exact serveAlone_tells p m _ hroute

end Results

section Samples

omit [Runtime] [Framework]

theorem posts_once_overtaken :
    let _ : Runtime := asciiRuntime
    let _ : Framework := strictFramework
    let s := (servingBeside (.bool false) samplePostRequest).shared
    let requests := [samplePostRequest, samplePostRequest]
    let turns := overtaking (sampleMoment 1)
    (kafkaLog servingProcess (arrivals s requests) turns).length = 2 ∧
      Tells sampleEnv samplePostRequest.request
        (attemptsFor 0 (servedLog servingProcess s requests turns)) 200 := by
  intro _ _ s requests turns
  have honce := posts_once servingProcess s requests turns
  have hanswered : answerAt 0 (run (Serving.turn servingProcess) (arrivals s requests) turns) =
      some 200 := by decide +kernel
  exact ⟨by decide +kernel, honce.2.2 0 samplePostRequest 200 rfl rfl hanswered⟩

end Samples

end TvEvents
