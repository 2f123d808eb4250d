import TvEvents.Metrics.ErrorLog
import TvEvents.Serving.Serial

namespace TvEvents

open Coroutines Runs BoundedDeque

section Progress

/-- The turns that a request still needs, at most. -/
def Phase.remaining : Phase → ℕ
  | .arrived => 6
  | .logged => 5
  | .called _ => 4
  | .reading _ => 3
  | .returned _ _ => 2
  | .recorded _ | .raised _ => 1
  | .answered _ => 0

def Task.remaining (t : Task) : ℕ := t.phase.remaining

theorem callNext_remaining (start : ℚ) (result : Except PyExc Reply) :
    (callNext start result).remaining ≤ 2 := by
  cases result with
  | error e => exact Nat.le_succ 1
  | ok reply => exact le_rfl

theorem remaining_zero {phase : Phase} (h : phase.remaining = 0) :
    ∃ statusCode, phase.answer? = some statusCode := by
  cases phase with
  | answered statusCode => exact ⟨statusCode, rfl⟩
  | arrived | logged | called _ | reading _ | returned _ _ | recorded _ | raised _ => cases h

variable [Runtime] [Framework]

/-- No turn of a request is spent waiting for the others. -/
theorem segment_remaining (p : Process) (m : Moment) (s : AppState) (t : Task) :
    (segment p m s t).2.remaining ≤ t.remaining - 1 := by
  obtain ⟨incoming, phase⟩ := t
  unfold segment Task.remaining
  cases phase with
  | arrived =>
    cases logRequest incoming with
    | ok u => exact le_rfl
    | error e => exact Nat.succ_le_succ (Nat.zero_le 4)
  | called start =>
    simp only
    split_ifs
    · exact le_rfl
    · have hnext := callNext_remaining start (handle p m incoming s).1
      exact hnext.trans (Nat.le_succ 2)
  | reading start => exact callNext_remaining start _
  | logged | returned _ _ | recorded _ | raised _ | answered _ => exact le_rfl

/-- Six turns of its own answer a request, whatever the other requests do. -/
theorem answered_within (p : Process) (s : AppState) {requests : List Incoming}
    {turns : List (ℕ × Moment)} {i : ℕ} (hi : i < requests.length)
    (hturns : 6 ≤ (turnsOf i turns).length) :
    ∃ statusCode, answerAt i (run (Serving.turn p) (arrivals s requests) turns) = some statusCode := by
  have harrived : (arrivals s requests).tasks[i]? = some ⟨requests[i], .arrived⟩ := by
    simp [arrivals, hi]
  obtain ⟨t, ht, hless⟩ := rank_run (segment_remaining p) harrived turns
  have hneeds : (⟨requests[i], .arrived⟩ : Task).remaining = 6 := rfl
  have hdone : t.phase.remaining = 0 := by
    unfold Task.remaining at hless hneeds
    omega
  obtain ⟨statusCode, hanswer⟩ := remaining_zero hdone
  refine ⟨statusCode, ?_⟩
  rw [answerAt]
  exact Option.bind_eq_some_iff.mpr ⟨t, ht, hanswer⟩

/-- Six turns of its own answer a request, in every run. And every fair run is a serial one of all the
requests: as soon as each has had six turns, each stands once in the order in which they are served as
wholes, each is answered, and answered as it is there. -/
theorem fair_run_serial (p : Process) (s : AppState) (requests : List Incoming)
    (turns : List (ℕ × Moment)) :
    let final := run (Serving.turn p) (arrivals s requests) turns
    let served := servedTurns p s requests turns
    let log := serialLog (serveAlone p) requests s.uncounted served
    (∀ i < requests.length, 6 ≤ (turnsOf i turns).length →
      ∃ statusCode, answerAt i final = some statusCode) ∧
    ((∀ i < requests.length, 6 ≤ (turnsOf i turns).length) →
      (log.map Prod.fst).Perm (List.range requests.length) ∧
      final.shared.uncounted = run (serialStep (serveAlone p) requests) s.uncounted served ∧
      kafkaLog p (arrivals s requests) turns = log.flatMap (fun e => e.2.2) ∧
      ∀ i statusCode, answerAt i final = some statusCode ↔
        ∃ attempts, (i, statusCode, attempts) ∈ log) := by
  intro final served log
  refine ⟨fun i hi => answered_within p s hi, ?_⟩
  intro hfair
  have honce : (log.map Prod.fst).Nodup := servedLog_once p s requests turns
  have hbound : ∀ i entry, (i, entry) ∈ log → i < requests.length := by
    intro i entry hmem
    obtain ⟨_, _, _, _, -, hkey, -⟩ := serialLog_mem hmem
    exact (List.getElem?_eq_some_iff.mp hkey).1
  have hanswered : ∀ i < requests.length, ∃ statusCode attempts,
      answerAt i final = some statusCode ∧ (i, statusCode, attempts) ∈ log := by
    intro i hi
    obtain ⟨statusCode, hanswer⟩ := answered_within p s hi (hfair i hi)
    obtain ⟨attempts, hmem⟩ := answerAt_logged p s requests turns hanswer
    exact ⟨statusCode, attempts, hanswer, hmem⟩
  refine ⟨?_, served_uncounted p s requests turns, servedLog_kafka p s requests turns, ?_⟩
  · apply (List.perm_ext_iff_of_nodup honce List.nodup_range).mpr
    intro i
    rw [List.mem_range]
    constructor
    · intro hmem
      obtain ⟨⟨_, entry⟩, hentry, rfl⟩ := List.mem_map.mp hmem
      exact hbound _ entry hentry
    · intro hi
      obtain ⟨statusCode, attempts, -, hmem⟩ := hanswered i hi
      exact List.mem_map.mpr ⟨_, hmem, rfl⟩
  · intro i statusCode
    constructor
    · exact answerAt_logged p s requests turns
    · intro hlogged
      obtain ⟨attempts, hmem⟩ := hlogged
      obtain ⟨statusCode', attempts', hanswer, hmem'⟩ := hanswered i (hbound i _ hmem)
      have hsame := List.inj_on_of_nodup_map honce hmem hmem' rfl
      obtain ⟨rfl, -⟩ := Prod.mk.inj (Prod.mk.inj hsame).2
      exact hanswer

end Progress

section Errors

variable [Runtime] [Framework]

def Incoming.posted (incoming : Incoming) : Bool :=
  incoming.route.posts && (logRequest incoming).isOk && incoming.request.body.isSome

def recordOf (p : Process) (s : AppState) (incoming : Incoming) (m : Moment) : List ErrorRecord :=
  if incoming.posted then failureOf p s ⟨m, incoming.request⟩ else []

def servedRecords (p : Process) (requests : List Incoming) : AppState → List (ℕ × Moment) →
    List ErrorRecord :=
  trace (serialStep (serveAlone p) requests) fun s turn =>
    ((requests[turn.1]?).map fun incoming => recordOf p s incoming turn.2).getD []

theorem handle_errors (p : Process) (m : Moment) {incoming : Incoming}
    (h : incoming.route.posts = false) (s : AppState) :
    (handle p m incoming s).2.service.recentErrors = s.service.recentErrors := by
  have hrefresh : ∀ done failed,
      (answerRefresh done failed m s).2.service.recentErrors = s.service.recentErrors := by
    intro done failed
    rw [answerRefresh_service]
  cases hingests : incoming.route.ingests with
  | false => rw [(handle_idle p m hingests s).1]
  | true =>
    unfold handle
    cases hroute : incoming.route with
    | opsCacheRefresh => exact hrefresh _ _
    | opsCacheFlush => exact hrefresh _ _
    | sendRequest => cases h.symm.trans (congrArg Route.posts hroute)
    | _ => cases hingests.symm.trans (congrArg Route.ingests hroute)

theorem serveAlone_errors (p : Process) (incoming : Incoming) (m : Moment) {s : AppState}
    (h : s.service.recentErrors.length ≤ maxRecentErrors) :
    (serveAlone p incoming m s).1.service.recentErrors =
      (s.service.recentErrors ++ recordOf p s incoming m).rtake maxRecentErrors := by
  have hkept := (rtake_of_length_le h).symm
  unfold recordOf Incoming.posted serveAlone
  cases hlog : logRequest incoming with
  | error e => simpa [Except.isOk, Except.toBool] using hkept
  | ok u =>
    cases hposts : incoming.route.posts with
    | false => simpa [handle_errors p m hposts s] using hkept
    | true =>
      have hroute := (posts_iff _).mp hposts
      have hserved : (handle p m incoming s).2.service =
          (serve p s ⟨m, incoming.request⟩).service := by
        rw [handle, hroute]
        rfl
      have hrecorded := serve_log p h ⟨m, incoming.request⟩
      rw [failureOf_kept] at hrecorded
      simp only [hserved, hrecorded]
      cases hbody : incoming.request.body with
      | none => simp
      | some payload => simp [Except.isOk, Except.toBool]

/-- It leaves one exactly when it is an event with a JSON body that is answered with an error. -/
theorem recordOf_length (p : Process) (s : AppState) (incoming : Incoming) (m : Moment) :
    (recordOf p s incoming m).length =
      ((serveAlone p incoming m s).2.1 != 200 && incoming.posted).toNat := by
  cases hposted : incoming.posted with
  | false => simp [recordOf, hposted]
  | true =>
    simp only [Incoming.posted, Bool.and_eq_true] at hposted
    obtain ⟨⟨hposts, hlogged⟩, hbody⟩ := hposted
    cases hlog : logRequest incoming with
    | error e =>
      rw [hlog] at hlogged
      cases hlogged
    | ok u =>
      have hserved := serveAlone_sendRequest p ((posts_iff _).mp hposts) hlog m s
      have hstatus : (serveAlone p incoming m s).2.1 =
          replyStatus (answerSendRequest p m incoming.request s).1 := congrArg Prod.fst hserved
      simp only [recordOf, Incoming.posted, hposts, hlog, hbody, Except.isOk, Except.toBool, failureOf,
        hstatus, Bool.and_true, if_true]
      split_ifs with hok
      · simp [hok]
      · rw [bne_iff_ne.mpr hok]
        rfl

/-- The served events that are answered with an error, and have a JSON body, leave a record each. -/
theorem servedRecords_length (p : Process) (requests : List Incoming) (s : AppState)
    (served : List (ℕ × Moment)) : (servedRecords p requests s served).length =
      (serialLog (serveAlone p) requests s served).countP fun e =>
        e.2.1 != 200 && (requests[e.1]?).any Incoming.posted := by
  induction served generalizing s with
  | nil => rfl
  | cons turn served ih =>
    have hrest := ih (serialStep (serveAlone p) requests s turn)
    unfold servedRecords serialLog at hrest ⊢
    rw [trace, trace, List.length_append, List.countP_append, hrest]
    congr 1
    unfold serialEntry
    cases hkey : requests[turn.1]? with
    | none => rfl
    | some incoming =>
      simp only [Option.map_some, Option.getD_some, recordOf_length, List.countP_singleton, hkey,
        Option.any_some]
      cases (serveAlone p incoming turn.2 s).2.1 != 200 && incoming.posted <;> rfl

/-- No failure is lost or out of order: after every interleaving the log holds the last of the errors
from before and of the records of the served events, in the order in which they are served, one for each
event with a JSON body that is answered with an error; and `/ops/errors` reports them if their texts can
be shown, and nothing if not. -/
theorem errors_follow_order (p : Process) {s : AppState}
    (hs : s.service.recentErrors.length ≤ maxRecentErrors) (requests : List Incoming)
    (turns : List (ℕ × Moment)) :
    let final := (run (Serving.turn p) (arrivals s requests) turns).shared
    let records := servedRecords p requests s.uncounted (servedTurns p s requests turns)
    let shown := (s.service.recentErrors ++ records).rtake maxRecentErrors
    final.service.recentErrors = shown ∧
      (ErrorsTold shown → ReportsFailures final (s.service.recentErrors ++ records)) ∧
      (¬ErrorsTold shown → ∃ e, opsErrors final = .error e) ∧
      records.length = (servedLog p s requests turns).countP fun e =>
        e.2.1 != 200 && (requests[e.1]?).any Incoming.posted := by
  intro final records shown
  have hstep : ∀ (s : AppState) (turn : ℕ × Moment),
      s.service.recentErrors.length ≤ maxRecentErrors →
      (serialStep (serveAlone p) requests s turn).service.recentErrors =
        (s.service.recentErrors ++ ((requests[turn.1]?).map fun incoming =>
          recordOf p s incoming turn.2).getD []).rtake maxRecentErrors := by
    intro s turn hbounded
    unfold serialStep
    cases requests[turn.1]? with
    | none =>
      simp only [Option.map_none, Option.getD_none, List.append_nil]
      exact (rtake_of_length_le hbounded).symm
    | some incoming => exact serveAlone_errors p incoming turn.2 hbounded
  have hserved : final.service.recentErrors =
      (run (serialStep (serveAlone p) requests) s.uncounted
        (servedTurns p s requests turns)).service.recentErrors :=
    congrArg (fun s => s.service.recentErrors) (served_uncounted p s requests turns)
  have hstart : s.uncounted.service.recentErrors.length ≤ maxRecentErrors := hs
  have hlog : final.service.recentErrors = shown := by
    rw [hserved]
    exact @rtake_run _ _ _ _ _ (fun s : AppState => s.service.recentErrors) _ hstep _ hstart _
  have hreturns := opsErrors_returns final
  rw [hlog] at hreturns
  refine ⟨hlog, ?_, ?_, servedRecords_length p requests _ _⟩
  · intro htold
    rw [reportsFailures_iff, hlog]
    exact ⟨rfl, htold⟩
  · intro htold
    cases hreply : opsErrors final with
    | error e => exact ⟨e, rfl⟩
    | ok reply => exact absurd (hreturns.mp ⟨reply, hreply⟩) htold

end Errors

section Samples

/-- A request that overtakes another is answered, and so is the one that it overtakes. -/
theorem fair_run_serial_overtaken :
    let _ : Runtime := asciiRuntime
    let _ : Framework := strictFramework
    let s := (servingBeside (.bool false) samplePostRequest).shared
    let requests := [samplePostRequest, samplePostRequest]
    let turns := overtaking (sampleMoment 1)
    (servedTurns servingProcess s requests turns).map Prod.fst = [1, 0] ∧
      ((serialLog (serveAlone servingProcess) requests s.uncounted
        (servedTurns servingProcess s requests turns)).map Prod.fst).Perm (List.range 2) := by
  intro _ _ s requests turns
  have hfair : ∀ i < requests.length, 6 ≤ (turnsOf i turns).length := by decide +kernel
  exact ⟨by decide +kernel, ((fair_run_serial servingProcess s requests turns).2 hfair).1⟩

def sampleFailing (body : Json) : Incoming := ⟨.sendRequest, some "/", true, ⟨.empty, some body⟩⟩

theorem errors_follow_order_two :
    let _ : Runtime := asciiRuntime
    let _ : Framework := strictFramework
    let requests := [sampleFailing .null, sampleFailing (.obj [])]
    let turns := overtaking (sampleMoment 1)
    let records := servedRecords servingProcess requests sampleApp.uncounted
      (servedTurns servingProcess sampleApp requests turns)
    records.length = 2 ∧ ReportsFailures
      (run (Serving.turn servingProcess) (arrivals sampleApp requests) turns).shared
      (sampleApp.service.recentErrors ++ records) := by
  intro _ _ requests turns records
  have hempty : sampleApp.service.recentErrors.length ≤ maxRecentErrors := by decide
  obtain ⟨-, hreports, -⟩ := errors_follow_order servingProcess hempty requests turns
  exact ⟨by decide +kernel, hreports ⟨by decide +kernel, by decide +kernel⟩⟩

end Samples

end TvEvents
