import TvEvents.Metrics.Counters

namespace TvEvents

open OrderedMap Runs BoundedDeque

section Counts

theorem errorCounts_foldl (errors : List ErrorRecord) (counts : OrderedMap String ℕ) :
    ((errors.foldl (fun counts err =>
        counts.set err.type ((counts.get? err.type).getD 0 + 1)) counts).entries.map Prod.snd).sum =
      (counts.entries.map Prod.snd).sum + errors.length := by
  induction errors generalizing counts with
  | nil => simp
  | cons err errors ih =>
    rw [List.foldl_cons, ih, count_sum, List.length_cons]
    omega

theorem errorCounts_sum (errors : List ErrorRecord) :
    ((errorCounts errors).entries.map Prod.snd).sum = errors.length := by
  have hfold := errorCounts_foldl errors .empty
  simpa [errorCounts, OrderedMap.empty] using hfold

theorem errorCounts_foldl_get? (errors : List ErrorRecord) (counts : OrderedMap String ℕ)
    (type : String) :
    ((errors.foldl (fun counts err =>
        counts.set err.type ((counts.get? err.type).getD 0 + 1)) counts).get? type).getD 0 =
      (counts.get? type).getD 0 + errors.countP (·.type = type) := by
  induction errors generalizing counts with
  | nil => simp
  | cons err errors ih =>
    rw [List.foldl_cons, ih, set_get?, List.countP_cons]
    by_cases htype : err.type = type
    · simp only [htype, if_true, decide_true, Option.getD_some]
      omega
    · simp [htype, Ne.symm htype]

/-- Each type is counted as often as it occurs. -/
theorem errorCounts_get? (errors : List ErrorRecord) (type : String) :
    ((errorCounts errors).get? type).getD 0 = errors.countP (·.type = type) := by
  rw [errorCounts, errorCounts_foldl_get?]
  simp

end Counts

section ErrorLog

/-- A `POST /` and what the world does while it runs. -/
structure Post where
  moment : Moment
  request : Request

def textOf (content : List (String × Json)) (k : String) : String :=
  match find k content with
  | some (.str s) => s
  | _ => ""

/-- A record keeps the first 200 characters of its message. -/
def clipped (now : ℚ) (type message : String) : ErrorRecord :=
  ⟨type, String.ofList (message.toList.take 200), now⟩

/-- The record that describes a failed request by the answer to it; an internal error is logged under
the name of the catch-all class, with the `tvid`. -/
def failureRecord (post : Post) (response : Response) : ErrorRecord :=
  let type := textOf response.content "error"
  let message := textOf response.content "message"
  let tvid := (post.request.urlParams.get? "tvid").getD ""
  if type = "internal_error" then
    clipped post.moment.tick.now "TvEventsCatchallError"
      ("Exception in send_request: tvid=" ++ tvid ++ " msg=" ++ message)
  else clipped post.moment.tick.now type message

variable [Runtime]

omit [Runtime] in
theorem recordError_rtake (now : ℚ) (type message : String) {errors : List ErrorRecord}
    (h : errors.length ≤ maxRecentErrors) : recordError now type message errors =
      (errors ++ [clipped now type message]).rtake maxRecentErrors := by
  have hlen : (errors ++ [clipped now type message]).length = errors.length + 1 := by simp
  show (if maxRecentErrors < (errors ++ [clipped now type message]).length then
    (errors ++ [clipped now type message]).drop 1 else errors ++ [clipped now type message]) = _
  rw [List.rtake, hlen]
  split_ifs with hfull
  · have hone : errors.length + 1 - maxRecentErrors = 1 := by omega
    rw [hone]
  · have hzero : errors.length + 1 - maxRecentErrors = 0 := by omega
    rw [hzero, List.drop_zero]

def refusalRecord (post : Post) : PyExc → ErrorRecord
  | .tvEvents kind message => clipped post.moment.tick.now kind.name message
  | e => clipped post.moment.tick.now "TvEventsCatchallError" ("Exception in send_request: tvid=" ++
      (post.request.urlParams.get? "tvid").getD "" ++ " msg=" ++ e.text)

theorem refusalRecord_type (post : Post) (e : PyExc) :
    (refusalRecord post e).type ≠ "invalid_payload" ∧ IsAscii (refusalRecord post e).type := by
  cases e with
  | tvEvents kind message =>
    show kind.name ≠ "invalid_payload" ∧ IsAscii kind.name
    cases kind <;> decide
  | validation _ | builtin _ =>
    show "TvEventsCatchallError" ≠ "invalid_payload" ∧ IsAscii "TvEventsCatchallError"
    decide

/-- An exception is answered with an error status, and the answer describes it. -/
theorem answerError_describes (post : Post) (e : PyExc) (service : Service) :
    let answer :=
      answerError post.moment.tick.now ((post.request.urlParams.get? "tvid").getD "") e service
    answer.1.statusCode ≠ 200 ∧ failureRecord post answer.1 = refusalRecord post e := by
  intro answer
  constructor
  · rcases answerError_status post.moment.tick.now ((post.request.urlParams.get? "tvid").getD "") e
      service with hstatus | hstatus <;> simp [answer, hstatus]
  · cases e with
    | tvEvents kind message =>
      have htype : textOf answer.1.content "error" ≠ "internal_error" := by
        show kind.name ≠ "internal_error"
        cases kind <;> decide
      exact if_neg htype
    | validation _ | builtin _ =>
      have htype : textOf answer.1.content "error" = "internal_error" := rfl
      rw [failureRecord, if_pos htype]
      rfl

theorem answerError_log (post : Post) (e : PyExc) {service : Service}
    (h : service.recentErrors.length ≤ maxRecentErrors) :
    (answerError post.moment.tick.now ((post.request.urlParams.get? "tvid").getD "") e
      service).2.recentErrors =
        (service.recentErrors ++ [refusalRecord post e]).rtake maxRecentErrors := by
  cases e <;> exact recordError_rtake _ _ _ h

def serve (p : Process) (s : AppState) (post : Post) : Served :=
  sendRequest p.env post.moment.tick post.moment.kafka post.request s.service

/-- What ends a request in this state, if anything does. -/
def Post.refusal? (p : Process) (s : AppState) (post : Post) : Option PyExc :=
  TvEvents.refusal? p.env post.moment.tick post.moment.kafka post.request s.service

variable [Framework]

/-- The record of a request that is answered with an error, also where the answer to the exception
cannot be rendered and the outermost layer sends a bare 500. -/
def failureOf (p : Process) (s : AppState) (post : Post) : List ErrorRecord :=
  if replyStatus (answerSendRequest p post.moment post.request s).1 = 200 then []
  else [failureRecord post (serve p s post).response]

/-- A request fails for its body, or not at all, or as the exception that ends it. -/
theorem failureOf_cases (p : Process) (s : AppState) (post : Post) :
    (post.request.body = none ∧ (serve p s post).service = s.service ∧
      ∃ err, failureOf p s post = [err] ∧ err.type = "invalid_payload") ∨
    (post.request.body ≠ none ∧ post.refusal? p s = none ∧ failureOf p s post = [] ∧
      (serve p s post).service.recentErrors = s.service.recentErrors) ∨
    ∃ e, post.request.body ≠ none ∧ post.refusal? p s = some e ∧
      failureOf p s post = [refusalRecord post e] ∧
      (s.service.recentErrors.length ≤ maxRecentErrors → (serve p s post).service.recentErrors =
        (s.service.recentErrors ++ [refusalRecord post e]).rtake maxRecentErrors) := by
  have hok := answerSendRequest_ok_iff p post.moment post.request s
  unfold failureOf
  rcases sendRequest_refusal p.env post.moment.tick post.moment.kafka post.request s.service with
    ⟨hbody, hserved⟩ | ⟨hbody, hnone, hresponse, hlog⟩ |
    ⟨e, grown, attempts, hbody, hsome, hgrown, hserved⟩
  · left
    have hserve : serve p s post = _ := hserved
    rw [hserved] at hok
    rw [if_neg (by simp [hok]), hserve]
    exact ⟨hbody, rfl, _, rfl, rfl⟩
  · right; left
    rw [if_pos (hok.mpr (by rw [hresponse]))]
    exact ⟨hbody, hnone, rfl, hlog⟩
  · right; right
    have hserve : serve p s post = _ := hserved
    obtain ⟨hstatus, hrecord⟩ := answerError_describes post e grown
    rw [hserved] at hok
    rw [if_neg (fun h => hstatus (hok.mp h)), hserve, hrecord]
    refine ⟨e, hbody, hsome, rfl, ?_⟩
    rw [← hgrown]
    exact answerError_log post e

/-- Only the failure for a body has a type that is never recorded. -/
theorem failureOf_kept (p : Process) (s : AppState) (post : Post) :
    (failureOf p s post).filter (·.type ≠ "invalid_payload") =
      if post.request.body = none then [] else failureOf p s post := by
  rcases failureOf_cases p s post with ⟨hbody, -, err, hfails, htype⟩ | ⟨hbody, -, hfails, -⟩ |
    ⟨e, hbody, -, hfails, -⟩
  · rw [hfails, if_pos hbody, List.filter_cons_of_neg (by simpa using htype), List.filter_nil]
  · rw [hfails, if_neg hbody, List.filter_nil]
  · have htype := (refusalRecord_type post e).1
    rw [hfails, if_neg hbody, List.filter_cons_of_pos (by simpa using htype), List.filter_nil]

/-- A request leaves its failure, if it is one, as the newest record; a body that is no JSON fails
without a record. -/
theorem serve_log (p : Process) {s : AppState}
    (h : s.service.recentErrors.length ≤ maxRecentErrors) (post : Post) :
    (serve p s post).service.recentErrors =
      (s.service.recentErrors ++
        (failureOf p s post).filter (·.type ≠ "invalid_payload")).rtake maxRecentErrors := by
  have hsame := (rtake_of_length_le h).symm
  rw [failureOf_kept]
  rcases failureOf_cases p s post with ⟨hbody, hserved, -⟩ | ⟨hbody, -, hfails, hlog⟩ |
    ⟨e, hbody, -, hfails, hlog⟩
  · rw [hserved, if_pos hbody, List.append_nil]
    exact hsame
  · rw [hlog, if_neg hbody, hfails, List.append_nil]
    exact hsame
  · rw [hlog h, if_neg hbody, hfails]

def postStep (p : Process) (s : AppState) (post : Post) : AppState :=
  (answerSendRequest p post.moment post.request s).2

theorem postStep_log (p : Process) {s : AppState}
    (h : s.service.recentErrors.length ≤ maxRecentErrors) (post : Post) :
    (postStep p s post).service.recentErrors =
      (s.service.recentErrors ++
        (failureOf p s post).filter (·.type ≠ "invalid_payload")).rtake maxRecentErrors :=
  serve_log p h post

def failures (p : Process) : AppState → List Post → List ErrorRecord :=
  trace (postStep p) (failureOf p)

/-- What `/ops/errors` says after the given failures: the last hundred of them, by type, and the
newest ten. -/
structure ReportsFailures (s : AppState) (errors : List ErrorRecord) : Prop where
  log : s.service.recentErrors = errors.rtake maxRecentErrors
  reply : ∃ counts : OrderedMap String ℕ, opsErrors s = .ok ⟨200, .json [
        ("total", .int (min maxRecentErrors errors.length : ℕ)),
        ("by_type", .obj (counts.entries.map fun kv => (kv.1, .int kv.2))),
        ("recent", .arr (((errors.rtake maxRecentErrors).rtake
          (min 10 (min maxRecentErrors errors.length))).map ErrorRecord.toJson))]⟩ ∧
      (counts.entries.map Prod.snd).sum = min maxRecentErrors errors.length ∧
      ∀ type, (counts.get? type).getD 0 =
        (errors.rtake maxRecentErrors).countP (·.type = type)

omit [Runtime] in
/-- The answer follows the log, if the log can be shown. -/
theorem reportsFailures_iff (s : AppState) (errors : List ErrorRecord) : ReportsFailures s errors ↔
    s.service.recentErrors = errors.rtake maxRecentErrors ∧ ErrorsTold s.service.recentErrors := by
  constructor
  · intro h
    obtain ⟨counts, hreply, -⟩ := h.reply
    exact ⟨h.log, (opsErrors_returns s).mp ⟨_, hreply⟩⟩
  · rintro ⟨h, htold⟩
    have hlen := length_rtake errors maxRecentErrors
    refine ⟨h, errorCounts (errors.rtake maxRecentErrors), ?_, ?_, fun type => errorCounts_get? _ type⟩
    · obtain ⟨reply, hreply⟩ := (opsErrors_returns s).mpr htold
      rw [hreply, jsonResponse_eq hreply, h, ← hlen, rtake_min_length]
    · rw [errorCounts_sum, hlen]

/-- After any run the log holds the last hundred failures whose body was JSON. -/
theorem run_log (p : Process) {s : AppState} (h : s.service.recentErrors.length ≤ maxRecentErrors)
    (posts : List Post) : (run (postStep p) s posts).service.recentErrors =
      (s.service.recentErrors ++
        (failures p s posts).filter (·.type ≠ "invalid_payload")).rtake maxRecentErrors := by
  induction posts generalizing s with
  | nil => simpa [failures, trace] using (rtake_of_length_le h).symm
  | cons post posts ih =>
    have hhead := postStep_log p h post
    have hbounded : (postStep p s post).service.recentErrors.length ≤ maxRecentErrors := by
      rw [hhead]
      exact length_rtake_le _ _
    rw [run_cons, ih hbounded, hhead, rtake_append_rtake, failures, trace, List.filter_append,
      List.append_assoc]

/-- In a new process the report is complete exactly when the failures that it should show all had a
JSON body, and can be shown. -/
theorem reportsFailures_run_iff (p : Process) {s : AppState} (hs : s.service.recentErrors = [])
    (posts : List Post) : ReportsFailures (run (postStep p) s posts) (failures p s posts) ↔
      (∀ err ∈ (failures p s posts).rtake maxRecentErrors, err.type ≠ "invalid_payload") ∧
        ErrorsTold ((failures p s posts).rtake maxRecentErrors) := by
  have hempty : s.service.recentErrors.length ≤ maxRecentErrors := by simp [hs]
  have hlog := run_log p hempty posts
  rw [hs, List.nil_append] at hlog
  rw [reportsFailures_iff]
  have hall : (run (postStep p) s posts).service.recentErrors =
      (failures p s posts).rtake maxRecentErrors ↔
        ∀ err ∈ (failures p s posts).rtake maxRecentErrors, err.type ≠ "invalid_payload" := by
    rw [hlog, rtake_filter_eq_iff]
    simp
  rw [hall]
  refine and_congr_right fun hkept => ?_
  rw [hall.mpr hkept]

/-- What a request must be for its failure, if it is one, to be reported: its body is JSON, and what is
recorded of an exception that ends it can be shown. -/
structure Legible (p : Process) (s : AppState) (post : Post) : Prop where
  body : post.request.body ≠ none
  record : ∀ e, post.refusal? p s = some e → encodes (refusalRecord post e).message = true

instance (p : Process) (s : AppState) (post : Post) : Decidable (Legible p s post) :=
  decidable_of_iff (post.request.body.isSome = true ∧
      (post.refusal? p s).all (fun e => encodes (refusalRecord post e).message) = true) <| by
    rw [Option.isSome_iff_ne_none, Option.all_eq_true]
    exact ⟨fun h => ⟨h.1, h.2⟩, fun h => ⟨h.body, h.record⟩⟩

/-- It is enough that the answer to the exception can be shown, and so can the `tvid` of the URL. -/
theorem legible_of_told {p : Process} {s : AppState} {post : Post} (hbody : post.request.body ≠ none)
    (htold : RefusalTold p post.moment post.request s)
    (htvid : encodes ((post.request.urlParams.get? "tvid").getD "") = true) : Legible p s post := by
  refine ⟨hbody, fun e hsome => ?_⟩
  have htext : encodes e.text = true := htold e hsome
  cases e with
  | tvEvents kind message => exact encodes_take htext 200
  | validation _ | builtin _ =>
    have hascii : encodes "Exception in send_request: tvid=" = true := encodes_ascii (by decide)
    have hmsg : encodes " msg=" = true := encodes_ascii (by decide)
    apply encodes_take
    simp [encodes_append, hascii, hmsg, htvid, htext]

theorem failureOf_legible {p : Process} {s : AppState} {post : Post} (h : Legible p s post) :
    ∀ err ∈ failureOf p s post, err.type ≠ "invalid_payload" ∧ encodes err.type = true ∧
      encodes err.message = true := by
  rcases failureOf_cases p s post with ⟨hnone, -⟩ | ⟨-, -, hfails, -⟩ | ⟨e, -, hsome, hfails, -⟩
  · exact absurd hnone h.body
  · simp [hfails]
  · obtain ⟨htype, hascii⟩ := refusalRecord_type post e
    rw [hfails]
    simpa using ⟨htype, encodes_ascii hascii, h.record e hsome⟩

theorem failures_legible {p : Process} {s : AppState} {posts : List Post}
    (h : Along (postStep p) (Legible p) s posts) :
    ∀ err ∈ failures p s posts, err.type ≠ "invalid_payload" ∧ encodes err.type = true ∧
      encodes err.message = true := by
  induction posts generalizing s with
  | nil => simp [failures, trace]
  | cons post posts ih =>
    intro err herr
    rcases List.mem_append.mp herr with herr | herr
    · exact failureOf_legible h.1 err herr
    · exact ih h.2 err herr

omit [Runtime] in
theorem told_newest {errors : List ErrorRecord} {err : ErrorRecord}
    (h : ErrorsTold ((errors ++ [err]).rtake maxRecentErrors)) : encodes err.message = true := by
  rw [show maxRecentErrors = 99 + 1 from rfl, List.rtake_concat_succ] at h
  exact h.2 err (mem_rtake_concat _ err (by decide))

/-- A report that is complete after a request shows that the request was legible. -/
theorem legible_of_report {p : Process} {s : AppState} (hs : s.service.recentErrors = [])
    {posts : List Post} {post : Post}
    (h : ReportsFailures (run (postStep p) s (posts ++ [post])) (failures p s (posts ++ [post]))) :
    Legible p (run (postStep p) s posts) post := by
  obtain ⟨hkept, htold⟩ := (reportsFailures_run_iff p hs _).mp h
  have hlast : failures p s (posts ++ [post]) =
      failures p s posts ++ failureOf p (run (postStep p) s posts) post := by
    rw [failures, trace_append, trace, trace, List.append_nil]
  rw [hlast] at hkept htold
  rcases failureOf_cases p (run (postStep p) s posts) post with ⟨-, -, err, hfails, htype⟩ |
    ⟨hbody, hnone, -⟩ | ⟨e, hbody, hsome, hfails, -⟩
  · rw [hfails] at hkept
    exact absurd htype (hkept err (mem_rtake_concat _ err (by decide)))
  · refine ⟨hbody, fun e hsome => ?_⟩
    rw [hnone] at hsome
    cases hsome
  · rw [hfails] at htold
    refine ⟨hbody, fun e' hsome' => ?_⟩
    obtain rfl : e = e' := Option.some.inj (hsome.symm.trans hsome')
    exact told_newest htold

/-- In a new process every report of a run is complete exactly when all requests are legible. -/
theorem errorLog_complete_iff (p : Process) {s : AppState} (hs : s.service.recentErrors = [])
    (posts : List Post) :
    (∀ js, js <+: posts → ReportsFailures (run (postStep p) s js) (failures p s js)) ↔
      Along (postStep p) (Legible p) s posts := by
  constructor
  · intro h
    induction posts using List.reverseRecOn with
    | nil => trivial
    | append_singleton posts post ih =>
      have hbefore := ih fun js hjs => h js (hjs.trans (List.prefix_append _ _))
      exact along_append.mpr ⟨hbefore, legible_of_report hs (h _ (List.prefix_refl _)), trivial⟩
  · rintro h js ⟨later, rfl⟩
    have hlegible := failures_legible (along_append.mp h).1
    have hshown : ∀ err ∈ (failures p s js).rtake maxRecentErrors, err.type ≠ "invalid_payload" ∧
        encodes err.type = true ∧ encodes err.message = true :=
      fun err herr => hlegible err ((rtake_suffix _ _).subset herr)
    refine (reportsFailures_run_iff p hs js).mpr ⟨fun err herr => (hshown err herr).1, ?_, ?_⟩
    · exact fun err herr => (hshown err herr).2.1
    · exact fun err herr => (hshown err ((rtake_suffix _ _).subset herr)).2.2

end ErrorLog

section Samples

def samplePost (body : Option Json) : Post := ⟨sampleMoment 1, ⟨.empty, body⟩⟩

theorem errorLog_complete_two :
    let _ : Runtime := asciiRuntime
    let _ : Framework := strictFramework
    let posts := [samplePost (some .null), samplePost (some (.obj []))]
    ReportsFailures (run (postStep sampleProcess) sampleApp posts)
      (failures sampleProcess sampleApp posts) := by
  intro _ _ posts
  have hlegible : Along (postStep sampleProcess) (Legible sampleProcess) sampleApp posts :=
    ⟨by decide +kernel, by decide +kernel, trivial⟩
  exact (errorLog_complete_iff sampleProcess rfl posts).mpr hlegible posts (List.prefix_refl posts)

/-- An event whose timestamp is a lone surrogate is refused with a text that cannot be shown. -/
example :
    let _ : Runtime := asciiRuntime
    let _ : Framework := strictFramework
    let timestamp := String.ofList [JsonText.standIn 0xD800]
    ¬Legible sampleProcess sampleApp (samplePost (some (.obj [("TvEvent", .obj [
      ("tvid", .str "tv1"), ("client", .str "acr"), ("h", .str "h"), ("EventType", .str "ACR_TUNER_DATA"),
      ("timestamp", .str timestamp)])]))) := by decide +kernel

/-- A body that is no JSON is answered with 400 and leaves no record. -/
theorem invalidBody_unrecorded :
    let _ : Runtime := asciiRuntime
    let _ : Framework := strictFramework
    (serve sampleProcess sampleApp (samplePost none)).response.statusCode = 400 ∧
      ¬ReportsFailures (run (postStep sampleProcess) sampleApp [samplePost none])
        (failures sampleProcess sampleApp [samplePost none]) := by
  intro _ _
  refine ⟨by decide +kernel, fun h => ?_⟩
  have hlen := congrArg List.length h.log
  revert hlen
  decide +kernel

end Samples

end TvEvents
