import TvEvents.Legacy.FirehoseClient
import TvEvents.Library.Runs

namespace TvEvents.Legacy

open Runs

variable {ρ : Type}

section Answers

/-- An answer as the service documents it: one entry for each record, a failure counted exactly when
an entry has a code, and a message with every code. -/
structure Answers (response : PutResponse) (records : List ρ) : Prop where
  entries : response.requestResponses.length = records.length
  counted : 0 < response.failedPutCount ↔ ∃ r ∈ response.requestResponses, r.refusal.isSome
  explained : ∀ r ∈ response.requestResponses, r.refusal.isSome → r.errorMessage.isSome

def Documented (outcome : PutOutcome) (records : List ρ) : Prop :=
  ∀ response, outcome = .responds response → Answers response records

/-- The records of a batch whose entries pass `p`. -/
def selected (p : RecordResponse → Bool) (responses : List RecordResponse) (records : List ρ) :
    List ρ :=
  ((records.zip responses).filter fun x => p x.2).map Prod.fst

/-- What an answer reports as taken of a batch; a call that raises reports nothing. -/
def confirmedRecords (outcome : PutOutcome) (records : List ρ) : List ρ :=
  match outcome with
  | .responds response => selected (fun r => r.refusal.isNone) response.requestResponses records
  | _ => []

/-- No answer tells what became of the batch. -/
def PutOutcome.raised : PutOutcome → Bool
  | .responds _ => false
  | .clientError | .raises _ => true

def refusedRecords (outcome : PutOutcome) (records : List ρ) : List ρ :=
  match outcome with
  | .responds response => selected (fun r => r.refusal.isSome) response.requestResponses records
  | _ => []

theorem selected_cons (p : RecordResponse → Bool) (r : RecordResponse)
    (responses : List RecordResponse) (record : ρ) (records : List ρ) :
    selected p (r :: responses) (record :: records) =
      if p r then record :: selected p responses records else selected p responses records := by
  unfold selected
  rw [List.zip_cons_cons, List.filter_cons]
  split_ifs <;> rfl

/-- An answer splits a batch into what it confirms and what it refuses. -/
theorem confirmed_refused_perm {response : PutResponse} {records : List ρ}
    (h : response.requestResponses.length = records.length) :
    (confirmedRecords (.responds response) records ++
      refusedRecords (.responds response) records).Perm records := by
  have hsplit := List.filter_append_perm (fun x : ρ × RecordResponse => x.2.refusal.isNone)
    (records.zip response.requestResponses)
  have hfst : (records.zip response.requestResponses).map Prod.fst = records :=
    List.map_fst_zip (Nat.le_of_eq h.symm)
  have hnot : (fun x : ρ × RecordResponse => !x.2.refusal.isNone) =
      fun x => x.2.refusal.isSome := by
    funext x
    cases x.2.refusal <;> rfl
  have hmap := hsplit.map Prod.fst
  rw [hfst, List.map_append, hnot] at hmap
  exact hmap

theorem retryLoop_selected {responses : List RecordResponse}
    (hexplained : ∀ r ∈ responses, r.refusal.isSome → r.errorMessage.isSome) (records : List ρ)
    (i : ℕ) (hlength : i + responses.length = records.length) : ∃ errors, retryLoop records i responses =
      .ok (selected (fun r => r.refusal.isSome) responses (records.drop i), errors) := by
  induction responses generalizing i with
  | nil => exact ⟨∅, by simp [retryLoop, selected]⟩
  | cons r responses ih =>
    rw [List.length_cons] at hlength
    have hi : i < records.length := by omega
    have hrest : ∀ r ∈ responses, r.refusal.isSome → r.errorMessage.isSome :=
      fun r hr => hexplained r (List.mem_cons_of_mem _ hr)
    obtain ⟨errors, hloop⟩ := ih hrest (i + 1) (by omega)
    rw [retryLoop, List.drop_eq_getElem_cons hi, selected_cons]
    cases hrefusal : r.refusal with
    | none => exact ⟨errors, hloop⟩
    | some code =>
      have hmessage := hexplained r List.mem_cons_self (by rw [hrefusal]; rfl)
      obtain ⟨message, hmessage⟩ := Option.isSome_iff_exists.mp hmessage
      refine ⟨insert (code, message) errors, ?_⟩
      simp only [List.getElem?_eq_getElem hi, hmessage, hloop]
      rfl

theorem getRecordsToRetry_refused {response : PutResponse} {records : List ρ}
    (h : Answers response records) : ∃ errors, getRecordsToRetry response records =
      .ok (refusedRecords (.responds response) records, errors) := by
  unfold getRecordsToRetry refusedRecords
  split_ifs with hcount
  · exact retryLoop_selected h.explained records 0 (by rw [h.entries, Nat.zero_add])
  · refine ⟨∅, ?_⟩
    have hnone : ∀ r ∈ response.requestResponses, r.refusal.isSome = false := by
      intro r hr
      rw [Bool.eq_false_iff]
      intro hsome
      exact hcount (h.counted.mpr ⟨r, hr, hsome⟩)
    have hempty : selected (fun r => r.refusal.isSome) response.requestResponses records = [] := by
      rw [selected, List.map_eq_nil_iff, List.filter_eq_nil_iff]
      intro x hx
      have hmem := (List.of_mem_zip hx).2
      rw [hnone x.2 hmem]
      exact Bool.false_ne_true
    simp only [hempty]

end Answers

section Machine

/-- A send in progress: the batches from the one at hand on, the attempts left for it, the answers
that refused records, what the answers have confirmed so far, and the end. -/
structure Sending (ρ : Type) where
  batches : List (List ρ)
  retries : ℕ
  retryTimes : ℕ
  confirmed : List ρ
  result : Option (Except SendFault Unit)

namespace Firehose

/-- `send_records` in front of its next batch. -/
def enter (fh : Firehose) (batches : List (List ρ)) (retryTimes : ℕ) (confirmed : List ρ) :
    Sending ρ :=
  ⟨batches, fh.serviceUnavailableRetries, retryTimes, confirmed,
    if batches.isEmpty then some (.ok ())
    else if fh.serviceUnavailableRetries = 0 then some (.error fh.unavailable) else none⟩

def begin (fh : Firehose) (records : List ρ) : Sending ρ := fh.enter (fh.batchRecords records) 0 []

/-- What `send_records` does up to its next call, once a call for its batch has come back. -/
def advance (fh : Firehose) (s : Sending ρ) (outcome : PutOutcome) : Sending ρ :=
  match s.result, s.batches with
  | none, batch :: batches =>
    let confirmed := s.confirmed ++ confirmedRecords outcome batch
    match outcome with
    | .responds response =>
      match getRecordsToRetry response batch with
      | .error b => { s with confirmed, result := some (.error (.other b)) }
      | .ok (recordsToRetry, _) =>
        let batches := if recordsToRetry.isEmpty then batches else batches ++ [recordsToRetry]
        let retryTimes := if recordsToRetry.isEmpty then s.retryTimes else s.retryTimes + 1
        if fh.recordRetryLimit ≤ retryTimes then
          { s with batches, retryTimes, confirmed, result := some (.error retryLimitReached) }
        else fh.enter batches retryTimes confirmed
    | .clientError =>
      if s.retries ≤ 1 then { s with retries := 0, result := some (.error fh.unavailable) }
      else { s with retries := s.retries - 1 }
    | .raises b => { s with result := some (.error (.other b)) }
  | _, _ => s

end Firehose

theorem enter_result (fh : Firehose) (batch : List ρ) (batches : List (List ρ)) (retryTimes : ℕ)
    (confirmed : List ρ) : (fh.enter (batch :: batches) retryTimes confirmed).result =
      if fh.serviceUnavailableRetries = 0 then some (.error fh.unavailable) else none := rfl

/-- A documented call that the send makes in this state. -/
structure Sending.Calls (s : Sending ρ) (put : Put ρ) : Prop where
  running : s.result = none
  batch : s.batches.head? = some put.records
  documented : Documented put.outcome put.records

/-- What comes back to the end of the batches after a call. -/
def returned (put : Put ρ) : List (List ρ) :=
  if (refusedRecords put.outcome put.records).isEmpty then []
  else [refusedRecords put.outcome put.records]

def refusals (puts : List (Put ρ)) : ℕ := (puts.map fun put => (returned put).length).sum

def confirmed (puts : List (Put ρ)) : List ρ :=
  puts.flatMap fun put => confirmedRecords put.outcome put.records

def Firehose.after (fh : Firehose) (s : Sending ρ) (put : Put ρ) : Sending ρ :=
  fh.advance s put.outcome

theorem returned_flatten (put : Put ρ) :
    (returned put).flatten = refusedRecords put.outcome put.records := by
  unfold returned
  split_ifs with h
  · rw [List.isEmpty_iff.mp h]
    rfl
  · simp

theorem returned_length_le (put : Put ρ) : (returned put).length ≤ 1 := by
  unfold returned
  split_ifs <;> simp

theorem refusals_append (puts : List (Put ρ)) (put : Put ρ) :
    refusals (puts ++ [put]) = refusals puts + (returned put).length := by
  simp [refusals]

theorem confirmed_append (puts : List (Put ρ)) (put : Put ρ) :
    confirmed (puts ++ [put]) = confirmed puts ++ confirmedRecords put.outcome put.records := by
  simp [confirmed]

theorem Sending.Calls.batches {s : Sending ρ} {put : Put ρ} (h : s.Calls put) :
    ∃ batches, s.batches = put.records :: batches := List.head?_eq_some_iff.mp h.batch

/-- After an answer the send goes on with the next batch, unless refusals have reached the limit. -/
theorem after_responds (fh : Firehose) {s : Sending ρ} {put : Put ρ} {batches : List (List ρ)}
    {response : PutResponse} (h : s.Calls put) (houtcome : put.outcome = .responds response)
    (hbatches : s.batches = put.records :: batches) :
    fh.after s put =
      if fh.recordRetryLimit ≤ s.retryTimes + (returned put).length then
        ⟨batches ++ returned put, s.retries, s.retryTimes + (returned put).length,
          s.confirmed ++ confirmedRecords put.outcome put.records,
          some (.error Firehose.retryLimitReached)⟩
      else fh.enter (batches ++ returned put) (s.retryTimes + (returned put).length)
        (s.confirmed ++ confirmedRecords put.outcome put.records) := by
  obtain ⟨errors, hretry⟩ := getRecordsToRetry_refused (h.documented response houtcome)
  simp only [Firehose.after, Firehose.advance, h.running, hbatches, houtcome, hretry, returned]
  cases refusedRecords (.responds response) put.records with
  | nil => simp
  | cons record records => simp

theorem after_clientError (fh : Firehose) {s : Sending ρ} {batch : List ρ}
    (h : s.Calls ⟨batch, .clientError⟩) : fh.after s ⟨batch, .clientError⟩ =
      if s.retries ≤ 1 then { s with retries := 0, result := some (.error fh.unavailable) }
      else { s with retries := s.retries - 1 } := by
  obtain ⟨batches, hbatches⟩ := h.batches
  simp only [Firehose.after, Firehose.advance, h.running, hbatches]

theorem after_raises (fh : Firehose) {s : Sending ρ} {batch : List ρ} {b : Builtin}
    (h : s.Calls ⟨batch, .raises b⟩) :
    fh.after s ⟨batch, .raises b⟩ = { s with result := some (.error (.other b)) } := by
  obtain ⟨batches, hbatches⟩ := h.batches
  simp only [Firehose.after, Firehose.advance, h.running, hbatches]

end Machine

section Refinement

def DocumentedClient (client : Client ρ) : Prop := ∀ n records, Documented (client n records) records

theorem putRecordBatch_responds (fh : Firehose) {client : Client ρ} {records : List ρ}
    {n : ℕ} {response : PutResponse} (h : client n records = .responds response) (retries : ℕ) :
    fh.putRecordBatch client records (retries + 1) n =
      ((getRecordsToRetry response records).mapError .other, [⟨records, .responds response⟩]) := by
  rw [Firehose.putRecordBatch, h]

theorem putRecordBatch_clientError (fh : Firehose) {client : Client ρ} {records : List ρ}
    {n : ℕ} (h : client n records = .clientError) (retries : ℕ) :
    fh.putRecordBatch client records (retries + 1) n =
      ((fh.putRecordBatch client records retries (n + 1)).1,
        ⟨records, .clientError⟩ :: (fh.putRecordBatch client records retries (n + 1)).2) := by
  rw [Firehose.putRecordBatch, h]

theorem putRecordBatch_raises (fh : Firehose) {client : Client ρ} {records : List ρ}
    {n : ℕ} {b : Builtin} (h : client n records = .raises b) (retries : ℕ) :
    fh.putRecordBatch client records (retries + 1) n =
      (.error (.other b), [⟨records, .raises b⟩]) := by
  rw [Firehose.putRecordBatch, h]

/-- Where the machine stands when `_put_record_batch` has come back for the batch at hand. -/
def Settled (fh : Firehose) (batches : List (List ρ)) (retryTimes : ℕ) (final : Sending ρ) :
    Except SendFault (List ρ × Finset (String × String)) → Prop
  | .error e => final.result = some (.error e)
  | .ok (retry, _) =>
    let back := if retry.isEmpty then [] else [retry]
    if fh.recordRetryLimit ≤ retryTimes + back.length then
      final.result = some (.error Firehose.retryLimitReached)
    else ∃ confirmed, final = fh.enter (batches ++ back) (retryTimes + back.length) confirmed

/-- A call that does not end in a `ClientError` is the last one for its batch. -/
private theorem putRecordBatch_last {fh : Firehose} {client : Client ρ} {s : Sending ρ}
    {batch : List ρ} {batches : List (List ρ)} {n : ℕ} (hcall : s.Calls ⟨batch, client n batch⟩)
    (hbatches : s.batches = batch :: batches) (hlast : client n batch ≠ .clientError) (retries : ℕ) :
    Along fh.after Sending.Calls s (fh.putRecordBatch client batch (retries + 1) n).2 ∧
      Settled fh batches s.retryTimes
        (run fh.after s (fh.putRecordBatch client batch (retries + 1) n).2)
        (fh.putRecordBatch client batch (retries + 1) n).1 := by
  cases houtcome : client n batch with
  | responds response =>
    rw [houtcome] at hcall
    obtain ⟨errors, hretry⟩ := getRecordsToRetry_refused (hcall.documented response rfl)
    rw [putRecordBatch_responds fh houtcome, hretry]
    refine ⟨⟨hcall, trivial⟩, ?_⟩
    rw [run_cons, run_nil, after_responds fh hcall rfl hbatches]
    split_ifs with hlimit
    · exact (if_pos hlimit).mpr rfl
    · exact (if_neg hlimit).mpr ⟨_, rfl⟩
  | clientError => exact absurd houtcome hlast
  | raises b =>
    rw [houtcome] at hcall
    rw [putRecordBatch_raises fh houtcome]
    refine ⟨⟨hcall, trivial⟩, ?_⟩
    rw [run_cons, after_raises fh hcall]
    rfl

/-- The calls for one batch take the machine to the next batch, or to the end of the send. -/
theorem putRecordBatch_run {fh : Firehose} {client : Client ρ} (hclient : DocumentedClient client)
    {s : Sending ρ} {batch : List ρ} {batches : List (List ρ)} (hrunning : s.result = none)
    (hbatches : s.batches = batch :: batches) {retries : ℕ} (hretries : s.retries = retries + 1)
    (n : ℕ) :
    Along fh.after Sending.Calls s (fh.putRecordBatch client batch (retries + 1) n).2 ∧
      Settled fh batches s.retryTimes
        (run fh.after s (fh.putRecordBatch client batch (retries + 1) n).2)
        (fh.putRecordBatch client batch (retries + 1) n).1 := by
  induction retries generalizing s n with
  | zero =>
    have hcall : s.Calls ⟨batch, client n batch⟩ := ⟨hrunning, by rw [hbatches]; rfl, hclient n batch⟩
    by_cases herror : client n batch = .clientError
    · rw [herror] at hcall
      rw [putRecordBatch_clientError fh herror]
      refine ⟨⟨hcall, trivial⟩, ?_⟩
      rw [run_cons, after_clientError fh hcall, if_pos (by omega)]
      rfl
    · exact putRecordBatch_last hcall hbatches herror 0
  | succ retries ih =>
    have hcall : s.Calls ⟨batch, client n batch⟩ := ⟨hrunning, by rw [hbatches]; rfl, hclient n batch⟩
    by_cases herror : client n batch = .clientError
    · rw [herror] at hcall
      have hafter := after_clientError fh hcall
      rw [if_neg (by omega), hretries] at hafter
      obtain ⟨halong, hsettled⟩ :=
        ih (s := { s with retries := retries + 1 }) hrunning hbatches rfl (n + 1)
      rw [putRecordBatch_clientError fh herror]
      refine ⟨⟨hcall, ?_⟩, ?_⟩
      · rw [hafter]
        exact halong
      · rw [run_cons, hafter]
        exact hsettled
    · exact putRecordBatch_last hcall hbatches herror (retries + 1)

theorem enter_run {fh : Firehose} {client : Client ρ} (hclient : DocumentedClient client)
    (batch : List ρ) (batches : List (List ρ)) (retryTimes n : ℕ) (confirmed : List ρ) :
    let put := fh.putRecordBatch client batch fh.serviceUnavailableRetries n
    Along fh.after Sending.Calls (fh.enter (batch :: batches) retryTimes confirmed) put.2 ∧
      Settled fh batches retryTimes
        (run fh.after (fh.enter (batch :: batches) retryTimes confirmed) put.2) put.1 := by
  cases hretries : fh.serviceUnavailableRetries with
  | zero =>
    refine ⟨trivial, ?_⟩
    simp [Firehose.putRecordBatch, Settled, Firehose.enter, hretries]
  | succ retries =>
    have hrunning : (fh.enter (batch :: batches) retryTimes confirmed).result = none := by
      simp [Firehose.enter, hretries]
    exact putRecordBatch_run hclient hrunning rfl hretries n

/-- A round of the loop over the batches: a batch is tried, and what is refused of it goes to the
end. -/
theorem sendLoop_cons (fh : Firehose) (client : Client ρ) (batch : List ρ) (batches : List (List ρ))
    (retryTimes n : ℕ) : fh.sendLoop client (batch :: batches) retryTimes n =
      let put := fh.putRecordBatch client batch fh.serviceUnavailableRetries n
      match put.1 with
      | .error e => (.error e, put.2)
      | .ok (retry, _) =>
        let back := if retry.isEmpty then [] else [retry]
        if fh.recordRetryLimit ≤ retryTimes + back.length then
          (.error Firehose.retryLimitReached, put.2)
        else
          let rest := fh.sendLoop client (batches ++ back) (retryTimes + back.length)
            (n + put.2.length)
          (rest.1, put.2 ++ rest.2) := by
  rw [Firehose.sendLoop]
  cases hput : (fh.putRecordBatch client batch fh.serviceUnavailableRetries n).1 with
  | error e => simp only [hput]
  | ok tried =>
    obtain ⟨retry, errors⟩ := tried
    simp only [hput]
    cases retry with
    | nil => simp
    | cons record records => simp

/-- The loop over the batches is a run of the machine over its calls, up to its end. -/
theorem sendLoop_run {fh : Firehose} {client : Client ρ} (hclient : DocumentedClient client)
    (batches : List (List ρ)) (retryTimes n : ℕ) (confirmed : List ρ) :
    Along fh.after Sending.Calls (fh.enter batches retryTimes confirmed)
        (fh.sendLoop client batches retryTimes n).2 ∧
      (run fh.after (fh.enter batches retryTimes confirmed)
        (fh.sendLoop client batches retryTimes n).2).result =
          some (fh.sendLoop client batches retryTimes n).1 := by
  induction hleft : fh.recordRetryLimit - retryTimes + batches.length using Nat.strong_induction_on
    generalizing batches retryTimes n confirmed with
  | _ left ih =>
    cases batches with
    | nil =>
      rw [Firehose.sendLoop]
      exact ⟨trivial, rfl⟩
    | cons batch batches =>
      obtain ⟨halong, hsettled⟩ := enter_run hclient batch batches retryTimes n confirmed
      rw [sendLoop_cons]
      generalize fh.putRecordBatch client batch fh.serviceUnavailableRetries n = put at *
      obtain ⟨result, calls⟩ := put
      cases result with
      | error e => exact ⟨halong, hsettled⟩
      | ok tried =>
        obtain ⟨retry, errors⟩ := tried
        simp only [Settled] at hsettled
        simp only
        generalize hback : (if retry.isEmpty then [] else [retry]) = back at *
        have hshort : back.length ≤ 1 := by
          rw [← hback]
          split_ifs <;> simp
        split_ifs at hsettled ⊢ with hlimit
        · exact ⟨halong, hsettled⟩
        · -- the budget of the limit pays for the batch that comes back
          obtain ⟨confirmed', hstate⟩ := hsettled
          have hless : fh.recordRetryLimit - (retryTimes + back.length) + (batches ++ back).length <
              left := by
            rw [← hleft, List.length_append, List.length_cons]
            omega
          obtain ⟨hrest, hend⟩ := ih _ hless (batches ++ back) (retryTimes + back.length)
            (n + calls.length) confirmed' rfl
          refine ⟨along_append.mpr ⟨halong, ?_⟩, ?_⟩
          · rw [hstate]
            exact hrest
          · rw [run_append, hstate]
            exact hend

/-- `send_records` is a run of the machine over its calls, and ends as the machine does. -/
theorem sendRecords_run (fh : Firehose) {client : Client ρ} (hclient : DocumentedClient client)
    (records : List ρ) :
    Along fh.after Sending.Calls (fh.begin records) (fh.sendRecords client records).2 ∧
      (run fh.after (fh.begin records) (fh.sendRecords client records).2).result =
        some (fh.sendRecords client records).1 :=
  sendLoop_run hclient _ 0 0 []

end Refinement

end TvEvents.Legacy
