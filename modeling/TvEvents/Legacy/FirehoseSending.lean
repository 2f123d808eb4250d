import TvEvents.Legacy.FirehoseMachine

namespace TvEvents.Legacy

open Runs

variable {ρ : Type}

section Batches

theorem batchLoop_flatten (size : ℕ) (batch records : List ρ) :
    (batchLoop size batch records).flatten = batch ++ records := by
  induction records generalizing batch with
  | nil =>
    rw [batchLoop]
    split_ifs with hempty
    · rw [List.eq_nil_of_length_eq_zero hempty]
      rfl
    · simp
  | cons record records ih =>
    simp only [batchLoop]
    split_ifs
    · rw [List.flatten_cons, ih, List.append_assoc, List.nil_append, List.singleton_append]
    · rw [ih, List.append_assoc, List.singleton_append]

theorem batchRecords_flatten (fh : Firehose) (records : List ρ) :
    (fh.batchRecords records).flatten = records := batchLoop_flatten _ [] records

theorem batchLoop_nonempty (size : ℕ) (batch records : List ρ) {full : List ρ}
    (h : full ∈ batchLoop size batch records) : full ≠ [] := by
  induction records generalizing batch with
  | nil =>
    rw [batchLoop] at h
    split_ifs at h with hempty
    · cases h
    · rw [List.mem_singleton.mp h]
      exact fun hnil => hempty (by rw [hnil]; rfl)
  | cons record records ih =>
    simp only [batchLoop] at h
    split_ifs at h
    · rcases List.mem_cons.mp h with rfl | h
      · simp
      · exact ih [] h
    · exact ih _ h

theorem batchLoop_length_le {size : ℕ} (hsize : 0 < size) {batch : List ρ}
    (hopen : batch.length < size) (records : List ρ) {full : List ρ}
    (h : full ∈ batchLoop size batch records) : full.length ≤ size := by
  induction records generalizing batch with
  | nil =>
    rw [batchLoop] at h
    split_ifs at h
    · cases h
    · rw [List.mem_singleton.mp h]
      exact Nat.le_of_lt hopen
  | cons record records ih =>
    simp only [batchLoop] at h
    split_ifs at h with hfull
    · rcases List.mem_cons.mp h with rfl | h
      · exact Nat.le_of_eq hfull
      · have hnone : ([] : List ρ).length < size := hsize
        exact ih hnone h
    · apply ih _ h
      rw [List.length_append, List.length_singleton] at hfull ⊢
      omega

theorem batchRecords_nonempty {fh : Firehose} {records batch : List ρ}
    (h : batch ∈ fh.batchRecords records) : batch ≠ [] := batchLoop_nonempty _ [] records h

theorem batchRecords_length_le {fh : Firehose} (hsize : 0 < fh.maxBatchSize) {records batch : List ρ}
    (h : batch ∈ fh.batchRecords records) : batch.length ≤ fh.maxBatchSize :=
  batchLoop_length_le hsize (show ([] : List ρ).length < fh.maxBatchSize from hsize) records h

end Batches

section Tracking

/-- Why a send ended: everything is sent; or the limit of refusing answers is reached; or every
attempt for a batch failed; or a call raised. -/
def EndsFor (fh : Firehose) (puts : List (Put ρ)) : Except SendFault Unit → Prop
  | .ok _ => refusals puts < fh.recordRetryLimit ∨ refusals puts = 0
  | .error e =>
    (e = Firehose.retryLimitReached ∧
      (refusals puts = fh.recordRetryLimit ∨ fh.recordRetryLimit = 0)) ∨
    (e = fh.unavailable ∧ ∃ pre batch, puts =
      pre ++ List.replicate fh.serviceUnavailableRetries ⟨batch, .clientError⟩) ∨
    ∃ b pre batch, e = .other b ∧ puts = pre ++ [⟨batch, .raises b⟩]

/-- What holds of a send of the records after the calls that it has made. -/
structure Tracked (fh : Firehose) (records : List ρ) (puts : List (Put ρ)) (s : Sending ρ) :
    Prop where
  confirmed : s.confirmed = Legacy.confirmed puts
  counted : s.retryTimes = refusals puts
  conserved : (s.confirmed ++ s.batches.flatten).Perm records
  below : s.result = none → s.retryTimes < fh.recordRetryLimit ∨ s.retryTimes = 0
  failing : s.result = none → 0 < s.retries ∧ s.retries ≤ fh.serviceUnavailableRetries ∧
    ∃ pre batch, s.batches.head? = some batch ∧ puts =
      pre ++ List.replicate (fh.serviceUnavailableRetries - s.retries) ⟨batch, .clientError⟩
  complete : s.result = some (.ok ()) → s.batches = []
  ends : ∀ result, s.result = some result → EndsFor fh puts result

theorem Tracked.enter {fh : Firehose} {records : List ρ} {puts : List (Put ρ)}
    {batches : List (List ρ)} (hconserved : (Legacy.confirmed puts ++ batches.flatten).Perm records)
    (hbelow : refusals puts < fh.recordRetryLimit ∨ refusals puts = 0) :
    Tracked fh records puts (fh.enter batches (refusals puts) (Legacy.confirmed puts)) := by
  cases batches with
  | nil =>
    refine ⟨rfl, rfl, hconserved, ?_, ?_, fun _ => rfl, ?_⟩
    · intro hrunning
      cases hrunning
    · intro hrunning
      cases hrunning
    · intro result hresult
      obtain rfl : Except.ok () = result := Option.some.inj hresult
      exact hbelow
  | cons batch batches =>
    refine ⟨rfl, rfl, hconserved, fun _ => hbelow, ?_, ?_, ?_⟩
    · intro hrunning
      rw [enter_result] at hrunning
      split_ifs at hrunning with hretries
      refine ⟨Nat.pos_of_ne_zero hretries, Nat.le_refl _, puts, batch, rfl, ?_⟩
      simp [Firehose.enter]
    · intro hresult
      rw [enter_result] at hresult
      split_ifs at hresult
      cases hresult
    · intro result hresult
      rw [enter_result] at hresult
      split_ifs at hresult with hretries
      obtain rfl := Option.some.inj hresult
      exact .inr (.inl ⟨rfl, puts, batch, by rw [hretries]; simp⟩)

/-- An answer keeps the books: what it takes and what it refuses are the batch. -/
private theorem conserved_answer {response : PutResponse} {records batch confirmed : List ρ}
    {batches : List (List ρ)} (hdoc : Answers response batch)
    (h : (confirmed ++ (batch :: batches).flatten).Perm records) :
    (confirmed ++ confirmedRecords (.responds response) batch ++
      (batches ++ returned ⟨batch, .responds response⟩).flatten).Perm records := by
  refine List.Perm.trans ?_ h
  rw [List.flatten_append, returned_flatten, List.append_assoc, List.flatten_cons]
  apply List.Perm.append_left
  have hswap : (batches.flatten ++ refusedRecords (.responds response) batch).Perm
      (refusedRecords (.responds response) batch ++ batches.flatten) := List.perm_append_comm
  refine (hswap.append_left _).trans ?_
  rw [← List.append_assoc]
  exact (confirmed_refused_perm hdoc.entries).append_right _

/-- A call without an answer leaves the accounts as they are. -/
private theorem accounts_silent (puts : List (Put ρ)) (put : Put ρ)
    (h : ∀ response, put.outcome ≠ .responds response) :
    confirmed (puts ++ [put]) = confirmed puts ∧ refusals (puts ++ [put]) = refusals puts := by
  rw [confirmed_append, refusals_append, returned]
  cases houtcome : put.outcome with
  | responds response => exact absurd houtcome (h response)
  | clientError => exact ⟨List.append_nil _, rfl⟩
  | raises b => exact ⟨List.append_nil _, rfl⟩

private theorem Tracked.after_answer {fh : Firehose} {records : List ρ} {puts : List (Put ρ)}
    {s : Sending ρ} {batch : List ρ} {response : PutResponse} (h : Tracked fh records puts s)
    (hcall : s.Calls ⟨batch, .responds response⟩) :
    Tracked fh records (puts ++ [⟨batch, .responds response⟩])
      (fh.after s ⟨batch, .responds response⟩) := by
  obtain ⟨batches, hbatches⟩ := hcall.batches
  have hbelow := h.below hcall.running
  have hconserved := h.conserved
  rw [hbatches] at hconserved
  have hbooks := conserved_answer (hcall.documented response rfl) hconserved
  rw [h.confirmed, ← confirmed_append puts ⟨batch, .responds response⟩] at hbooks
  have hshort := returned_length_le (⟨batch, .responds response⟩ : Put ρ)
  have hcount := refusals_append puts ⟨batch, .responds response⟩
  rw [after_responds fh hcall rfl hbatches, h.confirmed, ← confirmed_append, h.counted, ← hcount]
  rw [h.counted] at hbelow
  split_ifs with hlimit
  · refine ⟨rfl, rfl, hbooks, ?_, ?_, ?_, ?_⟩
    · intro hrunning
      cases hrunning
    · intro hrunning
      cases hrunning
    · intro hok
      cases hok
    · intro result hresult
      obtain rfl := Option.some.inj hresult
      exact .inl ⟨rfl, by omega⟩
  · exact .enter hbooks (.inl (Nat.lt_of_not_le hlimit))

private theorem Tracked.after_outage {fh : Firehose} {records : List ρ} {puts : List (Put ρ)}
    {s : Sending ρ} {batch : List ρ} (h : Tracked fh records puts s)
    (hcall : s.Calls ⟨batch, .clientError⟩) :
    Tracked fh records (puts ++ [⟨batch, .clientError⟩]) (fh.after s ⟨batch, .clientError⟩) := by
  obtain ⟨hconfirmed, hrefusals⟩ := accounts_silent puts ⟨batch, .clientError⟩ (by simp)
  obtain ⟨hpos, hretries, pre, batch', hhead, hpre⟩ := h.failing hcall.running
  obtain rfl : batch = batch' := Option.some.inj (hcall.batch.symm.trans hhead)
  have hmore : puts ++ [⟨batch, .clientError⟩] =
      pre ++ List.replicate (fh.serviceUnavailableRetries - s.retries + 1) ⟨batch, .clientError⟩ := by
    rw [List.replicate_succ', ← List.append_assoc, ← hpre]
  rw [after_clientError fh hcall]
  split_ifs with hlast
  · refine ⟨h.confirmed.trans hconfirmed.symm, h.counted.trans hrefusals.symm, h.conserved, ?_, ?_, ?_, ?_⟩
    · intro hrunning
      cases hrunning
    · intro hrunning
      cases hrunning
    · intro hok
      cases hok
    · intro result hresult
      obtain rfl := Option.some.inj hresult
      have hall : fh.serviceUnavailableRetries - s.retries + 1 = fh.serviceUnavailableRetries := by
        omega
      rw [hall] at hmore
      exact .inr (.inl ⟨rfl, pre, batch, hmore⟩)
  · refine ⟨h.confirmed.trans hconfirmed.symm, h.counted.trans hrefusals.symm, h.conserved,
      fun _ => h.below hcall.running, ?_, ?_, ?_⟩
    · intro _
      have hleft : fh.serviceUnavailableRetries - (s.retries - 1) =
          fh.serviceUnavailableRetries - s.retries + 1 := by omega
      have hless : s.retries - 1 ≤ fh.serviceUnavailableRetries := by omega
      refine ⟨Nat.sub_pos_of_lt (Nat.lt_of_not_le hlast), hless, pre, batch, hcall.batch, ?_⟩
      rw [hleft]
      exact hmore
    · intro hok
      exact h.complete hok
    · intro result hresult
      cases hcall.running.symm.trans hresult

private theorem Tracked.after_exception {fh : Firehose} {records : List ρ} {puts : List (Put ρ)}
    {s : Sending ρ} {batch : List ρ} {b : Builtin} (h : Tracked fh records puts s)
    (hcall : s.Calls ⟨batch, .raises b⟩) :
    Tracked fh records (puts ++ [⟨batch, .raises b⟩]) (fh.after s ⟨batch, .raises b⟩) := by
  obtain ⟨hconfirmed, hrefusals⟩ := accounts_silent puts ⟨batch, .raises b⟩ (by simp)
  rw [after_raises fh hcall]
  refine ⟨h.confirmed.trans hconfirmed.symm, h.counted.trans hrefusals.symm, h.conserved, ?_, ?_, ?_, ?_⟩
  · intro hrunning
    cases hrunning
  · intro hrunning
    cases hrunning
  · intro hok
    cases hok
  · intro result hresult
    obtain rfl := Option.some.inj hresult
    exact .inr (.inr ⟨b, puts, batch, rfl, rfl⟩)

/-- Every call keeps the books. -/
theorem Tracked.after {fh : Firehose} {records : List ρ} {puts : List (Put ρ)} {s : Sending ρ}
    {put : Put ρ} (h : Tracked fh records puts s) (hcall : s.Calls put) :
    Tracked fh records (puts ++ [put]) (fh.after s put) := by
  obtain ⟨batch, outcome⟩ := put
  cases outcome with
  | responds response => exact h.after_answer hcall
  | clientError => exact h.after_outage hcall
  | raises b => exact h.after_exception hcall

theorem tracked_run (fh : Firehose) (records : List ρ) {puts : List (Put ρ)}
    (hcalls : Along fh.after Sending.Calls (fh.begin records) puts) :
    Tracked fh records puts (run fh.after (fh.begin records) puts) := by
  apply history_run (I := Tracked fh records) (fun _ _ _ h hcall => h.after hcall) _ hcalls
  have hall : (confirmed ([] : List (Put ρ)) ++ (fh.batchRecords records).flatten).Perm records := by
    rw [batchRecords_flatten]
    exact List.Perm.refl _
  exact .enter hall (.inr rfl)

end Tracking

section Sizes

def Fits (fh : Firehose) (s : Sending ρ) : Prop :=
  ∀ batch ∈ s.batches, batch ≠ [] ∧ batch.length ≤ fh.maxBatchSize

theorem fits_begin {fh : Firehose} (hsize : 0 < fh.maxBatchSize) (records : List ρ) :
    Fits fh (fh.begin records) :=
  fun _ h => ⟨batchRecords_nonempty h, batchRecords_length_le hsize h⟩

theorem refusedRecords_length_le (outcome : PutOutcome) (records : List ρ) :
    (refusedRecords outcome records).length ≤ records.length := by
  cases outcome with
  | clientError | raises b => exact Nat.zero_le _
  | responds response =>
    rw [refusedRecords, selected, List.length_map]
    refine (List.length_filter_le _ _).trans ?_
    rw [List.length_zip]
    exact Nat.min_le_left _ _

theorem returned_fits {fh : Firehose} {put : Put ρ} (h : put.records.length ≤ fh.maxBatchSize) :
    ∀ batch ∈ returned put, batch ≠ [] ∧ batch.length ≤ fh.maxBatchSize := by
  intro batch hbatch
  unfold returned at hbatch
  split_ifs at hbatch with hempty
  · cases hbatch
  · obtain rfl := List.mem_singleton.mp hbatch
    refine ⟨fun hnil => hempty (List.isEmpty_iff.mpr hnil), ?_⟩
    exact (refusedRecords_length_le _ _).trans h

theorem fits_after {fh : Firehose} {s : Sending ρ} {put : Put ρ} (h : Fits fh s)
    (hcall : s.Calls put) : Fits fh (fh.after s put) := by
  obtain ⟨batches, hbatches⟩ := hcall.batches
  have hput := h put.records (by rw [hbatches]; exact List.mem_cons_self)
  have hleft : ∀ batch ∈ batches ++ returned put,
      batch ≠ [] ∧ batch.length ≤ fh.maxBatchSize := by
    intro batch hbatch
    rcases List.mem_append.mp hbatch with hbatch | hbatch
    · exact h batch (by rw [hbatches]; exact List.mem_cons_of_mem _ hbatch)
    · exact returned_fits hput.2 batch hbatch
  cases houtcome : put.outcome with
  | responds response =>
    rw [after_responds fh hcall houtcome hbatches]
    split_ifs
    · exact hleft
    · exact hleft
  | clientError =>
    obtain ⟨batch, outcome⟩ := put
    subst houtcome
    rw [after_clientError fh hcall]
    split_ifs
    · exact h
    · exact h
  | raises b =>
    obtain ⟨batch, outcome⟩ := put
    subst houtcome
    rw [after_raises fh hcall]
    exact h

end Sizes

section Budget

/-- The calls that a send can still make: those for the batch at hand, and all attempts for each batch
that is left or can come back. -/
def callsLeft (fh : Firehose) (s : Sending ρ) : ℕ :=
  if s.result.isSome then 0
  else (fh.recordRetryLimit - 1 - s.retryTimes + (s.batches.length - 1)) *
    fh.serviceUnavailableRetries + s.retries

/-- While a send runs it has a batch and attempts for it. -/
def Ready (fh : Firehose) (s : Sending ρ) : Prop :=
  s.result = none → s.batches ≠ [] ∧ 0 < s.retries ∧ s.retries ≤ fh.serviceUnavailableRetries

theorem ready_enter (fh : Firehose) (batches : List (List ρ)) (retryTimes : ℕ) (confirmed : List ρ) :
    Ready fh (fh.enter batches retryTimes confirmed) := by
  intro hrunning
  cases batches with
  | nil => cases hrunning
  | cons batch batches =>
    rw [enter_result] at hrunning
    split_ifs at hrunning with hretries
    exact ⟨List.cons_ne_nil _ _, Nat.pos_of_ne_zero hretries, Nat.le_refl _⟩

theorem callsLeft_enter (fh : Firehose) (batches : List (List ρ)) (retryTimes : ℕ)
    (confirmed : List ρ) : callsLeft fh (fh.enter batches retryTimes confirmed) ≤
      (fh.recordRetryLimit - 1 - retryTimes + batches.length) * fh.serviceUnavailableRetries := by
  unfold callsLeft
  split_ifs with hdone
  · exact Nat.zero_le _
  · cases batches with
    | nil => exact absurd rfl hdone
    | cons batch batches =>
      show (_ + batches.length) * _ + fh.serviceUnavailableRetries ≤ (_ + (batches.length + 1)) * _
      rw [← Nat.add_assoc, Nat.succ_mul]
      exact Nat.le_refl _

/-- Every call draws on the budget: a batch that comes back is paid for by the limit. -/
theorem callsLeft_after {fh : Firehose} {s : Sending ρ} {put : Put ρ} (h : Ready fh s)
    (hcall : s.Calls put) :
    Ready fh (fh.after s put) ∧ callsLeft fh (fh.after s put) < callsLeft fh s := by
  obtain ⟨hbatches, hpos, hretries⟩ := h hcall.running
  obtain ⟨batches, hcons⟩ := hcall.batches
  have hbudget : callsLeft fh s = (fh.recordRetryLimit - 1 - s.retryTimes + batches.length) *
      fh.serviceUnavailableRetries + s.retries := by
    rw [callsLeft, hcall.running, hcons]
    rfl
  have hdone : ∀ s' : Sending ρ, s'.result.isSome = true →
      Ready fh s' ∧ callsLeft fh s' < callsLeft fh s := by
    intro s' hsome
    refine ⟨?_, ?_⟩
    · intro hrunning
      rw [hrunning] at hsome
      cases hsome
    · rw [callsLeft, if_pos hsome, hbudget]
      omega
  cases houtcome : put.outcome with
  | responds response =>
    rw [after_responds fh hcall houtcome hcons]
    split_ifs with hlimit
    · exact hdone _ rfl
    · refine ⟨ready_enter _ _ _ _, Nat.lt_of_le_of_lt (callsLeft_enter _ _ _ _) ?_⟩
      have hrounds : fh.recordRetryLimit - 1 - (s.retryTimes + (returned put).length) +
          (batches ++ returned put).length ≤ fh.recordRetryLimit - 1 - s.retryTimes + batches.length := by
        have hshort := returned_length_le put
        rw [List.length_append]
        omega
      have hcost := Nat.mul_le_mul_right fh.serviceUnavailableRetries hrounds
      omega
  | clientError =>
    obtain ⟨batch, outcome⟩ := put
    subst houtcome
    rw [after_clientError fh hcall]
    split_ifs with hlast
    · exact hdone _ rfl
    · refine ⟨fun _ => ⟨hbatches, by simp only; omega, by simp only; omega⟩, ?_⟩
      rw [hbudget, callsLeft]
      simp only [hcall.running, hcons, List.length_cons, Option.isSome_none]
      simp only [Bool.false_eq_true, if_false, Nat.add_sub_cancel]
      omega
  | raises b =>
    obtain ⟨batch, outcome⟩ := put
    subst houtcome
    rw [after_raises fh hcall]
    exact hdone _ rfl

end Budget

section Stream

/-- What the `n`-th call leaves of its batch in the stream although it raises. -/
abbrev Leftover (ρ : Type) := ℕ → List ρ → List ρ

/-- A call that raises has stored nothing. -/
def Leftover.Empty (stored : Leftover ρ) : Prop := ∀ n records, stored n records = []

def leftovers (stored : Leftover ρ) (puts : List (Put ρ)) : List ρ :=
  puts.zipIdx.flatMap fun x => if x.1.outcome.raised then stored x.2 x.1.records else []

/-- What the stream has got from the calls: from an answered one what the answer confirms. -/
def inStream (stored : Leftover ρ) (puts : List (Put ρ)) : List ρ :=
  puts.zipIdx.flatMap fun x => confirmedRecords x.1.outcome x.1.records ++
    if x.1.outcome.raised then stored x.2 x.1.records else []

theorem inStream_perm (stored : Leftover ρ) (puts : List (Put ρ)) :
    (inStream stored puts).Perm (confirmed puts ++ leftovers stored puts) := by
  have hconfirmed : confirmed puts =
      puts.zipIdx.flatMap fun x => confirmedRecords x.1.outcome x.1.records := by
    conv_lhs => rw [confirmed, ← List.zipIdx_map_fst 0 puts]
    rw [List.flatMap_map]
  rw [hconfirmed]
  exact (List.flatMap_append_perm _ _ _).symm

theorem leftovers_empty {stored : Leftover ρ} (h : stored.Empty) (puts : List (Put ρ)) :
    leftovers stored puts = [] := by
  simp [leftovers, h _ _]

end Stream

section Results

/-- Whatever calls that raise have stored: the stream has got a part of the records, and all of them
when the send returns, and besides only what those calls left there; nothing twice when they store
nothing. -/
theorem sendRecords_once {fh : Firehose} {client : Client ρ} (hclient : DocumentedClient client)
    (stored : Leftover ρ) (records : List ρ) :
    let puts := (fh.sendRecords client records).2
    ∃ unsent, (inStream stored puts ++ unsent).Perm (records ++ leftovers stored puts) ∧
      ((fh.sendRecords client records).1 = .ok () → unsent = []) ∧
      (stored.Empty → (inStream stored puts ++ unsent).Perm records) := by
  intro puts
  obtain ⟨hcalls, hresult⟩ := sendRecords_run fh hclient records
  have htracked := tracked_run fh records hcalls
  set final := run fh.after (fh.begin records) puts
  have hconserved : (confirmed puts ++ final.batches.flatten).Perm records :=
    htracked.confirmed ▸ htracked.conserved
  have hstream : (inStream stored puts ++ final.batches.flatten).Perm
      (records ++ leftovers stored puts) := by
    refine ((inStream_perm stored puts).append_right _).trans ?_
    rw [List.append_assoc]
    refine (List.perm_append_comm.append_left _).trans ?_
    rw [← List.append_assoc]
    exact hconserved.append_right _
  refine ⟨final.batches.flatten, hstream, ?_, ?_⟩
  · intro hok
    rw [hok] at hresult
    rw [htracked.complete hresult]
    rfl
  · intro hempty
    rwa [leftovers_empty hempty, List.append_nil] at hstream

/-- A send ends within the calls that its settings allow, and gives up for a documented reason
only. -/
theorem sendRecords_ends {fh : Firehose} {client : Client ρ} (hclient : DocumentedClient client)
    (records : List ρ) :
    (fh.sendRecords client records).2.length ≤ (fh.recordRetryLimit - 1 +
        (fh.batchRecords records).length) * fh.serviceUnavailableRetries ∧
      EndsFor fh (fh.sendRecords client records).2 (fh.sendRecords client records).1 := by
  obtain ⟨hcalls, hresult⟩ := sendRecords_run fh hclient records
  have hspent := length_le_budget (Ready fh) (callsLeft fh)
    (fun _ _ h hcall => callsLeft_after h hcall) (ready_enter _ _ _ _) hcalls
  have hbudget := callsLeft_enter fh (fh.batchRecords records) 0 []
  refine ⟨?_, (tracked_run fh records hcalls).ends _ hresult⟩
  rw [Nat.sub_zero] at hbudget
  omega

/-- Every call carries at least one record and no more than a call may, and none that the service
has confirmed before. -/
theorem sendRecords_fits {fh : Firehose} {client : Client ρ} (hclient : DocumentedClient client)
    (hsize : 0 < fh.maxBatchSize) {records : List ρ} {before after : List (Put ρ)} {put : Put ρ}
    (h : (fh.sendRecords client records).2 = before ++ put :: after) :
    put.records ≠ [] ∧ put.records.length ≤ fh.maxBatchSize ∧
      ∃ others, (confirmed before ++ put.records ++ others).Perm records := by
  obtain ⟨hcalls, -⟩ := sendRecords_run fh hclient records
  rw [h, along_append] at hcalls
  obtain ⟨hbefore, hput, -⟩ := hcalls
  obtain ⟨batches, hbatches⟩ := hput.batches
  have hfits : Fits fh (run fh.after (fh.begin records) before) :=
    invariant_run (fun _ _ hs hcall => fits_after hs hcall) (fits_begin hsize records) hbefore
  have htracked := tracked_run fh records hbefore
  have hconserved := htracked.conserved
  rw [htracked.confirmed, hbatches, List.flatten_cons, ← List.append_assoc] at hconserved
  obtain ⟨hne, hlength⟩ := hfits put.records (by rw [hbatches]; exact List.mem_cons_self)
  exact ⟨hne, hlength, _, hconserved⟩

private theorem sendLoop_gives_up {fh : Firehose} {client : Client ρ}
    (hclient : DocumentedClient client) (hretries : 0 < fh.serviceUnavailableRetries)
    (hrefuse : ∀ n < fh.recordRetryLimit, ∀ batch, batch ≠ [] →
      refusedRecords (client n batch) batch ≠ []) {batches : List (List ρ)} {n : ℕ}
    (hnonempty : ∀ batch ∈ batches, batch ≠ []) (hn : n < fh.recordRetryLimit)
    (hmany : fh.recordRetryLimit - n ≤ batches.length) :
    (fh.sendLoop client batches n n).1 = .error Firehose.retryLimitReached ∧
      (fh.sendLoop client batches n n).2.map Put.records =
        batches.take (fh.recordRetryLimit - n) := by
  induction hleft : fh.recordRetryLimit - n generalizing batches n with
  | zero => omega
  | succ left ih =>
    cases batches with
    | nil =>
      rw [List.length_nil] at hmany
      omega
    | cons batch batches =>
      have hrefused := hrefuse n hn batch (hnonempty batch List.mem_cons_self)
      obtain ⟨retries, hR⟩ : ∃ r, fh.serviceUnavailableRetries = r + 1 :=
        ⟨fh.serviceUnavailableRetries - 1, by omega⟩
      obtain ⟨response, houtcome⟩ : ∃ response, client n batch = .responds response := by
        cases h : client n batch with
        | responds response => exact ⟨response, rfl⟩
        | clientError => exact absurd (by rw [h]; rfl) hrefused
        | raises b => exact absurd (by rw [h]; rfl) hrefused
      obtain ⟨errors, hretry⟩ := getRecordsToRetry_refused (hclient n batch response houtcome)
      have hback : (if (refusedRecords (.responds response) batch).isEmpty then []
          else [refusedRecords (.responds response) batch]) =
            [refusedRecords (.responds response) batch] := by
        rw [houtcome] at hrefused
        simp [hrefused]
      rw [sendLoop_cons, hR, putRecordBatch_responds fh houtcome, hretry]
      simp only [Except.mapError, hback, List.length_singleton]
      split_ifs with hlimit
      · have hlast : left = 0 := by omega
        rw [hlast]
        exact ⟨rfl, by simp⟩
      · have hmany' : fh.recordRetryLimit - (n + 1) ≤
            (batches ++ [refusedRecords (.responds response) batch]).length := by
          rw [List.length_cons] at hmany
          rw [List.length_append]
          omega
        have hnonempty' : ∀ b ∈ batches ++ [refusedRecords (.responds response) batch], b ≠ [] := by
          intro b hb
          rcases List.mem_append.mp hb with hb | hb
          · exact hnonempty b (List.mem_cons_of_mem _ hb)
          · rw [List.mem_singleton.mp hb, ← houtcome]
            exact hrefused
        obtain ⟨hend, hcalls⟩ := ih hnonempty' (by omega) hmany' (by omega)
        refine ⟨hend, ?_⟩
        rw [List.length_cons] at hmany
        rw [List.map_append, hcalls, List.take_append_of_le_length (by omega)]
        rfl

/-- The limit counts the answers of all batches together: with that many batches, one refusal in the
first try of each ends the send, and nothing has been tried twice. -/
theorem sendRecords_gives_up {fh : Firehose} {client : Client ρ} (hclient : DocumentedClient client)
    (hretries : 0 < fh.serviceUnavailableRetries) (hlimit : 0 < fh.recordRetryLimit)
    (hrefuse : ∀ n < fh.recordRetryLimit, ∀ batch, batch ≠ [] →
      refusedRecords (client n batch) batch ≠ []) {records : List ρ}
    (hmany : fh.recordRetryLimit ≤ (fh.batchRecords records).length) :
    (fh.sendRecords client records).1 = .error Firehose.retryLimitReached ∧
      (fh.sendRecords client records).2.map Put.records =
        (fh.batchRecords records).take fh.recordRetryLimit :=
  sendLoop_gives_up hclient hretries hrefuse (fun _ h => batchRecords_nonempty h) hlimit hmany

end Results

section Samples

def entry (refused : Bool) : RecordResponse :=
  if refused then ⟨some "ServiceUnavailableException", some "Slow down."⟩ else ⟨none, none⟩

def answer (marks : List Bool) : PutResponse := ⟨marks.count true, marks.map entry⟩

theorem answer_documented {marks : List Bool} {records : List ρ}
    (h : marks.length = records.length) : Answers (answer marks) records := by
  have hentry : ∀ b, (entry b).refusal.isSome = b := by decide
  refine ⟨by rw [answer, List.length_map, h], ?_, ?_⟩
  · rw [answer, List.count_pos_iff]
    constructor
    · intro hmark
      exact ⟨entry true, List.mem_map_of_mem hmark, rfl⟩
    · intro hrefused
      obtain ⟨r, hr, hsome⟩ := hrefused
      obtain ⟨b, hb, rfl⟩ := List.mem_map.mp hr
      rw [hentry] at hsome
      rwa [← hsome]
  · simp only [answer, List.forall_mem_map]
    intro b _
    cases b <;> decide

/-- A client that refuses the first record of every batch in its first `k` calls. -/
def firstRefused (k : ℕ) : Client ρ := fun n batch =>
  .responds (answer (match batch with
    | [] => []
    | _ :: rest => (n < k : Bool) :: rest.map fun _ => false))

theorem firstRefused_documented (k : ℕ) : DocumentedClient (firstRefused k : Client ρ) := by
  intro n batch response h
  obtain rfl := PutOutcome.responds.inj h
  apply answer_documented
  cases batch <;> simp

theorem firstRefused_refuses {k n : ℕ} (h : n < k) {batch : List ρ} (hbatch : batch ≠ []) :
    refusedRecords (firstRefused k n batch) batch ≠ [] := by
  cases batch with
  | nil => exact absurd rfl hbatch
  | cons record records =>
    have hentry : (entry (n < k : Bool)).refusal.isSome = true := by
      rw [decide_eq_true h]
      rfl
    simp only [firstRefused, refusedRecords, answer, List.map_cons, selected_cons, hentry]
    exact List.cons_ne_nil _ _

/-- A stream with batches of two, ten attempts for each, and an end at the second refusal. -/
def sampleFirehose : Firehose := ⟨some "tvevents", 2, 10, 2⟩

/-- A client whose first call raises, and that takes every batch afterwards. -/
def firstLost : Client ρ := fun n batch =>
  if n = 0 then .clientError else .responds (answer (batch.map fun _ => false))

theorem firstLost_documented : DocumentedClient (firstLost : Client ρ) := by
  intro n batch response h
  unfold firstLost at h
  split_ifs at h
  obtain rfl := PutOutcome.responds.inj h
  exact answer_documented (by simp)

/-- The first call has stored its batch before it raised: both records are there twice. -/
theorem sendRecords_once_lost :
    (inStream (fun _ batch => batch) (sampleFirehose.sendRecords firstLost ["a", "b", "c"]).2).Perm
      ["a", "b", "c", "a", "b"] := by
  obtain ⟨unsent, hstream, hall, -⟩ :=
    @sendRecords_once _ sampleFirehose _ firstLost_documented (fun _ batch => batch) ["a", "b", "c"]
  have hleft : leftovers (fun _ batch => batch)
      (sampleFirehose.sendRecords firstLost ["a", "b", "c"]).2 = ["a", "b"] := by decide +kernel
  have hok : (sampleFirehose.sendRecords firstLost ["a", "b", "c"]).1 = .ok () := by decide +kernel
  rwa [hall hok, hleft, List.append_nil] at hstream

theorem sendRecords_ends_refused :
    (sampleFirehose.sendRecords (firstRefused 1) ["a", "b", "c"]).2.length ≤ 30 ∧
      EndsFor sampleFirehose (sampleFirehose.sendRecords (firstRefused 1) ["a", "b", "c"]).2
        (sampleFirehose.sendRecords (firstRefused 1) ["a", "b", "c"]).1 :=
  sendRecords_ends (firstRefused_documented 1) ["a", "b", "c"]

theorem sendRecords_fits_refused :
    let puts : List (Put String) := (sampleFirehose.sendRecords (firstRefused 1) ["a", "b", "c"]).2
    ∃ hlt : 1 < puts.length, puts[1].records ≠ [] ∧ puts[1].records.length ≤ 2 ∧
      ∃ others, (confirmed (puts.take 1) ++ puts[1].records ++ others).Perm ["a", "b", "c"] := by
  intro puts
  have hlength : puts.length = 3 := by decide +kernel
  have hlt : 1 < puts.length := by omega
  have hsplit : puts = puts.take 1 ++ puts[1] :: puts.drop 2 := by
    rw [← List.drop_eq_getElem_cons hlt, List.take_append_drop]
  exact ⟨hlt, sendRecords_fits (firstRefused_documented 1) (by decide) hsplit⟩

/-- Two batches with one refusal each: the send is over before a record has been tried again. -/
theorem sendRecords_gives_up_two :
    (sampleFirehose.sendRecords (firstRefused 2) ["a", "b", "c"]).1 =
        .error Firehose.retryLimitReached ∧
      (sampleFirehose.sendRecords (firstRefused 2) ["a", "b", "c"]).2.map Put.records =
        [["a", "b"], ["c"]] :=
  sendRecords_gives_up (firstRefused_documented 2) (by decide) (by decide)
    (fun _ hn _ hbatch => firstRefused_refuses hn hbatch) (by decide)

end Samples

end TvEvents.Legacy
