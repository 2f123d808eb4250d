import TvEvents.Legacy.Firehose
import TvEvents.Legacy.FirehoseSending
import TvEvents.Library.Coroutines

namespace TvEvents.Legacy

open JsonText Runs Coroutines

section Outcomes

variable {ρ : Type}

/-- What becomes of a call: what the client sees of it, and what the stream has got if it raises. -/
structure Called (ρ : Type) where
  outcome : PutOutcome
  stored : List ρ

def Called.left (c : Called ρ) : List ρ := if c.outcome.raised then c.stored else []

/-- The next call of a running send is answered, if at all, as documented, and stores no other records
than its own. -/
def Sending.Expects (s : Sending ρ) (c : Called ρ) : Prop :=
  s.result = none → ∀ batch, s.batches.head? = some batch →
    Documented c.outcome batch ∧ c.left.Sublist batch

def Sending.newly (s : Sending ρ) (c : Called ρ) : List ρ :=
  match s.result, s.batches with
  | none, batch :: _ => confirmedRecords c.outcome batch ++ c.left
  | _, _ => []

theorem advance_ended (fh : Firehose) {s : Sending ρ} (h : s.result.isSome = true)
    (outcome : PutOutcome) : fh.advance s outcome = s := by
  obtain ⟨result, hresult⟩ := Option.isSome_iff_exists.mp h
  rw [Firehose.advance, hresult]

theorem newly_ended {s : Sending ρ} (h : s.result.isSome = true) (c : Called ρ) : s.newly c = [] := by
  obtain ⟨result, hresult⟩ := Option.isSome_iff_exists.mp h
  rw [Sending.newly, hresult]

/-- A running send confirms what the answer to its call confirms. -/
theorem after_confirmed (fh : Firehose) {s : Sending ρ} {put : Put ρ} (h : s.Calls put) :
    (fh.after s put).confirmed = s.confirmed ++ confirmedRecords put.outcome put.records := by
  obtain ⟨batches, hbatches⟩ := h.batches
  cases houtcome : put.outcome with
  | responds response =>
    rw [after_responds fh h houtcome hbatches, houtcome]
    split_ifs <;> rfl
  | clientError =>
    obtain ⟨batch, outcome⟩ := put
    subst houtcome
    rw [after_clientError fh h]
    split_ifs <;> simp [confirmedRecords]
  | raises b =>
    obtain ⟨batch, outcome⟩ := put
    subst houtcome
    rw [after_raises fh h]
    simp [confirmedRecords]

end Outcomes

section Threads

/-- A thread of the pool: the stream's client, how far its send has come, and what the stream has got
from it. -/
structure SendThread where
  firehose : Firehose
  sending : Sending (List Char)
  stream : List (List Char)

abbrev Streams := List (Option String × List Char)

namespace SendThread

/-- `send(fh)` before its first call: one record with the JSON text. -/
def start [Runtime] (r : Record) : SendThread :=
  ⟨.default r.firehose, (Firehose.default r.firehose).begin [r.text], []⟩

def proceed (t : SendThread) (c : Called (List Char)) : SendThread :=
  { t with
    sending := t.firehose.advance t.sending c.outcome
    stream := t.stream ++ t.sending.newly c }

def puts (t : SendThread) (c : Called (List Char)) : Streams :=
  (t.sending.newly c).map fun record => (t.firehose.deliveryStream, record)

def delivered (t : SendThread) : Streams :=
  t.stream.map fun record => (t.firehose.deliveryStream, record)

theorem proceed_delivered (t : SendThread) (c : Called (List Char)) :
    (t.proceed c).delivered = t.delivered ++ t.puts c := by
  show List.map _ (t.stream ++ t.sending.newly c) = _
  rw [List.map_append]
  rfl

/-- The calls that raised although the stream has got something from them. -/
def unconfirmed (cs : List (Called (List Char))) : ℕ := cs.countP fun c => !c.left.isEmpty

theorem unconfirmed_append (cs : List (Called (List Char))) (c : Called (List Char)) :
    unconfirmed (cs ++ [c]) = unconfirmed cs + if c.left.isEmpty then 0 else 1 := by
  unfold unconfirmed
  rw [List.countP_append, List.countP_singleton]
  cases c.left.isEmpty <;> rfl

theorem left_length_le {c : Called (List Char)} {text : List Char} (h : c.left.Sublist [text]) :
    c.left.length ≤ if c.left.isEmpty then 0 else 1 := by
  split_ifs with hempty
  · rw [List.isEmpty_iff.mp hempty]
    exact Nat.le_refl 0
  · exact h.length_le

variable [Runtime]

/-- What holds of the thread for a record after the calls that have come back. -/
structure Accounts (r : Record) (cs : List (Called (List Char))) (t : SendThread) : Prop where
  firehose : t.firehose = .default r.firehose
  ready : Ready t.firehose t.sending
  tracked : ∃ puts, Tracked t.firehose [r.text] puts t.sending
  stream : ∃ left ≤ unconfirmed cs,
    t.stream = List.replicate (t.sending.confirmed.length + left) r.text
  budget : t.sending.result = none → callsLeft t.firehose t.sending + cs.length ≤ 1000

theorem accounts_start (r : Record) : Accounts r [] (start r) := by
  have hready : Ready (start r).firehose (start r).sending := ready_enter _ _ _ _
  exact ⟨rfl, hready, ⟨[], tracked_run (.default r.firehose) [r.text] trivial⟩,
    ⟨0, Nat.zero_le _, rfl⟩, fun _ => Nat.le_refl 1000⟩

theorem Accounts.ended {r : Record} {cs : List (Called (List Char))} {t : SendThread}
    (h : Accounts r cs t) (hended : t.sending.result.isSome = true) (c : Called (List Char)) :
    Accounts r (cs ++ [c]) (t.proceed c) := by
  have hsame : t.proceed c = t := by
    rw [proceed, advance_ended t.firehose hended, newly_ended hended, List.append_nil]
  obtain ⟨left, hleft, hstream⟩ := h.stream
  rw [hsame]
  refine ⟨h.firehose, h.ready, h.tracked, ⟨left, ?_, hstream⟩, ?_⟩
  · rw [unconfirmed_append]
    exact Nat.le_add_right_of_le hleft
  · intro hrunning
    rw [hrunning] at hended
    cases hended

/-- A call of a running send: the accounts are those of the client, and the stream gets the text
only. -/
theorem Accounts.running {r : Record} {cs : List (Called (List Char))} {t : SendThread}
    (h : Accounts r cs t) (hrunning : t.sending.result = none) {c : Called (List Char)}
    (hexpects : t.sending.Expects c) : Accounts r (cs ++ [c]) (t.proceed c) := by
  obtain ⟨puts, htracked⟩ := h.tracked
  obtain ⟨left, hleft, hstream⟩ := h.stream
  obtain ⟨batch, batches, hbatches⟩ := List.exists_cons_of_ne_nil (h.ready hrunning).1
  obtain ⟨hdocumented, hstored⟩ := hexpects hrunning batch (by rw [hbatches]; rfl)
  have hcall : t.sending.Calls ⟨batch, c.outcome⟩ := ⟨hrunning, by rw [hbatches]; rfl, hdocumented⟩
  obtain ⟨hready, hless⟩ := callsLeft_after h.ready hcall
  have hafter := htracked.after hcall
  have hconfirmed := after_confirmed t.firehose hcall
  -- what is confirmed and what is left to send are the one text
  have hbefore := List.perm_singleton.mp htracked.conserved
  rw [hbatches, List.flatten_cons] at hbefore
  have hbatch : batch.Sublist [r.text] := by
    rw [← hbefore]
    exact (List.sublist_append_left batch _).trans (List.sublist_append_right _ _)
  have hnewly : t.sending.newly c = confirmedRecords c.outcome batch ++ c.left := by
    rw [Sending.newly, hrunning, hbatches]
  have hone : ∀ record ∈ t.sending.newly c, record = r.text := by
    intro record hrecord
    rw [hnewly] at hrecord
    rcases List.mem_append.mp hrecord with hrecord | hrecord
    · have hafter' := List.perm_singleton.mp hafter.conserved
      rw [hconfirmed] at hafter'
      have hmem : record ∈ [r.text] := by
        rw [← hafter']
        exact List.mem_append_left _ (List.mem_append_right _ hrecord)
      exact List.mem_singleton.mp hmem
    · exact List.mem_singleton.mp ((hstored.trans hbatch).subset hrecord)
  refine ⟨h.firehose, hready, ⟨_, hafter⟩, ⟨left + c.left.length, ?_, ?_⟩, ?_⟩
  · rw [unconfirmed_append]
    exact Nat.add_le_add hleft (left_length_le (hstored.trans hbatch))
  · show t.stream ++ t.sending.newly c =
      List.replicate ((t.firehose.after t.sending ⟨batch, c.outcome⟩).confirmed.length + _) r.text
    rw [hstream, List.eq_replicate_of_mem hone, List.replicate_append_replicate, hnewly, hconfirmed]
    congr 1
    simp only [List.length_append]
    omega
  · intro _
    have hbudget := h.budget hrunning
    have hcost : callsLeft t.firehose (t.firehose.after t.sending ⟨batch, c.outcome⟩) <
        callsLeft t.firehose t.sending := hless
    show callsLeft t.firehose (t.firehose.after t.sending ⟨batch, c.outcome⟩) + _ ≤ _
    rw [List.length_append, List.length_singleton]
    omega

/-- One thread alone: the stream gets its text for the confirmation, which comes once at most and
surely when the send returns, and once more at most for every call that raised after it had stored it;
and a thousand calls end the send. -/
theorem start_once (r : Record) {cs : List (Called (List Char))}
    (h : Along proceed (fun t c => t.sending.Expects c) (start r) cs) :
    let t := run proceed (start r) cs
    (∃ left ≤ unconfirmed cs, t.delivered =
      List.replicate (t.sending.confirmed.length + left) (r.firehose, r.text)) ∧
      t.sending.confirmed.length ≤ 1 ∧
      (t.sending.result = some (.ok ()) → t.sending.confirmed.length = 1) ∧
      (1000 ≤ cs.length → t.sending.result.isSome = true) := by
  have hstep : ∀ cs t c, Accounts r cs t → t.sending.Expects c →
      Accounts r (cs ++ [c]) (t.proceed c) := by
    intro cs t c haccounts hexpects
    cases hresult : t.sending.result with
    | some result => exact haccounts.ended (by rw [hresult]; rfl) c
    | none => exact haccounts.running hresult hexpects
  have haccounts : Accounts r cs (run proceed (start r) cs) :=
    history_run (I := Accounts r) hstep (accounts_start r) h
  obtain ⟨puts, htracked⟩ := haccounts.tracked
  obtain ⟨left, hleft, hstream⟩ := haccounts.stream
  have hone := List.perm_singleton.mp htracked.conserved
  have hlength := congrArg List.length hone
  rw [List.length_append, List.length_singleton] at hlength
  refine ⟨⟨left, hleft, ?_⟩, by omega, ?_, ?_⟩
  · rw [delivered, hstream, haccounts.firehose, List.map_replicate]
    rfl
  · intro hok
    rw [htracked.complete hok, List.flatten_nil, List.length_nil] at hlength
    exact hlength
  · intro hmany
    by_contra hnot
    have hrunning : (run proceed (start r) cs).sending.result = none := by simpa using hnot
    have hbudget := haccounts.budget hrunning
    have hpos := (htracked.failing hrunning).1
    have hleft : 0 < callsLeft (run proceed (start r) cs).firehose (run proceed (start r) cs).sending := by
      rw [callsLeft, hrunning]
      exact Nat.add_pos_right _ hpos
    omega

end SendThread

/-- A thread runs up to where its next call has come back. -/
def sendSegment (c : Called (List Char)) (streams : Streams) (t : SendThread) :
    Streams × SendThread :=
  (streams ++ t.puts c, t.proceed c)

abbrev Pool := Coroutines Streams SendThread

def Pool.turn : Pool → ℕ × Called (List Char) → Pool := Coroutines.step sendSegment

def fanOut [Runtime] (streams : Streams) (records : List Record) : Pool :=
  ⟨streams, records.map .start⟩

/-- The calls of every turn are answered, if at all, as documented. -/
def PoolExpects : Pool → ℕ × Called (List Char) → Prop := Meets fun c _ t => t.sending.Expects c

end Threads

section Results

variable [Runtime]

/-- In every interleaving of the sends the streams hold what the threads have put there, and a thread
is where its own calls have brought it, whatever those of the other streams do: each stream has the
text once at most by a confirmed call, surely so when its send returned, and besides once at most for
each call that raised after it had stored it; and none is called more than a thousand times. -/
theorem fanOut_once {streams : Streams} {env : Env} {out : PyDict} {debug : Bool}
    {turns : List (ℕ × Called (List Char))}
    (h : Along Pool.turn PoolExpects (fanOut streams (sendToValidFirehoses env out debug)) turns) :
    let pool := run Pool.turn (fanOut streams (sendToValidFirehoses env out debug)) turns
    pool.shared.Perm (streams ++ pool.tasks.flatMap SendThread.delivered) ∧
      ∀ i firehose, (validFirehoses env debug)[i]? = some firehose → ∃ t, pool.tasks[i]? = some t ∧
        t = run SendThread.proceed (.start ⟨firehose, out⟩) (turnsOf i turns) ∧
        (∃ left ≤ SendThread.unconfirmed (turnsOf i turns), t.delivered =
          List.replicate (t.sending.confirmed.length + left)
            (firehose, dumps (.obj out.entries))) ∧
        t.sending.confirmed.length ≤ 1 ∧
        (t.sending.result = some (.ok ()) → t.sending.confirmed.length = 1) ∧
        (1000 ≤ (turnsOf i turns).length → t.sending.result.isSome = true) := by
  refine ⟨?_, ?_⟩
  · apply log_run id fun c (t : SendThread) => t.puts c
    · intro c streams t
      rfl
    · intro c streams t
      exact t.proceed_delivered c
    · have hnothing : (fanOut streams (sendToValidFirehoses env out debug)).tasks.flatMap
          SendThread.delivered = [] := by
        simp [fanOut, SendThread.delivered, SendThread.start]
      rw [hnothing, List.append_nil]
      exact List.Perm.refl _
  · intro i firehose hi
    have hthread : (fanOut streams (sendToValidFirehoses env out debug)).tasks[i]? =
        some (.start ⟨firehose, out⟩) := by
      simp [fanOut, sendToValidFirehoses, hi]
    have halone := along_task SendThread.proceed (fun t c => t.sending.Expects c)
      (fun _ _ _ => rfl) hthread h
    exact ⟨_, task_run SendThread.proceed (fun _ _ _ => rfl) hthread turns, rfl,
      SendThread.start_once _ halone⟩

end Results

section Samples

def sampleStreams : Env
  | "SEND_EVERGREEN" => some "true"
  | "SEND_LEGACY" => some "true"
  | "EVERGREEN_FIREHOSE_NAME" => some "evergreen"
  | "LEGACY_FIREHOSE_NAME" => some "legacy"
  | _ => none

/-- The first call for the evergreen stream raises after it has stored the text; the one for the legacy
stream raises in between. -/
def raisedTurns : List (ℕ × Called (List Char)) :=
  [(0, ⟨.clientError, ["\x7b\x7d".toList]⟩), (1, ⟨.raises (.other "read timeout"), []⟩),
    (0, ⟨.responds (answer [false]), []⟩)]

/-- Its retry is confirmed, and the stream has the text twice at most. -/
theorem fanOut_once_raised : ∃ t, (run Pool.turn (@fanOut asciiRuntime []
      (@sendToValidFirehoses asciiRuntime sampleStreams .empty false)) raisedTurns).tasks[0]? = some t ∧
    ∃ left ≤ 1, t.delivered = List.replicate (1 + left) (some "evergreen", "\x7b\x7d".toList) := by
  let _ : Runtime := asciiRuntime
  obtain ⟨-, hthreads⟩ := @fanOut_once asciiRuntime [] sampleStreams .empty false raisedTurns (by
    refine ⟨?_, ?_, ?_, trivial⟩
    · intro t ht _ batch hbatch
      obtain rfl := Option.some.inj ht
      obtain rfl := Option.some.inj hbatch
      refine ⟨fun response h => (by cases h), ?_⟩
      exact List.Sublist.refl _
    · intro t _ _ batch _
      exact ⟨fun response h => (by cases h), List.nil_sublist _⟩
    · intro t ht _ batch hbatch
      obtain rfl := Option.some.inj ht
      obtain rfl := Option.some.inj hbatch
      refine ⟨?_, List.nil_sublist _⟩
      intro response h
      obtain rfl := PutOutcome.responds.inj h
      exact answer_documented rfl)
  obtain ⟨t, ht, hrun, ⟨left, hleft, hdelivered⟩, -, hreturned, -⟩ :=
    hthreads 0 (some "evergreen") (by decide +kernel)
  have hone : t.sending.confirmed.length = 1 := by
    apply hreturned
    rw [hrun]
    rfl
  rw [hone] at hdelivered
  exact ⟨t, ht, left, hleft, hdelivered⟩

end Samples

end TvEvents.Legacy
