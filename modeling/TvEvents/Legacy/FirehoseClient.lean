import Mathlib.Data.Finset.Insert
import TvEvents.Python.Value

namespace TvEvents.Legacy

/-- One entry of `RequestResponses`; an accepted record has no code. -/
structure RecordResponse where
  errorCode : Option String
  errorMessage : Option String
  deriving DecidableEq

structure PutResponse where
  failedPutCount : ℕ
  requestResponses : List RecordResponse
  deriving DecidableEq

/-- What a call of `put_record_batch` does: it answers, raises a `ClientError`, or raises anything
else. -/
inductive PutOutcome
  | responds (response : PutResponse)
  | clientError
  | raises (b : Builtin)
  deriving DecidableEq

/-- What ends a send: a `FirehoseException` with its text, or an exception that passes through. -/
inductive SendFault
  | firehoseException (message : String)
  | other (b : Builtin)
  deriving DecidableEq

structure Put (ρ : Type) where
  records : List ρ
  outcome : PutOutcome

def RecordResponse.refusal (r : RecordResponse) : Option String := r.errorCode.filter (· ≠ "")

/-- The settings of a `Firehose`; how long it sleeps between two attempts is left out. -/
structure Firehose where
  deliveryStream : Option String
  maxBatchSize : ℕ
  serviceUnavailableRetries : ℕ
  recordRetryLimit : ℕ

def Firehose.default (deliveryStream : Option String) : Firehose := ⟨deliveryStream, 500, 10, 100⟩

variable {ρ : Type}

/-- What the `n`-th call of the client does with a batch. -/
abbrev Client (ρ : Type) := ℕ → List ρ → PutOutcome

def batchLoop (size : ℕ) (batch : List ρ) : List ρ → List (List ρ)
  | [] => if batch.length = 0 then [] else [batch]
  | record :: records =>
    let batch := batch ++ [record]
    if batch.length = size then batch :: batchLoop size [] records
    else batchLoop size batch records

def Firehose.batchRecords (fh : Firehose) (records : List ρ) : List (List ρ) :=
  batchLoop fh.maxBatchSize [] records

/-- The loop of `_get_records_to_retry` from the entry `i` on. -/
def retryLoop (records : List ρ) :
    ℕ → List RecordResponse → Except Builtin (List ρ × Finset (String × String))
  | _, [] => .ok ([], ∅)
  | i, r :: responses =>
    match r.refusal with
    | none => retryLoop records (i + 1) responses
    | some code =>
      match records[i]? with
      | none => .error .indexError
      | some record =>
        match r.errorMessage with
        | none => .error (.keyError "ErrorMessage")
        | some message =>
          (retryLoop records (i + 1) responses).map fun rest =>
            (record :: rest.1, insert (code, message) rest.2)

/-- The refused records and their errors; an answer that counts no failure is not looked at. -/
def getRecordsToRetry (response : PutResponse) (records : List ρ) :
    Except Builtin (List ρ × Finset (String × String)) :=
  if 0 < response.failedPutCount then retryLoop records 0 response.requestResponses
  else .ok ([], ∅)

namespace Firehose

def unavailable (fh : Firehose) : SendFault :=
  .firehoseException ("Unable to put records into firehose after " ++
    toString fh.serviceUnavailableRetries ++ " attempts, giving up.")

def retryLimitReached : SendFault :=
  .firehoseException "Record retry limit reached, giving up."

/-- The loop of `_put_record_batch` with the retries that are left, `n` calls being made. -/
def putRecordBatch (fh : Firehose) (client : Client ρ) (records : List ρ) :
    ℕ → ℕ → Except SendFault (List ρ × Finset (String × String)) × List (Put ρ)
  | 0, _ => (.error fh.unavailable, [])
  | retries + 1, n =>
    let call : Put ρ := ⟨records, client n records⟩
    match client n records with
    | .responds response => ((getRecordsToRetry response records).mapError .other, [call])
    | .clientError =>
      let rest := putRecordBatch fh client records retries (n + 1)
      (rest.1, call :: rest.2)
    | .raises b => (.error (.other b), [call])

/-- The loop of `send_records` over the batches from the `i`-th on: refused records come back as a
batch at the end, and the limit counts the answers that refused any. -/
def sendLoop (fh : Firehose) (client : Client ρ) (batches : List (List ρ)) (retryTimes n : ℕ) :
    Except SendFault Unit × List (Put ρ) :=
  match batches with
  | [] => (.ok (), [])
  | batch :: batches =>
    let put := fh.putRecordBatch client batch fh.serviceUnavailableRetries n
    match put.1 with
    | .error e => (.error e, put.2)
    | .ok (recordsToRetry, _) =>
      if recordsToRetry.isEmpty then
        if fh.recordRetryLimit ≤ retryTimes then (.error retryLimitReached, put.2)
        else
          let rest := sendLoop fh client batches retryTimes (n + put.2.length)
          (rest.1, put.2 ++ rest.2)
      else
        if fh.recordRetryLimit ≤ retryTimes + 1 then (.error retryLimitReached, put.2)
        else
          let rest := sendLoop fh client (batches ++ [recordsToRetry]) (retryTimes + 1)
            (n + put.2.length)
          (rest.1, put.2 ++ rest.2)
termination_by fh.recordRetryLimit - retryTimes + batches.length
decreasing_by
  · simp only [List.length_cons]
    omega
  · simp only [List.length_append, List.length_cons, List.length_nil]
    omega

def sendRecords (fh : Firehose) (client : Client ρ) (records : List ρ) :
    Except SendFault Unit × List (Put ρ) :=
  fh.sendLoop client (fh.batchRecords records) 0 0

end Firehose

end TvEvents.Legacy
