import TvEvents.App.Routes
import TvEvents.Library.FirstFailure

namespace TvEvents

open OrderedMap FirstFailure

variable [Runtime]

/-- The key of every message of an output: its `tvid`, or the empty string. -/
def tvidKey (out : PyDict) : Json := (out.get? "tvid").getD (.str "")

/-- What the main topics may see. -/
def delivered (out : PyDict) (obfuscate : Bool) : PyDict :=
  if obfuscate then obfuscateChannelFields out else out

/-- The sends of one event in order: the debug topics get the clear output when the channel is
hidden, the main topics get what may be seen. -/
def planned (env : Env) (out : PyDict) (obfuscate : Bool) : List Message :=
  (if obfuscate && toggle env "TVEVENTS_DEBUG" then
    (getKafkaTopics env true).map fun topic => ⟨topic, out, tvidKey out⟩ else []) ++
  (getKafkaTopics env false).map fun topic => ⟨topic, delivered out obfuscate, tvidKey out⟩

def callOutcome (kafka : Kafka) (n : ℕ) (m : Message) : Option String := kafka.outcome n m.topic

def resultOf : Option String → Except PyExc Unit
  | none => .ok ()
  | some err => .error (.builtin (.other err))

def attemptOf (a : Message × Option String) : Attempt := ⟨a.1, a.2⟩

def report (as : List (Message × Option String)) : Except PyExc Unit × List Attempt :=
  (resultOf (failure as), as.map attemptOf)

/-- One message after the other until the first failure; without the module nothing is tried. -/
def deliverPlan (kafka : Kafka) (plan : List Message) : Except PyExc Unit × List Attempt :=
  if kafka.available || plan.isEmpty then report (performed (callOutcome kafka) 0 plan)
  else (.error (.builtin .importError), [])

omit [Runtime] in
theorem delivered_get? (out : PyDict) (obfuscate : Bool) (k : String) :
    (delivered out obfuscate).get? k =
      if obfuscate = true ∧ k ∈ channelFields then some obfuscatedStr else out.get? k := by
  cases obfuscate with
  | false => simp [delivered]
  | true =>
    simp only [delivered, if_true, obfuscateChannelFields, set_get?, channelFields, List.mem_cons,
      List.not_mem_nil, or_false, true_and]
    by_cases hid : k = "channelid"
    · simp [hid]
    · by_cases hname : k = "channelname"
      · simp [hname]
      · by_cases hprogram : k = "programid" <;> simp [hid, hname, hprogram]

omit [Runtime] in
theorem messageTo_delivered (out : PyDict) (obfuscate : Bool) (topic : String) :
    messageTo (delivered out obfuscate) topic = ⟨topic, delivered out obfuscate, tvidKey out⟩ := by
  have htvid : (delivered out obfuscate).get? "tvid" = out.get? "tvid" := by
    rw [delivered_get?]
    simp [channelFields]
  rw [messageTo, htvid]
  rfl

omit [Runtime] in
theorem sendLoop_performed (kafka : Kafka) (out : PyDict) (n : ℕ) (topics : List String) :
    sendLoop kafka out n topics =
      report (performed (callOutcome kafka) n (topics.map (messageTo out))) := by
  induction topics generalizing n with
  | nil => rfl
  | cons topic topics ih =>
    have htopic : callOutcome kafka n (messageTo out topic) = kafka.outcome n topic := rfl
    rw [sendLoop, List.map_cons, performed, htopic, ih]
    cases kafka.outcome n topic <;> rfl

omit [Runtime] in
theorem sendToTopics_performed (kafka : Kafka) (out : PyDict) (n : ℕ) (topics : List String) :
    sendToTopics kafka out n topics =
      if kafka.available || topics.isEmpty then
        report (performed (callOutcome kafka) n (topics.map (messageTo out)))
      else (.error (.builtin .importError), []) := by
  unfold sendToTopics sendToKafka
  rw [sendLoop_performed]
  cases topics with
  | nil => simp [performed, report, resultOf]
  | cons topic topics => simp

theorem getKafkaTopics_isEmpty (env : Env) :
    (getKafkaTopics env true).isEmpty = (getKafkaTopics env false).isEmpty := by
  unfold getKafkaTopics
  simp only [if_true, Bool.false_eq_true, if_false]
  cases toggle env "SEND_EVERGREEN" <;> cases toggle env "SEND_LEGACY" <;> rfl

omit [Runtime] in
/-- A second phase starts where the first one ended, unless that one failed. -/
theorem report_append (kafka : Kafka) (xs ys : List Message) :
    report (performed (callOutcome kafka) 0 (xs ++ ys)) =
      match report (performed (callOutcome kafka) 0 xs) with
      | (.error e, as) => (.error e, as)
      | (.ok _, as) =>
        ((report (performed (callOutcome kafka) as.length ys)).1,
          as ++ (report (performed (callOutcome kafka) as.length ys)).2) := by
  rw [performed_append]
  unfold report
  cases hfail : failure (performed (callOutcome kafka) 0 xs) with
  | some e => simp [hfail, resultOf]
  | none =>
    rw [succeeded_of_no_failure hfail]
    simp [failure_append, resultOf]

/-- The two phases of a delivery are one run over its planned sends. -/
theorem deliver_plan (env : Env) (kafka : Kafka) (out : PyDict) (obfuscate : Bool) :
    deliver env kafka out obfuscate = deliverPlan kafka (planned env out obfuscate) := by
  have hmain : ∀ data : PyDict, sendToTopics kafka data 0 (getKafkaTopics env false) =
      deliverPlan kafka ((getKafkaTopics env false).map (messageTo data)) := by
    intro data
    rw [sendToTopics_performed, deliverPlan, List.isEmpty_map]
  have hclear : messageTo out = fun topic => ⟨topic, out, tvidKey out⟩ := rfl
  have hhidden : messageTo (obfuscateChannelFields out) =
      fun topic => ⟨topic, delivered out true, tvidKey out⟩ :=
    funext (messageTo_delivered out true)
  cases obfuscate with
  | false => simpa [deliver, planned, delivered, hclear] using hmain out
  | true =>
    cases hdebug : toggle env "TVEVENTS_DEBUG" with
    | false => simpa [deliver, planned, hdebug, hhidden] using hmain (obfuscateChannelFields out)
    | true =>
      have hplan : planned env out true = (getKafkaTopics env true).map (messageTo out) ++
          (getKafkaTopics env false).map (messageTo (obfuscateChannelFields out)) := by
        simp [planned, hdebug, hhidden, hclear]
      have hempty : (planned env out true).isEmpty = (getKafkaTopics env false).isEmpty := by
        have htopics := getKafkaTopics_isEmpty env
        rw [hplan]
        cases hdebugTopics : getKafkaTopics env true with
        | nil => simp
        | cons topic topics => simpa [hdebugTopics] using htopics
      unfold deliver deliverPlan
      rw [hempty, hplan, hdebug]
      simp only [if_true, sendToTopics_performed, getKafkaTopics_isEmpty]
      cases kafka.available || (getKafkaTopics env false).isEmpty with
      | false => rfl
      | true =>
        simp only [if_true]
        rw [report_append]
        rcases report (performed (callOutcome kafka) 0 ((getKafkaTopics env true).map
          (messageTo out))) with ⟨result, as⟩
        cases result <;> rfl

end TvEvents
