import TvEvents.Accept.Sufficient
import TvEvents.Delivery.Protocol

namespace TvEvents

open OrderedMap FirstFailure

section Failing

variable [Runtime]

/-- A transport on which every call for a topic of `fails` raises. -/
def failingKafka (fails : String → Option String) : Kafka := ⟨true, fun _ topic => fails topic⟩

/-- With failing topics the planned sends before the first of them succeed, no later one is tried,
and the exception of that one is raised. -/
theorem pushChangesToKafka_failing {env : Env} {t : Tick} {payload : Json} {s cache : BlacklistCache}
    {out : PyDict} {obfuscate : Bool} (fails : String → Option String)
    (hgen : generateOutputJson env payload = .ok out)
    (hshould : shouldObfuscateChannel t out s = (.ok obfuscate, cache)) :
    sent (pushChangesToKafka env t (failingKafka fails) payload s).attempts =
        (planned env out obfuscate).takeWhile (fun m => (fails m.topic).isNone) ∧
      (pushChangesToKafka env t (failingKafka fails) payload s).result =
        resultOf ((planned env out obfuscate).findSome? fun m => fails m.topic) := by
  have hpush : pushChangesToKafka env t (failingKafka fails) payload s =
      ⟨(deliver env (failingKafka fails) out obfuscate).1,
        (deliver env (failingKafka fails) out obfuscate).2, cache⟩ := by
    unfold pushChangesToKafka
    simp only [hgen, hshould]
  have hcall : callOutcome (failingKafka fails) = fun _ m => fails m.topic := rfl
  rw [hpush, deliver_plan]
  simp only [deliverPlan, failingKafka, Bool.true_or, if_true, report]
  rw [← failingKafka, hcall, sent_attemptOf, succeeded_takeWhile, failure_findSome]
  exact ⟨rfl, rfl⟩

end Failing

def sampleTopicsEnv : Env := fun name =>
  if name = "SEND_LEGACY" ∨ name = "TVEVENTS_DEBUG" then some "true" else sampleEnv name

def sampleBlocked : Json := samplePayload "OTHER" [] [("isContentBlocked", .bool true)]

theorem pushChangesToKafka_failing_debug :
    sent (@pushChangesToKafka asciiRuntime sampleTopicsEnv sampleTick
        (failingKafka fun topic => if topic = "legacy-tvevents-debug" then some "down" else none)
        sampleBlocked (.fresh .absent)).attempts =
      [⟨"evergreen-tvevents-debug", ofWrites (@outputWrites asciiRuntime sampleTopicsEnv sampleBlocked),
        .str "tv1"⟩] := by
  have hgen : @generateOutputJson asciiRuntime sampleTopicsEnv sampleBlocked =
      .ok (ofWrites (@outputWrites asciiRuntime sampleTopicsEnv sampleBlocked)) := by decide +kernel
  have hblocked : @isContentBlocked asciiRuntime
      (ofWrites (@outputWrites asciiRuntime sampleTopicsEnv sampleBlocked)) = true := by
    decide +kernel
  have hshould : @shouldObfuscateChannel asciiRuntime sampleTick
      (ofWrites (@outputWrites asciiRuntime sampleTopicsEnv sampleBlocked)) (.fresh .absent) =
      (.ok true, .fresh .absent) := by
    simp only [shouldObfuscateChannel, hblocked, if_true]
  rw [(@pushChangesToKafka_failing asciiRuntime _ _ _ _ _ _ _ _ hgen hshould).1]
  decide +kernel

/-- The first of two main topics fails; the second one, which works, gets nothing. -/
theorem failing_topic_starves_next :
    ∃ (fails : String → Option String) (payload : Json),
      (@generateOutputJson asciiRuntime sampleTopicsEnv payload).isOk ∧
      "legacy-tvevents" ∈ @getKafkaTopics asciiRuntime sampleTopicsEnv false ∧
      fails "legacy-tvevents" = none ∧
      ¬∃ m ∈ sent (@pushChangesToKafka asciiRuntime sampleTopicsEnv sampleTick (failingKafka fails)
        payload (.fresh .absent)).attempts, m.topic = "legacy-tvevents" := by
  refine ⟨fun topic => if topic = "evergreen-tvevents" then some "down" else none,
    samplePayload "OTHER" [] [("channelId", .str "ch1")], ?_⟩
  decide +kernel

end TvEvents
