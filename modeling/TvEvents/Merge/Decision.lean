import TvEvents.Accept.Sufficient

namespace TvEvents

open OrderedMap BlacklistCache

section Decision

variable [Runtime]

/-- A value that asks for blocking: `true`, or a string that reads so in any letter case. -/
def BlockingFlag (v : Json) : Prop := v = .bool true ∨ ∃ s, v = .str s ∧ lower s = "true"

def ChannelValue (v : Json) : Prop := (∃ s, v = .str s) ∨ ∃ n, v = .int n

theorem isContentBlocked_flag {out : PyDict} {v : Json} (hv : out.get? "iscontentblocked" = some v)
    (hflag : BlockingFlag v) : isContentBlocked out = true := by
  unfold isContentBlocked
  rw [hv, Option.getD_some]
  rcases hflag with rfl | ⟨s, rfl, hs⟩
  · rfl
  · simp [hs]

theorem isBlacklisted_listed {t : Tick} {s : BlacklistCache} {ids : List ChannelId} {v : Json}
    (hids : (getChannelIds t s).1 = .ok (.list ids)) (hv : ChannelValue v)
    (hmem : .json (.str (str v)) ∈ ids) : (isBlacklisted t v s).1 = .ok true := by
  have hnull : v ≠ .null := by
    rcases hv with ⟨s, rfl⟩ | ⟨n, rfl⟩ <;> simp
  unfold isBlacklisted
  rw [if_neg hnull]
  rcases hget : getChannelIds t s with ⟨result, s'⟩
  rw [hget] at hids
  obtain rfl : result = .ok (.list ids) := hids
  simp [Held.has, hmem]

/-- The decision is fail-safe on what the merged map shows: the last leaf called `iscontentblocked`
blocks, or the last leaf called `channelid` is listed. -/
theorem shouldObfuscateChannel_failSafe {env : Env} {t : Tick} {payload : Json} {out : PyDict}
    {s : BlacklistCache} (hgen : generateOutputJson env payload = .ok out)
    (hblock : (∃ v, lastWrite "iscontentblocked" (payloadLeaves payload) = some v ∧ BlockingFlag v) ∨
      ∃ v ids, lastWrite "channelid" (payloadLeaves payload) = some v ∧ ChannelValue v ∧
        (getChannelIds t s).1 = .ok (.list ids) ∧ .json (.str (str v)) ∈ ids) :
    (shouldObfuscateChannel t out s).1 = .ok true := by
  obtain ⟨-, rfl⟩ := (generateOutputJson_iff env payload out).mp hgen
  have hblocked : (ofWrites (outputWrites env payload)).get? "iscontentblocked" =
      lastWrite "iscontentblocked" (payloadLeaves payload) := by
    rw [ofWrites_get?]
    exact outputWrites_lookup env payload (by decide)
  have hchannel : (ofWrites (outputWrites env payload)).get? "channelid" =
      lastWrite "channelid" (payloadLeaves payload) := by
    rw [ofWrites_get?]
    exact outputWrites_lookup env payload (by decide)
  unfold shouldObfuscateChannel
  split_ifs with h
  · rfl
  · rcases hblock with ⟨v, hlast, hflag⟩ | ⟨v, ids, hlast, hv, hids, hmem⟩
    · exact absurd (isContentBlocked_flag (hblocked.trans hlast) hflag) h
    · rw [hchannel, hlast, Option.getD_some]
      exact isBlacklisted_listed hids hv hmem

end Decision

section Samples

theorem shouldObfuscateChannel_failSafe_listed :
    (@shouldObfuscateChannel asciiRuntime sampleTick
      (ofWrites (@outputWrites asciiRuntime sampleEnv
        (samplePayload "OTHER" [] [("channelId", .int 7)])))
      ⟨some (.list [.json (.str "7")]), 0, .absent⟩).1 = .ok true := by
  apply @shouldObfuscateChannel_failSafe asciiRuntime sampleEnv sampleTick
    (samplePayload "OTHER" [] [("channelId", .int 7)]) _ _ (by decide +kernel)
  right
  exact ⟨.int 7, [.json (.str "7")], by decide +kernel, .inr ⟨7, rfl⟩, rfl, by decide +kernel⟩

/-- A blocking flag of the envelope is shadowed by the event data, and the decision is not to hide. -/
theorem blocking_flag_shadowed :
    ∃ payload out, @validateRequest asciiRuntime sampleEnv sampleUrl payload = .ok true ∧
      ("isContentBlocked", .bool true) ∈ tvEventOf payload ∧
      @generateOutputJson asciiRuntime sampleEnv payload = .ok out ∧
      (@shouldObfuscateChannel asciiRuntime sampleTick out
        ⟨some (.list [.json (.str "7")]), 0, .absent⟩).1 = .ok false := by
  refine ⟨samplePayload "OTHER" [("isContentBlocked", .bool true)]
    [("isContentBlocked", .bool false)], ofWrites (@outputWrites asciiRuntime sampleEnv
    (samplePayload "OTHER" [("isContentBlocked", .bool true)] [("isContentBlocked", .bool false)])), ?_⟩
  decide +kernel

end Samples

end TvEvents
