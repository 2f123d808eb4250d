import TvEvents.Accept.Sufficient
import TvEvents.Accept.Timestamps

namespace TvEvents

open OrderedMap

section StartTime

variable [Runtime]

/-- The value is the integer `s` or a text that `int` reads as `s`. -/
def Denotes (v : Json) (s : ℤ) : Prop := v = .int s ∨ ∃ t, v = .str t ∧ intOfStr t = some s

/-- The start time comes out as the integer of its milliseconds, within the range of timestamps. -/
structure InMillis (out : PyDict) (tvid : String) (s : ℤ) : Prop where
  value : out.get? "programdata_starttime" = some (.int (1000 * s))
  check : timestampCheck (.int (1000 * s)) tvid true = .ok ()

omit [Runtime] in
theorem heartbeatWrites_lookup (ed : List (String × Json)) {k : String} (hk : k ≠ "eventtype") :
    lastWrite k (heartbeatWrites ed) = none := by
  apply lastWrite_eq_none
  unfold heartbeatWrites
  split
  · simpa using hk
  · simp

theorem millisOk_of_secondsOk {s : ℤ} (h : SecondsOk (.int s)) : MillisOk (.int (1000 * s)) := by
  obtain ⟨n, hn, hmin, hmax⟩ := h
  have hsame : s = n := Except.ok.inj hn
  refine ⟨1000 * s, rfl, ?_, ?_⟩
  · omega
  · omega

theorem startTime_lookup {et : EventType} {out flat : PyDict} {ed v : Json}
    (hkind : et.kind = .acrTunerData) (hgen : et.generateEventDataOutputJson = .ok out)
    (hed : et.payload.item "EventData" = .ok ed) (hflat : flattenRequestJson ed "" [] = .ok flat)
    (hv : flat.get? "programdata_starttime" = some v) :
    SecondsOk v ∧ ∃ ms, unixTimeToMs v = .ok ms ∧ out.get? "programdata_starttime" = some ms := by
  obtain ⟨kvs, hkvs, hread, rfl⟩ := (generateEventDataOutputJson_iff et out).mp hgen
  obtain rfl : ed = .obj kvs := Option.some.inj ((item_eq_ok.mp hed).symm.trans hkvs)
  rw [hkind] at hread ⊢
  have hleaves : flat = ofWrites (kindLeaves (some .acrTunerData) kvs) := by
    rw [flattenRequestJson_obj] at hflat
    exact (Except.ok.inj hflat).symm
  rw [hleaves, ofWrites_get?] at hv
  have hseconds : SecondsOk v := hread v hv
  obtain ⟨n, hn, -⟩ := hseconds
  obtain ⟨ms, hms⟩ := unixTimeToMs_ok hn
  refine ⟨hread v hv, ms, hms, ?_⟩
  rw [ofWrites_get?, kindWrites, startTimeWrites_some hv hms, lastWrite_append, lastWrite_append,
    heartbeatWrites_lookup _ (by decide)]
  rfl

/-- A start time in seconds comes out in milliseconds exactly when it is given as a number. -/
theorem startTime_inMillis_iff {et : EventType} {out flat : PyDict} {ed v : Json} {s : ℤ}
    (hkind : et.kind = .acrTunerData) (hgen : et.generateEventDataOutputJson = .ok out)
    (hed : et.payload.item "EventData" = .ok ed) (hflat : flattenRequestJson ed "" [] = .ok flat)
    (hv : flat.get? "programdata_starttime" = some v) (hs : Denotes v s) :
    InMillis out (str et.tvid) s ↔ v = .int s := by
  obtain ⟨hseconds, ms, hms, hout⟩ := startTime_lookup hkind hgen hed hflat hv
  rcases hs with rfl | ⟨t, rfl, -⟩
  · refine iff_of_true ⟨?_, ?_⟩ rfl
    · have hvalue : ms = .int (s * 1000) := (Except.ok.inj hms).symm
      rw [hout, hvalue, mul_comm]
    · exact (timestampCheck_millis _ _).mpr (millisOk_of_secondsOk hseconds)
  · refine iff_of_false ?_ (fun h => by cases h)
    intro h
    have hvalue := h.value
    rw [hout] at hvalue
    obtain rfl := Option.some.inj hvalue
    cases hms

end StartTime

section Samples

def sampleStart (v : Json) : EventType :=
  ⟨.acrTunerData, samplePayload "ACR_TUNER_DATA" [] [("programData", .obj [("startTime", v)])],
    .str "ACR_TUNER_DATA", .str "tv1", .obj [("programData", .obj [("startTime", v)])], .null, .null⟩

theorem startTime_inMillis_number : @InMillis asciiRuntime
    (ofWrites [("programdata_starttime", .int 1700000000), ("programdata_starttime", .int 1700000000000)])
    "tv1" 1700000000 := by
  let _ : Runtime := asciiRuntime
  refine (@startTime_inMillis_iff asciiRuntime (sampleStart (.int 1700000000)) _ _ _
    (.int 1700000000) 1700000000 rfl ?_ rfl rfl ?_ (.inl rfl)).mpr rfl
  · decide +kernel
  · decide +kernel

/-- A text is checked as a number, and then repeated a thousand times. -/
theorem text_start_time_repeated :
    @flattenRequestJson asciiRuntime (.obj [("programData", .obj [("startTime", .str "1")])]) "" [] =
        .ok (ofWrites [("programdata_starttime", .str "1")]) ∧
      @intOfStr asciiRuntime "1" = some 1 ∧
      ∃ out, @EventType.generateEventDataOutputJson asciiRuntime (sampleStart (.str "1")) = .ok out ∧
        out.get? "programdata_starttime" =
          some (.str (String.ofList (List.replicate 1000 '1'))) := by
  refine ⟨by decide +kernel, by decide +kernel, ofWrites [("programdata_starttime",
    .str (String.ofList (List.replicate 1000 '1')))], ?_⟩
  decide +kernel

end Samples

end TvEvents
