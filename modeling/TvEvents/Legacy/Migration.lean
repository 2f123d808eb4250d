import TvEvents.JsonText.RoundTrip
import TvEvents.Legacy.Acceptance
import TvEvents.Legacy.CacheParity
import TvEvents.Legacy.Parity
import TvEvents.Legacy.Routes
import TvEvents.Serving.Blacklisting

namespace TvEvents.Legacy

open Coroutines JsonText Runs BlacklistCache

variable [Runtime]

section Worker

/-- A request that reaches a worker, and what the world does meanwhile. -/
structure Visit where
  request : Request
  tick : Tick

def visitStep (env : Env) (s : TvEventsRds) (v : Visit) : TvEventsRds :=
  (sendRequestFirehose env v.tick v.request s).rds

def deployed (t : Tick) : TvEventsRds := .fresh (entrypoint t .absent)

private theorem jsonValues_rows {rs : List RdsValue} (hrows : TextRows (.rows rs)) : ∃ l,
    jsonValues (TvEventsRds.fetchallChannelIds (.rows rs)) = some l ∧ WellFormed (.arr l) ∧
      FloatsRead (.arr l) := by
  have hids := textRows_json hrows
  obtain ⟨l, hl⟩ := jsonValues_total hids
  refine ⟨l, hl, ?_⟩
  have hvalues : ∀ v ∈ l, v = .null ∨ ∃ s, v = .str s := by
    intro v hv
    have hmem : ChannelId.json v ∈ TvEventsRds.fetchallChannelIds (.rows rs) := by
      rw [jsonValues_map hl]
      exact List.mem_map_of_mem hv
    obtain ⟨r, hr, hrv⟩ := List.mem_map.mp hmem
    rcases hrows r hr with rfl | ⟨s, rfl⟩
    · exact .inl (ChannelId.json.inj hrv).symm
    · exact .inr ⟨s, (ChannelId.json.inj hrv).symm⟩
  have hdeep : ∀ {p : Json → Prop}, p (.arr l) → p .null → (∀ s, p (.str s)) →
      Json.Deep p (.arr l) := by
    intro p harr hnull hstr
    refine ⟨harr, ?_⟩
    intro w hw
    rcases hvalues w hw with rfl | ⟨s, rfl⟩
    · exact .leaf hnull rfl
    · exact .leaf (hstr s) rfl
  exact ⟨hdeep trivial trivial fun _ => trivial, hdeep trivial trivial fun _ => trivial⟩

/-- A worker finds the rows of the table in its file, or holds them. -/
structure Holds (rs : List RdsValue) (s : TvEventsRds) : Prop where
  file : ∀ t : Tick, t.readFails = false →
    s.readData t = .ok (some (.list (TvEventsRds.fetchallChannelIds (.rows rs))))
  memory : s.channelIds = none ∨
    s.channelIds = some (.list (TvEventsRds.fetchallChannelIds (.rows rs)))

theorem deployed_holds {rs : List RdsValue} (hrows : TextRows (.rows rs)) (hne : rs ≠ []) {t : Tick}
    (hrds : t.rds = .rows rs) (hwrite : t.write = .completes) : Holds rs (deployed t) := by
  obtain ⟨l, hl, hformed, hfloats⟩ := jsonValues_rows hrows
  have hids : TvEventsRds.fetchallChannelIds (.rows rs) ≠ [] := by
    intro hnil
    exact hne (List.map_eq_nil_iff.mp hnil)
  have hdumps : dumpsIds (TvEventsRds.fetchallChannelIds (.rows rs)) = some (dumps (.arr l)) := by
    rw [dumpsIds, hl, Option.map_some]
  have hfile : (deployed t).file = .text (dumps (.arr l)) := by
    simp [deployed, entrypoint, TvEventsRds.fresh, TvEventsRds.initializeBlacklistedChannelIdsCache,
      hrds, hids, TvEventsRds.storeData, hwrite, hdumps]
  refine ⟨?_, .inl rfl⟩
  intro t' hreads
  have hloads := loads_printed hformed hfloats
  unfold TvEventsRds.readData
  simp only [hreads, hfile, hloads, Held.ofJson, Bool.false_eq_true, if_false]
  rw [← jsonValues_map hl]

end Worker

section Request

/-- What of the legacy service the rebuilt one has kept: the timestamp is set, the sections of tuner
data that are checked are objects, and the output carries over. -/
structure Kept (z : String) (p : Json) : Prop where
  timestamp : ¬Unset (tvEventField p "timestamp")
  sections : kindOf p = some .acrTunerData → ObjectSections (membersOf (some (sectionsHolder p)))
  output : CarriesOver z p

end Request

section Table

/-- The rows of the table of channels: NULL, or an id that is not empty; there is an id. -/
structure ChannelTable (rs : List RdsValue) : Prop where
  rows : ∀ r ∈ rs, r = .null ∨ ∃ s ≠ "", r = .text s
  found : fetchFromRds (.rows rs) ≠ []

namespace ChannelTable

variable {rs : List RdsValue}

omit [Runtime] in
theorem textRows (h : ChannelTable rs) : TextRows (.rows rs) := by
  intro r hr
  rcases h.rows r hr with hnull | ⟨s, -, htext⟩
  · exact .inl hnull
  · exact .inr ⟨s, htext⟩

omit [Runtime] in
theorem ne_nil (h : ChannelTable rs) : rs ≠ [] := by
  rintro rfl
  exact h.found rfl

omit [Runtime] in
theorem alike (h : ChannelTable rs) (c : String) :
    (Held.list (TvEventsRds.fetchallChannelIds (.rows rs))).has c =
      (Held.list (fetchFromRds (.rows rs))).has c := by
  by_cases hc : c = ""
  · have hblank : ChannelId.json (.str c) ∉ TvEventsRds.fetchallChannelIds (.rows rs) := by
      intro hmem
      obtain ⟨r, hr, hid⟩ := List.mem_map.mp hmem
      rcases h.rows r hr with rfl | ⟨s, hs, rfl⟩
      · cases hid
      · have hsame : s = c := by simpa [RdsValue.channelId] using hid
        exact hs (hsame.trans hc)
    have hblank' : ChannelId.json (.str c) ∉ fetchFromRds (.rows rs) :=
      fun hmem => hblank (fetchFromRds_mem hmem)
    simp [Held.has, hblank, hblank']
  · exact sameAnswers_fetched h.textRows c hc

end ChannelTable

/-- While nobody changes the table, a query answers its rows or fails. -/
def OnTable (rs : List RdsValue) (t : Tick) : Prop := t.rds = .fails ∨ t.rds = .rows rs

end Table

section Results

variable [Framework]

end Results

section Samples

omit [Runtime]

def sampleLegacyEnv : Env := fun name =>
  if name = "FLASK_ENV" then some "unknown" else sampleEnv name

theorem sampleTable_channels : ChannelTable [.null, .text "7"] := by
  refine ⟨?_, by decide⟩
  intro r hr
  simp only [List.mem_cons, List.not_mem_nil, or_false] at hr
  rcases hr with rfl | rfl
  · exact .inl rfl
  · exact .inr ⟨"7", by decide, rfl⟩

end Samples

end TvEvents.Legacy
