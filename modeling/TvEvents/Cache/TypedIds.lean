import TvEvents.Cache.Coherence

namespace TvEvents

open JsonText BlacklistCache Runs

section TypedIds

/-- A row whose id is a text that is not empty, or an integer other than zero. -/
def PlainRow : RdsValue → Prop
  | .text s => s ≠ ""
  | .int n _ => n ≠ 0
  | _ => False

/-- A queried id is a string or an integer. -/
def QueriedId (c : Json) : Prop := (∃ s, c = .str s) ∨ ∃ n, c = .int n

variable [Runtime]

/-- `str(channel_id) == str(c)` for the id of a row. -/
def SameText (r : RdsValue) (c : Json) : Prop :=
  ∃ v, r.channelId = .json v ∧ str v = str c

/-- Every integer id is listed as a text too. -/
def TextsListed (rs : List RdsValue) : Prop :=
  ∀ n fits, .int n fits ∈ rs → .text (toString n) ∈ rs

/-- A query answers `True` exactly for the texts of the rows. -/
def AnswersByText (rs : List RdsValue) (t : Tick) (s : BlacklistCache) : Prop :=
  ∀ c, QueriedId c → ((isBlacklisted t c s).1 = .ok true ↔ ∃ r ∈ rs, SameText r c)

omit [Runtime] in
private theorem PlainRow.text_or_int {r : RdsValue} (hr : PlainRow r) :
    (∃ s, r = .text s ∧ s ≠ "") ∨ ∃ n fits, r = .int n fits ∧ n ≠ 0 := by
  cases r with
  | text s => exact .inl ⟨s, rfl, hr⟩
  | int n fits => exact .inr ⟨n, fits, rfl, hr⟩
  | null => cases hr
  | other text b => cases hr

omit [Runtime] in
theorem fetchFromRds_plain {rs : List RdsValue} (hrs : ∀ r ∈ rs, PlainRow r) :
    fetchFromRds (.rows rs) = rs.map RdsValue.channelId := by
  have htruthy : rs.filter RdsValue.truthy = rs := by
    apply List.filter_eq_self.mpr
    intro r hr
    obtain ⟨s, rfl, hs⟩ | ⟨n, fits, rfl, hn⟩ := (hrs r hr).text_or_int
    · simpa [RdsValue.truthy] using hs
    · simpa [RdsValue.truthy] using hn
  simp only [fetchFromRds, htruthy]

omit [Runtime] in
private theorem jsonValues_plain {rs : List RdsValue} (hrs : ∀ r ∈ rs, PlainRow r) :
    ∃ l, jsonValues (rs.map RdsValue.channelId) = some l := by
  apply jsonValues_total
  intro id hid
  obtain ⟨r, hr, rfl⟩ := List.mem_map.mp hid
  obtain ⟨s, rfl, -⟩ | ⟨n, fits, rfl, -⟩ := (hrs r hr).text_or_int
  · exact ⟨_, rfl⟩
  · exact ⟨_, rfl⟩

omit [Runtime] in
private theorem contains_text {rs : List RdsValue} (hrs : ∀ r ∈ rs, PlainRow r) (x : String) :
    (rs.map RdsValue.channelId).contains (.json (.str x)) = true ↔ .text x ∈ rs := by
  rw [List.contains_iff_mem, List.mem_map]
  constructor
  · intro h
    obtain ⟨r, hr, hid⟩ := h
    obtain ⟨s, rfl, -⟩ | ⟨n, fits, rfl, -⟩ := (hrs r hr).text_or_int
    · have hsame : s = x := by simpa [RdsValue.channelId] using hid
      rwa [← hsame]
    · simp [RdsValue.channelId] at hid
  · intro h
    exact ⟨.text x, h, rfl⟩

/-- A lookup in the list of the rows answers by the text of their ids exactly when the integers are
listed as texts. -/
private theorem lookup_byText_iff {rs : List RdsValue} (hrs : ∀ r ∈ rs, PlainRow r) :
    (∀ c, QueriedId c → ((Held.list (fetchFromRds (.rows rs))).has (str c) = .ok true ↔
      ∃ r ∈ rs, SameText r c)) ↔ TextsListed rs := by
  have hhas : ∀ x, (Held.list (fetchFromRds (.rows rs))).has x = .ok true ↔ .text x ∈ rs := by
    intro x
    rw [fetchFromRds_plain hrs, Held.has, Except.ok.injEq]
    exact contains_text hrs x
  have hint : ∀ n : ℤ, str (.int n) = toString n := Runtime.repr_int
  constructor
  · intro h n fits hmem
    have hn := (h (.int n) (.inr ⟨n, rfl⟩)).mpr ⟨_, hmem, .int n, rfl, rfl⟩
    rw [hhas, hint] at hn
    exact hn
  · intro h c hc
    rw [hhas]
    constructor
    · intro hmem
      exact ⟨_, hmem, .str (str c), rfl, rfl⟩
    · intro hrow
      obtain ⟨r, hr, v, hv, htext⟩ := hrow
      obtain ⟨s, rfl, -⟩ | ⟨n, fits, rfl, -⟩ := (hrs r hr).text_or_int
      · obtain rfl := ChannelId.json.inj hv
        have hs : s = str c := htext
        rwa [← hs]
      · obtain rfl := ChannelId.json.inj hv
        rw [hint] at htext
        rw [← htext]
        exact h n fits hr

omit [Runtime] in
private theorem typed_ne_null {c : Json} (hc : QueriedId c) : c ≠ .null := by
  rcases hc with ⟨s, rfl⟩ | ⟨n, rfl⟩
  · simp
  · simp

private theorem answers_of_lookup {rs : List RdsValue} {t : Tick} {s : BlacklistCache}
    (h : ∀ c, (isBlacklisted t c s).1 =
      if c = .null then .ok false else (Held.list (fetchFromRds (.rows rs))).has (str c)) :
    AnswersByText rs t s ↔ ∀ c, QueriedId c →
      ((Held.list (fetchFromRds (.rows rs))).has (str c) = .ok true ↔ ∃ r ∈ rs, SameText r c) := by
  unfold AnswersByText
  apply forall_congr'
  intro c
  apply imp_congr_right
  intro hc
  rw [h c, if_neg (typed_ne_null hc)]

/-- A memory that holds the rows answers by their texts exactly when integers are listed as texts. -/
private theorem answers_memory_iff {rs : List RdsValue} (hrs : ∀ r ∈ rs, PlainRow r) {t : Tick}
    {s : BlacklistCache} (hs : s.channelIds = some (.list (fetchFromRds (.rows rs)))) :
    AnswersByText rs t s ↔ TextsListed rs := by
  rw [answers_of_lookup fun c => by rw [isBlacklisted_memory hs], lookup_byText_iff hrs]

private theorem answers_replaces_iff {rs : List RdsValue} (hrs : ∀ r ∈ rs, PlainRow r) {t : Tick}
    (ht : OutageTick t) {s : BlacklistCache} (hs : Replaces (fetchFromRds (.rows rs)) s) :
    AnswersByText rs t s ↔ TextsListed rs := by
  rw [answers_of_lookup (isBlacklisted_replaces ht hs), lookup_byText_iff hrs]

omit [Runtime] in
private theorem fetched_plain {rs : List RdsValue} (hne : rs ≠ []) (hrs : ∀ r ∈ rs, PlainRow r)
    {t : Tick} (ht : t.rds = .rows rs) :
    fetchFromRds t.rds ≠ [] ∧ ∃ l, jsonValues (fetchFromRds t.rds) = some l := by
  have hids : fetchFromRds t.rds = rs.map RdsValue.channelId := by rw [ht, fetchFromRds_plain hrs]
  rw [hids]
  exact ⟨by simpa using hne, jsonValues_plain hrs⟩

private theorem refresh_plain {rs : List RdsValue} (hne : rs ≠ []) (hrs : ∀ r ∈ rs, PlainRow r)
    {t : Tick} (ht : t.rds = .rows rs) (s : BlacklistCache) :
    (refresh t s).1 = .ok true ∧ (initializeCache t s).1 = .ok () ∧
      (refresh t s).2 = (initializeCache t s).2 ∧
      (refresh t s).2.channelIds = some (.list (fetchFromRds (.rows rs))) := by
  obtain ⟨hfound, l, hvalues⟩ := fetched_plain hne hrs ht
  have hwritten : ∀ e, (writeCache t (fetchFromRds t.rds) s).1 ≠ .error e := by
    intro e herror
    obtain ⟨-, hnone, -⟩ := writeCache_raises t _ s herror
    rw [dumpsIds, hvalues] at hnone
    cases hnone
  rcases refresh_cases t s with ⟨hnone, -⟩ | ⟨-, -, hrefresh⟩ | ⟨-, e, herror, -⟩
  · exact absurd hnone hfound
  · rcases initializeCache_cases t s with ⟨hnone, -⟩ | ⟨-, -, hstart⟩ | ⟨-, e, herror, -⟩
    · exact absurd hnone hfound
    · rw [hrefresh, hstart, ht]
      exact ⟨rfl, rfl, rfl, rfl⟩
    · exact absurd herror (hwritten e)
  · exact absurd herror (hwritten e)

private theorem refresh_plain_file {rs : List RdsValue} (hne : rs ≠ [])
    (hrs : ∀ r ∈ rs, PlainRow r) {t : Tick} (ht : t.rds = .rows rs) (hwrite : t.write = .completes)
    (s : BlacklistCache) :
    DecodesTo (fresh (refresh t s).2.file) (fetchFromRds (.rows rs)) := by
  obtain ⟨hfound, l, hvalues⟩ := fetched_plain hne hrs ht
  have hfile : (refresh t s).2.file = .text (dumps (.arr l)) := by
    rw [refresh_file, if_neg hfound]
    simp [writeCache, hwrite, dumpsIds, hvalues]
  rw [← ht]
  exact decodesTo_dumps hvalues (fetchFromRds_isId hvalues) hfile

/-- Membership follows the texts of the rows, in the process that fetched them and in one that has
read them from the file, exactly when every integer id is listed as a text too. -/
theorem membership_byText_iff {rs : List RdsValue} (hne : rs ≠ []) (hrs : ∀ r ∈ rs, PlainRow r)
    {t : Tick} (ht : t.rds = .rows rs) (s : BlacklistCache) :
    ((∀ now, AnswersByText rs now (refresh t s).2 ∧ AnswersByText rs now (initializeCache t s).2) ∧
      (t.write = .completes → ∀ (own : List CacheOp) (outage : Tick),
        (∀ op ∈ own, OutageTick op.tick) → OutageTick outage →
          AnswersByText rs outage (run cacheStep (fresh (refresh t s).2.file) own) ∧
          AnswersByText rs outage (run cacheStep (fresh (initializeCache t s).2.file) own))) ↔
      TextsListed rs := by
  obtain ⟨-, -, hsame, hmemory⟩ := refresh_plain hne hrs ht s
  rw [← hsame]
  have hnow : ∀ now, AnswersByText rs now (refresh t s).2 ↔ TextsListed rs :=
    fun now => answers_memory_iff hrs hmemory
  constructor
  · intro h
    exact (hnow t).mp (h.1 t).1
  · intro h
    refine ⟨fun now => ⟨(hnow now).mpr h, (hnow now).mpr h⟩, ?_⟩
    intro hwrite own outage hown houtage
    have hfresh : Replaces (fetchFromRds (.rows rs)) (fresh (refresh t s).2.file) :=
      ⟨refresh_plain_file hne hrs ht hwrite s, .inl rfl⟩
    have hrun : Replaces (fetchFromRds (.rows rs)) (run cacheStep (fresh (refresh t s).2.file) own) :=
      invariant_run (fun _ _ hs ho => cacheStep_replaces ho hs) hfresh (along_of_forall hown)
    have hreload := (answers_replaces_iff hrs houtage hrun).mpr h
    exact ⟨hreload, hreload⟩

end TypedIds

section Samples

def sampleInteger : Tick := ⟨.rows [.int 123 (by decide)], false, .completes, 1⟩

def sampleListed : Tick := ⟨.rows [.int 123 (by decide), .text "123"], false, .completes, 1⟩

theorem membership_byText_listed :
    (@isBlacklisted asciiRuntime sampleOutage (.int 123)
      (@refresh asciiRuntime sampleListed (fresh .absent)).2).1 = .ok true := by
  let _ : Runtime := asciiRuntime
  have hrows : ∀ r ∈ [RdsValue.int 123 (by decide), .text "123"], PlainRow r := by
    intro r hr
    rcases List.mem_cons.mp hr with rfl | hr
    · exact (by decide : (123 : ℤ) ≠ 0)
    · rw [List.mem_singleton.mp hr]
      exact (by decide : "123" ≠ "")
  have hlisted : TextsListed [RdsValue.int 123 (by decide), .text "123"] := by
    intro n fits hmem
    rcases List.mem_cons.mp hmem with h | h
    · obtain rfl : n = 123 := by simpa using h
      exact List.mem_cons_of_mem _ (List.mem_singleton.mpr rfl)
    · cases List.mem_singleton.mp h
  have hanswers := ((membership_byText_iff (by simp) hrows (rfl : sampleListed.rds = _)
    (fresh .absent)).mpr hlisted).1 sampleOutage
  exact (hanswers.1 (.int 123) (.inr ⟨123, rfl⟩)).mpr
    ⟨.text "123", by simp, .str "123", rfl, rfl⟩

/-- The one listed id is an integer; the refresh succeeds, and no query finds it. -/
theorem integer_id_not_found :
    PlainRow (.int 123 (by decide)) ∧
      (@refresh asciiRuntime sampleInteger (fresh .absent)).1 = .ok true ∧
      @SameText asciiRuntime (.int 123 (by decide)) (.str "123") ∧
      (@isBlacklisted asciiRuntime sampleOutage (.str "123")
        (@refresh asciiRuntime sampleInteger (fresh .absent)).2).1 = .ok false := by
  refine ⟨(by decide : (123 : ℤ) ≠ 0), by decide +kernel, ⟨.int 123, rfl, by decide +kernel⟩, ?_⟩
  decide +kernel

end Samples

end TvEvents
