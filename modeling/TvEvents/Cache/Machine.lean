import TvEvents.App.Blacklist
import TvEvents.JsonText.IdListRoundTrip
import TvEvents.Library.Runs

namespace TvEvents

open JsonText BlacklistCache

inductive CacheOp
  | initializeCache (t : Tick)
  | refresh (t : Tick)
  | getChannelIds (t : Tick)
  | isBlacklisted (t : Tick) (channelId : Json)

namespace CacheOp

def tick : CacheOp → Tick
  | .initializeCache t => t
  | .refresh t => t
  | .getChannelIds t => t
  | .isBlacklisted t _ => t

end CacheOp

section Machine

variable [Runtime]

def cacheStep (s : BlacklistCache) : CacheOp → BlacklistCache
  | .initializeCache t => (initializeCache t s).2
  | .refresh t => (BlacklistCache.refresh t s).2
  | .getChannelIds t => (BlacklistCache.getChannelIds t s).2
  | .isBlacklisted t c => (BlacklistCache.isBlacklisted t c s).2

omit [Runtime] in
/-- Ids that are JSON values have a text together. -/
theorem jsonValues_total {ids : List ChannelId} (h : ∀ id ∈ ids, ∃ v, id = .json v) :
    ∃ l, jsonValues ids = some l := by
  induction ids with
  | nil => exact ⟨[], rfl⟩
  | cons id ids ih =>
    obtain ⟨v, rfl⟩ := h id List.mem_cons_self
    obtain ⟨l, hl⟩ := ih fun id' hid => h id' (List.mem_cons_of_mem _ hid)
    refine ⟨v :: l, ?_⟩
    rw [jsonValues, hl, Option.map_some]

def readable : Tick := ⟨.fails, false, .completes, 0⟩

def decoded (s : BlacklistCache) : Except PyExc (Option Held) := readCache readable s

omit [Runtime] in
theorem readCache_readable {t : Tick} (h : t.readFails = false) (s : BlacklistCache) :
    readCache t s = decoded s := by
  unfold decoded readCache
  rw [h]
  rfl

omit [Runtime] in
theorem decoded_file {s s' : BlacklistCache} (h : s.file = s'.file) : decoded s = decoded s' := by
  unfold decoded readCache
  rw [h]

omit [Runtime] in
theorem readCache_torn {t : Tick} {s : BlacklistCache} (h : s.file = .text []) :
    readCache t s = .ok none := by
  unfold readCache
  rw [h]
  split_ifs <;> rfl

/-- Writing ids without a JSON text empties the file that it opens. -/
theorem writeCache_torn {t : Tick} {ids : List ChannelId} (hopen : t.write ≠ .openFails)
    (hdumps : dumpsIds ids = none) (s : BlacklistCache) :
    (writeCache t ids s).2.file = .text [] := by
  cases hwrite : t.write with
  | openFails => exact absurd hwrite hopen
  | failsAfter n => simp [writeCache, hwrite, hdumps]
  | completes => simp [writeCache, hwrite, hdumps]

theorem writeCache_memory (t : Tick) (ids : List ChannelId) (s : BlacklistCache) :
    (writeCache t ids s).2.channelIds = s.channelIds ∧
      (writeCache t ids s).2.lastRefresh = s.lastRefresh := by
  unfold writeCache
  split
  · exact ⟨rfl, rfl⟩
  · split <;> exact ⟨rfl, rfl⟩
  · split <;> exact ⟨rfl, rfl⟩

/-- Writing raises exactly when the file is opened and an id has no JSON text; the file is then
left empty. -/
theorem writeCache_raises (t : Tick) (ids : List ChannelId) (s : BlacklistCache) {e : PyExc}
    (h : (writeCache t ids s).1 = .error e) :
    t.write ≠ .openFails ∧ dumpsIds ids = none ∧ (writeCache t ids s).2.file = .text [] := by
  have hraised : t.write ≠ .openFails ∧ dumpsIds ids = none := by
    cases hwrite : t.write with
    | openFails => simp [writeCache, hwrite] at h
    | failsAfter n =>
      cases hdumps : dumpsIds ids with
      | none => simp
      | some cs => simp [writeCache, hwrite, hdumps] at h
    | completes =>
      cases hdumps : dumpsIds ids with
      | none => simp
      | some cs => simp [writeCache, hwrite, hdumps] at h
  exact ⟨hraised.1, hraised.2, writeCache_torn hraised.1 hraised.2 s⟩

/-- A refresh finds no ids and changes nothing, or writes the ids and then holds them, or fails in
writing and keeps what it held. -/
theorem refresh_cases (t : Tick) (s : BlacklistCache) :
    (fetchFromRds t.rds = [] ∧ refresh t s = (.ok false, s)) ∨
    (fetchFromRds t.rds ≠ [] ∧ (writeCache t (fetchFromRds t.rds) s).1 = .ok () ∧
      refresh t s = (.ok true, { (writeCache t (fetchFromRds t.rds) s).2 with
        channelIds := some (.list (fetchFromRds t.rds)), lastRefresh := t.now })) ∨
    (fetchFromRds t.rds ≠ [] ∧ ∃ e, (writeCache t (fetchFromRds t.rds) s).1 = .error e ∧
      refresh t s = (.error e, (writeCache t (fetchFromRds t.rds) s).2)) := by
  unfold refresh
  by_cases hids : fetchFromRds t.rds = []
  · left
    exact ⟨hids, by rw [if_pos hids]⟩
  · right
    simp only [if_neg hids]
    rcases hwrite : writeCache t (fetchFromRds t.rds) s with ⟨result, s'⟩
    cases result with
    | ok u => exact .inl ⟨hids, rfl, rfl⟩
    | error e => exact .inr ⟨hids, e, rfl, rfl⟩

/-- The start holds the ids that it fetched and wrote, or falls back to the file. -/
theorem initializeCache_cases (t : Tick) (s : BlacklistCache) :
    (fetchFromRds t.rds = [] ∧ initializeCache t s = initializeFallback t s) ∨
    (fetchFromRds t.rds ≠ [] ∧ (writeCache t (fetchFromRds t.rds) s).1 = .ok () ∧
      initializeCache t s = (.ok (), { (writeCache t (fetchFromRds t.rds) s).2 with
        channelIds := some (.list (fetchFromRds t.rds)), lastRefresh := t.now })) ∨
    (fetchFromRds t.rds ≠ [] ∧ ∃ e, (writeCache t (fetchFromRds t.rds) s).1 = .error e ∧
      initializeCache t s = initializeFallback t (writeCache t (fetchFromRds t.rds) s).2) := by
  unfold initializeCache
  by_cases hids : fetchFromRds t.rds = []
  · left
    exact ⟨hids, by rw [if_pos hids]⟩
  · right
    simp only [if_neg hids]
    rcases hwrite : writeCache t (fetchFromRds t.rds) s with ⟨result, s'⟩
    cases result with
    | ok u => exact .inl ⟨hids, rfl, rfl⟩
    | error e => exact .inr ⟨hids, e, rfl, rfl⟩

omit [Runtime] in
/-- The fallback keeps the memory when the file cannot be decoded, and else holds what it reads, or
the empty list. -/
theorem initializeFallback_memory (t : Tick) (s : BlacklistCache) :
    (initializeFallback t s).2.file = s.file ∧
      (initializeFallback t s).2.channelIds =
        match readCache t s with
        | .error _ => s.channelIds
        | .ok none => some (.list [])
        | .ok (some held) => some held := by
  unfold initializeFallback
  split <;> simp_all

theorem getChannelIds_memory {t : Tick} {s : BlacklistCache} {held : Held}
    (h : s.channelIds = some held) : getChannelIds t s = (.ok held, s) := by
  unfold getChannelIds
  rw [h]

/-- A query changes the cache as reading the ids does, and not at all without a channel. -/
theorem isBlacklisted_state (t : Tick) (c : Json) (s : BlacklistCache) :
    (isBlacklisted t c s).2 = if c = .null then s else (getChannelIds t s).2 := by
  unfold isBlacklisted
  split_ifs
  · rfl
  · rcases getChannelIds t s with ⟨result, s'⟩
    cases result <;> rfl

theorem isBlacklisted_memory {t : Tick} {s : BlacklistCache} {held : Held}
    (h : s.channelIds = some held) (c : Json) :
    isBlacklisted t c s = (if c = .null then .ok false else held.has (str c), s) := by
  unfold isBlacklisted
  rw [getChannelIds_memory h]
  split_ifs <;> rfl

end Machine

end TvEvents
