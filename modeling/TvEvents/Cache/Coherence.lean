import TvEvents.Cache.FileWrite

namespace TvEvents

open JsonText BlacklistCache Runs

section Coherence

variable [Runtime]

/-- The database ids are texts, and reading and writing the file works. -/
structure CleanTick (t : Tick) : Prop where
  texts : ∀ rs, t.rds = .rows rs → ∀ r ∈ rs, r = .null ∨ ∃ s, r = .text s
  reads : t.readFails = false
  writes : t.write = .completes

/-- The database is down and the file can be read. -/
def OutageTick (t : Tick) : Prop := t.rds = .fails ∧ t.readFails = false

def textIds (l : List String) : List ChannelId := l.map fun s => .json (.str s)

/-- The file is absent, unparsable, or a JSON array of strings. -/
def TextFile (s : BlacklistCache) : Prop :=
  ∀ held, decoded s = .ok (some held) → ∃ l, held = .list (textIds l)

/-- The memory holds nothing, the empty list, or the list that the file decodes to. -/
structure Coherent (s : BlacklistCache) : Prop where
  file : TextFile s
  memory : ∀ held, s.channelIds = some held → ∃ ids, held = .list ids ∧ (ids ≠ [] → DecodesTo s ids)

omit [Runtime] in
private theorem textFile_congr {s s' : BlacklistCache} (h : s'.file = s.file) (hs : TextFile s) :
    TextFile s' := by
  unfold TextFile
  rw [decoded_file h]
  exact hs

omit [Runtime] in
private theorem textFile_of_decodesTo {s : BlacklistCache} {l : List String}
    (h : DecodesTo s (textIds l)) : TextFile s := by
  intro held hheld
  have hsome := Except.ok.inj (h.symm.trans hheld)
  exact ⟨l, (Option.some.inj hsome).symm⟩

omit [Runtime] in
theorem jsonValues_textIds (l : List String) : jsonValues (textIds l) = some (l.map .str) := by
  induction l with
  | nil => rfl
  | cons s l ih =>
    have htail : textIds (s :: l) = .json (.str s) :: textIds l := rfl
    rw [htail, jsonValues, ih]
    rfl

omit [Runtime] in
theorem fetchFromRds_textIds {t : Tick} (h : CleanTick t) : ∃ l, fetchFromRds t.rds = textIds l := by
  cases hrds : t.rds with
  | fails => exact ⟨[], rfl⟩
  | rows rs =>
    have htexts := h.texts rs hrds
    clear hrds
    induction rs with
    | nil => exact ⟨[], rfl⟩
    | cons r rs ih =>
      obtain ⟨l, hl⟩ := ih fun r hr => htexts r (.tail _ hr)
      have hcons : fetchFromRds (.rows (r :: rs)) =
          if r.truthy then r.channelId :: fetchFromRds (.rows rs) else fetchFromRds (.rows rs) := by
        simp only [fetchFromRds, List.filter_cons]
        split_ifs <;> rfl
      rw [hcons, hl]
      rcases htexts r (.head _) with hr | ⟨s, hr⟩
      · rw [hr]
        exact ⟨l, rfl⟩
      · rw [hr]
        split_ifs
        · exact ⟨s :: l, rfl⟩
        · exact ⟨l, rfl⟩

/-- A clean write succeeds, and the file then decodes to the ids. -/
theorem writeCache_clean {t : Tick} (h : CleanTick t) (s : BlacklistCache) :
    (writeCache t (fetchFromRds t.rds) s).1 = .ok () ∧
      DecodesTo (writeCache t (fetchFromRds t.rds) s).2 (fetchFromRds t.rds) := by
  obtain ⟨l, hl⟩ := fetchFromRds_textIds h
  have hdumps : dumpsIds (fetchFromRds t.rds) = some (dumps (.arr (l.map .str))) := by
    rw [dumpsIds, hl, jsonValues_textIds]
    rfl
  have hwrite : writeCache t (fetchFromRds t.rds) s =
      (.ok (), { s with file := .text (dumps (.arr (l.map .str))) }) := by
    simp only [writeCache, h.writes, hdumps]
  have hvalues : jsonValues (fetchFromRds t.rds) = some (l.map .str) := by
    rw [hl]
    exact jsonValues_textIds l
  rw [hwrite]
  exact ⟨rfl, decodesTo_dumps hvalues (fetchFromRds_isId hvalues) rfl⟩

private theorem coherent_of_fetched {t : Tick} (h : CleanTick t) {s s' : BlacklistCache}
    (hfile : s'.file = (writeCache t (fetchFromRds t.rds) s).2.file)
    (hmemory : s'.channelIds = some (.list (fetchFromRds t.rds))) : Coherent s' := by
  have hdecodes : DecodesTo s' (fetchFromRds t.rds) :=
    (decoded_file hfile).trans (writeCache_clean h s).2
  obtain ⟨l, hl⟩ := fetchFromRds_textIds h
  refine ⟨textFile_of_decodesTo (hl ▸ hdecodes), ?_⟩
  intro held hheld
  have hsome := Option.some.inj (hmemory.symm.trans hheld)
  exact ⟨_, hsome.symm, fun _ => hdecodes⟩

omit [Runtime] in
private theorem coherent_of_empty {s s' : BlacklistCache} (hs : Coherent s) (hfile : s'.file = s.file)
    (hmemory : s'.channelIds = some (.list [])) : Coherent s' := by
  refine ⟨textFile_congr hfile hs.file, ?_⟩
  intro held hheld
  have hsome := Option.some.inj (hmemory.symm.trans hheld)
  exact ⟨[], hsome.symm, fun h => absurd rfl h⟩

omit [Runtime] in
private theorem coherent_of_read {s s' : BlacklistCache} (hs : Coherent s) (hfile : s'.file = s.file)
    {held : Held} (hread : decoded s = .ok (some held)) (hmemory : s'.channelIds = some held) :
    Coherent s' := by
  refine ⟨textFile_congr hfile hs.file, ?_⟩
  obtain ⟨l, hl⟩ := hs.file held hread
  intro held' hheld
  have hsome := Option.some.inj (hmemory.symm.trans hheld)
  refine ⟨textIds l, hsome.symm.trans hl, fun _ => ?_⟩
  rw [hl] at hread
  exact (decoded_file hfile).trans hread

omit [Runtime] in
private theorem initializeFallback_coherent {t : Tick} (h : CleanTick t) {s : BlacklistCache}
    (hs : Coherent s) : Coherent (initializeFallback t s).2 := by
  obtain ⟨hfile, hmemory⟩ := initializeFallback_memory t s
  rw [readCache_readable h.reads] at hmemory
  cases hread : decoded s with
  | error e =>
    rw [hread] at hmemory
    refine ⟨textFile_congr hfile hs.file, ?_⟩
    intro held hheld
    rw [hmemory] at hheld
    obtain ⟨ids, hids, hdecodes⟩ := hs.memory held hheld
    exact ⟨ids, hids, fun hne => (decoded_file hfile).trans (hdecodes hne)⟩
  | ok r =>
    rw [hread] at hmemory
    cases r with
    | none => exact coherent_of_empty hs hfile hmemory
    | some held => exact coherent_of_read hs hfile hread hmemory

private theorem getChannelIds_coherent {t : Tick} (h : CleanTick t) {s : BlacklistCache}
    (hs : Coherent s) : Coherent (getChannelIds t s).2 := by
  unfold getChannelIds
  cases s.channelIds with
  | some held => exact hs
  | none =>
    simp only []
    rw [readCache_readable h.reads]
    cases hread : decoded s with
    | error e => exact hs
    | ok r =>
      cases r with
      | some held => exact coherent_of_read hs rfl hread rfl
      | none =>
        simp only []
        split_ifs with hids
        · exact coherent_of_empty hs rfl rfl
        · obtain ⟨hok, -⟩ := writeCache_clean h s
          rcases hwrite : writeCache t (fetchFromRds t.rds) s with ⟨result, s'⟩
          rw [hwrite] at hok
          simp only at hok
          rw [hok]
          exact coherent_of_fetched h (by rw [hwrite]) rfl

/-- Every clean operation keeps memory and file coherent. -/
theorem cacheStep_coherent {op : CacheOp} (h : CleanTick op.tick) {s : BlacklistCache}
    (hs : Coherent s) : Coherent (cacheStep s op) := by
  cases op with
  | initializeCache t =>
    have hclean : CleanTick t := h
    rcases initializeCache_cases t s with ⟨-, hstep⟩ | ⟨-, -, hstep⟩ | ⟨-, e, herror, -⟩
    · rw [cacheStep, hstep]
      exact initializeFallback_coherent h hs
    · rw [cacheStep, hstep]
      exact coherent_of_fetched h rfl rfl
    · rw [(writeCache_clean hclean s).1] at herror
      cases herror
  | refresh t =>
    have hclean : CleanTick t := h
    rcases refresh_cases t s with ⟨-, hstep⟩ | ⟨-, -, hstep⟩ | ⟨-, e, herror, -⟩
    · rw [cacheStep, hstep]
      exact hs
    · rw [cacheStep, hstep]
      exact coherent_of_fetched h rfl rfl
    · rw [(writeCache_clean hclean s).1] at herror
      cases herror
  | getChannelIds t => exact getChannelIds_coherent h hs
  | isBlacklisted t c =>
    rw [cacheStep, isBlacklisted_state]
    split_ifs
    · exact hs
    · exact getChannelIds_coherent h hs

private theorem run_coherent {file : CacheFile} (hfile : TextFile (fresh file)) {ops : List CacheOp}
    (hops : ∀ op ∈ ops, CleanTick op.tick) : Coherent (run cacheStep (fresh file) ops) := by
  have hfresh : Coherent (fresh file) := by
    refine ⟨hfile, ?_⟩
    intro held hheld
    cases hheld
  exact invariant_run (fun _ _ hs hclean => cacheStep_coherent hclean hs) hfresh
    (along_of_forall hops)

/-- A process on a file of these ids, which it has read or not. -/
structure Replaces (ids : List ChannelId) (s : BlacklistCache) : Prop where
  file : DecodesTo s ids
  memory : s.channelIds = none ∨ s.channelIds = some (.list ids)

/-- Without the database, a process that replaces another one finds the ids of the file. -/
theorem getChannelIds_replaces {t : Tick} (ht : OutageTick t) {ids : List ChannelId}
    {s : BlacklistCache} (hs : Replaces ids s) :
    getChannelIds t s = (.ok (.list ids), { s with channelIds := some (.list ids) }) := by
  rcases hs.memory with hmemory | hmemory
  · have hread : readCache t s = .ok (some (.list ids)) := (readCache_readable ht.2 s).trans hs.file
    simp only [getChannelIds, hmemory, hread]
  · rw [getChannelIds_memory hmemory, ← hmemory]

omit [Runtime] in
private theorem replaces_found {ids : List ChannelId} {s s' : BlacklistCache} (hs : Replaces ids s)
    (hfile : s'.file = s.file) (hmemory : s'.channelIds = some (.list ids)) : Replaces ids s' :=
  ⟨(decoded_file hfile).trans hs.file, .inr hmemory⟩

/-- Whatever it does while the database is down, it still replaces the other process. -/
theorem cacheStep_replaces {op : CacheOp} (ht : OutageTick op.tick) {ids : List ChannelId}
    {s : BlacklistCache} (hs : Replaces ids s) : Replaces ids (cacheStep s op) := by
  have hnone : fetchFromRds op.tick.rds = [] := by
    rw [ht.1]
    rfl
  cases op with
  | initializeCache t =>
    have hread : readCache t s = .ok (some (.list ids)) := (readCache_readable ht.2 s).trans hs.file
    obtain ⟨hfile, hmemory⟩ := initializeFallback_memory t s
    rw [hread] at hmemory
    have hstart : initializeCache t s = initializeFallback t s := if_pos hnone
    rw [cacheStep, hstart]
    exact replaces_found hs hfile hmemory
  | refresh t =>
    have hrefused : refresh t s = (.ok false, s) := if_pos hnone
    rw [cacheStep, hrefused]
    exact hs
  | getChannelIds t =>
    have hdown : OutageTick t := ht
    rw [cacheStep, getChannelIds_replaces hdown hs]
    exact replaces_found hs rfl rfl
  | isBlacklisted t c =>
    have hdown : OutageTick t := ht
    rw [cacheStep, isBlacklisted_state]
    split_ifs
    · exact hs
    · rw [getChannelIds_replaces hdown hs]
      exact replaces_found hs rfl rfl

theorem isBlacklisted_replaces {t : Tick} (ht : OutageTick t) {ids : List ChannelId}
    {s : BlacklistCache} (hs : Replaces ids s) (c : Json) :
    (isBlacklisted t c s).1 = if c = .null then .ok false else (Held.list ids).has (str c) := by
  unfold isBlacklisted
  rw [getChannelIds_replaces ht hs]
  split_ifs <;> rfl

/-- In every clean run a list in memory that is not empty is the one in the file; a process that
replaces this one while the database is down gives the same answers, whether it is queried after
its start, at once, or after any operations of its own. -/
theorem run_coherent_restart {file : CacheFile} (hfile : TextFile (fresh file))
    {ops : List CacheOp} (hops : ∀ op ∈ ops, CleanTick op.tick) {ids : List ChannelId}
    (hne : ids ≠ []) (hids : (run cacheStep (fresh file) ops).channelIds = some (.list ids)) :
    DecodesTo (run cacheStep (fresh file) ops) ids ∧
      ∀ (c : Json) (now outage : Tick), OutageTick outage →
        (∀ later, (isBlacklisted later c (initializeCache outage
            (fresh (run cacheStep (fresh file) ops).file)).2).1 =
          (isBlacklisted now c (run cacheStep (fresh file) ops)).1) ∧
        ∀ own : List CacheOp, (∀ op ∈ own, OutageTick op.tick) →
          (isBlacklisted outage c (run cacheStep
              (fresh (run cacheStep (fresh file) ops).file) own)).1 =
            (isBlacklisted now c (run cacheStep (fresh file) ops)).1 := by
  obtain ⟨ids', hlist, hdecodes⟩ := (run_coherent hfile hops).memory _ hids
  obtain rfl : ids = ids' := Held.list.inj hlist
  have hfresh : Replaces ids (fresh (run cacheStep (fresh file) ops).file) :=
    ⟨(decoded_file rfl).trans (hdecodes hne), .inl rfl⟩
  refine ⟨hdecodes hne, ?_⟩
  intro c now outage houtage
  rw [isBlacklisted_memory hids]
  constructor
  · intro later
    have hread : readCache outage (fresh (run cacheStep (fresh file) ops).file) =
        .ok (some (.list ids)) := (readCache_readable houtage.2 _).trans hfresh.file
    have hstart := (initializeFallback_memory outage (fresh (run cacheStep (fresh file) ops).file)).2
    rw [hread] at hstart
    have hnone : fetchFromRds outage.rds = [] := by
      rw [houtage.1]
      rfl
    rw [show initializeCache outage (fresh (run cacheStep (fresh file) ops).file) =
      initializeFallback outage (fresh (run cacheStep (fresh file) ops).file) from if_pos hnone,
      isBlacklisted_memory hstart]
  · intro own hown
    have hreplaces : Replaces ids (run cacheStep (fresh (run cacheStep (fresh file) ops).file) own) :=
      invariant_run (fun _ _ hs ht => cacheStep_replaces ht hs) hfresh (along_of_forall hown)
    exact isBlacklisted_replaces houtage hreplaces c

end Coherence

section Samples

def sampleWritten : Tick := ⟨.rows [.text "ch1", .null, .text "ch2"], false, .completes, 1⟩

/-- The start that fetched two channels is replaced by a process that can only read the file. -/
theorem run_coherent_restart_fetched :
    (@isBlacklisted asciiRuntime sampleOutage (.str "ch2")
      (fresh (@run _ _ (@cacheStep asciiRuntime) (fresh .absent)
        [.initializeCache sampleWritten]).file)).1 = .ok true := by
  have hfile : TextFile (fresh .absent) := by
    intro held hheld
    cases hheld
  have hclean : CleanTick sampleWritten := by
    refine ⟨?_, rfl, rfl⟩
    intro rs hrs r hr
    obtain rfl := RdsAnswer.rows.inj hrs
    rcases List.mem_cons.mp hr with rfl | hr
    · exact .inr ⟨_, rfl⟩
    rcases List.mem_cons.mp hr with rfl | hr
    · exact .inl rfl
    · exact .inr ⟨_, List.mem_singleton.mp hr⟩
  have hops : ∀ op ∈ [CacheOp.initializeCache sampleWritten], CleanTick op.tick := by
    intro op hop
    rw [List.mem_singleton.mp hop]
    exact hclean
  have hsame := ((@run_coherent_restart asciiRuntime .absent hfile _ hops
    [.json (.str "ch1"), .json (.str "ch2")] (by decide) rfl).2 (.str "ch2") sampleWritten
    sampleOutage ⟨rfl, rfl⟩).2 [] (by simp)
  exact hsame.trans (by decide +kernel)

end Samples

end TvEvents
