import TvEvents.Cache.Outage

namespace TvEvents

open JsonText BlacklistCache

section FileWrite

variable [Runtime]

def DecodesTo (s : BlacklistCache) (ids : List ChannelId) : Prop :=
  decoded s = .ok (some (.list ids))

instance (s : BlacklistCache) (ids : List ChannelId) : Decidable (DecodesTo s ids) :=
  inferInstanceAs (Decidable (decoded s = _))

omit [Runtime] in
theorem jsonValues_map {ids : List ChannelId} {l : List Json} (h : jsonValues ids = some l) :
    ids = l.map .json := by
  induction ids generalizing l with
  | nil =>
    have hl : [] = l := Option.some.inj h
    rw [← hl]
    rfl
  | cons id ids ih =>
    cases id with
    | json v =>
      obtain ⟨l', hl', hl⟩ := Option.map_eq_some_iff.mp h
      rw [← hl, ih hl']
      rfl
    | other text => cases h

omit [Runtime] in
/-- Fetched ids that have a JSON text are texts and 64-bit integers. -/
theorem fetchFromRds_isId {answer : RdsAnswer} {l : List Json}
    (h : jsonValues (fetchFromRds answer) = some l) : ∀ v ∈ l, IsId v := by
  intro v hv
  have hmem : ChannelId.json v ∈ fetchFromRds answer := by
    rw [jsonValues_map h]
    exact List.mem_map.mpr ⟨v, hv, rfl⟩
  cases answer with
  | fails => cases hmem
  | rows rs =>
    obtain ⟨r, hr, hrv⟩ := List.mem_map.mp hmem
    have htruthy := (List.mem_filter.mp hr).2
    cases r with
    | null => cases htruthy
    | text s =>
      obtain rfl := ChannelId.json.inj hrv
      trivial
    | int n fits =>
      obtain rfl := ChannelId.json.inj hrv
      exact fits
    | other text b => cases hrv

theorem decodesTo_dumps {s : BlacklistCache} {ids : List ChannelId} {l : List Json}
    (hl : jsonValues ids = some l) (hids : ∀ v ∈ l, IsId v) (hfile : s.file = .text (dumps (.arr l))) :
    DecodesTo s ids := by
  have hloads := loads_dumps hids
  unfold DecodesTo decoded readCache
  simp only [readable, hfile, hloads, Bool.false_eq_true, if_false, Held.ofJson]
  rw [← jsonValues_map hl]

theorem decoded_cut {s : BlacklistCache} {l : List Json} {p : List Char} (hids : ∀ v ∈ l, IsId v)
    (hp : p <+: dumps (.arr l)) (hcut : p ≠ dumps (.arr l)) (hfile : s.file = .text p) :
    decoded s = .ok none := by
  have hloads := loads_cut hids hp hcut
  unfold decoded readCache
  simp only [readable, hfile, hloads, Bool.false_eq_true, if_false]

/-- Either no file is opened, or the ids have a text and all its characters are stored. -/
def StoresAll (t : Tick) : Prop :=
  t.write = .openFails ∨ ∃ cs, dumpsIds (fetchFromRds t.rds) = some cs ∧
    (t.write = .completes ∨ ∃ n, t.write = .failsAfter n ∧ cs.length ≤ n)

omit [Runtime] in
private theorem decoded_not_list {s : BlacklistCache} (h : decoded s = .ok none)
    (ids : List ChannelId) : ¬DecodesTo s ids := by
  intro hids
  rw [DecodesTo, h] at hids
  cases hids

/-- A write that stores all it opened for leaves the old file, or the text of the ids. -/
theorem writeCache_stored {t : Tick} (h : StoresAll t) (s : BlacklistCache) :
    (writeCache t (fetchFromRds t.rds) s).2.file = s.file ∨
      DecodesTo (writeCache t (fetchFromRds t.rds) s).2 (fetchFromRds t.rds) := by
  rcases h with hopen | ⟨cs, hdumps, hwrite⟩
  · left
    simp [writeCache, hopen]
  · right
    obtain ⟨l, hl, hcs⟩ := Option.map_eq_some_iff.mp hdumps
    apply decodesTo_dumps hl (fetchFromRds_isId hl)
    rcases hwrite with hwrite | ⟨n, hwrite, hlong⟩
    · simp [writeCache, hwrite, hdumps, hcs]
    · simp [writeCache, hwrite, hdumps, hcs, List.take_of_length_le hlong]

/-- Any other write leaves no text, or a strict part of one, and the file decodes to nothing. -/
theorem writeCache_lost {t : Tick} (h : ¬StoresAll t) (s : BlacklistCache) :
    decoded (writeCache t (fetchFromRds t.rds) s).2 = .ok none := by
  unfold StoresAll at h
  push Not at h
  obtain ⟨hopen, hpart⟩ := h
  cases hdumps : dumpsIds (fetchFromRds t.rds) with
  | none => exact readCache_torn (writeCache_torn hopen hdumps s)
  | some cs =>
    obtain ⟨hcompletes, hshort⟩ := hpart cs hdumps
    cases hwrite : t.write with
    | openFails => exact absurd hwrite hopen
    | completes => exact absurd hwrite hcompletes
    | failsAfter n =>
      obtain ⟨l, hl, hcs⟩ := Option.map_eq_some_iff.mp hdumps
      have hcut : cs.take n ≠ dumps (.arr l) := by
        intro heq
        have hlength := congrArg List.length (heq.trans hcs)
        have hn := hshort n hwrite
        rw [List.length_take] at hlength
        omega
      have hpart : cs.take n <+: dumps (.arr l) := by
        rw [hcs]
        exact List.take_prefix n cs
      apply decoded_cut (fetchFromRds_isId hl) hpart hcut
      simp [writeCache, hwrite, hdumps]

/-- After a write the file holds the old list or the new one exactly when the write stored all that
it opened for. -/
theorem writeCache_decodes_iff {t : Tick} {s : BlacklistCache} {old : List ChannelId}
    (hold : DecodesTo s old) :
    (DecodesTo (writeCache t (fetchFromRds t.rds) s).2 old ∨
        DecodesTo (writeCache t (fetchFromRds t.rds) s).2 (fetchFromRds t.rds)) ↔ StoresAll t := by
  constructor
  · intro h
    by_contra hlost
    have hnone := writeCache_lost hlost s
    rcases h with h | h
    · exact decoded_not_list hnone _ h
    · exact decoded_not_list hnone _ h
  · intro h
    rcases writeCache_stored h s with hfile | hnew
    · left
      exact (decoded_file hfile).trans hold
    · exact .inr hnew

/-- Nothing is fetched, or what is fetched is stored as a whole. -/
def WriteKeeps (t : Tick) : Prop := fetchFromRds t.rds = [] ∨ StoresAll t

/-- The file holds the old list or the fetched one. -/
def FileKept (old fetched : List ChannelId) (s : BlacklistCache) : Prop :=
  DecodesTo s old ∨ DecodesTo s fetched

omit [Runtime] in
private theorem fileKept_congr {s s' : BlacklistCache} (h : s.file = s'.file)
    (old fetched : List ChannelId) : FileKept old fetched s ↔ FileKept old fetched s' := by
  unfold FileKept DecodesTo
  rw [decoded_file h]

theorem refresh_file (t : Tick) (s : BlacklistCache) :
    (refresh t s).2.file =
      if fetchFromRds t.rds = [] then s.file else (writeCache t (fetchFromRds t.rds) s).2.file := by
  rcases refresh_cases t s with ⟨hids, hstep⟩ | ⟨hids, -, hstep⟩ | ⟨hids, e, -, hstep⟩
  · rw [hstep, if_pos hids]
  · rw [hstep, if_neg hids]
  · rw [hstep, if_neg hids]

theorem initializeCache_file (t : Tick) (s : BlacklistCache) :
    (initializeCache t s).2.file =
      if fetchFromRds t.rds = [] then s.file else (writeCache t (fetchFromRds t.rds) s).2.file := by
  rcases initializeCache_cases t s with ⟨hids, hstep⟩ | ⟨hids, -, hstep⟩ | ⟨hids, e, -, hstep⟩
  · rw [hstep, if_pos hids]
    exact (initializeFallback_memory t s).1
  · rw [hstep, if_neg hids]
  · rw [hstep, if_neg hids]
    exact (initializeFallback_memory t _).1

private theorem fileKept_iff {t : Tick} {s s' : BlacklistCache} {old : List ChannelId}
    (hold : DecodesTo s old) (hfile : s'.file = if fetchFromRds t.rds = [] then s.file
      else (writeCache t (fetchFromRds t.rds) s).2.file) :
    FileKept old (fetchFromRds t.rds) s' ↔ WriteKeeps t := by
  unfold WriteKeeps
  by_cases hids : fetchFromRds t.rds = []
  · rw [if_pos hids] at hfile
    rw [fileKept_congr hfile]
    exact ⟨fun _ => .inl hids, fun _ => .inl hold⟩
  · rw [if_neg hids] at hfile
    rw [fileKept_congr hfile, FileKept, writeCache_decodes_iff hold]
    exact ⟨.inr, fun h => h.resolve_left hids⟩

/-- A refresh that does not answer `True` keeps the list, the time and the file. -/
def RefusalKeeps (old : List ChannelId) (t : Tick) (s : BlacklistCache) : Prop :=
  (refresh t s).1 ≠ .ok true → (refresh t s).2.channelIds = s.channelIds ∧
    (refresh t s).2.lastRefresh = s.lastRefresh ∧ DecodesTo (refresh t s).2 old

private theorem refusalKeeps_of_writeKeeps {t : Tick} {s : BlacklistCache} {old : List ChannelId}
    (hold : DecodesTo s old) (h : WriteKeeps t) : RefusalKeeps old t s := by
  intro hrefused
  rcases refresh_cases t s with ⟨-, hstep⟩ | ⟨-, -, hstep⟩ | ⟨hids, e, herror, -⟩
  · rw [hstep]
    exact ⟨rfl, rfl, hold⟩
  · rw [hstep] at hrefused
    exact absurd rfl hrefused
  · obtain ⟨hopen, hnone, -⟩ := writeCache_raises t _ s herror
    rcases h with h | h | ⟨cs, hdumps, -⟩
    · exact absurd h hids
    · exact absurd h hopen
    · rw [hnone] at hdumps
      cases hdumps

/-- A refresh or a start keeps a good file good, and a refused refresh keeps everything, exactly
when nothing is fetched or the write stores all that it opened for. -/
theorem failedWrite_keeps_file_iff {t : Tick} {s : BlacklistCache} {old : List ChannelId}
    (hold : DecodesTo s old) :
    (FileKept old (fetchFromRds t.rds) (refresh t s).2 ∧ RefusalKeeps old t s ↔ WriteKeeps t) ∧
      (FileKept old (fetchFromRds t.rds) (initializeCache t s).2 ↔ WriteKeeps t) := by
  have hrefresh := fileKept_iff hold (refresh_file t s)
  constructor
  · constructor
    · intro h
      exact hrefresh.mp h.1
    · intro h
      exact ⟨hrefresh.mpr h, refusalKeeps_of_writeKeeps hold h⟩
  · exact fileKept_iff hold (initializeCache_file t s)

end FileWrite

section Samples

def sampleStored : BlacklistCache :=
  ⟨some (.list [.json (.str "ch0")]), 0, .text "[\"ch0\"]".toList⟩

/-- The database answers with a new channel, and the disk is full after three characters. -/
def sampleDiskFull : Tick := ⟨.rows [.text "ch1"], false, .failsAfter 3, 1⟩

theorem failedWrite_keeps_file_unopened :
    FileKept [.json (.str "ch0")] [.json (.str "ch1")]
      (@refresh asciiRuntime sampleFetched sampleStored).2 := by
  have hold : DecodesTo sampleStored [.json (.str "ch0")] := by decide +kernel
  exact ((@failedWrite_keeps_file_iff asciiRuntime sampleFetched sampleStored _ hold).1.mpr
    (.inr (.inl rfl))).1

/-- A full disk leaves a file that decodes to no list, and the refresh answers `True`. -/
theorem diskFull_loses_file :
    DecodesTo sampleStored [.json (.str "ch0")] ∧
      (@refresh asciiRuntime sampleDiskFull sampleStored).1 = .ok true ∧
      ¬FileKept [.json (.str "ch0")] (fetchFromRds sampleDiskFull.rds)
        (@refresh asciiRuntime sampleDiskFull sampleStored).2 := by
  refine ⟨by decide +kernel, by decide +kernel, ?_⟩
  intro h
  rcases h with h | h
  · exact absurd h (by decide +kernel)
  · exact absurd h (by decide +kernel)

end Samples

end TvEvents
