import TvEvents.Cache.FileWrite
import TvEvents.JsonText.Printable
import TvEvents.Legacy.Pod

namespace TvEvents.Legacy

open Coroutines JsonText Runs BlacklistCache

section Blotted

/-- A text of which parts may be missing: at its end, or with NUL in their place. -/
structure Blotted (whole cs : List Char) : Prop where
  length : cs.length ≤ whole.length
  chars : ∀ (i : ℕ) (c : Char), cs[i]? = some c → c = '\x00' ∨ whole[i]? = some c

theorem blotted_of_cut {whole cs : List Char} (h : cs <+: whole) : Blotted whole cs := by
  refine ⟨h.length_le, ?_⟩
  intro i c hc
  obtain ⟨hi, hget⟩ := List.getElem?_eq_some_iff.mp hc
  rw [← hget]
  exact .inr (List.prefix_iff_getElem?.mp h i hi)

theorem Blotted.cut {whole cs : List Char} (h : Blotted whole cs) (hcs : '\x00' ∉ cs) :
    cs <+: whole := by
  apply List.prefix_iff_getElem?.mpr
  intro i hi
  refine (h.chars i cs[i] (List.getElem?_eq_getElem hi)).resolve_left ?_
  intro hnul
  exact hcs (hnul ▸ List.getElem_mem hi)

theorem start_length (old : List Char) (offset : ℕ) :
    (old.take offset ++ List.replicate (offset - old.length) '\x00').length = offset := by
  rw [List.length_append, List.length_take, List.length_replicate]
  omega

/-- What is stored at its own place leaves such a text. -/
theorem Blotted.overwritten {whole old piece : List Char} {offset : ℕ} (h : Blotted whole old)
    (hpiece : piece <+: whole.drop offset) (hne : piece ≠ []) :
    Blotted whole (old.take offset ++ List.replicate (offset - old.length) '\x00' ++ piece ++
      old.drop (offset + piece.length)) := by
  have hstart := start_length old offset
  have hold := h.length
  have hpos := List.length_pos_iff.mpr hne
  have hfits := hpiece.length_le
  rw [List.length_drop] at hfits
  refine ⟨?_, ?_⟩
  · rw [List.length_append, List.length_append, hstart, List.length_drop]
    omega
  · intro i c hc
    rcases Nat.lt_or_ge i offset with hbefore | hfrom
    · rw [List.append_assoc, List.getElem?_append_left (by omega)] at hc
      rcases Nat.lt_or_ge i old.length with hin | hout
      · rw [List.getElem?_append_left (by rw [List.length_take]; omega),
          List.getElem?_take_of_lt hbefore] at hc
        exact h.chars i c hc
      · rw [List.getElem?_append_right (by rw [List.length_take]; omega)] at hc
        exact .inl (List.eq_of_mem_replicate (List.mem_of_getElem? hc))
    · rcases Nat.lt_or_ge i (offset + piece.length) with hin | hafter
      · rw [List.append_assoc, List.getElem?_append_right (by omega), hstart,
          List.getElem?_append_left (by omega)] at hc
        obtain ⟨hi, hget⟩ := List.getElem?_eq_some_iff.mp hc
        have hwhole := List.prefix_iff_getElem?.mp hpiece (i - offset) hi
        rw [List.getElem?_drop, Nat.add_sub_cancel' hfrom, hget] at hwhole
        exact .inr hwhole
      · rw [List.getElem?_append_right (by rw [List.length_append]; omega), List.length_append,
          hstart, List.getElem?_drop, Nat.add_sub_cancel' hafter] at hc
        exact h.chars i c hc

end Blotted

variable [Runtime]

section Table

/-- A table with a text or an integer in every row, and a row. -/
structure IdTable (rs : List RdsValue) : Prop where
  rows : ∀ r ∈ rs, (∃ s, r = .text s) ∨ ∃ n fits, r = .int n fits
  ne_nil : rs ≠ []

abbrev tableIds (rs : List RdsValue) : List ChannelId := TvEventsRds.fetchallChannelIds (.rows rs)

/-- The text that is written for them. -/
def tableText (rs : List RdsValue) : List Char := (dumpsIds (tableIds rs)).getD []

namespace IdTable

variable {rs : List RdsValue}

omit [Runtime] in
theorem ids_ne_nil (h : IdTable rs) : tableIds rs ≠ [] :=
  fun hnil => h.ne_nil (List.map_eq_nil_iff.mp hnil)

theorem printed (h : IdTable rs) : ∃ l, dumpsIds (tableIds rs) = some (tableText rs) ∧
    tableIds rs = l.map .json ∧ tableText rs = dumps (.arr l) ∧ ∀ v ∈ l, IsId v := by
  have hvalue : ∀ id ∈ tableIds rs, ∃ v, id = .json v ∧ IsId v := by
    intro id hid
    obtain ⟨r, hr, rfl⟩ := List.mem_map.mp hid
    rcases h.rows r hr with ⟨s, rfl⟩ | ⟨n, fits, rfl⟩
    · exact ⟨.str s, rfl, trivial⟩
    · exact ⟨.int n, rfl, fits⟩
  obtain ⟨l, hl⟩ := jsonValues_total fun id hid => (hvalue id hid).imp fun _ hv => hv.1
  have hdumps : dumpsIds (tableIds rs) = some (dumps (.arr l)) := by
    rw [dumpsIds, hl, Option.map_some]
  have htext : tableText rs = dumps (.arr l) := by rw [tableText, hdumps, Option.getD_some]
  refine ⟨l, by rw [htext, hdumps], jsonValues_map hl, htext, ?_⟩
  intro v hv
  have hmem : ChannelId.json v ∈ tableIds rs := by
    rw [jsonValues_map hl]
    exact List.mem_map_of_mem hv
  obtain ⟨v', hv', hid⟩ := hvalue _ hmem
  rwa [ChannelId.json.inj hv']

theorem dumpsIds_eq (h : IdTable rs) : dumpsIds (tableIds rs) = some (tableText rs) := by
  obtain ⟨l, hdumps, -⟩ := h.printed
  exact hdumps

theorem readData_whole (h : IdTable rs) {t : Tick} (hreads : t.readFails = false)
    {held : Option Held} : TvEventsRds.readData t ⟨held, .text (tableText rs)⟩ =
      .ok (some (.list (tableIds rs))) := by
  obtain ⟨l, -, hids, htext, hall⟩ := h.printed
  have hloads : loads (tableText rs) = .ok (.arr l) := by rw [htext, loads_dumps hall]
  simp only [TvEventsRds.readData, hreads, hloads, Held.ofJson, hids, Bool.false_eq_true, if_false]

/-- Where parts of it are missing, it raises: an end that is missing leaves a list open, and a NUL
stands in no document. -/
theorem readData_blotted (h : IdTable rs) {cs : List Char} (hcs : Blotted (tableText rs) cs)
    (hpart : cs ≠ tableText rs) {t : Tick} (hreads : t.readFails = false) {held : Option Held} :
    TvEventsRds.readData t ⟨held, .text cs⟩ = .error (.builtin .valueError) := by
  obtain ⟨l, -, -, htext, hall⟩ := h.printed
  have hloads : ∃ e, loads cs = .error e := by
    cases hread : loads cs with
    | error e => exact ⟨e, rfl⟩
    | ok v =>
      have hnul : '\x00' ∉ cs := by
        intro hmem
        have hprintable : Printable '\x00' := loads_printable hread _ hmem
        rcases hprintable with hblank | hcode
        · cases hblank
        · exact absurd hcode (by decide)
      have hcut := loads_cut hall (htext ▸ hcs.cut hnul) (htext ▸ hpart)
      rw [hread] at hcut
      cases hcut
  obtain ⟨e, hloads⟩ := hloads
  simp only [TvEventsRds.readData, hreads, hloads, Bool.false_eq_true, if_false]

end IdTable

end Table

section Untorn

/-- The file is missing, or holds the text up to missing parts. -/
def PodFile (rs : List RdsValue) (file : CacheFile) : Prop :=
  file = .absent ∨ ∃ cs, Blotted (tableText rs) cs ∧ file = .text cs

/-- The ids that a lookup is about to store. -/
def LookupPhase.pending : LookupPhase → Option (List ChannelId)
  | .fetched ids | .opened ids _ => some ids
  | _ => none

/-- A worker holds the ids of the table, if any, or none because RDS was down. -/
structure HoldsTable (rs : List RdsValue) (down : Prop) (w : PodWorker) : Prop where
  memory : ∀ held, w.channelIds = some held →
    held = .list (tableIds rs) ∨ (down ∧ held = .list [])
  pending : ∀ ids, w.phase.pending = some ids → ids = tableIds rs

/-- A lookup comes to the ids of the table, or to none because RDS was down, or it raises, for parts
of the text are missing. -/
def LookupSound (rs : List RdsValue) (down : Prop) (file : CacheFile)
    (answer : Except PyExc Held) : Prop :=
  answer = .ok (.list (tableIds rs)) ∨ (down ∧ answer = .ok (.list [])) ∨
    (answer = .error (.builtin .valueError) ∧
      ∃ cs, Blotted (tableText rs) cs ∧ cs ≠ tableText rs ∧ file = .text cs)

variable {rs : List RdsValue} {down : Prop}

theorem overwrite_podFile {offset : ℕ} {piece : List Char}
    (hpiece : piece <+: (tableText rs).drop offset) {file : CacheFile} (hfile : PodFile rs file) :
    PodFile rs (overwrite offset piece file) := by
  unfold overwrite
  split_ifs with hnil
  · exact hfile
  · right
    have hold : Blotted (tableText rs) (fileText file) := by
      rcases hfile with rfl | ⟨cs, hcs, rfl⟩
      · exact blotted_of_cut List.nil_prefix
      · exact hcs
    exact ⟨_, hold.overwritten hpiece hnil, rfl⟩

theorem writeText_table (h : IdTable rs) (t : Tick) (stored : ℕ) {file : CacheFile}
    (hfile : PodFile rs file) : ∃ file', PodFile rs file' ∧
      writeText t (tableIds rs) stored file = (.ok (), file') := by
  unfold writeText
  rw [h.dumpsIds_eq]
  cases t.write with
  | failsAfter n => exact ⟨_, overwrite_podFile (List.take_prefix n _) hfile, rfl⟩
  | openFails | completes => exact ⟨_, overwrite_podFile (List.prefix_refl _) hfile, rfl⟩

theorem flushTurn_table (h : IdTable rs) (n : ℕ) {file : CacheFile} (hfile : PodFile rs file)
    {w : PodWorker} (hw : HoldsTable rs down w) :
    PodFile rs (flushTurn n file w).1 ∧ HoldsTable rs down (flushTurn n file w).2 := by
  obtain ⟨channelIds, phase⟩ := w
  unfold flushTurn
  cases phase with
  | idle | missed | fetched ids => exact ⟨hfile, hw⟩
  | opened ids stored =>
    obtain rfl := hw.pending ids rfl
    simp only [h.dumpsIds_eq]
    exact ⟨overwrite_podFile (List.take_prefix n _) hfile, hw.memory, hw.pending⟩

omit [Runtime] in
theorem holdsTable_idle {held : Held}
    (h : held = .list (tableIds rs) ∨ (down ∧ held = .list [])) :
    HoldsTable rs down ⟨some held, .idle⟩ :=
  ⟨fun _ hsome => Option.some.inj hsome ▸ h, fun _ hnone => by cases hnone⟩

omit [Runtime] in
theorem holdsTable_none {phase : LookupPhase} (h : phase.pending = none) :
    HoldsTable rs down ⟨none, phase⟩ := by
  refine ⟨?_, ?_⟩
  · intro held hnone
    cases hnone
  · intro ids hsome
    rw [h] at hsome
    cases hsome

structure TurnKeeps (rs : List RdsValue) (down : Prop) (file : CacheFile)
    (turn : CacheFile × PodWorker × Option (Except PyExc Held)) : Prop where
  left : PodFile rs turn.1
  worker : HoldsTable rs down turn.2.1
  sound : ∀ answer, turn.2.2 = some answer → LookupSound rs down file answer

theorem turnKeeps_answers {file file' : CacheFile} {w : PodWorker} {answer : Except PyExc Held}
    (hfile : PodFile rs file') (hworker : HoldsTable rs down w)
    (hanswer : LookupSound rs down file answer) : TurnKeeps rs down file (file', w, some answer) :=
  ⟨hfile, hworker, fun _ h => Option.some.inj h ▸ hanswer⟩

theorem turnKeeps_goesOn {file file' : CacheFile} {w : PodWorker} (hfile : PodFile rs file')
    (hworker : HoldsTable rs down w) : TurnKeeps rs down file (file', w, none) :=
  ⟨hfile, hworker, fun _ h => by cases h⟩

/-- A lookup that begins: the file is a miss, gives the ids, or raises. -/
theorem lookupTurn_begins (h : IdTable rs) (t : Tick) {file : CacheFile} (hfile : PodFile rs file) :
    TurnKeeps rs down file (lookupTurn t file .fresh) := by
  have hmissed : HoldsTable rs down ⟨none, .missed⟩ := holdsTable_none rfl
  have hmiss : TvEventsRds.readData t ⟨none, file⟩ = .ok none →
      TurnKeeps rs down file (lookupTurn t file .fresh) := by
    intro hread
    simp only [lookupTurn, PodWorker.fresh, hread]
    exact turnKeeps_goesOn hfile hmissed
  cases hreads : t.readFails with
  | true => exact hmiss (by simp [TvEventsRds.readData, hreads])
  | false =>
    rcases hfile with rfl | ⟨cs, hcs, rfl⟩
    · exact hmiss (by simp [TvEventsRds.readData])
    · have hfile : PodFile rs (.text cs) := .inr ⟨cs, hcs, rfl⟩
      by_cases hwhole : cs = tableText rs
      · subst hwhole
        simp only [lookupTurn, PodWorker.fresh, h.readData_whole hreads]
        exact turnKeeps_answers hfile (holdsTable_idle (.inl rfl)) (.inl rfl)
      · simp only [lookupTurn, PodWorker.fresh, h.readData_blotted hcs hwhole hreads]
        exact turnKeeps_answers hfile (holdsTable_none rfl)
          (.inr (.inr ⟨rfl, cs, hcs, hwhole, rfl⟩))

theorem lookupTurn_table (h : IdTable rs) {t : Tick} (htable : OnTable rs t)
    (hdown : t.rds = .fails → down) {file : CacheFile} (hfile : PodFile rs file) {w : PodWorker}
    (hw : HoldsTable rs down w) : TurnKeeps rs down file (lookupTurn t file w) := by
  have hids : LookupSound rs down file (.ok (.list (tableIds rs))) := .inl rfl
  have hstored : HoldsTable rs down ⟨some (.list (tableIds rs)), .idle⟩ :=
    holdsTable_idle (.inl rfl)
  obtain ⟨channelIds, phase⟩ := w
  cases phase with
  | idle =>
    cases channelIds with
    | none => exact lookupTurn_begins h t hfile
    | some held =>
      apply turnKeeps_answers hfile hw
      rcases hw.memory held rfl with rfl | ⟨hfails, rfl⟩
      · exact hids
      · exact .inr (.inl ⟨hfails, rfl⟩)
  | missed =>
    unfold lookupTurn
    rcases htable with hfails | hrows
    · have hnone : TvEventsRds.fetchallChannelIds t.rds = [] := by rw [hfails]; rfl
      simp only [hnone, if_true]
      exact turnKeeps_answers hfile (holdsTable_idle (.inr ⟨hdown hfails, rfl⟩))
        (.inr (.inl ⟨hdown hfails, rfl⟩))
    · simp only [hrows, if_neg h.ids_ne_nil]
      refine turnKeeps_goesOn hfile ⟨hw.memory, ?_⟩
      intro ids hpending
      exact (Option.some.inj hpending).symm
  | fetched ids =>
    obtain rfl := hw.pending ids rfl
    have htruncated : PodFile rs (.text []) := .inr ⟨[], blotted_of_cut List.nil_prefix, rfl⟩
    have hopened : HoldsTable rs down ⟨channelIds, .opened (tableIds rs) 0⟩ :=
      ⟨hw.memory, hw.pending⟩
    unfold lookupTurn
    cases t.write with
    | openFails => exact turnKeeps_answers hfile hstored hids
    | failsAfter n => exact turnKeeps_goesOn htruncated hopened
    | completes => exact turnKeeps_goesOn htruncated hopened
  | opened ids stored =>
    obtain rfl := hw.pending ids rfl
    obtain ⟨file', hpart, hwritten⟩ := writeText_table h t stored hfile
    simp only [lookupTurn, hwritten]
    exact turnKeeps_answers hpart hstored hids

def WasDown (turns : List (ℕ × PodEvent)) : Prop :=
  ∃ turn ∈ turns, ∃ t, turn.2 = .proceeds t ∧ t.rds = .fails

/-- No part of the list is ever served: on an unchanging table, whatever the workers of a pod do at
once, in whatever parts they store the text, and whenever they are replaced, also within a write,
every lookup comes to the whole list, or to the empty list when a query has failed, or it raises on
a file that misses parts of the text. -/
theorem pod_untorn (h : IdTable rs) {file : CacheFile} (hfile : PodFile rs file) (n : ℕ)
    {turns : List (ℕ × PodEvent)}
    (hturns : ∀ turn ∈ turns, ∀ t, turn.2 = .proceeds t → OnTable rs t) :
    ∀ entry ∈ podLog (pod n file) turns, LookupSound rs (WasDown turns) entry.1 entry.2 := by
  let ok (event : PodEvent) : Prop :=
    ∀ t, event = .proceeds t → OnTable rs t ∧ (t.rds = .fails → WasDown turns)
  have hfresh : HoldsTable rs (WasDown turns) .fresh := holdsTable_none rfl
  have hkeeps : ∀ event file w, ok event → PodFile rs file → HoldsTable rs (WasDown turns) w →
      PodFile rs (podSegment event file w).1 ∧
        HoldsTable rs (WasDown turns) (podSegment event file w).2 := by
    intro event file w hok hfile hw
    cases event with
    | restarts => exact ⟨hfile, hfresh⟩
    | flushes n => exact flushTurn_table h n hfile hw
    | proceeds t =>
      obtain ⟨htable, hdown⟩ := hok t rfl
      have hturn := lookupTurn_table h htable hdown hfile hw
      exact ⟨hturn.left, hturn.worker⟩
  have hsound : ∀ event file w, ok event → PodFile rs file → HoldsTable rs (WasDown turns) w →
      ∀ entry ∈ podAnswers event file w, LookupSound rs (WasDown turns) entry.1 entry.2 := by
    intro event file w hok hfile hw entry hentry
    cases event with
    | restarts | flushes n => exact absurd hentry List.not_mem_nil
    | proceeds t =>
      obtain ⟨htable, hdown⟩ := hok t rfl
      obtain ⟨answer, hanswer, rfl⟩ := List.mem_map.mp hentry
      exact (lookupTurn_table h htable hdown hfile hw).sound answer (Option.mem_toList.mp hanswer)
  have hstart : PodFile rs (pod n file).shared ∧
      ∀ w ∈ (pod n file).tasks, HoldsTable rs (WasDown turns) w :=
    ⟨hfile, fun w hw => List.eq_of_mem_replicate hw ▸ hfresh⟩
  have hok : ∀ turn ∈ turns, ok turn.2 := by
    intro turn hturn t ht
    exact ⟨hturns turn hturn t ht, fun hfails => ⟨turn, hturn, t, ht, hfails⟩⟩
  exact emitted_kept hkeeps hsound hstart hok

end Untorn

section Poisoned

variable {rs : List RdsValue}

/-- A worker that finds no file looks the ids up and stores `k` characters of them. -/
def writingTurns (t : Tick) (k : ℕ) : List (ℕ × PodEvent) :=
  [(0, .proceeds t), (0, .proceeds t), (0, .proceeds t), (0, .flushes k)]

theorem step_first (event : PodEvent) (file : CacheFile) (w : PodWorker) (ws : List PodWorker) :
    step podSegment ⟨file, w :: ws⟩ (0, event) =
      ⟨(podSegment event file w).1, (podSegment event file w).2 :: ws⟩ := rfl

/-- The file then holds these characters, and the other workers are as they were started. -/
theorem run_writing (h : IdTable rs) {t : Tick} (hrds : t.rds = .rows rs)
    (hopens : t.write ≠ .openFails) (n k : ℕ) : ∃ w,
    run (step podSegment) (pod (n + 1) .absent) (writingTurns t k) =
      ⟨.text ((tableText rs).take k), w :: List.replicate n .fresh⟩ := by
  have hread : TvEventsRds.readData t ⟨none, .absent⟩ = .ok none := by simp [TvEventsRds.readData]
  have hmissed : podSegment (.proceeds t) .absent .fresh = (.absent, ⟨none, .missed⟩) := by
    simp only [podSegment, lookupTurn, PodWorker.fresh, hread]
  have hfetched : podSegment (.proceeds t) .absent ⟨none, .missed⟩ =
      (.absent, ⟨none, .fetched (tableIds rs)⟩) := by
    simp only [podSegment, lookupTurn, hrds, if_neg h.ids_ne_nil]
  have hopened : podSegment (.proceeds t) .absent ⟨none, .fetched (tableIds rs)⟩ =
      (.text [], ⟨none, .opened (tableIds rs) 0⟩) := by
    simp only [podSegment, lookupTurn]
  have hflushed : (podSegment (.flushes k) (.text []) ⟨none, .opened (tableIds rs) 0⟩).1 =
      .text ((tableText rs).take k) := by
    simp only [podSegment, flushTurn, h.dumpsIds_eq, List.drop_zero]
    exact overwrite_truncated _
  simp only [writingTurns, pod, List.replicate_succ, run_cons, run_nil, step_first, hmissed,
    hfetched, hopened, hflushed]
  exact ⟨_, rfl⟩

/-- The rebuilt cache misses where parts are missing, asks RDS, and stores the ids again. -/
theorem getChannelIds_heals (h : IdTable rs) {cs : List Char} (hcs : cs <+: tableText rs)
    (hpart : cs ≠ tableText rs) {t : Tick} (hrds : t.rds = .rows rs) :
    (getChannelIds t (.fresh (.text cs))).1 = .ok (.list (fetchFromRds (.rows rs))) ∧
      (t.write = .completes → fetchFromRds (.rows rs) ≠ [] →
        DecodesTo (getChannelIds t (.fresh (.text cs))).2 (fetchFromRds (.rows rs))) := by
  obtain ⟨l, -, hids, htext, hall⟩ := h.printed
  have hloads : loads cs = .error .decode := loads_cut hall (htext ▸ hcs) (htext ▸ hpart)
  have hmiss : readCache t (.fresh (.text cs)) = .ok none := by
    simp [readCache, fresh, hloads]
  have hjson : ∀ id ∈ fetchFromRds (.rows rs), ∃ v, id = .json v := by
    intro id hid
    have hmem : id ∈ tableIds rs := fetchFromRds_mem hid
    rw [hids] at hmem
    obtain ⟨v, -, hv⟩ := List.mem_map.mp hmem
    exact ⟨v, hv.symm⟩
  obtain ⟨l', hl'⟩ := jsonValues_total hjson
  have hdumps : dumpsIds (fetchFromRds (.rows rs)) = some (dumps (.arr l')) := by
    rw [dumpsIds, hl', Option.map_some]
  have hnone : (fresh (.text cs)).channelIds = none := rfl
  unfold getChannelIds
  simp only [hnone, hmiss, hrds]
  by_cases hfetched : fetchFromRds (.rows rs) = []
  · simp [hfetched]
  · refine ⟨?_, ?_⟩
    · cases hwrite : t.write <;> simp [hfetched, writeCache, hwrite, hdumps]
    · intro hcompletes _
      apply decodesTo_dumps hl' (fetchFromRds_isId hl')
      simp [hfetched, writeCache, hcompletes, hdumps]

/-- Wherever the write of a legacy worker is cut off, in any state of its pod in which no other worker is
within a lookup: on the disk of that pod every lookup raises from then on, but for those that a worker
answers from what it holds already, and every lookup raises after a new start, while the rebuilt cache
answers the ids of the table from the same file, and repairs it. -/
theorem pod_poisoned (h : IdTable rs) {c : Coroutines CacheFile PodWorker} {i : ℕ}
    (hidle : ∀ j w, c.tasks[j]? = some w → j ≠ i → w.phase = .idle) {cs : List Char}
    (hfile : c.shared = .text cs) (hcut : cs <+: tableText rs) (hpart : cs ≠ tableText rs) :
    let killed := step podSegment c (i, .restarts)
    (∀ turns, ReadsFile turns → ∀ entry ∈ podLog killed turns, entry.1 = .text cs ∧
        (entry.2 = .error (.builtin .valueError) ∨
          ∃ w ∈ killed.tasks, ∃ held, w.channelIds = some held ∧ entry.2 = .ok held)) ∧
      (∀ t m turns, ReadsFile turns → ∀ entry ∈ podLog (pod m (entrypoint t killed.shared)) turns,
        entry = (.text cs, .error (.builtin .valueError))) ∧
      ∀ t : Tick, t.rds = .rows rs →
        (getChannelIds t (.fresh killed.shared)).1 = .ok (.list (fetchFromRds (.rows rs))) ∧
          (t.write = .completes → fetchFromRds (.rows rs) ≠ [] →
            DecodesTo (getChannelIds t (.fresh killed.shared)).2 (fetchFromRds (.rows rs))) := by
  intro killed
  have hleft : killed.shared = .text cs := by
    rw [← hfile]
    cases hw : c.tasks[i]? with
    | none => rw [show killed = c from step_idle hw]
    | some w => rw [show killed = _ from step_active hw, podSegment]
  have hworkers : ∀ w ∈ killed.tasks, w.phase = .idle := by
    intro w hw
    obtain ⟨j, hj⟩ := List.mem_iff_getElem?.mp hw
    by_cases hji : j = i
    · subst hji
      cases hkilled : c.tasks[j]? with
      | none =>
        rw [show killed = c from step_idle hkilled, hkilled] at hj
        cases hj
      | some w' =>
        rw [show killed.tasks[j]? = _ from step_own hkilled] at hj
        rw [← Option.some.inj hj]
        rfl
    · rw [show killed.tasks[j]? = _ from step_other (Ne.symm hji)] at hj
      exact hidle j w hj hji
  have hraises : ∀ t : Tick, t.readFails = false → TvEventsRds.readData t ⟨none, .text cs⟩ =
      (Except.error (.builtin .valueError)).map some := by
    intro t hreads
    rw [h.readData_blotted (blotted_of_cut hcut) hpart hreads]
    rfl
  rw [hleft]
  refine ⟨?_, ?_, fun t hrds => getChannelIds_heals h hcut hpart hrds⟩
  · intro turns hturns
    let sound (answer : Except PyExc Held) : Prop := answer = .error (.builtin .valueError) ∨
      ∃ w ∈ killed.tasks, ∃ held, w.channelIds = some held ∧ answer = .ok held
    have hanswering : ∀ w ∈ killed.tasks, Answering sound w :=
      fun w hw => ⟨hworkers w hw, fun held hheld => .inr ⟨w, hw, held, hheld, rfl⟩⟩
    exact (answering_run sound hraises (.inl rfl) ⟨hleft, hanswering⟩ hturns).2
  · intro t m turns hturns entry hentry
    obtain ⟨hfound, hanswer⟩ := (answering_run (fun found => found = _) hraises rfl
      (pod_answering m (.text cs)) hturns).2 entry hentry
    exact Prod.ext hfound hanswer

theorem blacklistedChannelIds_blotted (h : IdTable rs) {cs : List Char}
    (hcs : Blotted (tableText rs) cs) (hpart : cs ≠ tableText rs) {t : Tick}
    (hreads : t.readFails = false) : (TvEventsRds.fresh (.text cs)).blacklistedChannelIds t =
      (.error (.builtin .valueError), .fresh (.text cs)) := by
  simp only [TvEventsRds.blacklistedChannelIds, TvEventsRds.fresh,
    h.readData_blotted hcs hpart hreads]

/-- A worker on such a file stays as it was started, whatever it serves. -/
theorem visits_blotted (env : Env) (h : IdTable rs) {cs : List Char}
    (hcs : Blotted (tableText rs) cs) (hpart : cs ≠ tableText rs) {visits : List Visit}
    (hreads : ∀ v ∈ visits, v.tick.readFails = false) :
    run (visitStep env) (.fresh (.text cs)) visits = .fresh (.text cs) := by
  have hstep : ∀ (s : TvEventsRds) (v : Visit), s = .fresh (.text cs) → v.tick.readFails = false →
      visitStep env s v = .fresh (.text cs) := by
    intro s v hs hread
    subst hs
    have hlookup := blacklistedChannelIds_blotted h hcs hpart hread
    rcases sendRequestFirehose_rds env v.tick v.request (.fresh (.text cs)) with hrds | hrds
    · exact hrds
    · exact hrds.trans (congrArg Prod.snd hlookup)
  exact invariant_run hstep rfl (along_of_forall hreads)

/-- So a poisoned pod is no service any more: an event with a channel whose content is not blocked is
answered by 400 and sent nowhere, for ever. -/
theorem poisoned_refuses {env : Env} (h : IdTable rs) {cs : List Char}
    (hcs : Blotted (tableText rs) cs) (hpart : cs ≠ tableText rs) {visits : List Visit}
    {visit : Visit} (hreads : ∀ v ∈ visits ++ [visit], v.tick.readFails = false) {payload : Json}
    (hbody : visit.request.body = some payload) {out : PyDict}
    (hout : generateOutputJson env payload = .ok out) (hshown : isContentBlocked out = false)
    (hchannel : (out.get? "channelid").getD .null ≠ .null) :
    let answered := sendRequestFirehose env visit.tick visit.request
      (run (visitStep env) (.fresh (.text cs)) visits)
    answered.reply.map Reply.statusCode = some 400 ∧ answered.records = [] := by
  intro answered
  have hvisits : ∀ v ∈ visits, v.tick.readFails = false :=
    fun v hv => hreads v (List.mem_append_left _ hv)
  have hlookup := blacklistedChannelIds_blotted h hcs hpart (hreads visit (by simp))
  have hpush : (TvEventsRds.fresh (.text cs)).pushChangesToFirehose env visit.tick payload =
      (.error (.builtin .valueError), .fresh (.text cs)) := by
    simp only [TvEventsRds.pushChangesToFirehose, hout, TvEventsRds.shouldObfuscateChannel, hshown,
      TvEventsRds.isBlacklistedChannel, if_neg hchannel, hlookup, Bool.false_eq_true, if_false]
  simp only [answered, visits_blotted env h hcs hpart hvisits, sendRequestFirehose, hbody]
  cases validateRequest env visit.request.urlParams payload with
  | error e => exact ⟨rfl, rfl⟩
  | ok b =>
    simp only [hpush]
    exact ⟨rfl, trivial⟩

end Poisoned

section Samples

omit [Runtime]

def sampleRows : List RdsValue := [.text "7", .int 8 (by decide)]

theorem sampleRows_ids : IdTable sampleRows := by
  refine ⟨?_, by decide⟩
  intro r hr
  have hrow : r = .text "7" ∨ r = .int 8 (by decide) := by simpa [sampleRows] using hr
  rcases hrow with rfl | rfl
  · exact .inl ⟨_, rfl⟩
  · exact .inr ⟨_, _, rfl⟩

def sampleTurn : PodEvent := .proceeds ⟨.rows sampleRows, false, .completes, 1⟩

/-- The first worker stores the ids in two parts; the second looks them up before, in between and
afterwards. -/
def sampleTurns : List (ℕ × PodEvent) :=
  [(0, sampleTurn), (0, sampleTurn), (0, sampleTurn), (1, sampleTurn), (0, .flushes 3),
    (1, sampleTurn), (0, sampleTurn), (1, sampleTurn)]

theorem sampleTurns_tick {turn : ℕ × PodEvent} (hturn : turn ∈ sampleTurns) {t : Tick}
    (ht : turn.2 = .proceeds t) : t = ⟨.rows sampleRows, false, .completes, 1⟩ := by
  simp only [sampleTurns, sampleTurn, List.mem_cons, List.not_mem_nil, or_false] at hturn
  rcases hturn with rfl | rfl | rfl | rfl | rfl | rfl | rfl | rfl <;> cases ht <;> rfl

theorem pod_untorn_parts :
    let _ : Runtime := asciiRuntime
    (podLog (pod 2 .absent) sampleTurns).map (fun entry => entry.2) =
        [.error (.builtin .valueError), .error (.builtin .valueError),
          .ok (.list (tableIds sampleRows)), .ok (.list (tableIds sampleRows))] ∧
      ∀ entry ∈ podLog (pod 2 .absent) sampleTurns,
        LookupSound sampleRows (WasDown sampleTurns) entry.1 entry.2 := by
  intro _
  refine ⟨by decide +kernel, ?_⟩
  refine pod_untorn sampleRows_ids (.inl rfl) 2 ?_
  intro turn hturn t ht
  rw [sampleTurns_tick hturn ht]
  exact .inr rfl

theorem pod_poisoned_within :
    let _ : Runtime := asciiRuntime
    let t : Tick := ⟨.rows sampleRows, false, .completes, 1⟩
    let writing := run (step podSegment) (pod 2 .absent) (writingTurns t 3)
    let killed := step podSegment writing (0, .restarts)
    ∀ entry ∈ podLog killed sampleTurns,
      entry = (.text ((tableText sampleRows).take 3), .error (.builtin .valueError)) := by
  intro _ t writing killed entry hentry
  have hopens : t.write ≠ .openFails := by decide
  obtain ⟨w, hwriting⟩ : ∃ w, writing = ⟨.text ((tableText sampleRows).take 3), [w, .fresh]⟩ :=
    run_writing sampleRows_ids rfl hopens 1 3
  have hidle : ∀ j w', writing.tasks[j]? = some w' → j ≠ 0 → w'.phase = .idle := by
    intro j w' hw' hj
    obtain ⟨j, rfl⟩ := Nat.exists_eq_succ_of_ne_zero hj
    rw [hwriting, List.getElem?_cons_succ] at hw'
    rw [List.mem_singleton.mp (List.mem_of_getElem? hw')]
    rfl
  have hkilled : killed = pod 2 (.text ((tableText sampleRows).take 3)) := by
    simp only [killed, hwriting]
    rfl
  have hreads : ReadsFile sampleTurns := by
    intro turn hturn t' ht'
    rw [sampleTurns_tick hturn ht']
  obtain ⟨hfile, hraised | ⟨w', hw', held, hheld, -⟩⟩ := (pod_poisoned sampleRows_ids hidle
    (congrArg Coroutines.shared hwriting) (List.take_prefix 3 _) (by decide +kernel)).1 sampleTurns
    hreads entry hentry
  · exact Prod.ext hfile hraised
  · have hnone : w'.channelIds = none := by
      rw [show step podSegment writing (0, .restarts) = _ from hkilled] at hw'
      rw [List.eq_of_mem_replicate hw']
      rfl
    cases hnone.symm.trans hheld

/-- The second request to a worker that found a truncated file. -/
theorem poisoned_refuses_second :
    let _ : Runtime := asciiRuntime
    let visit : Visit := ⟨samplePostRequest.request, sampleTick⟩
    let answered := sendRequestFirehose sampleLegacyEnv visit.tick visit.request
      (run (visitStep sampleLegacyEnv) (.fresh (.text [])) [visit])
    answered.reply.map Reply.statusCode = some 400 ∧ answered.records = [] := by
  intro _ visit answered
  have hpart : [] ≠ tableText sampleRows := by decide +kernel
  have hreads : ∀ v ∈ [visit] ++ [visit], v.tick.readFails = false := by
    intro v hv
    have hvisit : v = visit := by simpa using hv
    rw [hvisit]
    rfl
  cases hout : generateOutputJson sampleLegacyEnv
      (samplePayload "OTHER" [("channelId", .str "7")] []) with
  | error e =>
    have hgenerates : (generateOutputJson sampleLegacyEnv
        (samplePayload "OTHER" [("channelId", .str "7")] [])).toBool = true := by decide +kernel
    rw [hout] at hgenerates
    cases hgenerates
  | ok out =>
    have hshown : (generateOutputJson sampleLegacyEnv
        (samplePayload "OTHER" [("channelId", .str "7")] [])).map (fun out =>
          (isContentBlocked out, (out.get? "channelid").getD .null)) = .ok (false, .str "7") := by
      decide +kernel
    rw [hout] at hshown
    obtain ⟨hblocked, hchannel⟩ := Prod.mk.inj (Except.ok.inj hshown)
    have hset : (out.get? "channelid").getD .null ≠ .null := by
      rw [hchannel]
      exact fun h => by cases h
    exact poisoned_refuses sampleRows_ids (blotted_of_cut List.nil_prefix) hpart hreads rfl hout
      hblocked hset

end Samples

end TvEvents.Legacy
