import TvEvents.Legacy.Migration
import TvEvents.Library.Coroutines

namespace TvEvents.Legacy

open Coroutines JsonText Runs BlacklistCache

/-- How far a worker has come with looking up the ids: the file held none, RDS has answered, the
file is open for writing, and so was truncated, and so many characters are stored. -/
inductive LookupPhase
  | idle
  | missed
  | fetched (ids : List ChannelId)
  | opened (ids : List ChannelId) (stored : ℕ)

/-- A worker process of a pod; the cache file is shared. -/
structure PodWorker where
  channelIds : Option Held
  phase : LookupPhase

def PodWorker.fresh : PodWorker := ⟨none, .idle⟩

/-- A worker goes on with its lookup, or with the next one; it passes `n` characters on to the file
that it writes; or a new process takes its place, as after `--max-requests`. -/
inductive PodEvent
  | proceeds (t : Tick)
  | flushes (n : ℕ)
  | restarts

def fileText : CacheFile → List Char
  | .text cs => cs
  | _ => []

/-- Characters that are stored at an offset. The file may have changed since it was opened: what is
missing before the offset reads as NUL. -/
def overwrite (offset : ℕ) (piece : List Char) (file : CacheFile) : CacheFile :=
  if piece = [] then file
  else
    let old := fileText file
    let start := old.take offset ++ List.replicate (offset - old.length) '\x00'
    .text (start ++ piece ++ old.drop (offset + piece.length))

variable [Runtime]

/-- The end of `store_data_in_channel_ids_cache`: the text is built, and its rest is stored. -/
def writeText (t : Tick) (ids : List ChannelId) (stored : ℕ) (file : CacheFile) :
    Except PyExc Unit × CacheFile :=
  match dumpsIds ids with
  | none => (.error (.builtin .typeError), file)
  | some cs =>
    match t.write with
    | .failsAfter n => (.ok (), overwrite stored ((cs.drop stored).take n) file)
    | _ => (.ok (), overwrite stored (cs.drop stored) file)

/-- `blacklisted_channel_ids` up to the next operation that other processes can see: the file, the
worker, and the answer when there is one. -/
def lookupTurn (t : Tick) (file : CacheFile) (w : PodWorker) :
    CacheFile × PodWorker × Option (Except PyExc Held) :=
  match w.phase with
  | .idle =>
    match w.channelIds with
    | some held => (file, w, some (.ok held))
    | none =>
      match TvEventsRds.readData t ⟨none, file⟩ with
      | .error e => (file, w, some (.error e))
      | .ok (some held) => (file, ⟨some held, .idle⟩, some (.ok held))
      | .ok none => (file, { w with phase := .missed }, none)
  | .missed =>
    let ids := TvEventsRds.fetchallChannelIds t.rds
    if ids = [] then (file, ⟨some (.list []), .idle⟩, some (.ok (.list [])))
    else (file, { w with phase := .fetched ids }, none)
  | .fetched ids =>
    match t.write with
    | .openFails => (file, ⟨some (.list ids), .idle⟩, some (.ok (.list ids)))
    | _ => (.text [], { w with phase := .opened ids 0 }, none)
  | .opened ids stored =>
    match writeText t ids stored file with
    | (.ok _, file) => (file, ⟨some (.list ids), .idle⟩, some (.ok (.list ids)))
    | (.error e, file) => (file, { w with phase := .idle }, some (.error e))

/-- A part of the text is stored before the file is closed. -/
def flushTurn (n : ℕ) (file : CacheFile) (w : PodWorker) : CacheFile × PodWorker :=
  match w.phase with
  | .opened ids stored =>
    match dumpsIds ids with
    | none => (file, w)
    | some cs =>
      let piece := (cs.drop stored).take n
      (overwrite stored piece file, { w with phase := .opened ids (stored + piece.length) })
  | _ => (file, w)

def podSegment (event : PodEvent) (file : CacheFile) (w : PodWorker) : CacheFile × PodWorker :=
  match event with
  | .proceeds t => ((lookupTurn t file w).1, (lookupTurn t file w).2.1)
  | .flushes n => flushTurn n file w
  | .restarts => (file, .fresh)

def podAnswers (event : PodEvent) (file : CacheFile) (w : PodWorker) :
    List (CacheFile × Except PyExc Held) :=
  match event with
  | .proceeds t => (lookupTurn t file w).2.2.toList.map fun answer => (file, answer)
  | .flushes _ | .restarts => []

def pod (n : ℕ) (file : CacheFile) : Coroutines CacheFile PodWorker :=
  ⟨file, List.replicate n .fresh⟩

def podLog (c : Coroutines CacheFile PodWorker) (turns : List (ℕ × PodEvent)) :
    List (CacheFile × Except PyExc Held) :=
  trace (step podSegment) (emitted podAnswers) c turns

def ReadsFile (turns : List (ℕ × PodEvent)) : Prop :=
  ∀ turn ∈ turns, ∀ t, turn.2 = .proceeds t → t.readFails = false

section Alone

def lookupAlone (t : Tick) : ℕ → CacheFile → PodWorker →
    CacheFile × PodWorker × Option (Except PyExc Held)
  | 0, file, w => (file, w, none)
  | n + 1, file, w =>
    match lookupTurn t file w with
    | (file, w, none) => lookupAlone t n file w
    | answered => answered

omit [Runtime] in
theorem overwrite_truncated (cs : List Char) : overwrite 0 cs (.text []) = .text cs := by
  unfold overwrite
  split_ifs with hnil
  · rw [hnil]
  · simp [fileText]

/-- Alone, a worker does in four turns what the cache does in one. -/
theorem lookupAlone_four (t : Tick) (s : TvEventsRds) :
    lookupAlone t 4 s.file ⟨s.channelIds, .idle⟩ = ((s.blacklistedChannelIds t).2.file,
      ⟨(s.blacklistedChannelIds t).2.channelIds, .idle⟩, some (s.blacklistedChannelIds t).1) := by
  obtain ⟨held, file⟩ := s
  unfold TvEventsRds.blacklistedChannelIds
  cases held with
  | some held => rfl
  | none =>
    cases hread : TvEventsRds.readData t ⟨none, file⟩ with
    | error e => simp [lookupAlone, lookupTurn, hread]
    | ok found =>
      cases found with
      | some held => simp [lookupAlone, lookupTurn, hread]
      | none =>
        by_cases hids : TvEventsRds.fetchallChannelIds t.rds = []
        · simp [lookupAlone, lookupTurn, hread, hids]
        · cases hwrite : t.write with
          | openFails =>
            simp [lookupAlone, lookupTurn, hread, hids, hwrite, TvEventsRds.storeData]
          | failsAfter n =>
            cases hdumps : dumpsIds (TvEventsRds.fetchallChannelIds t.rds) <;>
              simp [lookupAlone, lookupTurn, hread, hids, hwrite, TvEventsRds.storeData, writeText,
                hdumps, overwrite_truncated]
          | completes =>
            cases hdumps : dumpsIds (TvEventsRds.fetchallChannelIds t.rds) <;>
              simp [lookupAlone, lookupTurn, hread, hids, hwrite, TvEventsRds.storeData, writeText,
                hdumps, overwrite_truncated]

end Alone

section Answering

variable {file : CacheFile} {answer : Except PyExc Held} {sound : Except PyExc Held → Prop}

/-- A worker that is not within a lookup, and holds nothing, or what is a sound answer. -/
structure Answering (sound : Except PyExc Held → Prop) (w : PodWorker) : Prop where
  idle : w.phase = .idle
  memory : ∀ held, w.channelIds = some held → sound (.ok held)

omit [Runtime] in
theorem answering_fresh : Answering sound .fresh := ⟨rfl, fun _ h => by cases h⟩

theorem flushTurn_idle {w : PodWorker} (h : w.phase = .idle) (n : ℕ) (file : CacheFile) :
    flushTurn n file w = (file, w) := by
  unfold flushTurn
  rw [h]

/-- A file that is no miss is read, and left alone. -/
theorem lookupTurn_answering {t : Tick}
    (hread : TvEventsRds.readData t ⟨none, file⟩ = answer.map some) (hanswer : sound answer)
    {w : PodWorker} (hw : Answering sound w) :
    (lookupTurn t file w).1 = file ∧ Answering sound (lookupTurn t file w).2.1 ∧
      ∃ found, (lookupTurn t file w).2.2 = some found ∧ sound found := by
  obtain ⟨channelIds, phase⟩ := w
  obtain rfl := hw.idle
  unfold lookupTurn
  cases channelIds with
  | some held => exact ⟨rfl, hw, .ok held, rfl, hw.memory held rfl⟩
  | none =>
    cases answer with
    | error e =>
      simp only [hread, Except.map]
      exact ⟨trivial, hw, .error e, rfl, hanswer⟩
    | ok held =>
      simp only [hread, Except.map]
      refine ⟨trivial, ⟨rfl, ?_⟩, .ok held, rfl, hanswer⟩
      intro held' hheld'
      rwa [← Option.some.inj hheld']

/-- While every process that reads the file comes to one answer, all lookups come to it or to what a
worker holds, and the file stays. -/
theorem answering_run (sound : Except PyExc Held → Prop) (hread : ∀ t : Tick, t.readFails = false →
      TvEventsRds.readData t ⟨none, file⟩ = answer.map some) (hanswer : sound answer)
    {c : Coroutines CacheFile PodWorker} (hc : c.shared = file ∧ ∀ w ∈ c.tasks, Answering sound w)
    {turns : List (ℕ × PodEvent)} (hturns : ReadsFile turns) :
    (run (step podSegment) c turns).shared = file ∧
      ∀ entry ∈ podLog c turns, entry.1 = file ∧ sound entry.2 := by
  let ok (event : PodEvent) : Prop := ∀ t, event = .proceeds t → t.readFails = false
  have hkeeps : ∀ event s w, ok event → s = file → Answering sound w →
      (podSegment event s w).1 = file ∧ Answering sound (podSegment event s w).2 := by
    intro event s w hok hs hw
    subst hs
    cases event with
    | restarts => exact ⟨rfl, answering_fresh⟩
    | flushes n =>
      rw [podSegment, flushTurn_idle hw.idle]
      exact ⟨rfl, hw⟩
    | proceeds t =>
      obtain ⟨hfile, hworker, -⟩ := lookupTurn_answering (hread t (hok t rfl)) hanswer hw
      exact ⟨hfile, hworker⟩
  have hemits : ∀ event s w, ok event → s = file → Answering sound w →
      ∀ entry ∈ podAnswers event s w, entry.1 = file ∧ sound entry.2 := by
    intro event s w hok hs hw entry hentry
    subst hs
    cases event with
    | restarts | flushes n => exact absurd hentry List.not_mem_nil
    | proceeds t =>
      obtain ⟨-, -, found, hfound, hsound⟩ := lookupTurn_answering (hread t (hok t rfl)) hanswer hw
      rw [podAnswers, hfound] at hentry
      rw [List.mem_singleton.mp hentry]
      exact ⟨rfl, hsound⟩
  exact ⟨(kept_run hkeeps hc hturns).1, emitted_kept hkeeps hemits hc hturns⟩

omit [Runtime] in
theorem pod_answering (n : ℕ) (file : CacheFile) :
    (pod n file).shared = file ∧ ∀ w ∈ (pod n file).tasks, Answering sound w :=
  ⟨rfl, fun _ hw => List.eq_of_mem_replicate hw ▸ answering_fresh⟩

/-- A pod whose entrypoint has stored the rows of the table: whatever its workers do at once, and
whenever they are replaced, every lookup answers these rows, and the file stays. -/
theorem pod_agrees {rs : List RdsValue} (hrows : TextRows (.rows rs)) (hne : rs ≠ []) {t : Tick}
    (hrds : t.rds = .rows rs) (hwrite : t.write = .completes) (n : ℕ) {turns : List (ℕ × PodEvent)}
    (hturns : ReadsFile turns) :
    let file := entrypoint t .absent
    (run (step podSegment) (pod n file) turns).shared = file ∧ ∀ entry ∈ podLog (pod n file) turns,
      entry = (file, .ok (.list (TvEventsRds.fetchallChannelIds (.rows rs)))) := by
  intro file
  have hread : ∀ t' : Tick, t'.readFails = false → TvEventsRds.readData t' ⟨none, file⟩ =
      (Except.ok (.list (TvEventsRds.fetchallChannelIds (.rows rs)))).map some :=
    (deployed_holds hrows hne hrds hwrite).file
  obtain ⟨hfile, hsound⟩ := answering_run (fun found => found = _) hread rfl
    (pod_answering n file) hturns
  exact ⟨hfile, fun entry hentry => Prod.ext (hsound entry hentry).1 (hsound entry hentry).2⟩

omit [Runtime] in
theorem pod_agrees_replaced :
    let _ : Runtime := asciiRuntime
    let turns := [(0, .proceeds sampleTable), (1, .proceeds sampleTable), (0, .restarts),
      (0, .proceeds sampleTable)]
    (podLog (pod 2 (entrypoint sampleTable .absent)) turns).length = 3 ∧
      ∀ entry ∈ podLog (pod 2 (entrypoint sampleTable .absent)) turns,
        entry.2 = .ok (.list (TvEventsRds.fetchallChannelIds (.rows [.null, .text "7"]))) := by
  intro _ turns
  have hreads : ReadsFile turns := by
    intro turn hturn t ht
    simp only [turns, List.mem_cons, List.not_mem_nil, or_false] at hturn
    rcases hturn with rfl | rfl | rfl | rfl <;> cases ht <;> rfl
  have hrds : sampleTable.rds = .rows [.null, .text "7"] := rfl
  have hwrite : sampleTable.write = .completes := rfl
  have hagrees := (pod_agrees sampleTable_channels.textRows (by decide) hrds hwrite 2 hreads).2
  refine ⟨by decide +kernel, ?_⟩
  intro entry hentry
  rw [hagrees entry hentry]

end Answering

end TvEvents.Legacy
