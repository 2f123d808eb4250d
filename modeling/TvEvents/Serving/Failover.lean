import TvEvents.Serving.Components

namespace TvEvents

open Coroutines Runs BlacklistCache

variable [Runtime] [Framework]

section Succession

/-- While no refresh is asked for, `POST /` reads nothing of the process but the ids in memory. -/
def blacklistIngestion (p : Process) : Concern p (Option Held) Attempt where
  view s := s.service.cache.channelIds
  owns incoming := incoming.route.posts
  fits incoming := incoming.route ≠ .opsCacheRefresh ∧ incoming.route ≠ .opsCacheFlush
  emits := handlerAttempts p
  agrees := SameWorkload
  inv held := held.isSome = true
  alike := SameWorkload.refl
  clock h := h.monotonic
  metrics _ _ _ _ := rfl
  silent m s incoming hfits howns := by
    obtain ⟨hservice, hnone⟩ := (warmIngestion p).silent m s hfits howns
    exact ⟨congrArg (fun service => service.cache.channelIds) hservice, hnone⟩
  respects {m m' s s' incoming} _ howns hagrees hwarm hsame := by
    have hroute := (posts_iff _).mp howns
    obtain ⟨held, hheld⟩ := Option.isSome_iff_exists.mp hwarm
    obtain ⟨response, attempts, grown, hsend⟩ :=
      sendRequest_warm p.env held m.tick.now m.kafka incoming.request
    have hleft := hsend m.tick s.service rfl hheld
    have hright := hsend m'.tick s'.service hagrees.now.symm (hsame.symm.trans hheld)
    unfold handle handlerAttempts
    rw [hroute]
    simp only [answerSendRequest, ← hagrees.kafka, hleft, hright]
    exact ⟨hsame, trivial, trivial⟩
  stays m s incoming hfits howns hwarm := (warmIngestion p).stays m s hfits howns hwarm

omit [Framework] in
theorem lifespan_coherent {t : Tick} {file : CacheFile} {s : AppState} (hclean : CleanTick t)
    (hfile : TextFile (fresh file)) (h : lifespan t file = .ok s) : Coherent s.service.cache := by
  have hfresh : Coherent (fresh file) := by
    refine ⟨hfile, ?_⟩
    intro held hheld
    cases hheld
  have htick : CleanTick (CacheOp.initializeCache t).tick := hclean
  have hstart : Coherent (initializeCache t (fresh file)).2 := cacheStep_coherent htick hfresh
  unfold lifespan at h
  rcases hinit : initializeCache t (fresh file) with ⟨started, cache⟩
  rw [hinit] at h hstart
  cases started with
  | error e => cases h
  | ok u =>
    rw [← Except.ok.inj h]
    exact hstart

omit [Framework] in
/-- A process that starts without the database on a file of ids holds these ids. -/
theorem lifespan_outage {outage : Tick} (houtage : OutageTick outage) {file : CacheFile}
    {ids : List ChannelId} (hfile : DecodesTo (fresh file) ids) :
    ∃ s, lifespan outage file = .ok s ∧ s.service.cache.channelIds = some (.list ids) := by
  have hnone : fetchFromRds outage.rds = [] := by
    rw [houtage.1]
    rfl
  have hread : readCache outage (fresh file) = .ok (some (.list ids)) :=
    (readCache_readable houtage.2 _).trans hfile
  have hstart : initializeCache outage (fresh file) = (.ok (),
      { fresh file with channelIds := some (.list ids), lastRefresh := outage.now }) := by
    unfold initializeCache
    rw [if_pos hnone]
    unfold initializeFallback
    rw [hread]
    rfl
  unfold lifespan
  rw [hstart]
  exact ⟨_, rfl, rfl⟩

end Succession

section Results

/-- Failover: a process that was started and has worked in any interleaving, on a database that answers
texts and NULL and a cache file that can be read and written throughout, may die at any `await` (within
a write of the file would leave a torn one). If it held ids, one that is started on its file while the
database is down goes on as it would have: for all further requests it gives the same answers to
`POST /` and sends the same, in every interleaving, as long as no refresh is asked for. -/
theorem failover (p : Process) {t : Tick} {file : CacheFile} {s : AppState} (hclean : CleanTick t)
    (hfile : TextFile (fresh file)) (hstart : lifespan t file = .ok s) {requests : List Incoming}
    {turns : List (ℕ × Moment)} (hturns : ∀ turn ∈ turns, CleanTick turn.2.tick)
    {ids : List ChannelId} (hne : ids ≠ [])
    (hids : (run (Serving.turn p) (arrivals s requests) turns).shared.service.cache.channelIds =
      some (.list ids)) {outage : Tick} (houtage : OutageTick outage) :
    let dying := (run (Serving.turn p) (arrivals s requests) turns).shared
    ∃ successor, lifespan outage dying.service.cache.file = .ok successor ∧
      ∀ later : List Incoming,
        (∀ incoming ∈ later, incoming.route ≠ .opsCacheRefresh ∧ incoming.route ≠ .opsCacheFlush) →
        ∀ own others : List (ℕ × Moment), List.Forall₂ (Alike SameWorkload)
            (own.filter (moves (fun t => t.incoming.route.posts) (arrivals successor later)))
            (others.filter (moves (fun t => t.incoming.route.posts) (arrivals dying later))) →
          SameView (fun s => s.service.cache.channelIds) (fun t => t.incoming.route.posts)
              (run (Serving.turn p) (arrivals successor later) own)
              (run (Serving.turn p) (arrivals dying later) others) ∧
            kafkaLog p (arrivals successor later) own = kafkaLog p (arrivals dying later) others := by
  intro dying
  -- the cache of the dying process has taken the clean operations of the requests that it served
  have hcoherent : Coherent dying.service.cache := by
    have hcache : dying.service.cache = run cacheStep s.service.cache
        (servedOps p requests (servedTurns p s requests turns)) := serving_cache p s requests turns
    rw [hcache]
    have hops : ∀ op ∈ servedOps p requests (servedTurns p s requests turns), CleanTick op.tick := by
      intro op hop
      obtain ⟨turn, hturn, htick⟩ := servedOps_tick hop
      rw [htick]
      exact hturns turn ((order_sublist _ _ _ _).subset hturn)
    exact invariant_run (fun _ _ hs hclean => cacheStep_coherent hclean hs)
      (lifespan_coherent hclean hfile hstart) (along_of_forall hops)
  obtain ⟨ids', hlist, hdecodes⟩ := hcoherent.memory _ hids
  obtain rfl : ids = ids' := Held.list.inj hlist
  have hdecoded : DecodesTo (fresh dying.service.cache.file) ids :=
    (decoded_file rfl).trans (hdecodes hne)
  obtain ⟨successor, hsuccessor, hheld⟩ := lifespan_outage houtage hdecoded
  refine ⟨successor, hsuccessor, ?_⟩
  intro later hlater own others halike
  have hsame : SameView (fun s => s.service.cache.channelIds) (fun t => t.incoming.route.posts)
      (arrivals successor later) (arrivals dying later) := ⟨hheld.trans hids.symm, rfl⟩
  have hfits : ∀ s : AppState, ∀ t ∈ (arrivals s later).tasks,
      t.incoming.route ≠ .opsCacheRefresh ∧ t.incoming.route ≠ .opsCacheFlush := by
    intro s t ht
    obtain ⟨incoming, hincoming, rfl⟩ := List.mem_map.mp ht
    exact hlater incoming hincoming
  have hwarm : (arrivals successor later).shared.service.cache.channelIds.isSome = true := by
    show successor.service.cache.channelIds.isSome = true
    rw [hheld]
    rfl
  exact (blacklistIngestion p).unwinds.run (hfits successor) (hfits dying) hsame hwarm halike

end Results

section Samples

omit [Runtime] [Framework]

def soundMoment : Moment := { sampleMoment 1 with tick := { sampleWritten with now := 0 } }

theorem failover_midway :
    let _ : Runtime := asciiRuntime
    let _ : Framework := strictFramework
    ∃ s, lifespan sampleWritten .absent = .ok s ∧
      let dying := (run (Serving.turn servingProcess) (arrivals s [samplePostRequest])
        (List.replicate 5 (0, soundMoment))).shared
      ∃ successor, lifespan sampleOutage dying.service.cache.file = .ok successor ∧
        kafkaLog servingProcess (arrivals successor [samplePostRequest])
            (List.replicate 6 (0, sampleMoment 1)) =
          kafkaLog servingProcess (arrivals dying [samplePostRequest])
            (List.replicate 6 (0, soundMoment)) := by
  intro _ _
  have hfile : TextFile (fresh .absent) := by
    intro held hheld
    cases hheld
  have hclean : ∀ now, CleanTick { sampleWritten with now := now } := by
    intro now
    refine ⟨?_, rfl, rfl⟩
    intro rs hrs r hr
    obtain rfl := RdsAnswer.rows.inj hrs
    simp only [List.mem_cons, List.not_mem_nil, or_false] at hr
    rcases hr with rfl | rfl | rfl
    · exact .inr ⟨_, rfl⟩
    · exact .inl rfl
    · exact .inr ⟨_, rfl⟩
  obtain ⟨s, hstart⟩ : ∃ s, lifespan sampleWritten .absent = .ok s := ⟨_, rfl⟩
  refine ⟨s, hstart, ?_⟩
  have hturns : ∀ turn ∈ List.replicate 5 (0, soundMoment), CleanTick turn.2.tick := by
    intro turn hturn
    rw [List.eq_of_mem_replicate hturn]
    exact hclean 0
  have hids : (run (Serving.turn servingProcess) (arrivals s [samplePostRequest])
      (List.replicate 5 (0, soundMoment))).shared.service.cache.channelIds =
        some (.list [.json (.str "ch1"), .json (.str "ch2")]) := by
    obtain rfl := Except.ok.inj hstart
    decide +kernel
  have houtage : OutageTick sampleOutage := ⟨rfl, rfl⟩
  obtain ⟨successor, hsuccessor, hlater⟩ :=
    failover servingProcess (hclean 1) hfile hstart hturns (by decide) hids houtage
  refine ⟨successor, hsuccessor, ?_⟩
  have hposts : ∀ (s : AppState) (m : Moment), (List.replicate 6 (0, m)).filter
      (moves (fun t => t.incoming.route.posts) (arrivals s [samplePostRequest])) =
        List.replicate 6 (0, m) := fun _ _ => rfl
  have halike : List.Forall₂ (Alike SameWorkload) (List.replicate 6 (0, sampleMoment 1))
      (List.replicate 6 (0, soundMoment)) := by
    have hturn : Alike SameWorkload (0, sampleMoment 1) (0, soundMoment) := ⟨rfl, rfl, rfl, rfl⟩
    exact .cons hturn (.cons hturn (.cons hturn (.cons hturn (.cons hturn (.cons hturn .nil)))))
  have hfits : ∀ incoming ∈ [samplePostRequest],
      incoming.route ≠ .opsCacheRefresh ∧ incoming.route ≠ .opsCacheFlush := by
    intro incoming hincoming
    rw [List.mem_singleton.mp hincoming]
    exact ⟨by simp [samplePostRequest], by simp [samplePostRequest]⟩
  exact (hlater _ hfits _ _ (by rw [hposts, hposts]; exact halike)).2

end Samples

end TvEvents
