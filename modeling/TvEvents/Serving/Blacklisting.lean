import TvEvents.Delivery.Decoding
import TvEvents.Serving.Components

namespace TvEvents

open Coroutines Runs BlacklistCache

variable [Runtime]

section Commands

/-- The ids that a refresh finds and can store, if it does. -/
def foundIds (t : Tick) : Option Held :=
  let ids := fetchFromRds t.rds
  if ids ≠ [] ∧ (t.write = .openFails ∨ (dumpsIds ids).isSome = true) then some (.list ids) else none

/-- The ids that a request puts into the blacklist. -/
def refreshCommand (m : Moment) (incoming : Incoming) : Option Held :=
  match incoming.route, logRequest incoming with
  | .opsCacheRefresh, .ok _ | .opsCacheFlush, .ok _ => foundIds m.tick
  | _, _ => none

def refreshCommands (requests : List Incoming) (served : List (ℕ × Moment)) : List Held :=
  served.filterMap fun turn => (requests[turn.1]?).bind (refreshCommand turn.2)

end Commands

section Ids

theorem refresh_ids (t : Tick) (s : BlacklistCache) :
    (BlacklistCache.refresh t s).2.channelIds = (foundIds t).or s.channelIds := by
  unfold foundIds
  rcases refresh_cases t s with ⟨hids, hkept⟩ | ⟨hids, hok, hnew⟩ | ⟨hids, e, hraise, hraised⟩
  · rw [hkept, if_neg (fun h => h.1 hids)]
    rfl
  · rw [hnew, if_pos ⟨hids, (writeCache_ok_iff t _ s).mp hok⟩]
    rfl
  · have hunstored : ¬(t.write = .openFails ∨ (dumpsIds (fetchFromRds t.rds)).isSome = true) := by
      rw [← writeCache_ok_iff t _ s, hraise]
      exact fun h => by cases h
    rw [hraised, if_neg (fun h => hunstored h.2)]
    exact (writeCache_memory _ _ _).1

def heldIds (s : AppState) : Held := s.service.cache.channelIds.getD (.list [])

omit [Runtime] in
theorem heldIds_eq {s : AppState} {held : Held} (h : s.service.cache.channelIds = some held) :
    heldIds s = held := by
  rw [heldIds, h, Option.getD_some]

theorem lookups_keep (env : Env) (t : Tick) (request : Request) {s : BlacklistCache} {held : Held}
    (h : s.channelIds = some held) : run cacheStep s (lookups env t request) = s := by
  have hstep : ∀ c, cacheStep s (.isBlacklisted t c) = s := by
    intro c
    rw [cacheStep, isBlacklisted_memory h]
  unfold lookups lookupOf
  repeat' split
  all_goals first
    | rfl
    | exact hstep _

variable [Framework]

/-- A request served over a loaded blacklist writes what it refreshes, and nothing else. -/
theorem serveAlone_ids (p : Process) (m : Moment) (incoming : Incoming) {s : AppState}
    (h : Warm s.service) : Warm (serveAlone p incoming m s).1.service ∧
      heldIds (serveAlone p incoming m s).1 = (refreshCommand m incoming).getD (heldIds s) := by
  obtain ⟨held, hheld⟩ := Option.isSome_iff_exists.mp h
  have hids : (serveAlone p incoming m s).1.service.cache.channelIds =
      (refreshCommand m incoming).or (some held) := by
    rw [serveAlone_cache, ← hheld]
    unfold cacheOps refreshCommand
    cases logRequest incoming with
    | error e => cases incoming.route <;> rfl
    | ok u =>
      cases incoming.route with
      | sendRequest => exact congrArg _ (lookups_keep p.env m.tick incoming.request hheld)
      | opsCacheRefresh => exact refresh_ids m.tick s.service.cache
      | opsCacheFlush => exact refresh_ids m.tick s.service.cache
      | _ => rfl
  rw [heldIds_eq hheld]
  cases hcommand : refreshCommand m incoming with
  | none =>
    rw [hcommand] at hids
    exact ⟨Option.isSome_iff_exists.mpr ⟨_, hids⟩, heldIds_eq hids⟩
  | some found =>
    rw [hcommand] at hids
    exact ⟨Option.isSome_iff_exists.mpr ⟨_, hids⟩, heldIds_eq hids⟩

/-- The blacklist is a register that refreshes write. -/
theorem heldIds_run (p : Process) (requests : List Incoming) {s : AppState} {held : Held}
    (h : s.service.cache.channelIds = some held) (served : List (ℕ × Moment)) :
    (run (serialStep (serveAlone p) requests) s served).service.cache.channelIds =
      some ((refreshCommands requests served).getLastD held) := by
  have hstep : ∀ (s : AppState) (turn : ℕ × Moment), Warm s.service →
      Warm (serialStep (serveAlone p) requests s turn).service ∧
        heldIds (serialStep (serveAlone p) requests s turn) =
          ((requests[turn.1]?).bind (refreshCommand turn.2)).getD (heldIds s) := by
    intro s turn hwarm
    unfold serialStep
    cases requests[turn.1]? with
    | none => exact ⟨hwarm, rfl⟩
    | some incoming => exact serveAlone_ids p turn.2 incoming hwarm
  have hwarm : Warm s.service := Option.isSome_iff_exists.mpr ⟨held, h⟩
  obtain ⟨hstays, hread⟩ := register_run hstep hwarm served
  obtain ⟨final, hfinal⟩ := Option.isSome_iff_exists.mp hstays
  rw [heldIds_eq hfinal, heldIds_eq h] at hread
  rw [hfinal, hread]
  rfl

omit [Framework] in
/-- They are those of the start, or those that the database answered in a turn. -/
theorem latest_ids {P : Held → Prop} {held : Held} (hheld : P held) {requests : List Incoming}
    {served : List (ℕ × Moment)} (h : ∀ turn ∈ served, fetchFromRds turn.2.tick.rds ≠ [] →
      P (.list (fetchFromRds turn.2.tick.rds))) :
    P ((refreshCommands requests served).getLastD held) := by
  have hwritten : ∀ found ∈ refreshCommands requests served, P found := by
    intro found hmem
    obtain ⟨turn, hturn, hwrite⟩ := List.mem_filterMap.mp hmem
    obtain ⟨incoming, -, hcommand⟩ := Option.bind_eq_some_iff.mp hwrite
    have hfound : foundIds turn.2.tick = some found := by
      unfold refreshCommand at hcommand
      split at hcommand
      · exact hcommand
      · exact hcommand
      · cases hcommand
    simp only [foundIds] at hfound
    split_ifs at hfound with hstored
    rw [← Option.some.inj hfound]
    exact h turn hturn hstored.1
  rw [List.getLastD_eq_getLast?]
  cases hlast : (refreshCommands requests served).getLast? with
  | none => exact hheld
  | some found => exact hwritten found (List.mem_of_getLast? hlast)

end Ids

section Calls

variable [Framework]

/-- Every call of Kafka is made while its event is served as a whole. -/
theorem kafkaLog_entry {p : Process} {s : AppState} {requests : List Incoming}
    {turns : List (ℕ × Moment)} {a : Attempt} (h : a ∈ kafkaLog p (arrivals s requests) turns) :
    ∃ before i m after incoming, servedTurns p s requests turns = before ++ (i, m) :: after ∧
      requests[i]? = some incoming ∧ incoming.route = .sendRequest ∧
      a ∈ (sendRequest p.env m.tick m.kafka incoming.request
        (run (serialStep (serveAlone p) requests) s.uncounted before).service).attempts := by
  rw [servedLog_kafka] at h
  obtain ⟨⟨i, statusCode, attempts⟩, hmem, ha⟩ := List.mem_flatMap.mp h
  obtain ⟨before, m, after, incoming, hsplit, hkey, hentry⟩ := serialLog_mem hmem
  obtain ⟨-, hattempts⟩ := Prod.mk.inj hentry
  have hcalled : a ∈ (serveAlone p incoming m
      (run (serialStep (serveAlone p) requests) s.uncounted before)).2.2 := by
    rw [← hattempts]
    exact ha
  refine ⟨before, i, m, after, incoming, hsplit, hkey, ?_⟩
  unfold serveAlone handlerAttempts at hcalled
  cases hlog : logRequest incoming with
  | error e =>
    rw [hlog] at hcalled
    cases hcalled
  | ok u =>
    rw [hlog] at hcalled
    cases hroute : incoming.route with
    | sendRequest =>
      simp only [hroute] at hcalled
      exact ⟨rfl, hcalled⟩
    | _ =>
      simp only [hroute] at hcalled
      cases hcalled

/-- So its message is planned as the ids that were written last decide. -/
theorem kafkaLog_decided {p : Process} {s : AppState} {held : Held}
    (hheld : s.service.cache.channelIds = some held) {requests : List Incoming}
    {turns : List (ℕ × Moment)} {a : Attempt} (h : a ∈ kafkaLog p (arrivals s requests) turns) :
    ∃ before i m after incoming payload out obfuscate,
      servedTurns p s requests turns = before ++ (i, m) :: after ∧
      requests[i]? = some incoming ∧ incoming.request.body = some payload ∧
      generateOutputJson p.env payload = .ok out ∧
      decideBy ((refreshCommands requests before).getLastD held) out = .ok obfuscate ∧
      a.message ∈ planned p.env out obfuscate := by
  obtain ⟨before, i, m, after, incoming, hsplit, hkey, -, ha⟩ := kafkaLog_entry h
  obtain ⟨payload, out, obfuscate, hbody, hgen, hdecision, hplanned⟩ := attempted_planned ha
  have hids := @heldIds_run _ _ p requests s.uncounted held hheld before
  rw [shouldObfuscateChannel_warm hids] at hdecision
  exact ⟨before, i, m, after, incoming, payload, out, obfuscate, hsplit, hkey, hbody, hgen,
    hdecision, hplanned⟩

end Calls

section Listed

def OnChannel (c : String) (out : PyDict) : Prop :=
  ∃ v, out.get? "channelid" = some v ∧ v ≠ .null ∧ str v = c

def Lists (c : String) (held : Held) : Prop :=
  ∃ ids, held = .list ids ∧ .json (.str c) ∈ ids

def RowListed (c : String) (t : Tick) : Prop := ∀ rs, t.rds = .rows rs → .text c ∈ rs

omit [Runtime] in
theorem fetchFromRds_lists {c : String} (hc : c ≠ "") {t : Tick} (h : RowListed c t)
    (hids : fetchFromRds t.rds ≠ []) : Lists c (.list (fetchFromRds t.rds)) := by
  refine ⟨_, rfl, ?_⟩
  cases hrds : t.rds with
  | fails =>
    rw [hrds] at hids
    exact absurd rfl hids
  | rows rs =>
    have htruthy : (RdsValue.text c).truthy = true := by simpa [RdsValue.truthy] using hc
    exact List.mem_map.mpr ⟨.text c, List.mem_filter.mpr ⟨h rs hrds, htruthy⟩, rfl⟩

theorem decideBy_listed {c : String} {held : Held} {out : PyDict} (hlists : Lists c held)
    (hchannel : OnChannel c out) : decideBy held out = .ok true := by
  obtain ⟨ids, rfl, hmem⟩ := hlists
  obtain ⟨v, hv, hnull, rfl⟩ := hchannel
  unfold decideBy
  simp only [hv, Option.getD_some, if_neg hnull, Held.has, List.contains_iff_mem.mpr hmem]
  split_ifs <;> rfl

/-- The message of a hidden output for a topic that is no debug topic shows no channel field. -/
theorem planned_hidden {env : Env} {out : PyDict} {m : Message} (h : m ∈ planned env out true)
    (htopic : m.topic ∉ getKafkaTopics env true) :
    ∀ k ∈ channelFields, m.data.get? k = some obfuscatedStr := by
  intro k hk
  rcases List.mem_append.mp h with hdebug | hmain
  · split_ifs at hdebug
    · obtain ⟨topic, hmem, rfl⟩ := List.mem_map.mp hdebug
      exact absurd hmem htopic
    · cases hdebug
  · obtain ⟨topic, -, rfl⟩ := List.mem_map.mp hmain
    exact (delivered_get? out true k).trans (if_pos ⟨rfl, hk⟩)

end Listed

section Results

variable [Framework]

/-- Answers follow the refreshes: in any interleaving, an event that is answered by 200 has been sent
as a whole, hidden or not as decided by the ids of the last refresh that was served before it and
stored what it found, or by those that the process had at first. -/
theorem answers_follow_refreshes (p : Process) {s : AppState} {held : Held}
    (hheld : s.service.cache.channelIds = some held) (requests : List Incoming)
    (turns : List (ℕ × Moment)) {i : ℕ} {incoming : Incoming}
    (hrequest : requests[i]? = some incoming) (hroute : incoming.route = .sendRequest)
    (hanswer : answerAt i (run (Serving.turn p) (arrivals s requests) turns) = some 200) :
    ∃ before m after payload out obfuscate,
      servedTurns p s requests turns = before ++ (i, m) :: after ∧
      incoming.request.body = some payload ∧ generateOutputJson p.env payload = .ok out ∧
      decideBy ((refreshCommands requests before).getLastD held) out = .ok obfuscate ∧
      (i, 200, (planned p.env out obfuscate).map fun m => ⟨m, none⟩) ∈
        servedLog p s requests turns := by
  obtain ⟨before, m, after, attempts, hsplit, hmem, hentry⟩ :=
    answered_served p s requests turns hrequest hanswer
  have hids := @heldIds_run _ _ p requests s.uncounted held hheld before
  cases hlog : logRequest incoming with
  | error e =>
    rw [serveAlone, hlog] at hentry
    cases hentry
  | ok u =>
    rw [serveAlone_sendRequest p hroute hlog] at hentry
    obtain ⟨hanswered, hattempts⟩ := Prod.mk.inj hentry
    have hstatus := (answerSendRequest_ok_iff p m incoming.request _).mp hanswered.symm
    rcases sendRequest_cases p.env m.tick m.kafka incoming.request
        (run (serialStep (serveAlone p) requests) s.uncounted before).service with
      ⟨hrefused, -⟩ | ⟨payload, out, obfuscate, cache, hbody, -, hgen, hshould, hends⟩
    · omega
    · rw [shouldObfuscateChannel_warm hids] at hshould
      refine ⟨before, m, after, payload, out, obfuscate, hsplit, hbody, hgen,
        congrArg Prod.fst hshould, ?_⟩
      rcases hends with ⟨-, hall⟩ | ⟨hfailed, -⟩
      · rw [← hall, ← hattempts]
        exact hmem
      · omega

/-- A listed channel is never shown: while every answer of the database lists it, in any interleaving
of events, refreshes and other requests, and through outages, every call is one of the plan for the
output of an event, and on a topic that is no debug topic it carries no channel field of an event on
this channel. -/
theorem listed_masked (p : Process) {c : String} (hc : c ≠ "") {s : AppState} {held : Held}
    (hheld : s.service.cache.channelIds = some held) (hlists : Lists c held)
    (requests : List Incoming) {turns : List (ℕ × Moment)}
    (hturns : ∀ turn ∈ turns, RowListed c turn.2.tick) :
    ∀ a ∈ kafkaLog p (arrivals s requests) turns, a.message.topic ∉ getKafkaTopics p.env true →
      ∃ incoming ∈ requests, ∃ payload out obfuscate, incoming.request.body = some payload ∧
        generateOutputJson p.env payload = .ok out ∧ a.message ∈ planned p.env out obfuscate ∧
        (OnChannel c out → ∀ k ∈ channelFields, a.message.data.get? k = some obfuscatedStr) := by
  intro a ha htopic
  obtain ⟨before, i, m, after, incoming, payload, out, obfuscate, hsplit, hkey, hbody, hgen,
    hdecision, hplanned⟩ := kafkaLog_decided hheld ha
  refine ⟨incoming, List.mem_of_getElem? hkey, payload, out, obfuscate, hbody, hgen, hplanned, ?_⟩
  intro hchannel
  have hbefore : ∀ turn ∈ before, RowListed c turn.2.tick :=
    fun turn hturn => hturns turn ((servedTurns_mem hsplit).2 turn hturn)
  have hlatest : Lists c ((refreshCommands requests before).getLastD held) :=
    latest_ids hlists fun turn hturn hids => fetchFromRds_lists hc (hbefore turn hturn) hids
  obtain rfl : true = obfuscate :=
    Except.ok.inj ((decideBy_listed hlatest hchannel).symm.trans hdecision)
  exact planned_hidden hplanned htopic

end Results

section Samples

omit [Runtime]

def sampleTable : Tick := ⟨.rows [.null, .text "7"], false, .completes, 1⟩

def tableMoment : Moment := { sampleMoment 1 with tick := sampleTable }

def refreshThenPost : List Incoming :=
  [sampleIncoming .opsCacheRefresh "/ops/cache/refresh" none, samplePostRequest]

def holding (ids : List ChannelId) : AppState :=
  { sampleApp with
    service := ⟨{ BlacklistCache.fresh .absent with channelIds := some (.list ids) }, []⟩ }

theorem answers_follow_refreshes_found :
    let _ : Runtime := asciiRuntime
    let _ : Framework := strictFramework
    let turns := List.replicate 5 (0, tableMoment) ++ List.replicate 6 (1, tableMoment)
    ∃ before m after payload out obfuscate,
      servedTurns servingProcess (holding []) refreshThenPost turns = before ++ (1, m) :: after ∧
      samplePostRequest.request.body = some payload ∧
      generateOutputJson servingProcess.env payload = .ok out ∧
      decideBy ((refreshCommands refreshThenPost before).getLastD (.list [])) out = .ok obfuscate ∧
      (1, 200, (planned servingProcess.env out obfuscate).map fun m => ⟨m, none⟩) ∈
        servedLog servingProcess (holding []) refreshThenPost turns := by
  intro _ _ turns
  have hanswer : answerAt 1 (run (Serving.turn servingProcess) (arrivals (holding [])
      refreshThenPost) turns) = some 200 := by decide +kernel
  exact answers_follow_refreshes servingProcess rfl refreshThenPost turns rfl rfl hanswer

theorem listed_masked_refreshed :
    let _ : Runtime := asciiRuntime
    let _ : Framework := strictFramework
    let s := holding [.json (.str "7")]
    let turns := List.replicate 6 (1, sampleMoment 1) ++ List.replicate 5 (0, tableMoment)
    (kafkaLog servingProcess (arrivals s refreshThenPost) turns).length = 1 ∧
      ∀ a ∈ kafkaLog servingProcess (arrivals s refreshThenPost) turns,
        a.message.topic ∉ getKafkaTopics servingProcess.env true →
          ∃ incoming ∈ refreshThenPost, ∃ payload out obfuscate,
            incoming.request.body = some payload ∧
            generateOutputJson servingProcess.env payload = .ok out ∧
            a.message ∈ planned servingProcess.env out obfuscate ∧
            (OnChannel "7" out → ∀ k ∈ channelFields,
              a.message.data.get? k = some obfuscatedStr) := by
  intro _ _ s turns
  have hlists : Lists "7" (.list [.json (.str "7")]) := ⟨_, rfl, by decide⟩
  have hturns : ∀ turn ∈ turns, RowListed "7" turn.2.tick := by
    intro turn hturn rs hrs
    rcases List.mem_append.mp hturn with h | h
    · rw [List.eq_of_mem_replicate h] at hrs
      cases hrs
    · rw [List.eq_of_mem_replicate h] at hrs
      obtain rfl := RdsAnswer.rows.inj hrs
      decide
  exact ⟨by decide +kernel, listed_masked servingProcess (by decide) rfl hlists refreshThenPost hturns⟩

end Samples

end TvEvents
