import TvEvents.App.Ops
import TvEvents.Legacy.Blacklist
import TvEvents.Legacy.Firehose
import TvEvents.Legacy.Validation

namespace TvEvents.Legacy

open BlacklistCache

variable [Runtime]

namespace TvEventsRds

/-- Without ids from RDS it raises, and the file is left alone. -/
def initializeBlacklistedChannelIdsCache (t : Tick) (s : TvEventsRds) :
    Except PyExc Unit × TvEventsRds :=
  let ids := fetchallChannelIds t.rds
  if ids = [] then
    (.error (.builtin (.other "Failed to fetch blacklisted channel IDs from RDS at startup.")), s)
  else
    match storeData t ids s with
    | (.ok _, s) => (.ok (), { s with channelIds := some (.list ids) })
    | (.error e, s) => (.error e, s)

def shouldObfuscateChannel (t : Tick) (out : PyDict) (s : TvEventsRds) :
    Except PyExc Bool × TvEventsRds :=
  if isContentBlocked out then (.ok true, s)
  else s.isBlacklistedChannel t ((out.get? "channelid").getD .null)

/-- The calls of `send_records` of a request, or what ends it; every exception comes before them. -/
def pushChangesToFirehose (env : Env) (t : Tick) (payload : Json) (s : TvEventsRds) :
    Except PyExc (List Record) × TvEventsRds :=
  match generateOutputJson env payload with
  | .error e => (.error e, s)
  | .ok out =>
    match s.shouldObfuscateChannel t out with
    | (.error e, s) => (.error e, s)
    | (.ok obfuscate, s) =>
      let debug := if obfuscate && toggle env "TVEVENTS_DEBUG" then sendToValidFirehoses env out true
        else []
      let data := if obfuscate then obfuscateChannelFields out else out
      (.ok (debug ++ sendToValidFirehoses env data false), s)

/-- Of the cache a request changes what a lookup changes. -/
theorem pushChangesToFirehose_cache (env : Env) (t : Tick) (payload : Json) (s : TvEventsRds) :
    (s.pushChangesToFirehose env t payload).2 = s ∨
      (s.pushChangesToFirehose env t payload).2 = (s.blacklistedChannelIds t).2 := by
  have hdecision : ∀ out, (s.shouldObfuscateChannel t out).2 = s ∨
      (s.shouldObfuscateChannel t out).2 = (s.blacklistedChannelIds t).2 := by
    intro out
    unfold shouldObfuscateChannel isBlacklistedChannel
    split_ifs
    · exact .inl rfl
    · exact .inl rfl
    · right
      rcases s.blacklistedChannelIds t with ⟨answer, s'⟩
      cases answer <;> rfl
  unfold pushChangesToFirehose
  cases generateOutputJson env payload with
  | error e => exact .inl rfl
  | ok out =>
    have hcache := hdecision out
    simp only
    rcases hpair : s.shouldObfuscateChannel t out with ⟨decision, s'⟩
    rw [hpair] at hcache
    cases decision <;> exact hcache

end TvEventsRds

/-- `entrypoint.sh` up to the workers, with the path of the image: a missing cache file is initialized
by a process of its own, whose failure is printed only. -/
def entrypoint (t : Tick) (file : CacheFile) : CacheFile :=
  match file with
  | .absent => ((TvEventsRds.fresh .absent).initializeBlacklistedChannelIdsCache t).2.file
  | found => found

section Route

/-- The answer to a request, unless it is Flask's own, its calls of `send_records`, and the cache of
the worker afterwards. -/
structure Answered where
  reply : Option Reply
  records : List Record
  rds : TvEventsRds

def handleExceptions (tvid : Option String) (e : PyExc) (payload : Json) : Reply :=
  let msg := "Exception in send_request_firehose: tvid=" ++ strParam tvid ++ " msg=" ++ e.text ++
    " payload=" ++ str payload
  ⟨400, .json [("error", .str "TvEventsCatchallException"), ("message", .str msg)]⟩

/-- `POST /`. Flask itself answers a body that is no JSON, before the route has anything to check. -/
def sendRequestFirehose (env : Env) (t : Tick) (request : Request) (s : TvEventsRds) : Answered :=
  let tvid := request.urlParams.get? "tvid"
  match request.body with
  | none => ⟨none, [], s⟩
  | some payload =>
    match validateRequest env request.urlParams payload with
    | .error e => ⟨some (handleExceptions tvid e payload), [], s⟩
    | .ok _ =>
      match s.pushChangesToFirehose env t payload with
      | (.error e, s) => ⟨some (handleExceptions tvid e payload), [], s⟩
      | (.ok records, s) => ⟨some ⟨200, .text "OK"⟩, records, s⟩

/-- Of the cache a request changes what a lookup changes. -/
theorem sendRequestFirehose_rds (env : Env) (t : Tick) (request : Request) (s : TvEventsRds) :
    (sendRequestFirehose env t request s).rds = s ∨
      (sendRequestFirehose env t request s).rds = (s.blacklistedChannelIds t).2 := by
  unfold sendRequestFirehose
  cases request.body with
  | none => exact .inl rfl
  | some payload =>
    cases hvalid : validateRequest env request.urlParams payload with
    | error e =>
      simp only [hvalid]
      exact .inl trivial
    | ok b =>
      have hcache := s.pushChangesToFirehose_cache env t payload
      simp only [hvalid]
      rcases hpair : s.pushChangesToFirehose env t payload with ⟨pushed, s'⟩
      rw [hpair] at hcache
      cases pushed <;> exact hcache

end Route

end TvEvents.Legacy
