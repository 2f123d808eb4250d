import TvEvents.App.Blacklist

namespace TvEvents.Legacy

open JsonText

/-- The cache part of `TvEventsRds`: the ids in memory, and the file. -/
structure TvEventsRds where
  channelIds : Option Held
  file : CacheFile

namespace TvEventsRds

def fresh (file : CacheFile) : TvEventsRds := ⟨none, file⟩

/-- Every row counts, whatever its id; a failed query answers no rows. -/
def fetchallChannelIds : RdsAnswer → List ChannelId
  | .fails => []
  | .rows rs => rs.map RdsValue.channelId

/-- Only `IOError` is a miss: a text that is no JSON document raises. -/
def readData (t : Tick) (s : TvEventsRds) : Except PyExc (Option Held) :=
  if t.readFails then .ok none
  else
    match s.file with
    | .absent => .ok none
    | .undecodable => .error (.builtin .valueError)
    | .text cs =>
      match loads cs with
      | .error _ => .error (.builtin .valueError)
      | .ok .null => .ok none
      | .ok v => .ok (some (Held.ofJson v))

variable [Runtime]

/-- Opening for writing truncates; the text is built only then. `IOError` is swallowed. -/
def storeData (t : Tick) (ids : List ChannelId) (s : TvEventsRds) : Except PyExc Unit × TvEventsRds :=
  match t.write with
  | .openFails => (.ok (), s)
  | .failsAfter n =>
    match BlacklistCache.dumpsIds ids with
    | none => (.error (.builtin .typeError), { s with file := .text [] })
    | some cs => (.ok (), { s with file := .text (cs.take n) })
  | .completes =>
    match BlacklistCache.dumpsIds ids with
    | none => (.error (.builtin .typeError), { s with file := .text [] })
    | some cs => (.ok (), { s with file := .text cs })

def blacklistedChannelIds (t : Tick) (s : TvEventsRds) : Except PyExc Held × TvEventsRds :=
  match s.channelIds with
  | some held => (.ok held, s)
  | none =>
    match readData t s with
    | .error e => (.error e, s)
    | .ok (some held) => (.ok held, { s with channelIds := some held })
    | .ok none =>
      let ids := fetchallChannelIds t.rds
      if ids = [] then (.ok (.list []), { s with channelIds := some (.list []) })
      else
        match storeData t ids s with
        | (.ok _, s) => (.ok (.list ids), { s with channelIds := some (.list ids) })
        | (.error e, s) => (.error e, s)

def isBlacklistedChannel (t : Tick) (channelId : Json) (s : TvEventsRds) :
    Except PyExc Bool × TvEventsRds :=
  if channelId = .null then (.ok false, s)
  else
    match blacklistedChannelIds t s with
    | (.ok held, s) => (held.has (str channelId), s)
    | (.error e, s) => (.error e, s)

end TvEventsRds

end TvEvents.Legacy
