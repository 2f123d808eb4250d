import TvEvents.App.Dynamic
import TvEvents.JsonText.Dumps
import TvEvents.JsonText.Loads

namespace TvEvents

open JsonText

/-- A held channel id: a JSON value, or a database value that `json.dumps` rejects. -/
inductive ChannelId
  | json (v : Json)
  | other (text : String)
  deriving DecidableEq

/-- The `channel_id` column of a row: integers of the database have 64 bits; `other` is a type such
as `Decimal`, with its truth value. -/
inductive RdsValue
  | null
  | text (s : String)
  | int (n : ℤ) (fits : n.natAbs ≤ 2 ^ 63)
  | other (text : String) (truthy : Bool)
  deriving DecidableEq

namespace RdsValue

def truthy : RdsValue → Bool
  | .null => false
  | .text s => s != ""
  | .int n _ => n != 0
  | .other _ b => b

def channelId : RdsValue → ChannelId
  | .null => .json .null
  | .text s => .json (.str s)
  | .int n _ => .json (.int n)
  | .other value _ => .other value

end RdsValue

inductive RdsAnswer
  | fails
  | rows (rs : List RdsValue)
  deriving DecidableEq

/-- What holds the served ids: a list, or any other document that the cache file contained. -/
inductive Held
  | list (ids : List ChannelId)
  | scalar (v : Json)
  deriving DecidableEq

namespace Held

def ofJson : Json → Held
  | .arr l => .list (l.map .json)
  | v => .scalar v

def len : Held → Except PyExc ℕ
  | .list ids => .ok ids.length
  | .scalar (.str s) => .ok s.length
  | .scalar (.obj kvs) => .ok kvs.length
  | .scalar _ => .error (.builtin .typeError)

def has (held : Held) (c : String) : Except PyExc Bool :=
  match held with
  | .list ids => .ok (ids.contains (.json (.str c)))
  | .scalar v => v.has c

def truthy : Held → Bool
  | .list ids => !ids.isEmpty
  | .scalar v => v.truthy

end Held

/-- The file at the cache path, as its decoded text. -/
inductive CacheFile
  | absent
  | text (cs : List Char)
  | undecodable
  deriving DecidableEq

/-- How a write goes: no file is opened, an error strikes once `n` characters are stored, or all
characters are stored. -/
inductive WriteOutcome
  | openFails
  | failsAfter (n : ℕ)
  | completes
  deriving DecidableEq

structure Tick where
  rds : RdsAnswer
  readFails : Bool
  write : WriteOutcome
  now : ℚ

structure BlacklistCache where
  channelIds : Option Held
  lastRefresh : ℚ
  file : CacheFile

namespace BlacklistCache

/-- A new process on a file that is already there. -/
def fresh (file : CacheFile) : BlacklistCache := ⟨none, 0, file⟩

def fetchFromRds : RdsAnswer → List ChannelId
  | .fails => []
  | .rows rs => (rs.filter RdsValue.truthy).map RdsValue.channelId

def jsonValues : List ChannelId → Option (List Json)
  | [] => some []
  | .json v :: ids => (jsonValues ids).map (v :: ·)
  | .other _ :: _ => none

/-- The number of served ids; falsy ids are not counted. -/
def entryCount (s : BlacklistCache) : Except PyExc ℕ :=
  match s.channelIds with
  | none => .ok 0
  | some held => if held.truthy then held.len else .ok 0

def ageSeconds (now : ℚ) (s : BlacklistCache) : ℚ :=
  if s.lastRefresh = 0 then 0 else now - s.lastRefresh

variable [Runtime]

/-- `json.dumps(channel_ids)`; one id of a foreign type makes it raise. -/
def dumpsIds (ids : List ChannelId) : Option (List Char) :=
  (jsonValues ids).map fun l => dumps (.arr l)

/-- Opening for writing truncates; the text is built only then. `OSError` is swallowed. -/
def writeCache (t : Tick) (ids : List ChannelId) (s : BlacklistCache) :
    Except PyExc Unit × BlacklistCache :=
  match t.write with
  | .openFails => (.ok (), s)
  | .failsAfter n =>
    match dumpsIds ids with
    | none => (.error (.builtin .typeError), { s with file := .text [] })
    | some cs => (.ok (), { s with file := .text (cs.take n) })
  | .completes =>
    match dumpsIds ids with
    | none => (.error (.builtin .typeError), { s with file := .text [] })
    | some cs => (.ok (), { s with file := .text cs })

/-- `OSError` and `JSONDecodeError` are a miss; other decoding errors escape. -/
def readCache (t : Tick) (s : BlacklistCache) : Except PyExc (Option Held) :=
  if t.readFails then .ok none
  else
    match s.file with
    | .absent => .ok none
    | .undecodable => .error (.builtin .valueError)
    | .text cs =>
      match loads cs with
      | .error .decode => .ok none
      | .error .intTooLong => .error (.builtin .valueError)
      | .ok .null => .ok none
      | .ok v => .ok (some (Held.ofJson v))

/-- The start without RDS: the file, or the empty list. -/
def initializeFallback (t : Tick) (s : BlacklistCache) : Except PyExc Unit × BlacklistCache :=
  match readCache t s with
  | .error e => (.error e, s)
  | .ok none => (.ok (), { s with channelIds := some (.list []) })
  | .ok (some held) =>
    (held.len.map fun _ => (), { s with channelIds := some held, lastRefresh := t.now })

def initializeCache (t : Tick) (s : BlacklistCache) : Except PyExc Unit × BlacklistCache :=
  let ids := fetchFromRds t.rds
  if ids = [] then initializeFallback t s
  else
    match writeCache t ids s with
    | (.ok _, s) => (.ok (), { s with channelIds := some (.list ids), lastRefresh := t.now })
    | (.error _, s) => initializeFallback t s

def refresh (t : Tick) (s : BlacklistCache) : Except PyExc Bool × BlacklistCache :=
  let ids := fetchFromRds t.rds
  if ids = [] then (.ok false, s)
  else
    match writeCache t ids s with
    | (.ok _, s) => (.ok true, { s with channelIds := some (.list ids), lastRefresh := t.now })
    | (.error e, s) => (.error e, s)

def getChannelIds (t : Tick) (s : BlacklistCache) : Except PyExc Held × BlacklistCache :=
  match s.channelIds with
  | some held => (.ok held, s)
  | none =>
    match readCache t s with
    | .error e => (.error e, s)
    | .ok (some held) => (.ok held, { s with channelIds := some held })
    | .ok none =>
      let ids := fetchFromRds t.rds
      if ids = [] then (.ok (.list []), { s with channelIds := some (.list []) })
      else
        match writeCache t ids s with
        | (.ok _, s) => (.ok (.list ids), { s with channelIds := some (.list ids) })
        | (.error e, s) => (.error e, s)

def isBlacklisted (t : Tick) (channelId : Json) (s : BlacklistCache) :
    Except PyExc Bool × BlacklistCache :=
  if channelId = .null then (.ok false, s)
  else
    match getChannelIds t s with
    | (.ok held, s) => (held.has (str channelId), s)
    | (.error e, s) => (.error e, s)

end BlacklistCache

end TvEvents
