import TvEvents.App.Blacklist

namespace TvEvents

variable [Runtime]

def obfuscatedStr : Json := .str "OBFUSCATED"

/-- The flag as a truth value; a string counts by its letters. -/
def isContentBlocked (out : PyDict) : Bool :=
  match (out.get? "iscontentblocked").getD (.bool false) with
  | .str s => lower s == "true"
  | v => v.truthy

def shouldObfuscateChannel (t : Tick) (out : PyDict) (s : BlacklistCache) :
    Except PyExc Bool × BlacklistCache :=
  if isContentBlocked out then (.ok true, s)
  else s.isBlacklisted t ((out.get? "channelid").getD .null)

/-- The keys that are overwritten, in the order of the assignments. -/
def channelFields : List String := ["channelid", "programid", "channelname"]

def obfuscateChannelFields (out : PyDict) : PyDict :=
  ((out.set "channelid" obfuscatedStr).set "programid" obfuscatedStr).set "channelname" obfuscatedStr

end TvEvents
