import TvEvents.Python.Value

namespace TvEvents

/-- A `jsonschema` error: the keyword that failed, its text and the path inside the instance. -/
structure ValidationError where
  validator : String
  message : String
  path : List String
  deriving DecidableEq

def IsAscii (s : String) : Prop := ∀ c ∈ s.toList, c.toNat < 128

instance (s : String) : Decidable (IsAscii s) :=
  List.decidableBAll (fun c : Char => c.toNat < 128) s.toList

def asciiLower (s : String) : String := String.ofList (s.toList.map Char.toLower)

def asciiUpper (s : String) : String := String.ofList (s.toList.map Char.toUpper)

def asciiDecimal (c : Char) : Option ℕ := if c.isDigit then some (c.toNat - 48) else none

def asciiSpace (c : Char) : Bool := c == ' ' || (9 ≤ c.toNat && c.toNat ≤ 13)

/-- What the interpreter and its libraries supply by table or by platform: Unicode case and digit
tables, `repr`, exception texts, the hash, the range of `localtime` and the error `jsonschema` picks. -/
class Runtime where
  lower : String → String
  upper : String → String
  decimal : Char → Option ℕ
  isSpace : Char → Bool
  repr : Json → String
  excText : Builtin → String
  hexdigest : String → String
  minTime : ℤ
  maxTime : ℤ
  bestMatch : ValidationError → List ValidationError → ValidationError
  lower_ascii : ∀ s, IsAscii s → lower s = asciiLower s
  upper_ascii : ∀ s, IsAscii s → upper s = asciiUpper s
  lower_lower : ∀ s, lower (lower s) = lower s
  lower_join : ∀ a b, lower (a ++ "_" ++ b) = lower a ++ "_" ++ lower b
  decimal_ascii : ∀ c : Char, c.toNat < 128 → decimal c = asciiDecimal c
  isSpace_ascii : ∀ c : Char, c.toNat < 128 → isSpace c = asciiSpace c
  repr_null : repr .null = "None"
  repr_bool : ∀ b, repr (.bool b) = if b then "True" else "False"
  repr_int : ∀ n : ℤ, repr (.int n) = toString n
  minTime_year : -62135596800 ≤ minTime
  minTime_epoch : minTime ≤ 0
  maxTime_epoch : 0 ≤ maxTime
  maxTime_year : maxTime ≤ 253402300799
  bestMatch_mem : ∀ e es, bestMatch e es ∈ e :: es

export Runtime (lower upper decimal isSpace excText hexdigest minTime maxTime bestMatch)

private theorem toLower_toLower (c : Char) : c.toLower.toLower = c.toLower := by
  unfold Char.toLower
  split_ifs with h h'
  · exfalso
    simp only [ge_iff_le] at h'
    grind
  · rfl
  · rfl

theorem asciiLower_lower (s : String) : asciiLower (asciiLower s) = asciiLower s := by
  have hchar : Char.toLower ∘ Char.toLower = Char.toLower := funext toLower_toLower
  rw [asciiLower, asciiLower, String.toList_ofList, List.map_map, hchar]

theorem asciiLower_join (a b : String) :
    asciiLower (a ++ "_" ++ b) = asciiLower a ++ "_" ++ asciiLower b := by
  apply String.toList_inj.mp
  have hu : "_".toList.map Char.toLower = "_".toList := by decide
  simp only [asciiLower, String.toList_append, String.toList_ofList, List.map_append, hu]

/-- A runtime whose tables are those of ASCII and whose clock is UTC. -/
@[reducible] def asciiRuntime : Runtime where
  lower := asciiLower
  upper := asciiUpper
  decimal := asciiDecimal
  isSpace := asciiSpace
  repr
    | .null => "None"
    | .bool b => if b then "True" else "False"
    | .int n => toString n
    | .float _ => "float"
    | .str s => "'" ++ s ++ "'"
    | .arr _ => "list"
    | .obj _ => "dict"
  excText
    | .keyError key => "'" ++ key ++ "'"
    | .other text => text
    | _ => "error"
  hexdigest s := "digest of " ++ s
  minTime := -62135510400
  maxTime := 253402300799
  bestMatch e _ := e
  lower_ascii _ _ := rfl
  upper_ascii _ _ := rfl
  lower_lower := asciiLower_lower
  lower_join := asciiLower_join
  decimal_ascii _ _ := rfl
  isSpace_ascii _ _ := rfl
  repr_null := rfl
  repr_bool _ := rfl
  repr_int _ := rfl
  minTime_year := by decide
  minTime_epoch := by decide
  maxTime_epoch := by decide
  maxTime_year := by decide
  bestMatch_mem _ _ := List.mem_cons_self

end TvEvents
