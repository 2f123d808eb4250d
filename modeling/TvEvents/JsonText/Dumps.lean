import TvEvents.Python.Runtime

namespace TvEvents.JsonText

/-- `'{0:04x}'.format(n)`. -/
def hex4 (n : ℕ) : List Char :=
  [Nat.digitChar (n / 4096 % 16), Nat.digitChar (n / 256 % 16), Nat.digitChar (n / 16 % 16),
    Nat.digitChar (n % 16)]

def shortEscape : Char → Option Char
  | '"' => some '"'
  | '\\' => some '\\'
  | '\n' => some 'n'
  | '\r' => some 'r'
  | '\t' => some 't'
  | '\x0c' => some 'f'
  | '\x08' => some 'b'
  | _ => none

/-- ASCII escapes: a character beyond the basic plane becomes a surrogate pair. -/
def escapeChar (c : Char) : List Char :=
  match shortEscape c with
  | some e => ['\\', e]
  | none =>
    if 32 ≤ c.toNat ∧ c.toNat < 127 then [c]
    else if c.toNat < 65536 then '\\' :: 'u' :: hex4 c.toNat
    else '\\' :: 'u' :: (hex4 (55296 + (c.toNat - 65536) / 1024) ++
      '\\' :: 'u' :: hex4 (56320 + (c.toNat - 65536) % 1024))

def dumpsStr (s : String) : List Char := '"' :: (s.toList.flatMap escapeChar ++ ['"'])

def dumpsInt : ℤ → List Char
  | .ofNat n => Nat.toDigits 10 n
  | .negSucc n => '-' :: Nat.toDigits 10 (n + 1)

def dumpsFloat [Runtime] : PyFloat → List Char
  | .nan => "NaN".toList
  | .inf neg => (if neg then "-Infinity" else "Infinity").toList
  | f => (Runtime.repr (.float f)).toList

mutual

/-- `json.dumps(v)` with the default separators. -/
def dumps [Runtime] : Json → List Char
  | .null => "null".toList
  | .bool b => (if b then "true" else "false").toList
  | .int n => dumpsInt n
  | .float f => dumpsFloat f
  | .str s => dumpsStr s
  | .arr l => '[' :: (dumpsElems l ++ [']'])
  | .obj kvs => '{' :: (dumpsMembers kvs ++ ['}'])

def dumpsElems [Runtime] : List Json → List Char
  | [] => []
  | [v] => dumps v
  | v :: vs => dumps v ++ ',' :: ' ' :: dumpsElems vs

def dumpsMembers [Runtime] : List (String × Json) → List Char
  | [] => []
  | [(k, v)] => dumpsStr k ++ ':' :: ' ' :: dumps v
  | (k, v) :: kvs => dumpsStr k ++ ':' :: ' ' :: (dumps v ++ ',' :: ' ' :: dumpsMembers kvs)

end

end TvEvents.JsonText
