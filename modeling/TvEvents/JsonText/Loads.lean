import TvEvents.Python.Value

namespace TvEvents.JsonText

/-- Why a text is no document: its grammar, or an integer of too many digits (a plain `ValueError`). -/
inductive JsonError
  | decode
  | intTooLong
  deriving DecidableEq

abbrev Scan (α : Type) := Except JsonError (α × List Char)

def isWs (c : Char) : Bool := c == ' ' || c == '\t' || c == '\n' || c == '\r'

def skipWs (cs : List Char) : List Char := cs.dropWhile isWs

def hexVal? (c : Char) : Option ℕ :=
  if c.isDigit then some (c.toNat - 48)
  else if 'a' ≤ c ∧ c ≤ 'f' then some (c.toNat - 87)
  else if 'A' ≤ c ∧ c ≤ 'F' then some (c.toNat - 55)
  else none

def scanHex4 : List Char → Scan ℕ
  | a :: b :: c :: d :: r =>
    match hexVal? a, hexVal? b, hexVal? c, hexVal? d with
    | some a, some b, some c, some d => .ok (((a * 16 + b) * 16 + c) * 16 + d, r)
    | _, _, _, _ => .error .decode
  | _ => .error .decode

/-- The last private-use characters stand for the lone surrogates, which are no scalar values. -/
def standIn (n : ℕ) : Char := Char.ofNat (n + 0x102000)

def isStandIn (c : Char) : Bool := 0x10F800 ≤ c.toNat

/-- A lone surrogate stays what it is. -/
def charOf (n : ℕ) : Char := if n.isValidChar then Char.ofNat n else standIn n

/-- The digits after `\u`; a high surrogate joins a low one that follows at once. -/
def scanUnicode (cs : List Char) : Scan Char :=
  match scanHex4 cs with
  | .error e => .error e
  | .ok (n, r) =>
    if 55296 ≤ n ∧ n < 56320 then
      match r with
      | '\\' :: 'u' :: r' =>
        match scanHex4 r' with
        | .error e => .error e
        | .ok (m, r'') =>
          if 56320 ≤ m ∧ m < 57344 then
            .ok (charOf (65536 + (n - 55296) * 1024 + (m - 56320)), r'')
          else .ok (charOf n, r)
      | _ => .ok (charOf n, r)
    else .ok (charOf n, r)

def scanEscape : List Char → Scan Char
  | '"' :: r => .ok ('"', r)
  | '\\' :: r => .ok ('\\', r)
  | '/' :: r => .ok ('/', r)
  | 'b' :: r => .ok ('\x08', r)
  | 'f' :: r => .ok ('\x0c', r)
  | 'n' :: r => .ok ('\n', r)
  | 'r' :: r => .ok ('\r', r)
  | 't' :: r => .ok ('\t', r)
  | 'u' :: r => scanUnicode r
  | _ => .error .decode

/-- The characters up to the closing quote; raw control characters are refused. -/
def scanString : ℕ → List Char → Scan (List Char)
  | 0, _ => .error .decode
  | _ + 1, [] => .error .decode
  | fuel + 1, c :: r =>
    if c = '"' then .ok ([], r)
    else if c = '\\' then
      match scanEscape r with
      | .error e => .error e
      | .ok (c, r) =>
        match scanString fuel r with
        | .error e => .error e
        | .ok (cs, r) => .ok (c :: cs, r)
    else if c.toNat < 32 then .error .decode
    else
      match scanString fuel r with
      | .error e => .error e
      | .ok (cs, r) => .ok (c :: cs, r)

def digitsValue (ds : List Char) : ℕ := ds.foldl (fun n d => 10 * n + (d.toNat - 48)) 0

/-- The digits before a fraction: a single zero, or no leading zero. -/
def scanIntPart : List Char → Option (List Char × List Char)
  | [] => none
  | c :: r =>
    if c = '0' then some (['0'], r)
    else if c.isDigit then some (c :: r.takeWhile Char.isDigit, r.dropWhile Char.isDigit)
    else none

/-- One digit or more. -/
def scanDigits : List Char → Option (List Char × List Char)
  | [] => none
  | c :: r =>
    if c.isDigit then some (c :: r.takeWhile Char.isDigit, r.dropWhile Char.isDigit) else none

def scanFrac : List Char → Option (List Char × List Char)
  | '.' :: r => scanDigits r
  | _ => none

def scanExp : List Char → Option (ℤ × List Char)
  | 'e' :: r => scanSigned r
  | 'E' :: r => scanSigned r
  | _ => none
where
  scanSigned : List Char → Option (ℤ × List Char)
    | '-' :: r => (scanDigits r).map fun (ds, r) => (-(digitsValue ds : ℤ), r)
    | '+' :: r => (scanDigits r).map fun (ds, r) => ((digitsValue ds : ℤ), r)
    | r => (scanDigits r).map fun (ds, r) => ((digitsValue ds : ℤ), r)

def decimalFloat (neg : Bool) (ds fs : List Char) (e : ℤ) : PyFloat :=
  let m := digitsValue (ds ++ fs)
  if m = 0 then (if neg then .negZero else .fin 0)
  else .ofRat ((if neg then -(m : ℚ) else m) * (10 : ℚ) ^ (e - fs.length))

def intOf (neg : Bool) (ds : List Char) : Except JsonError Json :=
  if 4300 < ds.length then .error .intTooLong
  else .ok (.int (if neg then -(digitsValue ds : ℤ) else digitsValue ds))

/-- A fraction or an exponent makes a float; without them the digits are an integer. -/
def scanUnsigned (neg : Bool) (cs : List Char) : Scan Json :=
  match scanIntPart cs with
  | none => .error .decode
  | some (ds, r) =>
    match scanFrac r with
    | some (fs, r) =>
      match scanExp r with
      | some (e, r) => .ok (.float (decimalFloat neg ds fs e), r)
      | none => .ok (.float (decimalFloat neg ds fs 0), r)
    | none =>
      match scanExp r with
      | some (e, r) => .ok (.float (decimalFloat neg ds [] e), r)
      | none => (intOf neg ds).map fun v => (v, r)

def scanNumber : List Char → Scan Json
  | '-' :: r => scanUnsigned true r
  | r => scanUnsigned false r

def scanWord (w : String) (cs : List Char) : Option (List Char) :=
  if w.toList <+: cs then some (cs.drop w.toList.length) else none

/-- Words come before numbers, for `-Infinity` starts with a sign. -/
def scanScalar (cs : List Char) : Scan Json :=
  match scanWord "null" cs with
  | some r => .ok (.null, r)
  | none =>
    match scanWord "true" cs with
    | some r => .ok (.bool true, r)
    | none =>
      match scanWord "false" cs with
      | some r => .ok (.bool false, r)
      | none =>
        match scanWord "NaN" cs with
        | some r => .ok (.float .nan, r)
        | none =>
          match scanWord "Infinity" cs with
          | some r => .ok (.float (.inf false), r)
          | none =>
            match scanWord "-Infinity" cs with
            | some r => .ok (.float (.inf true), r)
            | none => scanNumber cs

mutual

def scanValue : ℕ → List Char → Scan Json
  | 0, _ => .error .decode
  | _ + 1, [] => .error .decode
  | fuel + 1, c :: r =>
    if c = '"' then
      match scanString fuel r with
      | .error e => .error e
      | .ok (cs, r) => .ok (.str (String.ofList cs), r)
    else if c = '[' then
      match skipWs r with
      | ']' :: r' => .ok (.arr [], r')
      | r' =>
        match scanElems fuel r' with
        | .error e => .error e
        | .ok (l, r) => .ok (.arr l, r)
    else if c = '{' then
      match skipWs r with
      | '}' :: r' => .ok (.obj [], r')
      | r' =>
        match scanMembers fuel r' with
        | .error e => .error e
        | .ok (ws, r) => .ok (.obj (OrderedMap.ofWrites ws).entries, r)
    else scanScalar (c :: r)

def scanElems : ℕ → List Char → Scan (List Json)
  | 0, _ => .error .decode
  | fuel + 1, cs =>
    match scanValue fuel cs with
    | .error e => .error e
    | .ok (v, r) =>
      match skipWs r with
      | ']' :: r' => .ok ([v], r')
      | ',' :: r' =>
        match scanElems fuel (skipWs r') with
        | .error e => .error e
        | .ok (vs, r) => .ok (v :: vs, r)
      | _ => .error .decode

def scanMembers : ℕ → List Char → Scan (List (String × Json))
  | 0, _ => .error .decode
  | fuel + 1, '"' :: cs =>
    match scanString fuel cs with
    | .error e => .error e
    | .ok (k, r) =>
      match skipWs r with
      | ':' :: r =>
        match scanValue fuel (skipWs r) with
        | .error e => .error e
        | .ok (v, r) =>
          match skipWs r with
          | '}' :: r' => .ok ([(String.ofList k, v)], r')
          | ',' :: r' =>
            match scanMembers fuel (skipWs r') with
            | .error e => .error e
            | .ok (ws, r) => .ok ((String.ofList k, v) :: ws, r)
          | _ => .error .decode
      | _ => .error .decode
  | _ + 1, _ => .error .decode

end

/-- `json.loads(text)`: one document and blanks around it. Two units of fuel per character are
enough, since every call either consumes a character or hands over to one that does. -/
def loads (cs : List Char) : Except JsonError Json :=
  match scanValue (2 * cs.length + 2) (skipWs cs) with
  | .error e => .error e
  | .ok (v, r) => if skipWs r = [] then .ok v else .error .decode

end TvEvents.JsonText
