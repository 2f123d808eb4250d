import Mathlib.Data.List.Infix
import TvEvents.App.Exceptions

namespace TvEvents

def maxIntDigits : ℕ := 4300

section Text

variable [Runtime]

/-- Digits with single underscores between them, as `int(str)` reads them after the first. -/
def intDigits : List Char → Option (List ℕ)
  | [] => some []
  | '_' :: c :: cs => (decimal c).bind fun d => (intDigits cs).map (d :: ·)
  | c :: cs => (decimal c).bind fun d => (intDigits cs).map (d :: ·)

def unsignedOf : List Char → Option ℤ
  | [] => none
  | c :: cs => (decimal c).bind fun d => (intDigits cs).bind fun ds =>
      if ds.length < maxIntDigits then
        some ((d :: ds).foldl (fun (n : ℤ) (d : ℕ) => 10 * n + d) 0)
      else none

/-- `int(s)` for a string: blanks stripped, an optional sign, decimal digits. -/
def intOfStr (s : String) : Option ℤ :=
  match ((s.toList.dropWhile isSpace).reverse.dropWhile isSpace).reverse with
  | '-' :: cs => (unsignedOf cs).map Neg.neg
  | '+' :: cs => unsignedOf cs
  | cs => unsignedOf cs

def str : Json → String
  | .str s => s
  | v => Runtime.repr v

end Text

def inStr (k s : String) : Bool := decide (k.toList <:+: s.toList)

namespace Json

def get (v : Json) (k : String) (default : Json) : Except PyExc Json :=
  match v with
  | .obj kvs => .ok ((OrderedMap.find k kvs).getD default)
  | _ => .error (.builtin .attributeError)

/-- `v[k]` with a string key. -/
def item (v : Json) (k : String) : Except PyExc Json :=
  match v with
  | .obj kvs =>
    match OrderedMap.find k kvs with
    | some x => .ok x
    | none => .error (.builtin (.keyError k))
  | _ => .error (.builtin .typeError)

def has (v : Json) (k : String) : Except PyExc Bool :=
  match v with
  | .obj kvs => .ok (OrderedMap.find k kvs).isSome
  | .arr l => .ok (l.any (· == .str k))
  | .str s => .ok (inStr k s)
  | _ => .error (.builtin .typeError)

def hasAny (v : Json) : List String → Except PyExc Bool
  | [] => .ok false
  | k :: ks => do
    if ← v.has k then return true
    v.hasAny ks

/-- `l[n]`, counted from the end when `n` is negative. -/
def atIndex (l : List Json) (n : ℤ) : Option Json :=
  if 0 ≤ n then l[n.toNat]? else if -n ≤ l.length then l[(l.length + n).toNat]? else none

def index? : Json → Option ℤ
  | .int n => some n
  | .bool b => some (if b then 1 else 0)
  | _ => none

/-- What flattening a list raises at its element `k`. An element that names an object is taken as a
prefix of its keys, which a number other than zero cannot be; one that names anything else lacks
`lower`. -/
def elementFault (l : List Json) (k : Json) : Option Builtin :=
  match k.index? with
  | none => some .typeError
  | some n =>
    match atIndex l n with
    | none => some .indexError
    | some (.obj kvs) => if n ≠ 0 ∧ kvs.any (fun e => !e.2.isObj) then some .typeError else none
    | some _ => some .attributeError

theorem atIndex_mem {l : List Json} {n : ℤ} {v : Json} (h : atIndex l n = some v) : v ∈ l := by
  unfold atIndex at h
  split_ifs at h
  · exact List.mem_of_getElem? h
  · exact List.mem_of_getElem? h

/-- An element that raises nothing names an object, and that raises where it stands. -/
theorem elementFault_some {l : List Json} (h : l ≠ []) :
    (l.findSome? (elementFault l)).isSome = true := by
  by_contra hnone
  simp only [List.findSome?_isSome_iff, not_exists, not_and, Bool.not_eq_true,
    Option.isSome_eq_false_iff, Option.isNone_iff_eq_none] at hnone
  obtain ⟨k, hk⟩ := List.exists_mem_of_ne_nil l h
  have hfault := hnone k hk
  unfold elementFault at hfault
  split at hfault
  · cases hfault
  · split at hfault
    · cases hfault
    · next kvs hat => cases hnone _ (atIndex_mem hat)
    · cases hfault

/-- What a loop `for k in v` over `v[k]` visits. A list that is not empty always raises: at the latest
where it holds an object itself. -/
def items (v : Json) : Except PyExc (List (String × Json)) :=
  match v with
  | .obj kvs => .ok kvs
  | .arr [] => .ok []
  | .arr l => .error (.builtin ((l.findSome? (elementFault l)).getD .typeError))
  | .str s => if s = "" then .ok [] else .error (.builtin .typeError)
  | _ => .error (.builtin .typeError)

end Json

section Numbers

variable [Runtime]

def toInt : Json → Except PyExc ℤ
  | .int n => .ok n
  | .bool b => .ok (if b then 1 else 0)
  | .float .nan => .error (.builtin .valueError)
  | .float (.inf _) => .error (.builtin .overflowError)
  | .float .negZero => .ok 0
  | .float (.fin q) => .ok (PyFloat.truncRat q)
  | .str s =>
    match intOfStr s with
    | some n => .ok n
    | none => .error (.builtin .valueError)
  | _ => .error (.builtin .typeError)

/-- `datetime.fromtimestamp(sec)`; only success matters to its callers. -/
def fromTimestampInt (sec : ℤ) : Except PyExc Unit :=
  if minTime ≤ sec ∧ sec ≤ maxTime then .ok () else .error (.builtin .valueError)

/-- `datetime.fromtimestamp(t)` of a float, rounded to microseconds first. -/
def fromTimestampFloat : PyFloat → Except PyExc Unit
  | .nan => .error (.builtin .valueError)
  | .inf _ => .error (.builtin .overflowError)
  | .negZero => fromTimestampInt 0
  | .fin q => fromTimestampInt (roundHalfEven (q * 1000000) / 1000000)

def timesThousand : Json → Except PyExc Json
  | .int n => .ok (.int (n * 1000))
  | .bool b => .ok (.int (if b then 1000 else 0))
  | .float f => .ok (.float f.timesThousand)
  | .str s => .ok (.str (String.ofList (List.replicate 1000 s.toList).flatten))
  | .arr l => .ok (.arr (List.replicate 1000 l).flatten)
  | _ => .error (.builtin .typeError)

end Numbers

end TvEvents
