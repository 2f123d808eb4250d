import TvEvents.Library.OrderedMap
import TvEvents.Library.Result
import TvEvents.Python.Float

namespace TvEvents

/-- A decoded JSON document; an object lists its members in order. -/
inductive Json
  | null
  | bool (b : Bool)
  | int (n : ℤ)
  | float (f : PyFloat)
  | str (s : String)
  | arr (l : List Json)
  | obj (kvs : List (String × Json))

/-- The flat dict that the pipeline fills and delivers. -/
abbrev PyDict := OrderedMap String Json

/-- Exceptions of the language and its libraries; `other` is one raised by a foreign module. -/
inductive Builtin
  | keyError (key : String)
  | typeError
  | attributeError
  | indexError
  | valueError
  | overflowError
  | importError
  | other (text : String)
  deriving DecidableEq

namespace Json

mutual

def beq : Json → Json → Bool
  | .null, .null => true
  | .bool a, .bool b => a == b
  | .int a, .int b => a == b
  | .float a, .float b => a == b
  | .str a, .str b => a == b
  | .arr a, .arr b => beqList a b
  | .obj a, .obj b => beqMembers a b
  | _, _ => false

def beqList : List Json → List Json → Bool
  | [], [] => true
  | a :: as, b :: bs => beq a b && beqList as bs
  | _, _ => false

def beqMembers : List (String × Json) → List (String × Json) → Bool
  | [], [] => true
  | (k, a) :: as, (k', b) :: bs => k == k' && beq a b && beqMembers as bs
  | _, _ => false

end

mutual

theorem beq_iff : ∀ a b : Json, beq a b = true ↔ a = b
  | .arr a, b => by cases b <;> simp [beq, beqList_iff a]
  | .obj a, b => by cases b <;> simp [beq, beqMembers_iff a]
  | .null, b => by cases b <;> simp [beq]
  | .bool a, b => by cases b <;> simp [beq]
  | .int a, b => by cases b <;> simp [beq]
  | .float a, b => by cases b <;> simp [beq]
  | .str a, b => by cases b <;> simp [beq]

theorem beqList_iff : ∀ a b : List Json, beqList a b = true ↔ a = b
  | [], b => by cases b <;> simp [beqList]
  | a :: as, b => by cases b <;> simp [beqList, beq_iff a, beqList_iff as]

theorem beqMembers_iff : ∀ a b : List (String × Json), beqMembers a b = true ↔ a = b
  | [], b => by cases b <;> simp [beqMembers]
  | (k, a) :: as, b => by
    cases b with
    | nil => simp [beqMembers]
    | cons e b => simp [beqMembers, beq_iff a, beqMembers_iff as, Prod.ext_iff, and_assoc]

end

instance : DecidableEq Json := fun a b => decidable_of_iff _ (beq_iff a b)

/-- `bool(v)`. -/
def truthy : Json → Bool
  | .null => false
  | .bool b => b
  | .int n => n != 0
  | .float f => f.truthy
  | .str s => s != ""
  | .arr l => !l.isEmpty
  | .obj kvs => !kvs.isEmpty

def isObj : Json → Bool
  | .obj _ => true
  | _ => false

/-- Member `k` of an object; nothing for any other value. -/
def member? (k : String) : Json → Option Json
  | .obj kvs => OrderedMap.find k kvs
  | _ => none

end Json

theorem isObj_obj {v : Json} (h : v.isObj = true) : ∃ kvs, v = .obj kvs := by
  cases v <;> simp [Json.isObj] at h
  exact ⟨_, rfl⟩

theorem member_obj {v x : Json} {k : String} (h : v.member? k = some x) :
    ∃ kvs, v = .obj kvs ∧ OrderedMap.find k kvs = some x := by
  cases v <;> simp [Json.member?] at h
  exact ⟨_, rfl, h⟩

end TvEvents
