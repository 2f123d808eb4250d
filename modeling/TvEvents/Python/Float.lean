import Mathlib.Data.Rat.Floor
import Mathlib.Data.Int.Log

namespace TvEvents

/-- Round to the nearest integer, ties to even. -/
def roundHalfEven (q : ℚ) : ℤ :=
  let d := q - ⌊q⌋
  if d < 1 / 2 then ⌊q⌋
  else if 1 / 2 < d then ⌊q⌋ + 1
  else if ⌊q⌋ % 2 = 0 then ⌊q⌋ else ⌊q⌋ + 1

theorem roundHalfEven_floor (q : ℚ) : roundHalfEven q = ⌊q⌋ ∨ roundHalfEven q = ⌊q⌋ + 1 := by
  unfold roundHalfEven
  simp only
  split_ifs <;> simp

theorem roundHalfEven_ge {n : ℤ} {q : ℚ} (h : (n : ℚ) ≤ q) : n ≤ roundHalfEven q := by
  have hf : n ≤ ⌊q⌋ := Int.le_floor.mpr h
  rcases roundHalfEven_floor q with hr | hr <;> omega

theorem roundHalfEven_le {n : ℤ} {q : ℚ} (h : q ≤ (n : ℚ)) : roundHalfEven q ≤ n := by
  rcases h.lt_or_eq with hlt | heq
  · have hf : ⌊q⌋ < n := Int.floor_lt.mpr hlt
    rcases roundHalfEven_floor q with hr | hr <;> omega
  · have hf : ⌊q⌋ = n := by rw [heq, Int.floor_intCast]
    have hd : q - (⌊q⌋ : ℚ) < 1 / 2 := by rw [hf, heq]; norm_num
    have hr : roundHalfEven q = ⌊q⌋ := by simp only [roundHalfEven, hd, if_true]
    omega

/-- A binary64 value; a finite one is carried as its exact rational. -/
inductive PyFloat
  | nan
  | inf (neg : Bool)
  | negZero
  | fin (q : ℚ)
  deriving DecidableEq

namespace PyFloat

/-- The binary64 value nearest to `q`, ties to even, with gradual underflow and overflow. -/
def ofRat (q : ℚ) : PyFloat :=
  if q = 0 then .fin 0
  else
    let e := max (Int.log 2 |q| - 52) (-1074)
    let r := (roundHalfEven (q / 2 ^ e) : ℚ) * 2 ^ e
    if r = 0 then (if q < 0 then .negZero else .fin 0)
    else if 2 ^ 1024 ≤ |r| then .inf (decide (q < 0))
    else .fin r

def toRat? : PyFloat → Option ℚ
  | .fin q => some q
  | .negZero => some 0
  | _ => none

def truthy (f : PyFloat) : Bool := f.toRat? != some 0

def timesThousand : PyFloat → PyFloat
  | .fin q => ofRat (q * 1000)
  | f => f

def truncRat (q : ℚ) : ℤ := if 0 ≤ q then ⌊q⌋ else ⌈q⌉

end PyFloat

end TvEvents
