import Mathlib.Data.List.Sort
import Mathlib.Order.Basic

variable {α : Type*} [LinearOrder α]

/-- At least `pct` percent of the entries are at most `v`, and at least the rest are at least `v`. -/
structure IsQuantile (l : List α) (pct : ℕ) (v : α) : Prop where
  mem : v ∈ l
  below : pct * l.length ≤ 100 * l.countP (· ≤ v)
  above : (100 - pct) * l.length ≤ 100 * l.countP (v ≤ ·)

namespace IsQuantile

theorem perm {l l' : List α} {pct : ℕ} {v : α} (h : IsQuantile l pct v) (hperm : l.Perm l') :
    IsQuantile l' pct v := by
  refine ⟨hperm.mem_iff.mp h.mem, ?_, ?_⟩
  · rw [← hperm.length_eq, ← hperm.countP_eq]
    exact h.below
  · rw [← hperm.length_eq, ← hperm.countP_eq]
    exact h.above

/-- In a sorted list the entries up to an index are at most the one there. -/
theorem countP_below {l : List α} (hsorted : l.Pairwise (· ≤ ·)) {i : ℕ} (hi : i < l.length) :
    i + 1 ≤ l.countP (· ≤ l[i]) := by
  induction l generalizing i with
  | nil => simp at hi
  | cons a l ih =>
    obtain ⟨hhead, htail⟩ := List.pairwise_cons.mp hsorted
    cases i with
    | zero =>
      rw [List.getElem_cons_zero, List.countP_cons_of_pos (by simp)]
      omega
    | succ i =>
      have hlen : i < l.length := by simpa using hi
      have hle : a ≤ l[i] := hhead _ (List.getElem_mem hlen)
      have hrest := ih htail hlen
      rw [List.getElem_cons_succ, List.countP_cons_of_pos (by simpa using hle)]
      omega

theorem countP_above {l : List α} (hsorted : l.Pairwise (· ≤ ·)) {i : ℕ} (hi : i < l.length) :
    l.length ≤ l.countP (l[i] ≤ ·) + i := by
  induction l generalizing i with
  | nil => simp at hi
  | cons a l ih =>
    obtain ⟨hhead, htail⟩ := List.pairwise_cons.mp hsorted
    cases i with
    | zero =>
      have hall : (a :: l).countP (a ≤ ·) = (a :: l).length := by
        apply List.countP_eq_length.mpr
        intro b hb
        rcases List.mem_cons.mp hb with rfl | hb
        · simp
        · simpa using hhead b hb
      rw [List.getElem_cons_zero, hall]
      omega
    | succ i =>
      have hlen : i < l.length := by simpa using hi
      have hrest := ih htail hlen
      have hcons : l.countP (l[i] ≤ ·) ≤ (a :: l).countP (l[i] ≤ ·) :=
        (List.sublist_cons_self a l).countP_le
      rw [List.getElem_cons_succ, List.length_cons]
      omega

/-- An entry of a sorted list is a quantile when its index is close enough to the share. -/
theorem of_sorted {l : List α} (hsorted : l.Pairwise (· ≤ ·)) {pct i : ℕ} (hi : i < l.length)
    (hlow : pct * l.length ≤ 100 * (i + 1)) (hhigh : 100 * i ≤ pct * l.length) :
    IsQuantile l pct l[i] := by
  have hbelow := countP_below hsorted hi
  have habove := countP_above hsorted hi
  refine ⟨List.getElem_mem hi, ?_, ?_⟩
  · omega
  · rw [Nat.sub_mul]
    omega

end IsQuantile
