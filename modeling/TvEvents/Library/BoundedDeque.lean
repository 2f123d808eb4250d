import Mathlib.Data.List.DropRight
import TvEvents.Library.Runs

/-- A list that keeps its last `n` entries. -/
structure BoundedDeque (α : Type*) (n : ℕ) where
  entries : List α
  bounded : entries.length ≤ n

namespace BoundedDeque

variable {α : Type*} {n : ℕ}

theorem length_rtake_le (l : List α) (n : ℕ) : (l.rtake n).length ≤ n := by
  rw [List.rtake, List.length_drop]
  omega

/-- The last entries of a list with more after it are those of the kept part with the same after. -/
theorem rtake_append_rtake (l m : List α) (n : ℕ) : (l.rtake n ++ m).rtake n = (l ++ m).rtake n := by
  have hkept : l.rtake n ++ m = (l ++ m).drop (l.length - n) := by
    rw [List.rtake, List.drop_append_of_le_length (Nat.sub_le _ _)]
  have hlength : (l.drop (l.length - n) ++ m).length = min l.length n + m.length := by
    rw [List.length_append, List.length_drop]
    omega
  have hdropped : l.length - n + (min l.length n + m.length - n) = l.length + m.length - n := by
    omega
  calc (l.rtake n ++ m).rtake n
      = (l.rtake n ++ m).drop (min l.length n + m.length - n) := by
        rw [List.rtake, List.rtake, hlength]
    _ = (l ++ m).drop (l.length + m.length - n) := by rw [hkept, List.drop_drop, hdropped]
    _ = (l ++ m).rtake n := by rw [List.rtake, List.length_append]

theorem rtake_of_length_le {l : List α} (h : l.length ≤ n) : l.rtake n = l := by
  rw [List.rtake, Nat.sub_eq_zero_of_le h, List.drop_zero]

theorem length_rtake (l : List α) (n : ℕ) : (l.rtake n).length = min n l.length := by
  rw [List.rtake, List.length_drop]
  omega

theorem rtake_min_length (l : List α) (n : ℕ) : l.rtake (min n l.length) = l.rtake n := by
  have hdrop : l.length - min n l.length = l.length - n := by omega
  rw [List.rtake, List.rtake, hdrop]

theorem rtake_suffix (l : List α) (n : ℕ) : l.rtake n <:+ l := List.drop_suffix _ _

theorem mem_rtake_concat (l : List α) (x : α) (hn : 0 < n) : x ∈ (l ++ [x]).rtake n := by
  obtain ⟨m, rfl⟩ : ∃ m, n = m + 1 := ⟨n - 1, by omega⟩
  rw [List.rtake_concat_succ]
  simp

/-- Leaving entries out leaves the last `n` as they are exactly when none of those is left out. -/
theorem rtake_filter_eq_iff (l : List α) (p : α → Bool) (n : ℕ) :
    (l.filter p).rtake n = l.rtake n ↔ ∀ a ∈ l.rtake n, p a = true := by
  constructor
  · intro h a ha
    rw [← h] at ha
    exact (List.mem_filter.mp ((rtake_suffix _ n).subset ha)).2
  · intro h
    obtain ⟨before, hsplit⟩ := rtake_suffix l n
    have hkept : (l.rtake n).filter p = l.rtake n := List.filter_eq_self.mpr h
    by_cases hlen : l.length ≤ n
    · rw [rtake_of_length_le hlen] at hkept ⊢
      rw [hkept, rtake_of_length_le hlen]
    · have hfull : (l.rtake n).length = n := by
        rw [List.rtake, List.length_drop]
        omega
      have hfilter : l.filter p = before.filter p ++ l.rtake n := by
        conv_lhs => rw [← hsplit]
        rw [List.filter_append, hkept]
      rw [hfilter, List.rtake, List.length_append, hfull, Nat.add_sub_cancel]
      exact List.drop_left

def empty : BoundedDeque α n := ⟨[], Nat.zero_le n⟩

/-- The oldest entry leaves a full deque. -/
def append (d : BoundedDeque α n) (x : α) : BoundedDeque α n :=
  ⟨(d.entries ++ [x]).rtake n, length_rtake_le _ _⟩

theorem entries_rtake (d : BoundedDeque α n) : d.entries.rtake n = d.entries :=
  rtake_of_length_le d.bounded

/-- After any number of entries the deque holds the last `n` of all. -/
theorem entries_foldl_append (d : BoundedDeque α n) (xs : List α) :
    (xs.foldl append d).entries = (d.entries ++ xs).rtake n := by
  induction xs generalizing d with
  | nil =>
    rw [List.foldl_nil, List.append_nil]
    exact d.entries_rtake.symm
  | cons x xs ih =>
    have hhead : (d.append x).entries = (d.entries ++ [x]).rtake n := rfl
    rw [List.foldl_cons, ih, hhead, rtake_append_rtake, List.append_assoc, List.singleton_append]

/-- A log that every step appends to, and cuts, ends with the last entries of all that a run shows. -/
theorem rtake_run {σ ι : Type*} {step : σ → ι → σ} {log : σ → List α} {shown : σ → ι → List α}
    (hstep : ∀ s i, (log s).length ≤ n → log (step s i) = (log s ++ shown s i).rtake n) {s : σ}
    (hs : (log s).length ≤ n) (is : List ι) :
    log (Runs.run step s is) = (log s ++ Runs.trace step shown s is).rtake n := by
  induction is generalizing s with
  | nil =>
    rw [Runs.trace, List.append_nil]
    exact (rtake_of_length_le hs).symm
  | cons i is ih =>
    have hhead := hstep s i hs
    have hbounded : (log (step s i)).length ≤ n := by
      rw [hhead]
      exact length_rtake_le _ _
    rw [Runs.run_cons, ih hbounded, hhead, rtake_append_rtake, Runs.trace, List.append_assoc]

end BoundedDeque
