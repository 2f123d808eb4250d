import Mathlib.Algebra.GroupWithZero.Nat
import Mathlib.Data.List.Nodup
import Mathlib.Data.List.Forall2

/-- A map that remembers insertion order: no key occurs twice. -/
@[ext] structure OrderedMap (α β : Type*) where
  entries : List (α × β)
  nodup : (entries.map Prod.fst).Nodup
  deriving DecidableEq

namespace OrderedMap

variable {α β : Type*} [DecidableEq α]

/-- The value of the first entry of `k`. -/
def find (k : α) : List (α × β) → Option β
  | [] => none
  | e :: es => if e.1 = k then some e.2 else find k es

/-- Replace the value of `k` where it stands, or append `k` at the end. -/
def setEntries (k : α) (v : β) : List (α × β) → List (α × β)
  | [] => [(k, v)]
  | e :: es => if e.1 = k then (k, v) :: es else e :: setEntries k v es

/-- The keys that `ks` adds to `seen`, in the order of their first occurrence. -/
def newKeys (seen : List α) : List α → List α
  | [] => []
  | k :: ks => if k ∈ seen then newKeys seen ks else k :: newKeys (seen ++ [k]) ks

/-- The value that the last write of `k` carries. -/
def lastWrite (k : α) : List (α × β) → Option β
  | [] => none
  | w :: ws => (lastWrite k ws).or (if w.1 = k then some w.2 else none)

/-- The entries after the first one of `k`. -/
def after (k : α) : List (α × β) → List (α × β)
  | [] => []
  | e :: es => if e.1 = k then es else after k es

/-- The last write of `k`, if there is one, carries `v`. -/
def NotShadowed (k : α) (v : β) (ws : List (α × β)) : Prop := ∀ w, lastWrite k ws = some w → w = v

theorem find_isSome (k : α) (es : List (α × β)) :
    (find k es).isSome ↔ k ∈ es.map Prod.fst := by
  induction es with
  | nil => simp [find]
  | cons e es ih =>
    by_cases h : e.1 = k
    · simp [find, h]
    · simpa [find, h, Ne.symm h] using ih

theorem find_eq_none {k : α} {es : List (α × β)} (h : k ∉ es.map Prod.fst) :
    find k es = none := by
  rw [← Option.not_isSome_iff_eq_none, find_isSome]
  exact h

/-- Entries of other keys may be dropped. -/
theorem find_filter {k : α} {p : α → Bool} (hk : p k = true) (es : List (α × β)) :
    find k (es.filter fun e => p e.1) = find k es := by
  induction es with
  | nil => rfl
  | cons e es ih =>
    by_cases he : p e.1 = true
    · simp [he, find, ih]
    · have hne : e.1 ≠ k := by
        rintro rfl
        exact he hk
      simp [he, find, hne, ih]

theorem find_map (k : α) (f : α → β → β) (es : List (α × β)) :
    find k (es.map fun e => (e.1, f e.1 e.2)) = (find k es).map (f k) := by
  induction es with
  | nil => rfl
  | cons e es ih =>
    rw [List.map_cons, find, find, ih]
    split_ifs with hk
    · rw [← hk, Option.map_some]
    · rfl

theorem setEntries_keys (k : α) (v : β) (es : List (α × β)) :
    (setEntries k v es).map Prod.fst =
      if k ∈ es.map Prod.fst then es.map Prod.fst else es.map Prod.fst ++ [k] := by
  induction es with
  | nil => simp [setEntries]
  | cons e es ih =>
    by_cases h : e.1 = k
    · simp [setEntries, h]
    · have hk : k ≠ e.1 := Ne.symm h
      rw [setEntries, if_neg h, List.map_cons, ih]
      split_ifs with h1 h2 h2 <;> simp_all

theorem setEntries_find (k k' : α) (v : β) (es : List (α × β)) :
    find k' (setEntries k v es) = if k' = k then some v else find k' es := by
  induction es with
  | nil =>
    by_cases h : k' = k
    · simp [setEntries, find, h]
    · simp [setEntries, find, h, Ne.symm h]
  | cons e es ih =>
    by_cases h : e.1 = k
    · by_cases hk : k' = k
      · simp [setEntries, find, h, hk]
      · simp [setEntries, find, h, hk, Ne.symm hk]
    · by_cases hk : e.1 = k'
      · have hne : k' ≠ k := by rw [← hk]; exact h
        simp [setEntries, find, hk, hne]
      · simp [setEntries, find, h, hk, ih]

def empty : OrderedMap α β := ⟨[], List.nodup_nil⟩

def keys (m : OrderedMap α β) : List α := m.entries.map Prod.fst

def get? (m : OrderedMap α β) (k : α) : Option β := find k m.entries

def set (m : OrderedMap α β) (k : α) (v : β) : OrderedMap α β :=
  ⟨setEntries k v m.entries, by
    rw [setEntries_keys]
    split_ifs with h
    · exact m.nodup
    · refine List.nodup_append.mpr ⟨m.nodup, by simp, ?_⟩
      rintro a ha b hb rfl
      exact h (by simpa [List.mem_singleton.mp hb] using ha)⟩

/-- Writes are performed one by one; a later write replaces the value in place. -/
def write (m : OrderedMap α β) (ws : List (α × β)) : OrderedMap α β :=
  ws.foldl (fun m w => m.set w.1 w.2) m

def update (m m' : OrderedMap α β) : OrderedMap α β := m.write m'.entries

def ofWrites (ws : List (α × β)) : OrderedMap α β := empty.write ws

@[simp] theorem empty_get? (k : α) : (empty : OrderedMap α β).get? k = none := rfl

@[simp] theorem set_get? (m : OrderedMap α β) (k k' : α) (v : β) :
    (m.set k v).get? k' = if k' = k then some v else m.get? k' :=
  setEntries_find k k' v m.entries

theorem set_keys (m : OrderedMap α β) (k : α) (v : β) :
    (m.set k v).keys = if k ∈ m.keys then m.keys else m.keys ++ [k] :=
  setEntries_keys k v m.entries

@[simp] theorem write_nil (m : OrderedMap α β) : m.write [] = m := rfl

@[simp] theorem write_cons (m : OrderedMap α β) (w : α × β) (ws : List (α × β)) :
    m.write (w :: ws) = (m.set w.1 w.2).write ws := rfl

theorem write_append (m : OrderedMap α β) (ws ws' : List (α × β)) :
    m.write (ws ++ ws') = (m.write ws).write ws' := List.foldl_append

theorem ofWrites_append (ws ws' : List (α × β)) : ofWrites (ws ++ ws') = (ofWrites ws).write ws' :=
  write_append empty ws ws'

theorem lastWrite_append (k : α) (ws ws' : List (α × β)) :
    lastWrite k (ws ++ ws') = (lastWrite k ws').or (lastWrite k ws) := by
  induction ws with
  | nil => simp [lastWrite]
  | cons w ws ih => simp [lastWrite, ih, Option.or_assoc]

/-- A value that is written stays the last one exactly when no later write carries another one. -/
theorem lastWrite_append_eq_iff {k : α} {v : β} {ws : List (α × β)} (h : lastWrite k ws = some v)
    (ws' : List (α × β)) : lastWrite k (ws ++ ws') = some v ↔ NotShadowed k v ws' := by
  rw [lastWrite_append, h, NotShadowed]
  cases lastWrite k ws' with
  | none => simp
  | some w => simp

theorem lastWrite_isSome (k : α) (ws : List (α × β)) :
    (lastWrite k ws).isSome ↔ k ∈ ws.map Prod.fst := by
  induction ws with
  | nil => simp [lastWrite]
  | cons w ws ih =>
    by_cases h : w.1 = k
    · simp [lastWrite, h]
    · simpa [lastWrite, h, Ne.symm h] using ih

theorem lastWrite_eq_none {k : α} {ws : List (α × β)} (h : k ∉ ws.map Prod.fst) :
    lastWrite k ws = none := by
  rw [← Option.not_isSome_iff_eq_none, lastWrite_isSome]
  exact h

/-- Without repeated keys the last write of a key is its only entry. -/
theorem lastWrite_eq_find {es : List (α × β)} (hn : (es.map Prod.fst).Nodup) (k : α) :
    lastWrite k es = find k es := by
  induction es with
  | nil => rfl
  | cons e es ih =>
    obtain ⟨hnew, hrest⟩ := List.nodup_cons.mp hn
    rw [lastWrite, find, ih hrest]
    split_ifs with h
    · rw [find_eq_none (by rwa [← h]), Option.none_or]
    · simp

theorem write_get? (m : OrderedMap α β) (ws : List (α × β)) (k : α) :
    (m.write ws).get? k = (lastWrite k ws).or (m.get? k) := by
  induction ws generalizing m with
  | nil => simp [lastWrite]
  | cons w ws ih =>
    rw [write_cons, ih, set_get?, lastWrite, Option.or_assoc]
    by_cases h : w.1 = k
    · simp [h]
    · simp [h, Ne.symm h]

theorem write_keys (m : OrderedMap α β) (ws : List (α × β)) :
    (m.write ws).keys = m.keys ++ newKeys m.keys (ws.map Prod.fst) := by
  induction ws generalizing m with
  | nil => simp [newKeys]
  | cons w ws ih =>
    rw [write_cons, ih, set_keys, List.map_cons, newKeys]
    split_ifs <;> simp

@[simp] theorem ofWrites_get? (ws : List (α × β)) (k : α) :
    (ofWrites ws).get? k = lastWrite k ws := by
  rw [ofWrites, write_get?, empty_get?, Option.or_none]

theorem ofWrites_keys (ws : List (α × β)) :
    (ofWrites ws).keys = newKeys [] (ws.map Prod.fst) := by
  rw [ofWrites, write_keys]
  rfl

omit [DecidableEq α] in
private theorem keys_head {e e' : α × β} {es es' : List (α × β)}
    (h : (e :: es).map Prod.fst = (e' :: es').map Prod.fst) :
    e.1 = e'.1 ∧ es.map Prod.fst = es'.map Prod.fst := by
  simpa using h

theorem entries_ext {es es' : List (α × β)} (hn : (es.map Prod.fst).Nodup)
    (hk : es.map Prod.fst = es'.map Prod.fst) (hv : ∀ k, find k es = find k es') : es = es' := by
  induction es generalizing es' with
  | nil => simpa using hk.symm
  | cons e es ih =>
    cases es' with
    | nil => simp at hk
    | cons e' es' =>
      obtain ⟨hhead, htail⟩ := keys_head hk
      obtain ⟨hnew, hrest⟩ := List.nodup_cons.mp hn
      have hval : e.2 = e'.2 := by simpa [find, hhead] using hv e'.1
      have hsame : ∀ k, find k es = find k es' := by
        intro k
        by_cases h : e.1 = k
        · rw [find_eq_none (by rwa [← h]), find_eq_none (by rwa [← h, ← htail])]
        · have h' : ¬e'.1 = k := by rwa [← hhead]
          simpa [find, h, h'] using hv k
      rw [Prod.ext hhead hval, ih hrest htail hsame]

/-- Two maps with the same key order and the same lookups are equal. -/
theorem eq_of_keys_of_get? {m m' : OrderedMap α β} (hk : m.keys = m'.keys)
    (hv : ∀ k, m.get? k = m'.get? k) : m = m' :=
  OrderedMap.ext (entries_ext m.nodup hk hv)

theorem mem_keys_iff (m : OrderedMap α β) (k : α) : k ∈ m.keys ↔ (m.get? k).isSome :=
  (find_isSome k m.entries).symm

/-- Dropping repeated keys early does not change which keys are new. -/
theorem newKeys_newKeys (seen seen' : List α) (ks : List α) (h : ∀ k ∈ seen', k ∈ seen) :
    newKeys seen (newKeys seen' ks) = newKeys seen ks := by
  induction ks generalizing seen seen' with
  | nil => rfl
  | cons k ks ih =>
    by_cases h' : k ∈ seen'
    · simp [newKeys, h', h k h', ih seen seen' h]
    · by_cases hk : k ∈ seen
      · have hs : ∀ a ∈ seen' ++ [k], a ∈ seen := by
          intro a ha
          rcases List.mem_append.mp ha with ha | ha
          · exact h a ha
          · rwa [List.mem_singleton.mp ha]
        simp [newKeys, h', hk, ih seen _ hs]
      · have hs : ∀ a ∈ seen' ++ [k], a ∈ seen ++ [k] := by
          intro a ha
          rcases List.mem_append.mp ha with ha | ha
          · exact List.mem_append_left _ (h a ha)
          · exact List.mem_append_right _ ha
        simp [newKeys, h', hk, ih _ _ hs]

/-- Merging a map built by writes is performing the writes. -/
theorem update_ofWrites (m : OrderedMap α β) (ws : List (α × β)) :
    m.update (ofWrites ws) = m.write ws := by
  apply eq_of_keys_of_get?
  · rw [update, write_keys, write_keys]
    have hk : (ofWrites ws).entries.map Prod.fst = newKeys [] (ws.map Prod.fst) := ofWrites_keys ws
    rw [hk, newKeys_newKeys _ _ _ (by simp)]
  · intro k
    rw [update, write_get?, write_get?, lastWrite_eq_find (ofWrites ws).nodup]
    change ((ofWrites ws).get? k).or _ = _
    rw [ofWrites_get?]

theorem newKeys_of_nodup {seen ks : List α} (hn : ks.Nodup) (hs : ∀ k ∈ ks, k ∉ seen) :
    newKeys seen ks = ks := by
  induction ks generalizing seen with
  | nil => rfl
  | cons k ks ih =>
    obtain ⟨hnew, hrest⟩ := List.nodup_cons.mp hn
    rw [newKeys, if_neg (hs k List.mem_cons_self), ih hrest]
    intro a ha hmem
    rcases List.mem_append.mp hmem with hmem | hmem
    · exact hs a (List.mem_cons_of_mem _ ha) hmem
    · rw [List.mem_singleton.mp hmem] at ha
      exact hnew ha

/-- A map is rebuilt from its own entries. -/
theorem ofWrites_entries (m : OrderedMap α β) : ofWrites m.entries = m := by
  apply eq_of_keys_of_get?
  · rw [ofWrites_keys]
    exact newKeys_of_nodup m.nodup (by simp)
  · intro k
    rw [ofWrites_get?]
    exact lastWrite_eq_find m.nodup k

theorem mem_of_find {e : α × β} {es : List (α × β)} (hn : (es.map Prod.fst).Nodup) (he : e ∈ es) :
    find e.1 es = some e.2 := by
  induction es with
  | nil => cases he
  | cons e' es ih =>
    obtain ⟨hnew, hrest⟩ := List.nodup_cons.mp hn
    rcases List.mem_cons.mp he with rfl | he
    · simp [find]
    · have hne : e'.1 ≠ e.1 := by
        intro h
        apply hnew
        rw [h]
        exact List.mem_map_of_mem he
      rw [find, if_neg hne, ih hrest he]

theorem lastWrite_mem {k : α} {v : β} {ws : List (α × β)} (h : lastWrite k ws = some v) :
    (k, v) ∈ ws := by
  induction ws with
  | nil => cases h
  | cons w ws ih =>
    rw [lastWrite] at h
    cases hlast : lastWrite k ws with
    | some v' =>
      rw [hlast, Option.some_or] at h
      exact List.mem_cons_of_mem _ (ih (by rw [hlast, h]))
    | none =>
      rw [hlast, Option.none_or] at h
      split_ifs at h with hk
      rw [← hk, ← Option.some.inj h]
      exact List.mem_cons_self

/-- What a map built by writes holds has been written. -/
theorem mem_ofWrites {e : α × β} {ws : List (α × β)} (h : e ∈ (ofWrites ws).entries) : e ∈ ws := by
  have hget : (ofWrites ws).get? e.1 = some e.2 := mem_of_find (ofWrites ws).nodup h
  rw [ofWrites_get?] at hget
  exact lastWrite_mem hget

theorem newKeys_sublist (seen ks : List α) : (newKeys seen ks).Sublist ks := by
  induction ks generalizing seen with
  | nil => exact .slnil
  | cons k ks ih =>
    rw [newKeys]
    split_ifs
    · exact (ih seen).cons k
    · exact (ih _).cons_cons k

/-- Every write has an entry of its own exactly when no key is written twice. -/
theorem ofWrites_length_iff (ws : List (α × β)) :
    (ofWrites ws).entries.length = ws.length ↔ (ws.map Prod.fst).Nodup := by
  have hkeys : (ofWrites ws).entries.map Prod.fst = newKeys [] (ws.map Prod.fst) := ofWrites_keys ws
  have hlen : (ofWrites ws).entries.length = (newKeys [] (ws.map Prod.fst)).length := by
    rw [← hkeys, List.length_map]
  constructor
  · intro h
    have hall : newKeys [] (ws.map Prod.fst) = ws.map Prod.fst := by
      apply (newKeys_sublist [] _).eq_of_length
      rw [← hlen, h, List.length_map]
    rw [← hall, ← hkeys]
    exact (ofWrites ws).nodup
  · intro hn
    rw [hlen, newKeys_of_nodup hn (by simp), List.length_map]

/-- Writing the value that a key has already changes nothing. -/
theorem ofWrites_again {ws : List (α × β)} {k : α} {v : β} (h : lastWrite k ws = some v) :
    ofWrites (ws ++ [(k, v)]) = ofWrites ws := by
  have hset : ofWrites (ws ++ [(k, v)]) = (ofWrites ws).set k v := ofWrites_append ws [(k, v)]
  have hmem : k ∈ (ofWrites ws).keys := by
    rw [mem_keys_iff, ofWrites_get?, h]
    rfl
  rw [hset]
  apply eq_of_keys_of_get?
  · rw [set_keys, if_pos hmem]
  · intro k'
    rw [set_get?]
    split_ifs with hk
    · rw [hk, ofWrites_get?, h]
    · rfl

theorem setEntries_sum (k : α) (v : ℕ) (es : List (α × ℕ)) :
    ((setEntries k v es).map Prod.snd).sum + (find k es).getD 0 = (es.map Prod.snd).sum + v := by
  induction es with
  | nil => simp [setEntries, find]
  | cons e es ih =>
    rw [setEntries, find]
    split_ifs with hk
    · simp only [List.map_cons, List.sum_cons, Option.getD_some]
      omega
    · simp only [List.map_cons, List.sum_cons]
      omega

/-- Counting one more of `k` adds one to all counts together. -/
theorem count_sum (m : OrderedMap α ℕ) (k : α) :
    ((m.set k ((m.get? k).getD 0 + 1)).entries.map Prod.snd).sum = (m.entries.map Prod.snd).sum + 1 := by
  have hsum := setEntries_sum k ((m.get? k).getD 0 + 1) m.entries
  have hfind : find k m.entries = m.get? k := rfl
  rw [hfind] at hsum
  show ((setEntries k ((m.get? k).getD 0 + 1) m.entries).map Prod.snd).sum = _
  omega

/-- Two write logs describe one map: keys first appear in one order and end with one value. -/
def SameMap (ws ws' : List (α × β)) : Prop :=
  newKeys [] (ws.map Prod.fst) = newKeys [] (ws'.map Prod.fst) ∧
    ∀ k, lastWrite k ws = lastWrite k ws'

theorem SameMap.refl (ws : List (α × β)) : SameMap ws ws := ⟨rfl, fun _ => rfl⟩

theorem ofWrites_eq_iff (ws ws' : List (α × β)) : ofWrites ws = ofWrites ws' ↔ SameMap ws ws' := by
  constructor
  · intro h
    refine ⟨by rw [← ofWrites_keys, ← ofWrites_keys, h], fun k => ?_⟩
    rw [← ofWrites_get?, ← ofWrites_get?, h]
  · intro hparts
    obtain ⟨hk, hv⟩ := hparts
    exact eq_of_keys_of_get? (by rw [ofWrites_keys, ofWrites_keys, hk])
      (fun k => by rw [ofWrites_get?, ofWrites_get?, hv k])

/-- Write by write the same key, and the same value unless the key is masked. -/
def AgreeOff (masked : List α) (ws ws' : List (α × β)) : Prop :=
  List.Forall₂ (fun w w' => w.1 = w'.1 ∧ (w.1 ∉ masked → w.2 = w'.2)) ws ws'

omit [DecidableEq α] in
theorem AgreeOff.keys {masked : List α} {ws ws' : List (α × β)} (h : AgreeOff masked ws ws') :
    ws.map Prod.fst = ws'.map Prod.fst := by
  induction h with
  | nil => rfl
  | cons hw _ ih => rw [List.map_cons, List.map_cons, hw.1, ih]

theorem AgreeOff.lastWrite {masked : List α} {ws ws' : List (α × β)} (h : AgreeOff masked ws ws')
    {k : α} (hk : k ∉ masked) : lastWrite k ws = lastWrite k ws' := by
  induction h with
  | nil => rfl
  | @cons w w' ws ws' hw _ ih =>
    rw [OrderedMap.lastWrite, OrderedMap.lastWrite, ih, ← hw.1]
    split_ifs with hw1
    · rw [hw.2 (by rwa [hw1])]
    · rfl

omit [DecidableEq α] in
theorem AgreeOff.append {masked : List α} {ws ws' us us' : List (α × β)}
    (h : AgreeOff masked ws ws') (h' : AgreeOff masked us us') :
    AgreeOff masked (ws ++ us) (ws' ++ us') := List.rel_append h h'

omit [DecidableEq α] in
theorem AgreeOff.refl (masked : List α) (ws : List (α × β)) : AgreeOff masked ws ws := by
  induction ws with
  | nil => exact .nil
  | cons w ws ih => exact .cons ⟨rfl, fun _ => rfl⟩ ih

/-- Logs that agree off the masked keys give one map once every masked key is overwritten. -/
theorem AgreeOff.ofWrites_masked {ws ws' us : List (α × β)}
    (h : AgreeOff (us.map Prod.fst) ws ws') : ofWrites (ws ++ us) = ofWrites (ws' ++ us) := by
  rw [ofWrites_eq_iff]
  refine ⟨by rw [List.map_append, List.map_append, h.keys], fun k => ?_⟩
  rw [lastWrite_append, lastWrite_append]
  by_cases hk : k ∈ us.map Prod.fst
  · obtain ⟨v, hv⟩ := Option.isSome_iff_exists.mp ((lastWrite_isSome k us).mpr hk)
    rw [hv, Option.some_or, Option.some_or]
  · rw [h.lastWrite hk]

/-- The writes of a log that are marked as kept. -/
def keptWrites (ms : List (Bool × (α × β))) : List (α × β) := (ms.filter Prod.fst).map Prod.snd

/-- A write that can be left out where it stands: its key has come up before or is the next new one
of the writes that are kept, and its value is written over or is the one that these end with. -/
structure Redundant (before : List (Bool × (α × β))) (w : α × β)
    (after : List (Bool × (α × β))) : Prop where
  key : w.1 ∉ before.map (fun m => m.2.1) → (newKeys (before.map fun m => m.2.1)
    ((keptWrites after).map Prod.fst)).head? = some w.1
  value : w.1 ∉ after.map (fun m => m.2.1) → lastWrite w.1 (keptWrites before) = some w.2

omit [DecidableEq α] in
@[simp] theorem keptWrites_cons (b : Bool) (w : α × β) (ms : List (Bool × (α × β))) :
    keptWrites ((b, w) :: ms) = if b then w :: keptWrites ms else keptWrites ms := by
  cases b <;> rfl

omit [DecidableEq α] in
theorem keptWrites_append (ms ms' : List (Bool × (α × β))) :
    keptWrites (ms ++ ms') = keptWrites ms ++ keptWrites ms' := by
  simp [keptWrites]

omit [DecidableEq α] in
/-- A log of kept writes only. -/
theorem keptWrites_all (ws : List (α × β)) : keptWrites (ws.map (Prod.mk true)) = ws := by
  induction ws with
  | nil => rfl
  | cons w ws ih => rw [List.map_cons, keptWrites_cons, if_pos rfl, ih]

omit [DecidableEq α] in
theorem not_mem_keptWrites {k : α} {ms : List (Bool × (α × β))}
    (h : k ∉ ms.map fun m => m.2.1) : k ∉ (keptWrites ms).map Prod.fst := by
  intro hk
  obtain ⟨w, hw, hwk⟩ := List.mem_map.mp hk
  obtain ⟨m, hm, hmw⟩ := List.mem_map.mp hw
  refine h (List.mem_map.mpr ⟨m, (List.mem_filter.mp hm).1, ?_⟩)
  rw [hmw, hwk]

theorem newKeys_congr {seen seen' : List α} (h : ∀ k, k ∈ seen ↔ k ∈ seen') (ks : List α) :
    newKeys seen ks = newKeys seen' ks := by
  induction ks generalizing seen seen' with
  | nil => rfl
  | cons k ks ih =>
    have hmore : ∀ k', k' ∈ seen ++ [k] ↔ k' ∈ seen' ++ [k] := by
      intro k'
      rw [List.mem_append, List.mem_append, h k']
    rw [newKeys, newKeys, ih h, ih hmore]
    simp only [h k]

theorem newKeys_head {seen ks : List α} {k : α} (h : (newKeys seen ks).head? = some k) :
    newKeys seen ks = k :: newKeys (seen ++ [k]) ks := by
  induction ks with
  | nil => cases h
  | cons k' ks ih =>
    rw [newKeys] at h
    split_ifs at h with hseen
    · have hseen' : k' ∈ seen ++ [k] := List.mem_append_left _ hseen
      rw [newKeys, if_pos hseen, newKeys, if_pos hseen', ih h]
    · obtain rfl : k' = k := Option.some.inj h
      have hself : k' ∈ seen ++ [k'] := List.mem_append_right _ List.mem_cons_self
      rw [newKeys, if_neg hseen, newKeys, if_pos hself]

omit [DecidableEq α] in
/-- A write that is not kept is the first of the log, or one of the others. -/
private theorem forall_unkept_cons {b : Bool} {w : α × β} {ms : List (Bool × (α × β))}
    {P : List (Bool × (α × β)) → α × β → List (Bool × (α × β)) → Prop} :
    (∀ before w' after, (b, w) :: ms = before ++ (false, w') :: after → P before w' after) ↔
      (b = false → P [] w ms) ∧ ∀ before w' after, ms = before ++ (false, w') :: after →
        P ((b, w) :: before) w' after := by
  constructor
  · intro h
    refine ⟨?_, fun before w' after hms => h ((b, w) :: before) w' after (by rw [hms]; rfl)⟩
    rintro rfl
    exact h [] w ms rfl
  · intro h before w' after hms
    cases before with
    | nil =>
      obtain ⟨hhead, rfl⟩ := List.cons.inj hms
      obtain ⟨rfl, rfl⟩ := Prod.mk.inj hhead
      exact h.1 rfl
    | cons m before =>
      obtain ⟨rfl, hrest⟩ := List.cons.inj hms
      exact h.2 before w' after hrest

/-- Keys that have been seen may be seen again. -/
private theorem newKeys_seen {seen : List α} {k : α} (hk : k ∈ seen) (ks ks' : List α) :
    newKeys (seen ++ k :: ks) ks' = newKeys (seen ++ ks) ks' := by
  apply newKeys_congr
  intro k'
  simp only [List.mem_append, List.mem_cons]
  constructor
  · rintro (h | rfl | h)
    · exact .inl h
    · exact .inl hk
    · exact .inr h
  · rintro (h | h)
    · exact .inl h
    · exact .inr (.inr h)

/-- Without the writes that are not kept the keys come up in the same order exactly when each of
these brings up no key, or the next one that the kept writes bring up. -/
private theorem newKeys_kept_iff (seen : List α) (ms : List (Bool × (α × β))) :
    newKeys seen ((keptWrites ms).map Prod.fst) = newKeys seen (ms.map fun m => m.2.1) ↔
      ∀ before w after, ms = before ++ (false, w) :: after →
        w.1 ∉ seen ++ before.map (fun m => m.2.1) →
          (newKeys (seen ++ before.map fun m => m.2.1)
            ((keptWrites after).map Prod.fst)).head? = some w.1 := by
  induction ms generalizing seen with
  | nil => simp [keptWrites]
  | cons m ms ih =>
    obtain ⟨b, w⟩ := m
    rw [forall_unkept_cons, keptWrites_cons, List.map_cons, newKeys, List.map_nil, List.append_nil]
    by_cases hw : w.1 ∈ seen
    · have hout : ∀ (before : List (Bool × (α × β))) (k : α),
          k ∉ seen ++ w.1 :: before.map (fun m => m.2.1) ↔
            k ∉ seen ++ before.map fun m => m.2.1 := by
        intro before k
        simp only [List.mem_append, List.mem_cons]
        constructor
        · exact fun h hk => h (hk.imp_right .inr)
        · rintro h (hk | rfl | hk)
          · exact h (.inl hk)
          · exact h (.inl hw)
          · exact h (.inr hk)
      simp only [List.map_cons, newKeys_seen hw, hout, hw, not_true, false_implies, implies_true,
        true_and, if_true]
      rw [← ih seen]
      cases b with
      | true => rw [if_pos rfl, List.map_cons, newKeys, if_pos hw]
      | false => rw [if_neg Bool.false_ne_true]
    · have hcons : ∀ before : List (Bool × (α × β)), seen ++ w.1 :: before.map (fun m => m.2.1) =
          (seen ++ [w.1]) ++ before.map fun m => m.2.1 := fun before => by simp
      simp only [List.map_cons, hcons, hw, not_false_iff, true_implies, if_false]
      rw [← ih (seen ++ [w.1])]
      cases b with
      | true =>
        rw [if_pos rfl, List.map_cons, newKeys, if_neg hw]
        simp
      | false =>
        rw [if_neg Bool.false_ne_true]
        constructor
        · intro h
          have hhead : (newKeys seen ((keptWrites ms).map Prod.fst)).head? = some w.1 := by rw [h]; rfl
          rw [newKeys_head hhead] at h
          exact ⟨fun _ => hhead, (List.cons.inj h).2⟩
        · intro h
          rw [newKeys_head (h.1 rfl), h.2]

/-- The last write of a key that is written. -/
private theorem exists_last_write {k : α} {ms : List (Bool × (α × β))}
    (h : k ∈ ms.map fun m => m.2.1) : ∃ before b v after,
      ms = before ++ (b, (k, v)) :: after ∧ k ∉ after.map fun m => m.2.1 := by
  induction ms with
  | nil => cases h
  | cons m ms ih =>
    by_cases hrest : k ∈ ms.map fun m => m.2.1
    · obtain ⟨before, b, v, after, rfl, hafter⟩ := ih hrest
      exact ⟨m :: before, b, v, after, rfl, hafter⟩
    · obtain ⟨b, k', v⟩ := m
      rcases List.mem_cons.mp h with rfl | h
      · exact ⟨[], b, v, ms, rfl, hrest⟩
      · exact absurd h hrest

private theorem lastWrite_last {k : α} {v : β} {before after : List (α × β)}
    (h : k ∉ after.map Prod.fst) : lastWrite k (before ++ (k, v) :: after) = some v := by
  rw [lastWrite_append, lastWrite, lastWrite_eq_none h]
  simp

/-- Without them every key ends with the same value exactly when each is written over, or has the
value that the kept writes before it end with. -/
private theorem lastWrite_kept_iff (ms : List (Bool × (α × β))) :
    (∀ k, lastWrite k (keptWrites ms) = lastWrite k (ms.map Prod.snd)) ↔
      ∀ before w after, ms = before ++ (false, w) :: after →
        w.1 ∉ after.map (fun m => m.2.1) → lastWrite w.1 (keptWrites before) = some w.2 := by
  have hkeys : ∀ ms : List (Bool × (α × β)), (ms.map Prod.snd).map Prod.fst =
      ms.map fun m => m.2.1 := fun ms => List.map_map
  constructor
  · intro h before w after hms hafter
    obtain ⟨k, v⟩ := w
    have hk := h k
    have hkept := lastWrite_eq_none (not_mem_keptWrites hafter)
    rw [hms, keptWrites_append, keptWrites_cons, if_neg Bool.false_ne_true, lastWrite_append,
      hkept, Option.none_or, List.map_append, List.map_cons,
      lastWrite_last (by rwa [hkeys])] at hk
    exact hk
  · intro h k
    by_cases hk : k ∈ ms.map fun m => m.2.1
    · obtain ⟨before, b, v, after, rfl, hafter⟩ := exists_last_write hk
      have hkept := not_mem_keptWrites hafter
      have hlast : lastWrite k ((before ++ (b, k, v) :: after).map Prod.snd) = some v := by
        rw [List.map_append, List.map_cons]
        exact lastWrite_last (by rwa [hkeys])
      rw [hlast, keptWrites_append, keptWrites_cons]
      cases b with
      | true => exact lastWrite_last hkept
      | false =>
        rw [if_neg Bool.false_ne_true, lastWrite_append, lastWrite_eq_none hkept, Option.none_or]
        exact h before (k, v) after rfl hafter
    · rw [lastWrite_eq_none (not_mem_keptWrites hk), lastWrite_eq_none (by rwa [hkeys])]

/-- A log and what is kept of it describe one map exactly when every write that is not kept can be
left out where it stands. -/
theorem sameMap_kept_iff (ms : List (Bool × (α × β))) :
    SameMap (keptWrites ms) (ms.map Prod.snd) ↔
      ∀ before w after, ms = before ++ (false, w) :: after → Redundant before w after := by
  have hkeys := newKeys_kept_iff [] ms
  have hvalues := lastWrite_kept_iff ms
  simp only [List.nil_append] at hkeys
  rw [SameMap, List.map_map, hvalues]
  constructor
  · intro hparts before w after hms
    exact ⟨hkeys.mp hparts.1 before w after hms, hparts.2 before w after hms⟩
  · intro hall
    exact ⟨hkeys.mpr fun before w after hms => (hall before w after hms).key,
      fun before w after hms => (hall before w after hms).value⟩

end OrderedMap
