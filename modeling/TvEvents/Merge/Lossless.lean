import TvEvents.Merge.Reference
import Mathlib.Data.List.Pairwise

namespace TvEvents

open OrderedMap

mutual

theorem leavesAt_path {path : List String} {kvs : List (String × Json)} {l : Leaf}
    (h : l ∈ leavesAt path kvs) : ∃ e ∈ kvs, l.path = path ∧ l.key = e.1 ∨ path ++ [e.1] <+: l.path := by
  match kvs with
  | [] => simp [leavesAt] at h
  | (k, v) :: rest =>
    rw [leavesAt] at h
    rcases List.mem_append.mp h with h | h
    · exact ⟨(k, v), List.mem_cons_self, memberLeavesAt_path h⟩
    · obtain ⟨e, he, hl⟩ := leavesAt_path h
      exact ⟨e, List.mem_cons_of_mem _ he, hl⟩

theorem memberLeavesAt_path {path : List String} {k : String} {v : Json} {l : Leaf}
    (h : l ∈ memberLeavesAt path k v) : l.path = path ∧ l.key = k ∨ path ++ [k] <+: l.path := by
  match v with
  | .obj sub =>
    rw [memberLeavesAt] at h
    obtain ⟨e, -, hl⟩ := leavesAt_path h
    right
    rcases hl with hl | hl
    · exact hl.1 ▸ List.prefix_rfl
    · exact (List.prefix_append _ _).trans hl
  | .null | .bool _ | .int _ | .float _ | .str _ | .arr _ =>
    simp only [memberLeavesAt, List.mem_singleton] at h
    subst h
    exact .inl ⟨rfl, rfl⟩

end

/-- Two members of one object that hold leaves of one object hold them themselves. -/
theorem same_object {path p : List String} {k k' a a' : String} (hk : k ≠ k')
    (h : p = path ∧ a = k ∨ path ++ [k] <+: p) (h' : p = path ∧ a' = k' ∨ path ++ [k'] <+: p) :
    a = k ∧ a' = k' := by
  have hinside : ∀ {k : String}, path ++ [k] <+: p → p ≠ path := by
    intro k hprefix heq
    have hlen := hprefix.length_le
    rw [heq, List.length_append, List.length_singleton] at hlen
    omega
  rcases h with ⟨hp, ha⟩ | h
  · rcases h' with ⟨-, ha'⟩ | h'
    · exact ⟨ha, ha'⟩
    · exact absurd hp (hinside h')
  · rcases h' with ⟨hp, -⟩ | h'
    · exact absurd hp (hinside h)
    · exfalso
      have heq : path ++ [k] = path ++ [k'] :=
        (List.prefix_of_prefix_length_le h h' (by simp)).eq_of_length (by simp)
      exact hk (by simpa using heq)

section Lossless

variable [Runtime]

mutual

/-- No two keys of an object are equal ignoring case, here and in the objects inside. -/
def DistinctKeys : List (String × Json) → Prop
  | [] => True
  | (k, v) :: rest => (∀ e ∈ rest, lower e.1 ≠ lower k) ∧ DistinctInside v ∧ DistinctKeys rest

def DistinctInside : Json → Prop
  | .obj sub => DistinctKeys sub
  | _ => True

end

mutual

def decDistinctKeys : (kvs : List (String × Json)) → Decidable (DistinctKeys kvs)
  | [] => .isTrue trivial
  | (k, v) :: rest =>
    have := decDistinctInside v
    have := decDistinctKeys rest
    inferInstanceAs (Decidable ((∀ e ∈ rest, lower e.1 ≠ lower k) ∧ _ ∧ _))

def decDistinctInside : (v : Json) → Decidable (DistinctInside v)
  | .obj sub => decDistinctKeys sub
  | .null | .bool _ | .int _ | .float _ | .str _ | .arr _ => .isTrue trivial

end

instance (kvs : List (String × Json)) : Decidable (DistinctKeys kvs) := decDistinctKeys kvs

/-- Every leaf is the value of an entry of its own. -/
structure KeepsLeaves (name : Leaf → String) (ls : List Leaf) (out : PyDict) : Prop where
  count : out.entries.length = ls.length
  value : ∀ l ∈ ls, out.get? (name l) = some l.value
  apart : ls.Pairwise fun l l' => name l ≠ name l'

/-- No two leaves of different objects have one output key. -/
def NoCollision (keyPrefix : String) (ls : List Leaf) : Prop :=
  ∀ l ∈ ls, ∀ l' ∈ ls, l.path ≠ l'.path → l.name keyPrefix ≠ l'.name keyPrefix

instance (keyPrefix : String) (ls : List Leaf) : Decidable (NoCollision keyPrefix ls) :=
  inferInstanceAs (Decidable (∀ l ∈ ls, ∀ l' ∈ ls, _ → _))

mutual

/-- Leaves of one object have keys that differ ignoring case. -/
theorem leavesAt_apart {path : List String} {kvs : List (String × Json)} (h : DistinctKeys kvs) :
    (leavesAt path kvs).Pairwise fun l l' => l.path = l'.path → lower l.key ≠ lower l'.key := by
  match kvs with
  | [] => simp [leavesAt]
  | (k, v) :: rest =>
    obtain ⟨hnew, hv, hrest⟩ := h
    rw [leavesAt]
    refine List.pairwise_append.mpr ⟨memberLeavesAt_apart hv, leavesAt_apart hrest, ?_⟩
    intro l hl l' hl' hpath
    obtain ⟨e, he, hpos'⟩ := leavesAt_path hl'
    have hpos := memberLeavesAt_path hl
    have hne : k ≠ e.1 := by
      intro heq
      apply hnew e he
      rw [heq]
    rw [← hpath] at hpos'
    obtain ⟨hkey, hkey'⟩ := same_object hne hpos hpos'
    rw [hkey, hkey']
    exact (hnew e he).symm

theorem memberLeavesAt_apart {path : List String} {k : String} {v : Json} (h : DistinctInside v) :
    (memberLeavesAt path k v).Pairwise fun l l' => l.path = l'.path → lower l.key ≠ lower l'.key := by
  match v with
  | .obj sub =>
    rw [memberLeavesAt]
    exact leavesAt_apart h
  | .null | .bool _ | .int _ | .float _ | .str _ | .arr _ => simp [memberLeavesAt]

end

theorem DistinctKeys.filter {kvs : List (String × Json)} (h : DistinctKeys kvs)
    (p : String × Json → Bool) : DistinctKeys (kvs.filter p) := by
  induction kvs with
  | nil => exact h
  | cons e kvs ih =>
    obtain ⟨hnew, hv, hrest⟩ := h
    have htail := ih hrest
    by_cases he : p e = true
    · rw [List.filter_cons_of_pos he]
      exact ⟨fun e' he' => hnew e' (List.mem_filter.mp he').1, hv, htail⟩
    · rw [List.filter_cons_of_neg he]
      exact htail

theorem name_eq_iff {keyPrefix : String} {l l' : Leaf} (h : l.path = l'.path) :
    l.name keyPrefix = l'.name keyPrefix ↔ lower l.key = lower l'.key := by
  rw [Leaf.name, Leaf.name, h]
  split_ifs
  · rfl
  · rw [Runtime.lower_join, Runtime.lower_join, String.append_right_inj]

theorem names_apart_iff {keyPrefix : String} {ls : List Leaf}
    (h : ls.Pairwise fun l l' => l.path = l'.path → lower l.key ≠ lower l'.key) :
    (ls.Pairwise fun l l' => l.name keyPrefix ≠ l'.name keyPrefix) ↔ NoCollision keyPrefix ls := by
  constructor
  · intro hall l hl l' hl' hpath
    have hsymm : Std.Symm fun l l' : Leaf => l.name keyPrefix ≠ l'.name keyPrefix :=
      ⟨fun _ _ hne => hne.symm⟩
    have hne : l ≠ l' := by
      rintro rfl
      exact hpath rfl
    exact hall.forall hl hl' hne
  · intro hno
    apply List.pairwise_iff_forall_sublist.mpr
    intro l l' hsub
    have hl : l ∈ ls := hsub.subset (by simp)
    have hl' : l' ∈ ls := hsub.subset (by simp)
    by_cases hpath : l.path = l'.path
    · intro hname
      exact List.pairwise_iff_forall_sublist.mp h hsub hpath ((name_eq_iff hpath).mp hname)
    · exact hno l hl l' hl' hpath

/-- Writing leaves one by one keeps them all exactly when their names differ. -/
theorem keepsLeaves_iff (keyPrefix : String) (ls : List Leaf) :
    KeepsLeaves (Leaf.name keyPrefix) ls (ofWrites (ls.map (Leaf.entry keyPrefix))) ↔
      ls.Pairwise fun l l' => l.name keyPrefix ≠ l'.name keyPrefix := by
  have hnames : (ls.map (Leaf.entry keyPrefix)).map Prod.fst = ls.map (Leaf.name keyPrefix) := by
    rw [List.map_map]
    rfl
  constructor
  · intro h
    exact h.apart
  · intro h
    have hnodup : ((ls.map (Leaf.entry keyPrefix)).map Prod.fst).Nodup := by
      rw [hnames]
      exact List.pairwise_map.mpr h
    refine ⟨?_, ?_, h⟩
    · rw [(ofWrites_length_iff _).mpr hnodup, List.length_map]
    · intro l hl
      rw [ofWrites_get?, lastWrite_eq_find hnodup]
      have hmem : l.entry keyPrefix ∈ ls.map (Leaf.entry keyPrefix) := List.mem_map_of_mem hl
      exact mem_of_find hnodup hmem

/-- Flattening keeps every leaf exactly when no two leaves of different objects collide. -/
theorem flattenRequestJson_keepsLeaves_iff (keyPrefix : String) (ignoreKeys : List String)
    {kvs : List (String × Json)} (h : DistinctKeys kvs) :
    (∃ out, flattenRequestJson (.obj kvs) keyPrefix ignoreKeys = .ok out ∧
        KeepsLeaves (Leaf.name keyPrefix) (requestLeaves ignoreKeys kvs) out) ↔
      NoCollision keyPrefix (requestLeaves ignoreKeys kvs) := by
  have hflat : flattenRequestJson (.obj kvs) keyPrefix ignoreKeys =
      .ok (ofWrites ((requestLeaves ignoreKeys kvs).map (Leaf.entry keyPrefix))) := by
    rw [flattenRequestJson_obj, requestLeaves_entries]
  have happart : (requestLeaves ignoreKeys kvs).Pairwise
      fun l l' => l.path = l'.path → lower l.key ≠ lower l'.key :=
    leavesAt_apart (h.filter fun e => !ignoreKeys.contains e.1)
  rw [hflat, ← names_apart_iff happart]
  simp only [Except.ok.injEq, exists_eq_left']
  exact keepsLeaves_iff keyPrefix _

end Lossless

section Samples

theorem flattenRequestJson_keepsLeaves_nested :
    let _ : Runtime := asciiRuntime
    let kvs := [("Outer", .obj [("A", .int 1)]), ("A", .int 2), ("Skip", .null)]
    ∃ out, flattenRequestJson (.obj kvs) "" ["Skip"] = .ok out ∧
      KeepsLeaves (Leaf.name "") (requestLeaves ["Skip"] kvs) out := by
  let _ : Runtime := asciiRuntime
  apply (flattenRequestJson_keepsLeaves_iff "" ["Skip"] (by decide +kernel)).mpr
  decide +kernel

/-- Of the objects around a leaf only the innermost one is named, so two of that name share keys. -/
theorem flatten_drops_leaf :
    let _ : Runtime := asciiRuntime
    let kvs := [("First", .obj [("Info", .obj [("Id", .int 1)])]),
      ("Second", .obj [("Info", .obj [("Id", .int 2)])])]
    DistinctKeys kvs ∧ ∀ out, flattenRequestJson (.obj kvs) "" [] = .ok out →
      ¬KeepsLeaves (Leaf.name "") (requestLeaves [] kvs) out := by
  intro _ kvs
  refine ⟨by decide +kernel, fun out hout hkeeps => ?_⟩
  rw [flattenRequestJson_obj] at hout
  have hlen := hkeeps.count
  rw [← Except.ok.inj hout] at hlen
  revert hlen
  decide +kernel

end Samples

end TvEvents
