import TvEvents.Merge.Leaves

namespace TvEvents

open OrderedMap

/-- A value that is no object, where it stands: the keys of the objects around it from the outside
in, and its own key. -/
structure Leaf where
  path : List String
  key : String
  value : Json

mutual

def leavesAt (path : List String) : List (String × Json) → List Leaf
  | [] => []
  | (k, v) :: rest => memberLeavesAt path k v ++ leavesAt path rest

def memberLeavesAt (path : List String) (k : String) : Json → List Leaf
  | .obj sub => leavesAt (path ++ [k]) sub
  | v => [⟨path, k, v⟩]

end

/-- The leaves of a request outside the members that are ignored. -/
def requestLeaves (ignoreKeys : List String) (kvs : List (String × Json)) : List Leaf :=
  leavesAt [] (kvs.filter fun e => !ignoreKeys.contains e.1)

section Reference

variable [Runtime]

/-- The key that a leaf is written under names the object right around it. -/
def Leaf.name (keyPrefix : String) (l : Leaf) : String :=
  let parent := l.path.getLastD keyPrefix
  lower (if parent = "" then l.key else parent ++ "_" ++ l.key)

def Leaf.entry (keyPrefix : String) (l : Leaf) : String × Json := (l.name keyPrefix, l.value)

def flattenReference (keyPrefix : String) (ignoreKeys : List String)
    (kvs : List (String × Json)) : PyDict :=
  ofWrites ((requestLeaves ignoreKeys kvs).map (Leaf.entry keyPrefix))

mutual

/-- Only the last name of the path is written. -/
theorem leavesAt_entries (path : List String) (keyPrefix : String) (kvs : List (String × Json)) :
    (leavesAt path kvs).map (Leaf.entry keyPrefix) =
      leaves (fun _ => false) (path.getLastD keyPrefix) kvs := by
  match kvs with
  | [] => simp [leavesAt, leaves]
  | (k, v) :: rest =>
    have hhead := memberLeavesAt_entries path keyPrefix k v
    have htail := leavesAt_entries path keyPrefix rest
    rw [leavesAt, leaves, List.map_append, hhead, htail]
    simp

theorem memberLeavesAt_entries (path : List String) (keyPrefix k : String) (v : Json) :
    (memberLeavesAt path k v).map (Leaf.entry keyPrefix) =
      memberLeaves (path.getLastD keyPrefix) k v := by
  match v with
  | .obj sub =>
    rw [memberLeavesAt, memberLeaves, leavesAt_entries, List.getLastD_concat]
  | .null | .bool _ | .int _ | .float _ | .str _ | .arr _ =>
    simp [memberLeavesAt, memberLeaves, Leaf.entry, Leaf.name, flatName]

end

/-- Ignoring a member is leaving it out. -/
theorem leaves_filter (ignored : String → Bool) (keyPrefix : String) (kvs : List (String × Json)) :
    leaves ignored keyPrefix kvs =
      leaves (fun _ => false) keyPrefix (kvs.filter fun e => !ignored e.1) := by
  induction kvs with
  | nil => simp [leaves]
  | cons e kvs ih =>
    by_cases he : ignored e.1 = true
    · simp [leaves, he, ih]
    · simp [leaves, he, ih]

theorem requestLeaves_entries (keyPrefix : String) (ignoreKeys : List String)
    (kvs : List (String × Json)) :
    (requestLeaves ignoreKeys kvs).map (Leaf.entry keyPrefix) =
      leaves (fun k => ignoreKeys.contains k) keyPrefix kvs := by
  rw [requestLeaves, leavesAt_entries, leaves_filter (fun k => ignoreKeys.contains k)]
  rfl

mutual

/-- A leaf is written in lower case, and no leaf is an object. -/
theorem leaves_written {ignored : String → Bool} {keyPrefix : String} {kvs : List (String × Json)}
    {w : String × Json} (h : w ∈ leaves ignored keyPrefix kvs) :
    lower w.1 = w.1 ∧ w.2.isObj = false := by
  match kvs with
  | [] => simp [leaves] at h
  | (k, v) :: rest =>
    rw [leaves] at h
    rcases List.mem_append.mp h with h | h
    · split_ifs at h
      · cases h
      · exact memberLeaves_written h
    · exact leaves_written h

theorem memberLeaves_written {keyPrefix k : String} {v : Json} {w : String × Json}
    (h : w ∈ memberLeaves keyPrefix k v) : lower w.1 = w.1 ∧ w.2.isObj = false := by
  match v with
  | .obj sub =>
    rw [memberLeaves] at h
    exact leaves_written h
  | .null | .bool _ | .int _ | .float _ | .str _ | .arr _ =>
    simp only [memberLeaves, List.mem_singleton] at h
    subst h
    exact ⟨Runtime.lower_lower _, rfl⟩

end

theorem leaves_flat {kvs : List (String × Json)}
    (h : ∀ w ∈ kvs, lower w.1 = w.1 ∧ w.2.isObj = false) :
    leaves (fun _ => false) "" kvs = kvs := by
  induction kvs with
  | nil => simp [leaves]
  | cons e kvs ih =>
    obtain ⟨hkey, hv⟩ := h e List.mem_cons_self
    have htail := ih fun w hw => h w (List.mem_cons_of_mem _ hw)
    have hname : flatName "" e.1 = e.1 := hkey
    rw [leaves, htail, memberLeaves_plain hv, hname]
    simp

/-- Flattening is the reference, and flattening again changes nothing. -/
theorem flattenRequestJson_reference (keyPrefix : String) (ignoreKeys : List String)
    (kvs : List (String × Json)) :
    flattenRequestJson (.obj kvs) keyPrefix ignoreKeys =
        .ok (flattenReference keyPrefix ignoreKeys kvs) ∧
      flattenRequestJson (.obj (flattenReference keyPrefix ignoreKeys kvs).entries) "" [] =
        .ok (flattenReference keyPrefix ignoreKeys kvs) := by
  have hflat : ∀ w ∈ (flattenReference keyPrefix ignoreKeys kvs).entries,
      lower w.1 = w.1 ∧ w.2.isObj = false := by
    intro w hw
    have hwrite := mem_ofWrites hw
    rw [requestLeaves_entries] at hwrite
    exact leaves_written hwrite
  constructor
  · rw [flattenRequestJson_obj, flattenReference, requestLeaves_entries]
  · have hnone : (fun k => ([] : List String).contains k) = fun _ => false := by
      funext k
      simp
    rw [flattenRequestJson_obj, hnone, leaves_flat hflat, ofWrites_entries]

end Reference

section Samples

example :
    let _ : Runtime := asciiRuntime
    (flattenReference "pre" ["Skip"]
      [("Skip", .int 0), ("Outer", .obj [("Skip", .int 1), ("Empty", .obj [])]), ("K", .int 2)]).entries =
      [("outer_skip", .int 1), ("pre_k", .int 2)] := by
  decide +kernel

end Samples

end TvEvents
