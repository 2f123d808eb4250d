import TvEvents.App.EventType

namespace TvEvents

open OrderedMap

variable [Runtime]

mutual

/-- The leaves of an object in document order, each under its output key. -/
def leaves (ignored : String → Bool) (keyPrefix : String) :
    List (String × Json) → List (String × Json)
  | [] => []
  | (k, v) :: rest =>
      (if ignored k then [] else memberLeaves keyPrefix k v) ++ leaves ignored keyPrefix rest

def memberLeaves (keyPrefix k : String) : Json → List (String × Json)
  | .obj sub => leaves (fun _ => false) k sub
  | v => [(flatName keyPrefix k, v)]

end

theorem memberLeaves_plain {keyPrefix k : String} {v : Json} (hv : v.isObj = false) :
    memberLeaves keyPrefix k v = [(flatName keyPrefix k, v)] := by
  cases v <;> simp [Json.isObj] at hv <;> simp [memberLeaves]

theorem leaves_member {ignored : String → Bool} {keyPrefix k : String} {v : Json}
    {kvs : List (String × Json)} (hfind : find k kvs = some v) (hk : ignored k = false) :
    ∃ before, leaves ignored keyPrefix kvs =
      before ++ memberLeaves keyPrefix k v ++ leaves ignored keyPrefix (after k kvs) := by
  induction kvs with
  | nil => cases hfind
  | cons e kvs ih =>
    rw [find] at hfind
    rw [after]
    by_cases he : e.1 = k
    · rw [if_pos he] at hfind ⊢
      obtain rfl := Option.some.inj hfind
      refine ⟨[], ?_⟩
      simp [leaves, he, hk]
    · rw [if_neg he] at hfind ⊢
      obtain ⟨before, hbefore⟩ := ih hfind
      refine ⟨(if ignored e.1 then [] else memberLeaves keyPrefix e.1 e.2) ++ before, ?_⟩
      rw [leaves, hbefore]
      simp only [List.append_assoc]

theorem mem_leaves {ignored : String → Bool} {keyPrefix k : String} {v : Json}
    {kvs : List (String × Json)} (hmem : (k, v) ∈ kvs) (hk : ignored k = false)
    (hv : v.isObj = false) : (flatName keyPrefix k, v) ∈ leaves ignored keyPrefix kvs := by
  induction kvs with
  | nil => cases hmem
  | cons e kvs ih =>
    rw [leaves]
    rcases List.mem_cons.mp hmem with rfl | hmem
    · apply List.mem_append_left
      simp [hk, memberLeaves_plain hv]
    · exact List.mem_append_right _ (ih hmem)

mutual

/-- Flattening performs one write for each leaf, in document order. -/
theorem flattenEntries_write (ignored : String → Bool) (keyPrefix : String) (out : PyDict)
    (kvs : List (String × Json)) :
    flattenEntries ignored keyPrefix out kvs = out.write (leaves ignored keyPrefix kvs) := by
  match kvs with
  | [] => simp [flattenEntries, leaves]
  | (k, v) :: rest =>
    rw [flattenEntries, flattenEntries_write, leaves, write_append]
    split_ifs
    · rfl
    · rw [flattenMember_write]

theorem flattenMember_write (keyPrefix k : String) (out : PyDict) (v : Json) :
    flattenMember keyPrefix k out v = out.write (memberLeaves keyPrefix k v) := by
  match v with
  | .obj sub =>
    rw [flattenMember, flattenEntries_write, memberLeaves]
    exact update_ofWrites out _
  | .null | .bool _ | .int _ | .float _ | .str _ | .arr _ => simp [flattenMember, memberLeaves]

end

theorem flattenRequestJson_obj (keyPrefix : String) (ignoreKeys : List String)
    (kvs : List (String × Json)) :
    flattenRequestJson (.obj kvs) keyPrefix ignoreKeys =
      .ok (ofWrites (leaves (fun k => ignoreKeys.contains k) keyPrefix kvs)) := by
  rw [flattenRequestJson]
  simp only [Json.items, Except.ok_bind, Except.pure_eq_ok, flattenEntries_write]
  rfl

/-- A value that flattens is an object, or is empty and adds nothing. -/
theorem flattenRequestJson_eq_ok {v : Json} {keyPrefix : String} {ignoreKeys : List String}
    {out : PyDict} (h : flattenRequestJson v keyPrefix ignoreKeys = .ok out) :
    (∃ kvs, v = .obj kvs ∧
        out = ofWrites (leaves (fun k => ignoreKeys.contains k) keyPrefix kvs)) ∨
      (v.isObj = false ∧ out = .empty) := by
  cases v with
  | obj kvs =>
    rw [flattenRequestJson_obj] at h
    exact .inl ⟨kvs, rfl, (Except.ok.inj h).symm⟩
  | arr l =>
    cases l with
    | nil =>
      right
      exact ⟨rfl, (Except.ok.inj h).symm⟩
    | cons a l => simp [flattenRequestJson, Json.items] at h
  | str s =>
    by_cases hs : s = ""
    · right
      subst hs
      exact ⟨rfl, (Except.ok.inj h).symm⟩
    · simp [flattenRequestJson, Json.items, hs] at h
  | null | bool _ | int _ | float _ => simp [flattenRequestJson, Json.items] at h

end TvEvents
