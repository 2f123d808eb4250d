import TvEvents.App.Checks

namespace TvEvents

open OrderedMap

/-- A value that `in` can search for a string. -/
def Searchable : Json → Prop
  | .obj _ => True
  | .arr _ => True
  | .str _ => True
  | _ => False

def Holds (v : Json) (k : String) : Prop := v.has k = .ok true

/-- The value that the check of required names reads: a member `TvEvent` takes the place of the
object itself. -/
def checkedValue (v : Json) : Json := (v.member? "TvEvent").getD v

def HoldsAll (v : Json) (params : List String) : Prop := ∀ k ∈ params, Holds v k

/-- Only a value that can be searched answers, and then for any name. -/
theorem has_searchable {v : Json} (h : Searchable v) (k : String) :
    ∃ b, v.has k = .ok b := by
  cases v <;> simp [Searchable] at h <;> exact ⟨_, rfl⟩

theorem has_unsearchable {v : Json} (h : ¬Searchable v) (k : String) :
    v.has k = .error (.builtin .typeError) := by
  cases v <;> simp [Searchable] at h <;> rfl

theorem searchable_of_holds {v : Json} {k : String} (h : Holds v k) : Searchable v := by
  by_contra hbad
  rw [Holds, has_unsearchable hbad] at h
  cases h

theorem has_of_not_holds {v : Json} {k : String} (hv : Searchable v) (h : ¬Holds v k) :
    v.has k = .ok false := by
  obtain ⟨b, hb⟩ := has_searchable hv k
  cases b with
  | true => exact absurd hb h
  | false => exact hb

theorem holds_obj {kvs : List (String × Json)} {k : String} :
    Holds (.obj kvs) k ↔ (find k kvs).isSome := by
  simp [Holds, Json.has]

theorem member_isSome_holds {v : Json} {k : String} (h : (v.member? k).isSome) : Holds v k := by
  cases v <;> simp [Json.member?] at h
  exact holds_obj.mpr h

theorem requireAll_iff (v : Json) (params : List String) :
    requireAll v params = .ok () ↔ HoldsAll v params := by
  induction params with
  | nil => simp [requireAll, HoldsAll]
  | cons param params ih =>
    have hsplit : HoldsAll v (param :: params) ↔ Holds v param ∧ HoldsAll v params := by
      simp [HoldsAll]
    rw [hsplit, ← ih, requireAll]
    by_cases hv : Searchable v
    · by_cases hk : Holds v param
      · have hhas : v.has param = .ok true := hk
        simp [hk, hhas]
      · simp [hk, has_of_not_holds hv hk]
    · have hk : ¬Holds v param := fun hk => hv (searchable_of_holds hk)
      simp [hk, has_unsearchable hv]

/-- A name that is missing is reported as the client's fault. -/
theorem requireAll_missing {v : Json} (hv : Searchable v) {params : List String}
    (h : ¬HoldsAll v params) :
    ∃ message, requireAll v params = .error (.tvEvents .missingRequiredParam message) := by
  induction params with
  | nil => exact absurd (fun k hk => by cases hk) h
  | cons param params ih =>
    rw [requireAll]
    by_cases hk : Holds v param
    · have hrest : ¬HoldsAll v params := by
        intro hall
        apply h
        intro k hmem
        rcases List.mem_cons.mp hmem with rfl | hmem
        · exact hk
        · exact hall k hmem
      obtain ⟨message, hmessage⟩ := ih hrest
      refine ⟨message, ?_⟩
      rw [show v.has param = .ok true from hk]
      exact hmessage
    · refine ⟨"Missing Required Param: " ++ param, ?_⟩
      rw [has_of_not_holds hv hk]
      rfl

/-- A value that cannot be searched is no client's fault to the code. -/
theorem requireAll_unsearchable {v : Json} (hv : ¬Searchable v) {param : String}
    (params : List String) :
    requireAll v (param :: params) = .error (.builtin .typeError) := by
  rw [requireAll, has_unsearchable hv]
  rfl

theorem verifyRequiredParams_obj {v : Json} (hv : v.isObj = true) (required : List String) :
    verifyRequiredParams v required = requireAll (checkedValue v) required := by
  cases v <;> simp [Json.isObj] at hv
  rfl

theorem verifyRequiredParams_other {v : Json} (hv : v.isObj = false) (required : List String) :
    verifyRequiredParams v required = .error (.builtin .attributeError) := by
  cases v <;> simp [Json.isObj] at hv <;> rfl

end TvEvents
