import TvEvents.Merge.OutputWrites

namespace TvEvents

open OrderedMap

variable [Runtime]

/-- What `validate_request` has established when it answers. -/
structure Accepted (env : Env) (urlParams : UrlParams) (p : Json) : Prop where
  tvEvent : ∃ tv, p.member? "TvEvent" = some (.obj tv)
  required : ∀ k ∈ requiredParams, (find k (tvEventOf p)).isSome
  timestamp : timestampCheck (tvEventField p "timestamp") (strParam (urlParams.get? "tvid")) true =
    .ok ()
  hash : ∃ salt, saltKey env = some salt ∧
    str (tvEventField p "h") = securityHashToken (strParam (urlParams.get? "tvid")) salt
  eventType : IsKey (eventTypeOf p)
  eventData : ∀ kind, kindOf p = some kind →
    ∃ et, EventType.ofClass kind p = .ok et ∧ et.validateEventTypePayload = .ok ()

omit [Runtime] in
theorem requireAll_obj (kvs : List (String × Json)) (params : List String) :
    requireAll (.obj kvs) params = .ok () ↔ ∀ k ∈ params, (find k kvs).isSome := by
  induction params with
  | nil => simp [requireAll]
  | cons param params ih =>
    by_cases h : (find param kvs).isSome
    · simp [requireAll, Json.has, h, ih]
    · simp [requireAll, Json.has, h]

theorem validateSecurityHash_iff (env : Env) (tvid hValue : String) :
    validateSecurityHash env tvid hValue = .ok () ↔
      ∃ salt, saltKey env = some salt ∧ hValue = securityHashToken tvid salt := by
  unfold validateSecurityHash securityHashMatch
  cases hsalt : saltKey env with
  | none => simp
  | some salt =>
    by_cases h : hValue = securityHashToken tvid salt
    · simp [h]
    · simp [h]

omit [Runtime] in
private theorem field_item {p : Json} {tv : List (String × Json)} {k : String}
    (htv : p.member? "TvEvent" = some (.obj tv)) (hk : (find k (tvEventOf p)).isSome) :
    (Json.obj tv).item k = .ok (tvEventField p k) := by
  obtain ⟨v, hv⟩ := Option.isSome_iff_exists.mp hk
  have hpart : tvEventOf p = tv := by rw [tvEventOf, htv]; rfl
  rw [item_eq_ok, tvEventField, hv]
  rwa [hpart] at hv

/-- On an envelope that is an object the pipeline is its checks in order. -/
theorem validate_envelope {env : Env} {urlParams : UrlParams} {p : Json}
    {tv : List (String × Json)} (htv : p.member? "TvEvent" = some (.obj tv))
    (hreq : ∀ k ∈ requiredParams, (find k (tvEventOf p)).isSome) :
    validateRequest env urlParams p = (do
      timestampCheck (tvEventField p "timestamp") (strParam (urlParams.get? "tvid")) true
      validateSecurityHash env (strParam (urlParams.get? "tvid")) (str (tvEventField p "h"))
      match ← getEventTypeMapping (eventTypeOf p) with
      | some kind =>
        let et ← EventType.ofClass kind p
        et.validateEventTypePayload
      | none => pure ()
      return true) := by
  have hobj : p.isObj = true := by
    cases p <;> simp [Json.member?] at htv
    rfl
  have hpart : tvEventOf p = tv := by rw [tvEventOf, htv]; rfl
  have hget : p.get "TvEvent" p = .ok (.obj tv) := get_eq_ok.mpr ⟨hobj, by rw [htv]; rfl⟩
  have htv' : p.item "TvEvent" = .ok (.obj tv) := item_eq_ok.mpr htv
  have hall : requireAll (.obj tv) requiredParams = .ok () := by
    rw [requireAll_obj, ← hpart]
    exact hreq
  have htype := field_item htv (hreq "EventType" (by simp [requiredParams]))
  have htvid := field_item htv (hreq "tvid" (by simp [requiredParams]))
  have hts := field_item htv (hreq "timestamp" (by simp [requiredParams]))
  have hh := field_item htv (hreq "h" (by simp [requiredParams]))
  rw [validateRequest, verifyRequiredParams, hget, Except.ok_bind, hall, Except.ok_bind, htv',
    Except.ok_bind, htype, Except.ok_bind, Except.ok_bind, htvid, Except.ok_bind, Except.ok_bind,
    hts, Except.ok_bind]
  simp only [Except.ok_bind, hh]
  rfl

private theorem validate_reads {env : Env} {urlParams : UrlParams} {p : Json} {b : Bool}
    (h : validateRequest env urlParams p = .ok b) :
    ∃ tv, p.member? "TvEvent" = some (.obj tv) ∧
      ∀ k ∈ requiredParams, (find k (tvEventOf p)).isSome := by
  simp only [validateRequest, Except.bind_eq_ok] at h
  obtain ⟨_, hreq, tvEvent, htv, et, het, -⟩ := h
  have hmember := item_eq_ok.mp htv
  obtain ⟨tv, rfl, -⟩ := member_obj (item_eq_ok.mp het)
  have hpart : tvEventOf p = tv := by rw [tvEventOf, hmember]; rfl
  obtain ⟨check, hcheck, hall⟩ := Except.bind_eq_ok.mp hreq
  obtain ⟨-, hcheck⟩ := get_eq_ok.mp hcheck
  rw [hmember, Option.getD_some] at hcheck
  rw [← hcheck, requireAll_obj] at hall
  exact ⟨tv, hmember, by rwa [hpart]⟩

/-- The pipeline answers only `True`, and exactly on the accepted requests. -/
theorem validateRequest_iff (env : Env) (urlParams : UrlParams) (p : Json) (b : Bool) :
    validateRequest env urlParams p = .ok b ↔ b = true ∧ Accepted env urlParams p := by
  constructor
  · intro h
    obtain ⟨tv, htv, hreq⟩ := validate_reads h
    rw [validate_envelope htv hreq] at h
    simp only [Except.bind_eq_ok, getEventTypeMapping_iff] at h
    obtain ⟨_, hts, _, hhash, m, ⟨hkey, hm⟩, hrest⟩ := h
    have hkind : kindOf p = m := hm
    cases m with
    | none =>
      refine ⟨(Except.ok.inj hrest).symm, ⟨tv, htv⟩, hreq, hts,
        (validateSecurityHash_iff _ _ _).mp hhash, hkey, ?_⟩
      intro kind hsome
      rw [hkind] at hsome
      cases hsome
    | some kind =>
      simp only [Except.bind_eq_ok] at hrest
      obtain ⟨et, het, _, hvalid, hb⟩ := hrest
      refine ⟨(Except.ok.inj hb).symm, ⟨tv, htv⟩, hreq, hts,
        (validateSecurityHash_iff _ _ _).mp hhash, hkey, ?_⟩
      intro kind' hsome
      rw [hkind] at hsome
      obtain rfl := Option.some.inj hsome
      exact ⟨et, het, hvalid⟩
  · intro hparts
    obtain ⟨rfl, h⟩ := hparts
    obtain ⟨tv, htv⟩ := h.tvEvent
    rw [validate_envelope htv h.required, h.timestamp, Except.ok_bind,
      (validateSecurityHash_iff _ _ _).mpr h.hash, Except.ok_bind,
      (getEventTypeMapping_iff _ _).mpr ⟨h.eventType, rfl⟩, Except.ok_bind]
    cases hkind : kindOf p with
    | none =>
      rw [kindOf] at hkind
      rw [hkind]
      rfl
    | some kind =>
      obtain ⟨et, het, hvalid⟩ := h.eventData kind hkind
      rw [kindOf] at hkind
      rw [hkind]
      simp only [het, Except.ok_bind, hvalid]
      rfl

end TvEvents
