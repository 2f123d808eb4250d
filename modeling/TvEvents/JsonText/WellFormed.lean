import Mathlib.Data.List.TakeWhile
import TvEvents.JsonText.IdListRoundTrip

namespace TvEvents

/-- The documents directly inside a document. -/
def Json.children : Json → List Json
  | .arr l => l
  | .obj kvs => kvs.map Prod.snd
  | _ => []

/-- `p` holds of a document and of every document inside it. -/
inductive Json.Deep (p : Json → Prop) : Json → Prop
  | intro {v : Json} (here : p v) (inside : ∀ w ∈ v.children, Json.Deep p w) : Json.Deep p v

namespace Json.Deep

variable {p q : Json → Prop}

theorem here {v : Json} (h : Json.Deep p v) : p v := by
  cases h with
  | intro here _ => exact here

theorem child {v w : Json} (h : Json.Deep p v) (hw : w ∈ v.children) : Json.Deep p w := by
  cases h with
  | intro _ inside => exact inside w hw

theorem member {kvs : List (String × Json)} {e : String × Json} (h : Json.Deep p (.obj kvs))
    (he : e ∈ kvs) : Json.Deep p e.2 := h.child (List.mem_map_of_mem he)

/-- A document without others inside. -/
theorem leaf {v : Json} (h : p v) (hflat : v.children = []) : Json.Deep p v :=
  ⟨h, fun w hw => absurd hw (by rw [hflat]; exact List.not_mem_nil)⟩

theorem and {v : Json} (h : Json.Deep p v) (h' : Json.Deep q v) :
    Json.Deep (fun v => p v ∧ q v) v := by
  induction h with
  | intro here _ ih =>
    exact ⟨⟨here, h'.here⟩, fun w hw => ih w hw (h'.child hw)⟩

end Json.Deep

namespace JsonText

/-- What the decoder grants each document: no key twice in an object, no integer of too many digits. -/
def Admissible : Json → Prop
  | .int n => (Nat.toDigits 10 n.natAbs).length ≤ 4300
  | .obj kvs => (kvs.map Prod.fst).Nodup
  | _ => True

def WellFormed (v : Json) : Prop := Json.Deep Admissible v

section Digits

theorem digit_value_le {c : Char} (h : c.isDigit = true) : c.toNat - 48 ≤ 9 := by
  simp only [Char.isDigit, Bool.and_eq_true, decide_eq_true_eq, UInt32.le_iff_toNat_le] at h
  have hupper : c.toNat ≤ 57 := h.2
  omega

theorem digitsValue_lt {ds : List Char} (h : ∀ d ∈ ds, d.isDigit = true) :
    digitsValue ds < 10 ^ ds.length := by
  have hfrom : ∀ (ds : List Char) (n : ℕ), (∀ d ∈ ds, d.isDigit = true) →
      ds.foldl (fun n d => 10 * n + (d.toNat - 48)) n < (n + 1) * 10 ^ ds.length := by
    intro ds
    induction ds with
    | nil => simp
    | cons d ds ih =>
      intro n h
      have hd := digit_value_le (h d List.mem_cons_self)
      have hrest := ih (10 * n + (d.toNat - 48)) fun d hd => h d (List.mem_cons_of_mem _ hd)
      refine Nat.lt_of_lt_of_le hrest ?_
      rw [List.length_cons, Nat.pow_succ', ← Nat.mul_assoc]
      apply Nat.mul_le_mul_right
      omega
  have hzero := hfrom ds 0 h
  rwa [Nat.zero_add, Nat.one_mul] at hzero

theorem scanIntPart_digits {cs ds r : List Char} (h : scanIntPart cs = some (ds, r)) :
    0 < ds.length ∧ ∀ d ∈ ds, d.isDigit = true := by
  cases cs with
  | nil => cases h
  | cons c cs =>
    rw [scanIntPart] at h
    split_ifs at h with hzero hdigit
    · obtain ⟨rfl, -⟩ := Prod.mk.inj (Option.some.inj h)
      refine ⟨Nat.zero_lt_one, ?_⟩
      intro d hd
      rw [List.mem_singleton.mp hd]
      rfl
    · obtain ⟨rfl, -⟩ := Prod.mk.inj (Option.some.inj h)
      refine ⟨Nat.succ_pos _, ?_⟩
      intro d hd
      rcases List.mem_cons.mp hd with rfl | hd
      · exact hdigit
      · exact List.mem_takeWhile_imp hd

theorem intOf_wellFormed {neg : Bool} {ds : List Char} {v : Json} (hne : 0 < ds.length)
    (hds : ∀ d ∈ ds, d.isDigit = true) (h : intOf neg ds = .ok v) : WellFormed v := by
  unfold intOf at h
  by_cases hlong : 4300 < ds.length
  · rw [if_pos hlong] at h
    cases h
  rw [if_neg hlong] at h
  obtain rfl := Except.ok.inj h
  refine .leaf (Nat.le_trans ?_ (Nat.le_of_not_lt hlong)) rfl
  rw [Nat.length_toDigits_le_iff (by decide) hne]
  cases neg <;> simpa using digitsValue_lt hds

end Digits

section Scanning

theorem scanUnsigned_wellFormed {neg : Bool} {cs r : List Char} {v : Json}
    (h : scanUnsigned neg cs = .ok (v, r)) : WellFormed v := by
  unfold scanUnsigned at h
  cases hpart : scanIntPart cs with
  | none => simp [hpart] at h
  | some x =>
    obtain ⟨ds, r⟩ := x
    simp only [hpart] at h
    split at h
    · split at h <;>
      · obtain ⟨rfl, -⟩ := Prod.mk.inj (Except.ok.inj h)
        exact .leaf trivial rfl
    · split at h
      · obtain ⟨rfl, -⟩ := Prod.mk.inj (Except.ok.inj h)
        exact .leaf trivial rfl
      · cases hint : intOf neg ds with
        | error e =>
          rw [hint] at h
          cases h
        | ok w =>
          rw [hint] at h
          obtain ⟨rfl, -⟩ := Prod.mk.inj (Except.ok.inj h)
          exact intOf_wellFormed (scanIntPart_digits hpart).1 (scanIntPart_digits hpart).2 hint

theorem scanScalar_wellFormed {cs r : List Char} {v : Json} (h : scanScalar cs = .ok (v, r)) :
    WellFormed v := by
  unfold scanScalar at h
  repeat' split at h
  all_goals first
    | (obtain ⟨rfl, -⟩ := Prod.mk.inj (Except.ok.inj h)
       exact .leaf trivial rfl)
    | skip
  unfold scanNumber at h
  split at h
  · exact scanUnsigned_wellFormed h
  · exact scanUnsigned_wellFormed h

/-- With that fuel only well-formed documents are read. -/
structure Sound (fuel : ℕ) : Prop where
  value : ∀ {cs v r}, scanValue fuel cs = .ok (v, r) → WellFormed v
  elems : ∀ {cs l r}, scanElems fuel cs = .ok (l, r) → ∀ v ∈ l, WellFormed v
  members : ∀ {cs ws r}, scanMembers fuel cs = .ok (ws, r) → ∀ w ∈ ws, WellFormed w.2

private theorem Sound.value_succ {fuel : ℕ} (h : Sound fuel) {cs r : List Char} {v : Json}
    (hscan : scanValue (fuel + 1) cs = .ok (v, r)) : WellFormed v := by
  cases cs with
  | nil => cases hscan
  | cons c cs =>
    rw [scanValue] at hscan
    split_ifs at hscan with hquote hbracket hbrace
    · split at hscan
      · cases hscan
      · obtain ⟨rfl, -⟩ := Prod.mk.inj (Except.ok.inj hscan)
        exact .leaf trivial rfl
    · split at hscan
      · obtain ⟨rfl, -⟩ := Prod.mk.inj (Except.ok.inj hscan)
        exact .leaf trivial rfl
      · split at hscan
        · cases hscan
        · rename_i helems
          obtain ⟨rfl, -⟩ := Prod.mk.inj (Except.ok.inj hscan)
          exact ⟨trivial, h.elems helems⟩
    · split at hscan
      · obtain ⟨rfl, -⟩ := Prod.mk.inj (Except.ok.inj hscan)
        exact .leaf List.nodup_nil rfl
      · split at hscan
        · cases hscan
        · rename_i hmembers
          obtain ⟨rfl, -⟩ := Prod.mk.inj (Except.ok.inj hscan)
          -- the object is a map built by writes: no key is there twice
          refine ⟨OrderedMap.nodup _, ?_⟩
          intro w hw
          obtain ⟨e, he, rfl⟩ := List.mem_map.mp hw
          exact h.members hmembers e (OrderedMap.mem_ofWrites he)
    · exact scanScalar_wellFormed hscan

private theorem Sound.elems_succ {fuel : ℕ} (h : Sound fuel) {cs r : List Char} {l : List Json}
    (hscan : scanElems (fuel + 1) cs = .ok (l, r)) : ∀ v ∈ l, WellFormed v := by
  rw [scanElems] at hscan
  split at hscan
  · cases hscan
  · rename_i v r' hvalue
    have hv := h.value hvalue
    split at hscan
    · obtain ⟨rfl, -⟩ := Prod.mk.inj (Except.ok.inj hscan)
      intro w hw
      rwa [List.mem_singleton.mp hw]
    · split at hscan
      · cases hscan
      · rename_i hrest
        obtain ⟨rfl, -⟩ := Prod.mk.inj (Except.ok.inj hscan)
        intro w hw
        rcases List.mem_cons.mp hw with rfl | hw
        · exact hv
        · exact h.elems hrest w hw
    · cases hscan

theorem scanMembers_no_quote {c : Char} (hc : c ≠ '"') (fuel : ℕ) (cs : List Char) :
    scanMembers (fuel + 1) (c :: cs) = .error .decode := by
  unfold scanMembers
  split
  · rfl
  · rename_i heq
    exact absurd (List.cons.inj heq).1 hc
  · rfl

private theorem Sound.members_succ {fuel : ℕ} (h : Sound fuel) {cs r : List Char}
    {ws : List (String × Json)} (hscan : scanMembers (fuel + 1) cs = .ok (ws, r)) :
    ∀ w ∈ ws, WellFormed w.2 := by
  cases cs with
  | nil => cases hscan
  | cons c cs =>
    by_cases hc : c = '"'
    · rw [hc, scanMembers] at hscan
      split at hscan
      · cases hscan
      · split at hscan
        · split at hscan
          · cases hscan
          · rename_i v r' hvalue
            have hv := h.value hvalue
            split at hscan
            · obtain ⟨rfl, -⟩ := Prod.mk.inj (Except.ok.inj hscan)
              intro w hw
              rwa [List.mem_singleton.mp hw]
            · split at hscan
              · cases hscan
              · rename_i hrest
                obtain ⟨rfl, -⟩ := Prod.mk.inj (Except.ok.inj hscan)
                intro w hw
                rcases List.mem_cons.mp hw with rfl | hw
                · exact hv
                · exact h.members hrest w hw
            · cases hscan
        · cases hscan
    · rw [scanMembers_no_quote hc] at hscan
      cases hscan

theorem sound (fuel : ℕ) : Sound fuel := by
  induction fuel with
  | zero =>
    refine ⟨?_, ?_, ?_⟩
    · intro cs v r h
      cases h
    · intro cs l r h
      cases h
    · intro cs ws r h
      cases h
  | succ fuel ih => exact ⟨ih.value_succ, ih.elems_succ, ih.members_succ⟩

/-- A document that has been read is well formed. -/
theorem loads_wellFormed {cs : List Char} {v : Json} (h : loads cs = .ok v) : WellFormed v := by
  unfold loads at h
  split at h
  · cases h
  · rename_i w r hscan
    split_ifs at h
    obtain rfl := Except.ok.inj h
    exact (sound _).value hscan

end Scanning

end JsonText

end TvEvents
