import TvEvents.JsonText.WellFormed

namespace TvEvents.JsonText

/-- What follows a printed document. -/
def Ends (r : List Char) : Prop := r = [] ∨ ∃ r', r = ',' :: r' ∨ r = ']' :: r' ∨ r = '}' :: r'

section Numbers

variable {α : Type}

/-- A scanner that reads the same in front of an end. -/
def Local (scan : List Char → Option (α × List Char)) : Prop :=
  ∀ cs r, Ends r → scan (cs ++ r) = (scan cs).map fun x => (x.1, x.2 ++ r)

theorem Ends.digits {r : List Char} (h : Ends r) :
    r.takeWhile Char.isDigit = [] ∧ r.dropWhile Char.isDigit = r := by
  rcases h with rfl | ⟨r, rfl | rfl | rfl⟩ <;> exact ⟨rfl, rfl⟩

theorem Ends.span {r : List Char} (h : Ends r) (cs : List Char) :
    (cs ++ r).takeWhile Char.isDigit = cs.takeWhile Char.isDigit ∧
      (cs ++ r).dropWhile Char.isDigit = cs.dropWhile Char.isDigit ++ r := by
  induction cs with
  | nil => exact h.digits
  | cons c cs ih =>
    rw [List.cons_append, List.takeWhile_cons, List.dropWhile_cons, List.takeWhile_cons,
      List.dropWhile_cons]
    split_ifs
    · rw [ih.1, ih.2]
      exact ⟨rfl, rfl⟩
    · exact ⟨rfl, rfl⟩

theorem scanDigits_local : Local scanDigits := by
  intro cs r hr
  cases cs with
  | nil => rcases hr with rfl | ⟨r, rfl | rfl | rfl⟩ <;> rfl
  | cons c cs =>
    rw [List.cons_append, scanDigits, scanDigits]
    split_ifs
    · rw [(hr.span cs).1, (hr.span cs).2]
      rfl
    · rfl

theorem scanIntPart_local : Local scanIntPart := by
  intro cs r hr
  cases cs with
  | nil => rcases hr with rfl | ⟨r, rfl | rfl | rfl⟩ <;> rfl
  | cons c cs =>
    rw [List.cons_append, scanIntPart, scanIntPart]
    split_ifs
    · rfl
    · rw [(hr.span cs).1, (hr.span cs).2]
      rfl
    · rfl

theorem scanFrac_local : Local scanFrac := by
  intro cs r hr
  cases cs with
  | nil => rcases hr with rfl | ⟨r, rfl | rfl | rfl⟩ <;> rfl
  | cons c cs =>
    by_cases hc : c = '.'
    · rw [hc]
      exact scanDigits_local cs r hr
    · have hnone : ∀ cs, scanFrac (c :: cs) = none := by
        intro cs
        unfold scanFrac
        split
        · rename_i heq
          exact absurd (List.cons.inj heq).1 hc
        · rfl
      rw [List.cons_append, hnone, hnone]
      rfl

theorem scanSigned_local : Local scanExp.scanSigned := by
  intro cs r hr
  cases cs with
  | nil => rcases hr with rfl | ⟨r, rfl | rfl | rfl⟩ <;> rfl
  | cons c cs =>
    have hmap : ∀ (f : List Char → ℤ) cs, (scanDigits (cs ++ r)).map (fun x => (f x.1, x.2)) =
        ((scanDigits cs).map fun x => (f x.1, x.2)).map fun x => (x.1, x.2 ++ r) := by
      intro f cs
      rw [scanDigits_local cs r hr, Option.map_map, Option.map_map]
      rfl
    by_cases hminus : c = '-'
    · rw [hminus]
      exact hmap (fun ds => -(digitsValue ds : ℤ)) cs
    · by_cases hplus : c = '+'
      · rw [hplus]
        exact hmap (fun ds => (digitsValue ds : ℤ)) cs
      · have hplain : ∀ cs, scanExp.scanSigned (c :: cs) =
            (scanDigits (c :: cs)).map fun x => ((digitsValue x.1 : ℤ), x.2) := by
          intro cs
          unfold scanExp.scanSigned
          split
          · rename_i heq
            exact absurd (List.cons.inj heq).1 hminus
          · rename_i heq
            exact absurd (List.cons.inj heq).1 hplus
          · rfl
        rw [List.cons_append, hplain, hplain]
        exact hmap (fun ds => (digitsValue ds : ℤ)) (c :: cs)

theorem scanExp_local : Local scanExp := by
  intro cs r hr
  cases cs with
  | nil => rcases hr with rfl | ⟨r, rfl | rfl | rfl⟩ <;> rfl
  | cons c cs =>
    by_cases hlower : c = 'e'
    · rw [hlower]
      exact scanSigned_local cs r hr
    · by_cases hupper : c = 'E'
      · rw [hupper]
        exact scanSigned_local cs r hr
      · have hnone : ∀ cs, scanExp (c :: cs) = none := by
          intro cs
          unfold scanExp
          split
          · rename_i heq
            exact absurd (List.cons.inj heq).1 hlower
          · rename_i heq
            exact absurd (List.cons.inj heq).1 hupper
          · rfl
        rw [List.cons_append, hnone, hnone]
        rfl

/-- A number that has been read whole is read in front of an end. -/
theorem scanUnsigned_ends {neg : Bool} {cs r : List Char} {v : Json} (hr : Ends r)
    (h : scanUnsigned neg cs = .ok (v, [])) : scanUnsigned neg (cs ++ r) = .ok (v, r) := by
  unfold scanUnsigned at h ⊢
  rw [scanIntPart_local cs r hr]
  cases hpart : scanIntPart cs with
  | none => simp [hpart] at h
  | some x =>
    obtain ⟨ds, r1⟩ := x
    simp only [hpart, Option.map_some] at h ⊢
    rw [scanFrac_local r1 r hr]
    cases hfrac : scanFrac r1 with
    | some y =>
      obtain ⟨fs, r2⟩ := y
      simp only [hfrac, Option.map_some] at h ⊢
      rw [scanExp_local r2 r hr]
      cases hexp : scanExp r2 with
      | some z =>
        simp only [hexp, Option.map_some] at h ⊢
        obtain ⟨rfl, hnil⟩ := Prod.mk.inj (Except.ok.inj h)
        rw [hnil]
        rfl
      | none =>
        simp only [hexp, Option.map_none] at h ⊢
        obtain ⟨rfl, hnil⟩ := Prod.mk.inj (Except.ok.inj h)
        rw [hnil]
        rfl
    | none =>
      simp only [hfrac, Option.map_none] at h ⊢
      rw [scanExp_local r1 r hr]
      cases hexp : scanExp r1 with
      | some z =>
        simp only [hexp, Option.map_some] at h ⊢
        obtain ⟨rfl, hnil⟩ := Prod.mk.inj (Except.ok.inj h)
        rw [hnil]
        rfl
      | none =>
        simp only [hexp, Option.map_none] at h ⊢
        cases hint : intOf neg ds with
        | error e =>
          rw [hint] at h
          cases h
        | ok w =>
          rw [hint] at h
          obtain ⟨rfl, hnil⟩ := Prod.mk.inj (Except.ok.inj h)
          rw [hnil]
          rfl

end Numbers

section Scalars

/-- A text that is read as a number starts with a digit, or with a sign and a digit. -/
theorem scanNumber_head {cs : List Char} {x : Json × List Char} (h : scanNumber cs = .ok x) :
    ∃ c cs', cs = c :: cs' ∧
      (c.isDigit = true ∨ c = '-' ∧ ∃ d ds, cs' = d :: ds ∧ d.isDigit = true) := by
  have hunsigned : ∀ neg cs, scanUnsigned neg cs = .ok x →
      ∃ c cs', cs = c :: cs' ∧ c.isDigit = true := by
    intro neg cs h
    cases cs with
    | nil => cases h
    | cons c cs =>
      refine ⟨c, cs, rfl, ?_⟩
      by_contra hdigit
      have hzero : c ≠ '0' := by
        intro hc
        rw [hc] at hdigit
        exact hdigit rfl
      rw [scanUnsigned, scanIntPart, if_neg hzero, if_neg hdigit] at h
      cases h
  unfold scanNumber at h
  split at h
  · rename_i r
    obtain ⟨d, ds, rfl, hd⟩ := hunsigned true r h
    exact ⟨'-', _, rfl, .inr ⟨rfl, d, ds, rfl, hd⟩⟩
  · obtain ⟨c, cs', rfl, hc⟩ := hunsigned false cs h
    exact ⟨c, cs', rfl, .inl hc⟩

theorem scanNumber_plain {c : Char} (hc : c ≠ '-') (cs : List Char) :
    scanNumber (c :: cs) = scanUnsigned false (c :: cs) := by
  unfold scanNumber
  split
  · rename_i heq
    exact absurd (List.cons.inj heq).1 hc
  · rfl

theorem scanNumber_ends {cs r : List Char} {v : Json} (hr : Ends r)
    (h : scanNumber cs = .ok (v, [])) : scanNumber (cs ++ r) = .ok (v, r) := by
  obtain ⟨c, cs', rfl, hc⟩ := scanNumber_head h
  by_cases hminus : c = '-'
  · rw [hminus] at h ⊢
    exact scanUnsigned_ends hr h
  · rw [scanNumber_plain hminus] at h
    rw [List.cons_append, scanNumber_plain hminus, ← List.cons_append]
    exact scanUnsigned_ends hr h

/-- A number stands for itself in front of an end. -/
theorem scanValue_number_ends {cs r : List Char} {v : Json} (hr : Ends r)
    (h : scanNumber cs = .ok (v, [])) (fuel : ℕ) : scanValue (fuel + 1) (cs ++ r) = .ok (v, r) := by
  obtain ⟨c, cs', hcs, hc⟩ := scanNumber_head h
  have hscan := scanNumber_ends hr h
  rw [hcs, List.cons_append] at hscan ⊢
  rw [scanValue_number fuel, hscan]
  · exact hc.symm.imp_left And.left
  · intro r' heq
    obtain ⟨hminus, hrest⟩ := List.cons.inj heq
    rcases hc with hdigit | ⟨-, d, ds, hds, hd⟩
    · rw [hminus] at hdigit
      cases hdigit
    · rw [hds, List.cons_append] at hrest
      rw [(List.cons.inj hrest).1] at hd
      cases hd

theorem scanNumber_int {n : ℤ} (h : (Nat.toDigits 10 n.natAbs).length ≤ 4300) :
    scanNumber (dumpsInt n) = .ok (.int n, []) := by
  have hcanonical : Canonical (Nat.toDigits 10 n.natAbs) := by
    refine ⟨fun d hd => Nat.isDigit_of_mem_toDigits (by decide) (by decide) hd, ?_, h⟩
    intro ds hds
    have hzero := toDigits_head hds
    rw [hzero] at hds
    exact (List.cons.inj hds).2.symm
  have hread := scanUnsigned_digits hcanonical Nat.toDigits_ne_nil (.inl rfl) (decide (n < 0))
  rw [List.append_nil, signed_value] at hread
  rw [dumpsInt_signed]
  by_cases hneg : n < 0
  · rw [decide_eq_true hneg] at hread
    rw [if_pos hneg]
    exact hread
  · rw [decide_eq_false hneg] at hread
    rw [if_neg hneg, List.nil_append]
    cases hdigits : Nat.toDigits 10 n.natAbs with
    | nil => exact absurd hdigits Nat.toDigits_ne_nil
    | cons d ds =>
      have hd : d ≠ '-' := by
        rintro rfl
        have hdigit := hcanonical.digits '-' (by rw [hdigits]; exact List.mem_cons_self)
        cases hdigit
      rw [scanNumber_plain hd, ← hdigits]
      exact hread

end Scalars

section Documents

variable [Runtime]

/-- `repr` of a finite float is a number of the decoder, and its value is the float. -/
def ReprReads : Json → Prop
  | .float f => f.toRat?.isSome → scanNumber (dumpsFloat f) = .ok (.float f, [])
  | _ => True

/-- The floats of a document are printed so that they are read back. -/
def FloatsRead (v : Json) : Prop := Json.Deep ReprReads v

/-- A document that is read back wherever it is printed. -/
def ReadsBack (v : Json) : Prop :=
  ∀ r fuel, Ends r → (dumps v).length < fuel → scanValue fuel (dumps v ++ r) = .ok (v, r)

theorem readsBack_float {f : PyFloat} (h : ReprReads (.float f)) : ReadsBack (.float f) := by
  intro r fuel hr hfuel
  obtain ⟨fuel, rfl⟩ : ∃ n, fuel = n + 1 := ⟨fuel - 1, by omega⟩
  cases f with
  | nan => rfl
  | inf neg => cases neg <;> rfl
  | negZero => exact scanValue_number_ends hr (h rfl) fuel
  | fin q => exact scanValue_number_ends hr (h rfl) fuel

omit [Runtime] in
/-- No document starts with a blank or with the end of an array. -/
theorem scanValue_start {fuel : ℕ} {c : Char} {cs : List Char} {x : Json × List Char}
    (h : scanValue fuel (c :: cs) = .ok x) : isWs c = false ∧ c ≠ ']' := by
  have hrefused : ∀ c, (c = ' ' ∨ c = '\t' ∨ c = '\n' ∨ c = '\r' ∨ c = ']') →
      scanValue fuel (c :: cs) = .error .decode := by
    rintro c (rfl | rfl | rfl | rfl | rfl) <;> cases fuel <;> rfl
  constructor
  · rw [Bool.eq_false_iff]
    intro hws
    simp only [isWs, Bool.or_eq_true, beq_iff_eq] at hws
    rw [hrefused c (by tauto)] at h
    cases h
  · intro hend
    rw [hrefused c (by tauto)] at h
    cases h

theorem ReadsBack.head {v : Json} (h : ReadsBack v) :
    ∃ c cs, dumps v = c :: cs ∧ isWs c = false ∧ c ≠ ']' := by
  have hread := h [] ((dumps v).length + 1) (.inl rfl) (Nat.lt_succ_self _)
  rw [List.append_nil] at hread
  cases hdumps : dumps v with
  | nil =>
    rw [hdumps] at hread
    cases hread
  | cons c cs =>
    rw [hdumps] at hread
    exact ⟨c, cs, rfl, scanValue_start hread⟩

theorem ReadsBack.skipWs {v : Json} (h : ReadsBack v) (r : List Char) :
    skipWs (dumps v ++ r) = dumps v ++ r := by
  obtain ⟨c, cs, hdumps, hws, -⟩ := h.head
  rw [hdumps, List.cons_append]
  exact skipWs_head hws

/-- What follows an element of a printed array. -/
private def afterElem (r : List Char) : List Json → List Char
  | [] => ']' :: r
  | v :: vs => ',' :: ' ' :: (dumpsElems (v :: vs) ++ ']' :: r)

private theorem dumpsElems_split (v : Json) (vs : List Json) (r : List Char) :
    dumpsElems (v :: vs) ++ ']' :: r = dumps v ++ afterElem r vs := by
  cases vs with
  | nil => rfl
  | cons v' vs => simp [dumpsElems, afterElem]

private theorem afterElem_ends (r : List Char) (vs : List Json) : Ends (afterElem r vs) := by
  cases vs with
  | nil => exact .inr ⟨r, .inr (.inl rfl)⟩
  | cons v vs => exact .inr ⟨_, .inl rfl⟩

theorem scanElems_readsBack {v : Json} {vs : List Json} (h : ∀ w ∈ v :: vs, ReadsBack w)
    (r : List Char) {fuel : ℕ} (hfuel : (dumpsElems (v :: vs)).length + 1 < fuel) :
    scanElems fuel (dumpsElems (v :: vs) ++ ']' :: r) = .ok (v :: vs, r) := by
  induction vs generalizing v fuel with
  | nil =>
    obtain ⟨fuel, rfl⟩ : ∃ n, fuel = n + 1 := ⟨fuel - 1, by omega⟩
    have hread := h v List.mem_cons_self _ fuel (afterElem_ends r [])
      (by simp only [dumpsElems] at hfuel; omega)
    rw [dumpsElems_split, scanElems, hread]
    rfl
  | cons v' vs ih =>
    obtain ⟨fuel, rfl⟩ : ∃ n, fuel = n + 1 := ⟨fuel - 1, by omega⟩
    simp only [dumpsElems, List.length_append, List.length_cons] at hfuel
    have hread := h v List.mem_cons_self _ fuel (afterElem_ends r (v' :: vs)) (by omega)
    have hless : (dumpsElems (v' :: vs)).length + 1 < fuel := by omega
    have hrest := ih (fun w hw => h w (List.mem_cons_of_mem _ hw)) hless
    have hskip : skipWs (' ' :: (dumpsElems (v' :: vs) ++ ']' :: r)) =
        dumpsElems (v' :: vs) ++ ']' :: r := by
      rw [dumpsElems_split]
      exact (h v' (List.mem_cons_of_mem _ List.mem_cons_self)).skipWs _
    rw [dumpsElems_split, scanElems, hread]
    simp only [afterElem, skipWs_head (rfl : isWs ',' = false), hskip, hrest]

theorem readsBack_arr {l : List Json} (h : ∀ v ∈ l, ReadsBack v) : ReadsBack (.arr l) := by
  intro r fuel hr hfuel
  obtain ⟨fuel, rfl⟩ : ∃ n, fuel = n + 1 := ⟨fuel - 1, by omega⟩
  cases l with
  | nil => rfl
  | cons v vs =>
    simp only [dumps, List.length_cons, List.length_append, List.length_nil] at hfuel
    have hless : (dumpsElems (v :: vs)).length + 1 < fuel := by omega
    have hread := scanElems_readsBack h r hless
    obtain ⟨c, cs, hdumps, hws, hend⟩ := (h v List.mem_cons_self).head
    have hskip : skipWs (dumpsElems (v :: vs) ++ ']' :: r) = dumpsElems (v :: vs) ++ ']' :: r := by
      rw [dumpsElems_split]
      exact (h v List.mem_cons_self).skipWs _
    have hopen : ∀ r', skipWs (dumpsElems (v :: vs) ++ ']' :: r) ≠ ']' :: r' := by
      intro r' heq
      rw [hskip, dumpsElems_split, hdumps, List.cons_append] at heq
      exact hend (List.cons.inj heq).1
    simp only [dumps, List.cons_append, List.append_assoc, List.nil_append]
    rw [scanValue_bracket _ _ hopen, hskip, hread]

/-- What follows a member of a printed object. -/
private def afterMember (r : List Char) : List (String × Json) → List Char
  | [] => '}' :: r
  | e :: es => ',' :: ' ' :: (dumpsMembers (e :: es) ++ '}' :: r)

private theorem dumpsMembers_split (k : String) (v : Json) (es : List (String × Json))
    (r : List Char) : dumpsMembers ((k, v) :: es) ++ '}' :: r =
      '"' :: (k.toList.flatMap escapeChar ++ '"' :: ':' :: ' ' :: (dumps v ++ afterMember r es)) := by
  cases es with
  | nil => simp [dumpsMembers, dumpsStr, afterMember]
  | cons e es => simp [dumpsMembers, dumpsStr, afterMember]

private theorem afterMember_ends (r : List Char) (es : List (String × Json)) :
    Ends (afterMember r es) := by
  cases es with
  | nil => exact .inr ⟨r, .inr (.inr rfl)⟩
  | cons e es => exact .inr ⟨_, .inl rfl⟩

theorem scanMembers_readsBack {k : String} {v : Json} {es : List (String × Json)}
    (h : ∀ e ∈ (k, v) :: es, ReadsBack e.2) (r : List Char) {fuel : ℕ}
    (hfuel : (dumpsMembers ((k, v) :: es)).length + 1 < fuel) :
    scanMembers fuel (dumpsMembers ((k, v) :: es) ++ '}' :: r) = .ok ((k, v) :: es, r) := by
  induction es generalizing k v fuel with
  | nil =>
    obtain ⟨fuel, rfl⟩ : ∃ n, fuel = n + 1 := ⟨fuel - 1, by omega⟩
    have hk := escaped_length k.toList
    simp only [dumpsMembers, dumpsStr, List.length_append, List.length_cons, List.length_nil] at hfuel
    have hlong : k.toList.length < fuel := by omega
    have hkey := scanString_escaped k.toList hlong
    have hv : ReadsBack v := h (k, v) List.mem_cons_self
    have hread := hv _ fuel (afterMember_ends r []) (by omega)
    have hskip := hv.skipWs (afterMember r [])
    have hblank : ∀ cs, skipWs (' ' :: cs) = skipWs cs := fun _ => rfl
    rw [dumpsMembers_split, scanMembers, hkey]
    simp only [skipWs_head (rfl : isWs ':' = false), hblank, hskip, hread]
    simp only [afterMember, skipWs_head (rfl : isWs '}' = false), String.ofList_toList]
  | cons e es ih =>
    obtain ⟨k', v'⟩ := e
    obtain ⟨fuel, rfl⟩ : ∃ n, fuel = n + 1 := ⟨fuel - 1, by omega⟩
    have hk := escaped_length k.toList
    rw [dumpsMembers] at hfuel
    · simp only [dumpsStr, List.length_append, List.length_cons, List.length_nil] at hfuel
      have hlong : k.toList.length < fuel := by omega
      have hkey := scanString_escaped k.toList hlong
      have hv : ReadsBack v := h (k, v) List.mem_cons_self
      have hread := hv _ fuel (afterMember_ends r ((k', v') :: es)) (by omega)
      have hskip := hv.skipWs (afterMember r ((k', v') :: es))
      have hless : (dumpsMembers ((k', v') :: es)).length + 1 < fuel := by omega
      have hrest := ih (fun w hw => h w (List.mem_cons_of_mem _ hw)) hless
      have hblank : ∀ cs, skipWs (' ' :: cs) = skipWs cs := fun _ => rfl
      have hnext : skipWs (dumpsMembers ((k', v') :: es) ++ '}' :: r) =
          dumpsMembers ((k', v') :: es) ++ '}' :: r := by
        rw [dumpsMembers_split]
        exact skipWs_head rfl
      rw [dumpsMembers_split, scanMembers, hkey]
      simp only [skipWs_head (rfl : isWs ':' = false), hblank, hskip, hread]
      simp only [afterMember, skipWs_head (rfl : isWs ',' = false), hblank, hnext, hrest,
        String.ofList_toList]
    · simp

theorem readsBack_obj {kvs : List (String × Json)} (hkeys : (kvs.map Prod.fst).Nodup)
    (h : ∀ e ∈ kvs, ReadsBack e.2) : ReadsBack (.obj kvs) := by
  intro r fuel hr hfuel
  obtain ⟨fuel, rfl⟩ : ∃ n, fuel = n + 1 := ⟨fuel - 1, by omega⟩
  cases kvs with
  | nil => rfl
  | cons e es =>
    obtain ⟨k, v⟩ := e
    simp only [dumps, List.length_cons, List.length_append, List.length_nil] at hfuel
    have hless : (dumpsMembers ((k, v) :: es)).length + 1 < fuel := by omega
    have hread := scanMembers_readsBack h r hless
    have hentries : (OrderedMap.ofWrites ((k, v) :: es)).entries = (k, v) :: es :=
      congrArg OrderedMap.entries (OrderedMap.ofWrites_entries ⟨(k, v) :: es, hkeys⟩)
    have hskip : skipWs (dumpsMembers ((k, v) :: es) ++ '}' :: r) =
        dumpsMembers ((k, v) :: es) ++ '}' :: r := by
      rw [dumpsMembers_split]
      exact skipWs_head rfl
    have hopen : ∀ r', skipWs (dumpsMembers ((k, v) :: es) ++ '}' :: r) ≠ '}' :: r' := by
      intro r' heq
      rw [hskip, dumpsMembers_split] at heq
      cases (List.cons.inj heq).1
    simp only [dumps, List.cons_append, List.append_assoc, List.nil_append]
    rw [scanValue, if_neg (by decide), if_neg (by decide), if_pos rfl]
    split
    · rename_i r' heq
      exact absurd heq (hopen r')
    · rw [hskip, hread]
      simp only [hentries]

theorem readsBack_str (s : String) : ReadsBack (.str s) := by
  intro r fuel hr hfuel
  obtain ⟨fuel, rfl⟩ : ∃ n, fuel = n + 1 := ⟨fuel - 1, by omega⟩
  have hlength := escaped_length s.toList
  simp only [dumps, dumpsStr, List.length_cons, List.length_append, List.length_nil] at hfuel
  have hlong : s.toList.length < fuel := by omega
  have hread := scanString_escaped s.toList hlong r
  simp only [dumps, dumpsStr, List.cons_append, List.append_assoc, List.nil_append]
  rw [scanValue_quote, hread]
  simp

/-- A well-formed document whose floats are read back is read back. -/
theorem readsBack {v : Json} (hv : WellFormed v) (hfloats : FloatsRead v) : ReadsBack v := by
  have hboth := hv.and hfloats
  clear hv hfloats
  induction hboth with
  | @intro v here _ ih =>
    obtain ⟨hadmissible, hrepr⟩ := here
    cases v with
    | null =>
      intro r fuel hr hfuel
      obtain ⟨fuel, rfl⟩ : ∃ n, fuel = n + 1 := ⟨fuel - 1, by omega⟩
      rfl
    | bool b =>
      intro r fuel hr hfuel
      obtain ⟨fuel, rfl⟩ : ∃ n, fuel = n + 1 := ⟨fuel - 1, by omega⟩
      cases b <;> rfl
    | int n =>
      intro r fuel hr hfuel
      obtain ⟨fuel, rfl⟩ : ∃ n, fuel = n + 1 := ⟨fuel - 1, by omega⟩
      exact scanValue_number_ends hr (scanNumber_int hadmissible) fuel
    | float f => exact readsBack_float hrepr
    | str s => exact readsBack_str s
    | arr l => exact readsBack_arr ih
    | obj kvs => exact readsBack_obj hadmissible fun e he => ih e.2 (List.mem_map_of_mem he)

/-- What `json.dumps` prints of such a document is the text of this document. -/
theorem loads_printed {v : Json} (hv : WellFormed v) (hfloats : FloatsRead v) :
    loads (dumps v) = .ok v := by
  have hread := readsBack hv hfloats
  have hvalue := hread [] (2 * (dumps v).length + 2) (.inl rfl) (by omega)
  have hskip := hread.skipWs []
  rw [List.append_nil] at hvalue hskip
  rw [loads, hskip, hvalue]
  rfl

end Documents

end TvEvents.JsonText
