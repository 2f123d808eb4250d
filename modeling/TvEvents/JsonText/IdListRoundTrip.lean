import TvEvents.JsonText.StringRoundTrip

namespace TvEvents.JsonText

/-- The documents that a text column and a 64-bit column become. -/
def IsId : Json → Prop
  | .str _ => True
  | .int n => n.natAbs ≤ 2 ^ 63
  | _ => False

theorem IsId.text_or_int {v : Json} (hv : IsId v) :
    (∃ s, v = .str s) ∨ ∃ n : ℤ, v = .int n ∧ n.natAbs ≤ 2 ^ 63 := by
  cases v with
  | str s => exact .inl ⟨s, rfl⟩
  | int n => exact .inr ⟨n, rfl, hv⟩
  | null | bool _ | float _ | arr _ | obj _ => cases hv

/-- What follows an element of a printed array. -/
def Delimited (r : List Char) : Prop := r = [] ∨ ∃ r', r = ',' :: r' ∨ r = ']' :: r'

section Digits

theorem digitsValue_toDigits (n : ℕ) : digitsValue (Nat.toDigits 10 n) = n := by
  have hvalue := Nat.ofDigitChars_ten_toDigits (n := n)
  rw [Nat.ofDigitChars_eq_foldl] at hvalue
  exact hvalue

theorem toDigits_head {n : ℕ} {ds : List Char} (h : Nat.toDigits 10 n = '0' :: ds) : n = 0 := by
  induction n using Nat.strong_induction_on generalizing ds with
  | _ n ih =>
    by_cases hsmall : n < 10
    · rw [Nat.toDigits_of_lt_base hsmall] at h
      have hdigit : n.digitChar = '0' := (List.cons.inj h).1
      exact Nat.digitChar_eq_zero.mp hdigit
    · have hlarge : 10 ≤ n := Nat.le_of_not_lt hsmall
      rw [Nat.toDigits_of_base_le (by decide) hlarge] at h
      cases hhead : Nat.toDigits 10 (n / 10) with
      | nil => exact absurd hhead Nat.toDigits_ne_nil
      | cons d ds' =>
        rw [hhead] at h
        have hd : d = '0' := (List.cons.inj h).1
        rw [hd] at hhead
        have hzero := ih (n / 10) (by omega) hhead
        omega

/-- Digits with no zero in front of others. -/
structure Canonical (ds : List Char) : Prop where
  digits : ∀ d ∈ ds, d.isDigit = true
  zero : ∀ ds', ds = '0' :: ds' → ds' = []
  short : ds.length ≤ 4300

theorem Canonical.toDigits {n : ℕ} (hn : n ≤ 2 ^ 63) : Canonical (Nat.toDigits 10 n) := by
  refine ⟨fun d hd => Nat.isDigit_of_mem_toDigits (by decide) (by decide) hd, ?_, ?_⟩
  · intro ds' h
    have hzero := toDigits_head h
    rw [hzero] at h
    exact (List.cons.inj h).2.symm
  · have hlength : (Nat.toDigits 10 n).length ≤ 19 := by
      rw [Nat.length_toDigits_le_iff (by decide) (by decide)]
      exact Nat.lt_of_le_of_lt hn (by decide)
    omega

theorem Canonical.cut {ds p : List Char} (h : Canonical ds) (hp : p <+: ds) : Canonical p := by
  refine ⟨fun d hd => h.digits d (hp.subset hd), ?_, Nat.le_trans hp.length_le h.short⟩
  intro ds' hds'
  obtain ⟨t, ht⟩ := hp
  rw [hds', List.cons_append] at ht
  have hnil := h.zero _ ht.symm
  exact (List.append_eq_nil_iff.mp hnil).1

private theorem delimited_stop {r : List Char} (hr : Delimited r) :
    r.takeWhile Char.isDigit = [] ∧ r.dropWhile Char.isDigit = r ∧ scanFrac r = none ∧
      scanExp r = none := by
  rcases hr with rfl | ⟨r', rfl | rfl⟩
  · exact ⟨rfl, rfl, rfl, rfl⟩
  · exact ⟨rfl, rfl, rfl, rfl⟩
  · exact ⟨rfl, rfl, rfl, rfl⟩

/-- Canonical digits before a delimiter are read as one integer. -/
theorem scanUnsigned_digits {ds r : List Char} (hds : Canonical ds) (hne : ds ≠ [])
    (hr : Delimited r) (neg : Bool) : scanUnsigned neg (ds ++ r) =
      .ok (.int (if neg then -(digitsValue ds : ℤ) else digitsValue ds), r) := by
  obtain ⟨htake, hdrop, hfrac, hexp⟩ := delimited_stop hr
  have hpart : scanIntPart (ds ++ r) = some (ds, r) := by
    cases ds with
    | nil => exact absurd rfl hne
    | cons d ds =>
      have hd := hds.digits d List.mem_cons_self
      have hrest : ∀ c ∈ ds, c.isDigit = true := fun c hc =>
        hds.digits c (List.mem_cons_of_mem _ hc)
      rw [List.cons_append, scanIntPart]
      split_ifs with hzero
      · rw [hzero] at hds ⊢
        rw [hds.zero ds rfl]
        rfl
      · rw [List.takeWhile_append_of_pos hrest, List.dropWhile_append_of_pos hrest, htake, hdrop,
          List.append_nil]
  have hshort : ¬4300 < ds.length := Nat.not_lt_of_le hds.short
  rw [scanUnsigned, hpart]
  simp only [hfrac, hexp, intOf, if_neg hshort]
  rfl

end Digits

section Elements

private theorem word_head {w : String} {a c : Char} {r : List Char} (hw : w.toList.head? = some a)
    (hne : a ≠ c) : scanWord w (c :: r) = none := by
  unfold scanWord
  rw [if_neg]
  intro hparts
  obtain ⟨t, ht⟩ := hparts
  cases hlist : w.toList with
  | nil =>
    rw [hlist] at hw
    cases hw
  | cons b ws =>
    rw [hlist] at hw ht
    have hab : b = a := Option.some.inj hw
    have hbc : b = c := (List.cons.inj ht).1
    exact hne (hab.symm.trans hbc)

/-- A text that starts as a number is no word. -/
theorem scanScalar_number {c : Char} {r : List Char} (hc : c = '-' ∨ c.isDigit = true)
    (hinf : ∀ r', c :: r ≠ '-' :: 'I' :: r') : scanScalar (c :: r) = scanNumber (c :: r) := by
  have hne : ∀ a : Char, a ≠ '-' → a.isDigit = false → a ≠ c := by
    intro a hminus hdigit hac
    rcases hc with hc | hc
    · exact hminus (hac.trans hc)
    · rw [← hac, hdigit] at hc
      cases hc
  have hword : scanWord "-Infinity" (c :: r) = none := by
    unfold scanWord
    rw [if_neg]
    intro hparts
    obtain ⟨t, ht⟩ := hparts
    exact hinf _ ht.symm
  have hnull : scanWord "null" (c :: r) = none := word_head rfl (hne 'n' (by decide) (by decide))
  have htrue : scanWord "true" (c :: r) = none := word_head rfl (hne 't' (by decide) (by decide))
  have hfalse : scanWord "false" (c :: r) = none := word_head rfl (hne 'f' (by decide) (by decide))
  have hnan : scanWord "NaN" (c :: r) = none := word_head rfl (hne 'N' (by decide) (by decide))
  have hinfinity : scanWord "Infinity" (c :: r) = none :=
    word_head rfl (hne 'I' (by decide) (by decide))
  simp only [scanScalar, hnull, htrue, hfalse, hnan, hinfinity, hword]

theorem scanValue_number {c : Char} {r : List Char} (fuel : ℕ)
    (hc : c = '-' ∨ c.isDigit = true) (hinf : ∀ r', c :: r ≠ '-' :: 'I' :: r') :
    scanValue (fuel + 1) (c :: r) = scanNumber (c :: r) := by
  have hne : ∀ a : Char, a ≠ '-' → a.isDigit = false → ¬c = a := by
    intro a hminus hdigit hca
    rcases hc with hc | hc
    · exact hminus (hca.symm.trans hc)
    · rw [hca, hdigit] at hc
      cases hc
  rw [scanValue, if_neg (hne '"' (by decide) (by decide)), if_neg (hne '[' (by decide) (by decide)),
    if_neg (hne '{' (by decide) (by decide)), scanScalar_number hc hinf]

/-- The digits of an integer with an optional sign, as printed. -/
theorem scanValue_signed {ds r : List Char} (hds : Canonical ds) (hne : ds ≠ [])
    (hr : Delimited r) (neg : Bool) (fuel : ℕ) :
    scanValue (fuel + 1) ((if neg then ['-'] else []) ++ ds ++ r) =
      .ok (.int (if neg then -(digitsValue ds : ℤ) else digitsValue ds), r) := by
  have hscan := scanUnsigned_digits hds hne hr neg
  cases ds with
  | nil => exact absurd rfl hne
  | cons d ds =>
    have hdigit := hds.digits d List.mem_cons_self
    have hminus : d ≠ '-' := by
      intro h
      rw [h] at hdigit
      cases hdigit
    have hinf : d ≠ 'I' := by
      intro h
      rw [h] at hdigit
      cases hdigit
    cases neg with
    | false =>
      change scanValue (fuel + 1) (d :: (ds ++ r)) = _
      rw [scanValue_number fuel (.inr hdigit) (fun r' h => hminus (List.cons.inj h).1), scanNumber]
      · exact hscan
      · exact fun r' h => hminus (List.cons.inj h).1
    | true =>
      change scanValue (fuel + 1) ('-' :: d :: (ds ++ r)) = _
      rw [scanValue_number fuel (.inl rfl)
        (fun r' h => hinf (List.cons.inj (List.cons.inj h).2).1)]
      exact hscan

theorem dumpsInt_signed (n : ℤ) :
    dumpsInt n = (if n < 0 then ['-'] else []) ++ Nat.toDigits 10 n.natAbs := by
  cases n with
  | ofNat n => rfl
  | negSucc n =>
    have hneg : Int.negSucc n < 0 := Int.negSucc_lt_zero n
    rw [dumpsInt, if_pos hneg]
    rfl

theorem signed_value (n : ℤ) :
    (if decide (n < 0) = true then -(digitsValue (Nat.toDigits 10 n.natAbs) : ℤ)
      else digitsValue (Nat.toDigits 10 n.natAbs)) = n := by
  rw [digitsValue_toDigits]
  split_ifs with h <;> simp only [decide_eq_true_eq] at h <;> omega

private theorem scanValue_int {n : ℤ} (hn : n.natAbs ≤ 2 ^ 63) {r : List Char} (hr : Delimited r)
    (fuel : ℕ) : scanValue (fuel + 1) (dumpsInt n ++ r) = .ok (.int n, r) := by
  have hscan := scanValue_signed (Canonical.toDigits hn) Nat.toDigits_ne_nil hr (decide (n < 0)) fuel
  rw [signed_value] at hscan
  rw [dumpsInt_signed]
  simpa using hscan

/-- A printed integer that is cut off is nothing, or a shorter integer at the end of the text. -/
private theorem scanValue_int_cut {n : ℤ} (hn : n.natAbs ≤ 2 ^ 63) {p : List Char}
    (hp : p <+: dumpsInt n) (fuel : ℕ) :
    scanValue fuel p = .error .decode ∨ ∃ w, scanValue fuel p = .ok (w, []) := by
  have hds := Canonical.toDigits hn
  have hend : Delimited [] := .inl rfl
  cases fuel with
  | zero => exact .inl rfl
  | succ fuel =>
    rw [dumpsInt_signed] at hp
    split_ifs at hp with hneg
    · cases p with
      | nil => exact .inl rfl
      | cons c p =>
        obtain ⟨hc, hp⟩ := List.cons_prefix_cons.mp hp
        rw [hc]
        by_cases hnil : p = []
        · left
          rw [hnil]
          rfl
        · right
          have hscan := scanValue_signed (hds.cut hp) hnil hend true fuel
          rw [List.append_nil] at hscan
          exact ⟨_, hscan⟩
    · by_cases hnil : p = []
      · left
        rw [hnil]
        rfl
      · right
        have hscan := scanValue_signed (hds.cut hp) hnil hend false fuel
        rw [List.append_nil] at hscan
        exact ⟨_, hscan⟩

theorem escapeChar_ne_nil (c : Char) : escapeChar c ≠ [] := by
  unfold escapeChar
  split
  · simp
  · split_ifs <;> simp

theorem escaped_length (cs : List Char) : cs.length ≤ (cs.flatMap escapeChar).length := by
  induction cs with
  | nil => rfl
  | cons c cs ih =>
    have hpos := List.length_pos_iff.mpr (escapeChar_ne_nil c)
    rw [List.flatMap_cons, List.length_append, List.length_cons]
    omega

theorem scanValue_quote (fuel : ℕ) (cs : List Char) :
    scanValue (fuel + 1) ('"' :: cs) =
      match scanString fuel cs with
      | .error e => .error e
      | .ok (cs, r) => .ok (.str (String.ofList cs), r) := by
  cases hscan : scanString fuel cs with
  | error e => simp only [scanValue, if_true, hscan]
  | ok scanned => simp only [scanValue, if_true, hscan]

variable [Runtime]

/-- A printed id before a delimiter is read back, given fuel. -/
theorem scanValue_id {v : Json} (hv : IsId v) {r : List Char} (hr : Delimited r) {fuel : ℕ}
    (hfuel : (dumps v).length < fuel) : scanValue fuel (dumps v ++ r) = .ok (v, r) := by
  obtain ⟨fuel, rfl⟩ : ∃ n, fuel = n + 1 := ⟨fuel - 1, by omega⟩
  obtain ⟨s, rfl⟩ | ⟨n, rfl, hn⟩ := hv.text_or_int
  · have hlength := escaped_length s.toList
    simp only [dumps, dumpsStr, List.length_cons, List.length_append, List.length_nil] at hfuel
    have hlong : s.toList.length < fuel := by omega
    have hscan := scanString_escaped s.toList hlong r
    simp only [dumps, dumpsStr, List.cons_append, List.append_assoc, List.nil_append]
    rw [scanValue_quote, hscan]
    simp
  · exact scanValue_int hn hr fuel

/-- With any fuel a printed id is read back or not read at all. -/
theorem scanValue_id_any {v : Json} (hv : IsId v) {r : List Char} (hr : Delimited r) (fuel : ℕ) :
    scanValue fuel (dumps v ++ r) = .error .decode ∨ scanValue fuel (dumps v ++ r) = .ok (v, r) := by
  cases fuel with
  | zero => exact .inl rfl
  | succ fuel =>
    obtain ⟨s, rfl⟩ | ⟨n, rfl, hn⟩ := hv.text_or_int
    · simp only [dumps, dumpsStr, List.cons_append, List.append_assoc, List.nil_append]
      rw [scanValue_quote]
      cases hscan : scanString fuel (s.toList.flatMap escapeChar ++ '"' :: r) with
      | error e =>
        left
        rw [scanString_error hscan]
      | ok x =>
        obtain ⟨cs, r'⟩ := x
        right
        have hlong : s.toList.length < fuel + s.toList.length + 1 := by omega
        have hwhole := scanString_escaped s.toList hlong r
        have hmore : fuel ≤ fuel + s.toList.length + 1 := by omega
        have hread := scanString_extend hmore hscan []
        rw [List.append_nil, List.append_nil, hwhole] at hread
        obtain ⟨hcs, hr'⟩ := Prod.mk.inj (Except.ok.inj hread)
        rw [← hcs, ← hr']
        simp
    · exact .inr (scanValue_int hn hr fuel)

/-- A printed id that is cut off is not read, or reads as something at the end of the text. -/
theorem scanValue_id_cut {v : Json} (hv : IsId v) {p : List Char} (hp : p <+: dumps v)
    (hcut : p ≠ dumps v) (fuel : ℕ) :
    scanValue fuel p = .error .decode ∨ ∃ w, scanValue fuel p = .ok (w, []) := by
  obtain ⟨s, rfl⟩ | ⟨n, rfl, hn⟩ := hv.text_or_int
  · left
    cases fuel with
    | zero => rfl
    | succ fuel =>
      cases p with
      | nil => rfl
      | cons c p =>
        simp only [dumps, dumpsStr] at hp hcut
        obtain ⟨hc, hp⟩ := List.cons_prefix_cons.mp hp
        have hp' : p ≠ s.toList.flatMap escapeChar ++ ['"'] := by
          intro h
          exact hcut (by rw [hc, h])
        rw [hc, scanValue_quote, scanString_cut hp hp']
  · exact scanValue_int_cut hn hp fuel

/-- No printed id starts like white space or like the end of an array. -/
theorem dumps_id_head {v : Json} (hv : IsId v) :
    ∃ c cs, dumps v = c :: cs ∧ isWs c = false ∧ c ≠ ']' := by
  obtain ⟨s, rfl⟩ | ⟨n, rfl, hn⟩ := hv.text_or_int
  · exact ⟨'"', _, rfl, rfl, by decide⟩
  · have hds := Canonical.toDigits (n := n.natAbs) hn
    simp only [dumps, dumpsInt_signed]
    split_ifs with hneg
    · exact ⟨'-', _, rfl, rfl, by decide⟩
    · cases hdigits : Nat.toDigits 10 n.natAbs with
      | nil => exact absurd hdigits Nat.toDigits_ne_nil
      | cons d ds =>
        have hd := hds.digits d (by rw [hdigits]; exact List.mem_cons_self)
        refine ⟨d, ds, rfl, ?_, ?_⟩
        · rw [Bool.eq_false_iff]
          intro h
          simp only [isWs, Bool.or_eq_true, beq_iff_eq] at h
          rcases h with ((h | h) | h) | h <;> (rw [h] at hd; cases hd)
        · intro h
          rw [h] at hd
          cases hd

end Elements

section Lists

private theorem cut_append {p a b : List Char} (h : p <+: a ++ b) :
    p <+: a ∨ ∃ c t, c :: t <+: b ∧ p = a ++ c :: t := by
  rcases List.prefix_or_prefix_of_prefix h (List.prefix_append a b) with hpa | ⟨t, ht⟩
  · exact .inl hpa
  · cases t with
    | nil =>
      have hwhole : p = a := by rw [← ht, List.append_nil]
      exact .inl (hwhole ▸ List.prefix_refl p)
    | cons c t =>
      right
      rw [← ht] at h
      exact ⟨c, t, (List.prefix_append_right_inj a).mp h, ht.symm⟩

theorem skipWs_head {c : Char} {cs : List Char} (h : isWs c = false) :
    skipWs (c :: cs) = c :: cs := by
  rw [skipWs, List.dropWhile_cons, h]
  rfl

private theorem scanElems_nil (fuel : ℕ) : scanElems fuel [] = .error .decode := by
  cases fuel with
  | zero => rfl
  | succ fuel => cases fuel <;> rfl

/-- A text that ends after its first element is no list. -/
private theorem scanElems_end {p : List Char} {fuel : ℕ}
    (h : scanValue fuel p = .error .decode ∨ ∃ w, scanValue fuel p = .ok (w, [])) :
    scanElems (fuel + 1) p = .error .decode := by
  rw [scanElems]
  rcases h with h | ⟨w, h⟩
  · rw [h]
  · rw [h]
    rfl

variable [Runtime]

/-- What follows an element: the end of the array, or a comma and the next element. -/
private def tailText : List Json → List Char
  | [] => [']']
  | v :: vs => ',' :: ' ' :: (dumpsElems (v :: vs) ++ [']'])

private theorem dumpsElems_cons (v : Json) (vs : List Json) :
    dumpsElems (v :: vs) ++ [']'] = dumps v ++ tailText vs := by
  cases vs with
  | nil => rfl
  | cons v' vs => simp [dumpsElems, tailText]

private theorem elems_head {v : Json} (hv : IsId v) (vs : List Json) :
    ∃ c cs, dumpsElems (v :: vs) ++ [']'] = c :: cs ∧ isWs c = false ∧ c ≠ ']' := by
  obtain ⟨c, cs, hdumps, hws, hend⟩ := dumps_id_head hv
  exact ⟨c, cs ++ tailText vs, by rw [dumpsElems_cons, hdumps]; rfl, hws, hend⟩

private theorem skipWs_elems {v : Json} (hv : IsId v) {vs : List Json} {t : List Char}
    (ht : t <+: dumpsElems (v :: vs) ++ [']']) : skipWs t = t := by
  obtain ⟨c, cs, hhead, hws, -⟩ := elems_head hv vs
  cases t with
  | nil => rfl
  | cons a t =>
    rw [hhead] at ht
    rw [(List.cons_prefix_cons.mp ht).1]
    exact skipWs_head hws

/-- A text that is cut off within or right after its first id is no list. -/
private theorem scanElems_first {v : Json} (hv : IsId v) {p : List Char} (hp : p <+: dumps v)
    (fuel : ℕ) : scanElems fuel p = .error .decode := by
  cases fuel with
  | zero => rfl
  | succ fuel =>
    by_cases hwhole : p = dumps v
    · have hread := scanValue_id_any hv (.inl rfl) fuel
      rw [List.append_nil, ← hwhole] at hread
      exact scanElems_end (hread.imp_right fun h => ⟨v, h⟩)
    · exact scanElems_end (scanValue_id_cut hv hp hwhole fuel)

/-- A cut off list of printed ids never reads as a list. -/
theorem scanElems_cut {v : Json} {vs : List Json} (hids : ∀ w ∈ v :: vs, IsId w) {p : List Char}
    (hp : p <+: dumpsElems (v :: vs) ++ [']']) (hcut : p ≠ dumpsElems (v :: vs) ++ [']'])
    (fuel : ℕ) : scanElems fuel p = .error .decode := by
  induction vs generalizing v p fuel with
  | nil =>
    have hv := hids v List.mem_cons_self
    rw [dumpsElems_cons] at hp hcut
    rcases cut_append hp with hp | ⟨c, t, ht, hpt⟩
    · exact scanElems_first hv hp fuel
    · have ht' := List.cons_prefix_cons.mp ht
      have hnil := List.prefix_nil.mp ht'.2
      rw [ht'.1, hnil] at hpt
      exact absurd hpt hcut
  | cons v' vs ih =>
    have hv := hids v List.mem_cons_self
    have hids' : ∀ w ∈ v' :: vs, IsId w := fun w hw => hids w (List.mem_cons_of_mem _ hw)
    rw [dumpsElems_cons] at hp hcut
    rcases cut_append hp with hp | ⟨c, t, ht, hpt⟩
    · exact scanElems_first hv hp fuel
    · obtain ⟨hc, ht⟩ := List.cons_prefix_cons.mp ht
      rw [hc] at hpt
      cases fuel with
      | zero => rfl
      | succ fuel =>
        rcases scanValue_id_any hv (.inr ⟨t, .inl rfl⟩) fuel with hscan | hscan
        · rw [hpt, scanElems, hscan]
        · -- the comma is there: what follows is cut off, so the rest is no list
          have hrest : scanElems fuel (skipWs t) = .error .decode := by
            cases t with
            | nil => exact scanElems_nil fuel
            | cons b t =>
              obtain ⟨hb, ht⟩ := List.cons_prefix_cons.mp ht
              have hskip : skipWs (' ' :: t) = skipWs t := rfl
              rw [hb, hskip, skipWs_elems (hids' v' List.mem_cons_self) ht]
              refine ih hids' ht ?_ fuel
              intro heq
              rw [hb, heq] at hpt
              exact hcut hpt
          rw [hpt, scanElems, hscan]
          simp only [skipWs_head (rfl : isWs ',' = false), hrest]

theorem scanElems_ids {v : Json} {vs : List Json} (hids : ∀ w ∈ v :: vs, IsId w) {fuel : ℕ}
    (hfuel : (dumpsElems (v :: vs)).length + 1 < fuel) :
    scanElems fuel (dumpsElems (v :: vs) ++ [']']) = .ok (v :: vs, []) := by
  induction vs generalizing v fuel with
  | nil =>
    obtain ⟨fuel, rfl⟩ : ∃ n, fuel = n + 1 := ⟨fuel - 1, by omega⟩
    have hv := hids v List.mem_cons_self
    have hlong : (dumps v).length < fuel := by
      simp only [dumpsElems] at hfuel
      omega
    have hscan := scanValue_id hv (.inr ⟨[], .inr rfl⟩) hlong
    rw [dumpsElems_cons, scanElems, tailText, hscan]
    rfl
  | cons v' vs ih =>
    obtain ⟨fuel, rfl⟩ : ∃ n, fuel = n + 1 := ⟨fuel - 1, by omega⟩
    have hv := hids v List.mem_cons_self
    have hids' : ∀ w ∈ v' :: vs, IsId w := fun w hw => hids w (List.mem_cons_of_mem _ hw)
    simp only [dumpsElems, List.length_append, List.length_cons] at hfuel
    have hlong : (dumps v).length < fuel := by omega
    have hscan := scanValue_id hv (.inr ⟨' ' :: (dumpsElems (v' :: vs) ++ [']']), .inl rfl⟩) hlong
    have hskip : skipWs (' ' :: (dumpsElems (v' :: vs) ++ [']'])) =
        dumpsElems (v' :: vs) ++ [']'] :=
      skipWs_elems (hids' v' List.mem_cons_self) (List.prefix_refl _)
    have hless : (dumpsElems (v' :: vs)).length + 1 < fuel := by omega
    have hrest := ih hids' hless
    rw [dumpsElems_cons, scanElems, tailText, hscan]
    simp only [skipWs_head (rfl : isWs ',' = false), hskip, hrest]

omit [Runtime] in
theorem scanValue_bracket (fuel : ℕ) (cs : List Char) (hend : ∀ r, skipWs cs ≠ ']' :: r) :
    scanValue (fuel + 1) ('[' :: cs) =
      match scanElems fuel (skipWs cs) with
      | .error e => .error e
      | .ok (l, r) => .ok (.arr l, r) := by
  rw [scanValue, if_neg (by decide), if_pos rfl]
  split
  · rename_i r h
    exact absurd h (hend r)
  · rfl

private theorem elems_not_end {v : Json} (hv : IsId v) {vs : List Json} {t : List Char}
    (ht : t <+: dumpsElems (v :: vs) ++ [']']) (r : List Char) : skipWs t ≠ ']' :: r := by
  obtain ⟨c, cs, hhead, -, hne⟩ := elems_head hv vs
  rw [skipWs_elems hv ht]
  intro h
  rw [h, hhead] at ht
  exact hne (List.cons_prefix_cons.mp ht).1.symm

theorem loads_dumps {l : List Json} (hids : ∀ v ∈ l, IsId v) : loads (dumps (.arr l)) = .ok (.arr l) := by
  cases l with
  | nil => rfl
  | cons v vs =>
    have hv := hids v List.mem_cons_self
    have hwhole := List.prefix_refl (dumpsElems (v :: vs) ++ [']'])
    have hlong : (dumpsElems (v :: vs)).length + 1 < 2 * (dumps (.arr (v :: vs))).length + 1 := by
      simp only [dumps, List.length_cons, List.length_append]
      omega
    have hstart : skipWs (dumps (.arr (v :: vs))) = '[' :: (dumpsElems (v :: vs) ++ [']']) := by
      rw [dumps]
      exact skipWs_head rfl
    rw [loads, hstart, scanValue_bracket _ _ (elems_not_end hv hwhole), skipWs_elems hv hwhole,
      scanElems_ids hids hlong]
    rfl

/-- A strict part of a printed array of ids is no document. -/
theorem loads_cut {l : List Json} (hids : ∀ v ∈ l, IsId v) {p : List Char}
    (hp : p <+: dumps (.arr l)) (hcut : p ≠ dumps (.arr l)) : loads p = .error .decode := by
  rw [dumps] at hp hcut
  cases p with
  | nil => rfl
  | cons c t =>
    obtain ⟨hc, ht⟩ := List.cons_prefix_cons.mp hp
    have hne : t ≠ dumpsElems l ++ [']'] := by
      intro h
      exact hcut (by rw [hc, h])
    have hstart : skipWs ('[' :: t) = '[' :: t := skipWs_head rfl
    rw [hc, loads, hstart]
    cases l with
    | nil =>
      have hnil : t = [] := by
        cases t with
        | nil => rfl
        | cons a t =>
          obtain ⟨ha, ht⟩ := List.cons_prefix_cons.mp ht
          rw [ha, List.prefix_nil.mp ht] at hne
          exact absurd rfl hne
      rw [hnil]
      rfl
    | cons v vs =>
      have hv := hids v List.mem_cons_self
      rw [scanValue_bracket _ _ (elems_not_end hv ht), skipWs_elems hv ht, scanElems_cut hids ht hne]

end Lists

end TvEvents.JsonText
