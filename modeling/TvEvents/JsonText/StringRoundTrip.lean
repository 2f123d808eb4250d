import TvEvents.JsonText.Dumps
import TvEvents.JsonText.Loads

namespace TvEvents.JsonText

theorem hexVal?_digitChar {n : ℕ} (h : n < 16) : hexVal? (Nat.digitChar n) = some n := by
  revert n
  decide

theorem scanHex4_hex4 {n : ℕ} (h : n < 65536) (r : List Char) : scanHex4 (hex4 n ++ r) = .ok (n, r) := by
  have hdigit : ∀ m : ℕ, hexVal? (Nat.digitChar (m % 16)) = some (m % 16) := fun m =>
    hexVal?_digitChar (Nat.mod_lt m (by decide))
  have hvalue : ((n / 4096 % 16 * 16 + n / 256 % 16) * 16 + n / 16 % 16) * 16 + n % 16 = n := by omega
  simp only [hex4, List.cons_append, List.nil_append, scanHex4, hdigit, hvalue]

theorem charOf_toNat (c : Char) : charOf c.toNat = c := by
  have hvalid : c.toNat.isValidChar := c.valid
  rw [charOf, if_pos hvalid, Char.ofNat_toNat]

/-- The code points of a character lie outside the surrogates. -/
theorem toNat_range (c : Char) : c.toNat < 55296 ∨ 57343 < c.toNat ∧ c.toNat < 1114112 := c.valid

theorem scanUnicode_basic {c : Char} (h : c.toNat < 65536) (r : List Char) :
    scanUnicode (hex4 c.toNat ++ r) = .ok (c, r) := by
  have hrange := toNat_range c
  have hplain : ¬(55296 ≤ c.toNat ∧ c.toNat < 56320) := by omega
  simp only [scanUnicode, scanHex4_hex4 h, if_neg hplain, charOf_toNat]

theorem scanUnicode_surrogates {high low : ℕ} (hhigh : 55296 ≤ high ∧ high < 56320)
    (hlow : 56320 ≤ low ∧ low < 57344) (r : List Char) :
    scanUnicode (hex4 high ++ '\\' :: 'u' :: (hex4 low ++ r)) =
      .ok (charOf (65536 + (high - 55296) * 1024 + (low - 56320)), r) := by
  have hscan := scanHex4_hex4 (n := high) (by omega) ('\\' :: 'u' :: (hex4 low ++ r))
  have hscan' := scanHex4_hex4 (n := low) (by omega) r
  simp only [scanUnicode, hscan, if_pos hhigh, hscan', if_pos hlow]

theorem scanUnicode_pair {c : Char} (h : 65536 ≤ c.toNat) (r : List Char) :
    scanUnicode (hex4 (55296 + (c.toNat - 65536) / 1024) ++
      '\\' :: 'u' :: (hex4 (56320 + (c.toNat - 65536) % 1024) ++ r)) = .ok (c, r) := by
  have hrange := toNat_range c
  have hchar := charOf_toNat c
  generalize c.toNat = n at *
  have hjoin : 65536 + (55296 + (n - 65536) / 1024 - 55296) * 1024 +
      (56320 + (n - 65536) % 1024 - 56320) = n := by omega
  rw [scanUnicode_surrogates (by omega) (by omega), hjoin, hchar]

theorem shortEscape_scan {c e : Char} (h : shortEscape c = some e) (r : List Char) :
    scanEscape (e :: r) = .ok (c, r) := by
  unfold shortEscape at h
  split at h <;> cases h <;> rfl

/-- An escaped character is read back as one character. -/
theorem scanString_escapeChar (c : Char) (fuel : ℕ) (r : List Char) :
    scanString (fuel + 1) (escapeChar c ++ r) =
      match scanString fuel r with
      | .error e => .error e
      | .ok (cs, r) => .ok (c :: cs, r) := by
  have hescape : ∀ r', scanEscape r' = .ok (c, r) → scanString (fuel + 1) ('\\' :: r') =
      match scanString fuel r with
      | .error e => .error e
      | .ok (cs, r) => .ok (c :: cs, r) := by
    intro r' h
    have hquote : ¬('\\' = '"') := by decide
    cases hrest : scanString fuel r with
    | error e => simp only [scanString, if_neg hquote, if_true, h, hrest]
    | ok rest => simp only [scanString, if_neg hquote, if_true, h, hrest]
  unfold escapeChar
  cases hshort : shortEscape c with
  | some e => exact hescape _ (shortEscape_scan hshort r)
  | none =>
    have hquote : ¬c = '"' := by rintro rfl; cases hshort
    have hslash : ¬c = '\\' := by rintro rfl; cases hshort
    simp only
    split_ifs with hplain hbasic
    · have hcontrol : ¬c.toNat < 32 := by omega
      simp only [List.cons_append, List.nil_append]
      cases hrest : scanString fuel r with
      | error e => simp only [scanString, if_neg hquote, if_neg hslash, if_neg hcontrol, hrest]
      | ok rest => simp only [scanString, if_neg hquote, if_neg hslash, if_neg hcontrol, hrest]
    · apply hescape
      exact scanUnicode_basic hbasic r
    · apply hescape
      have hpair := scanUnicode_pair (Nat.le_of_not_lt hbasic) r
      simpa [scanEscape] using hpair

/-- A printed string is read back whole. -/
theorem scanString_escaped (cs : List Char) {fuel : ℕ} (hfuel : cs.length < fuel) (r : List Char) :
    scanString fuel (cs.flatMap escapeChar ++ '"' :: r) = .ok (cs, r) := by
  induction cs generalizing fuel with
  | nil =>
    obtain ⟨fuel, rfl⟩ := Nat.exists_eq_succ_of_ne_zero (Nat.ne_of_gt hfuel)
    rfl
  | cons c cs ih =>
    obtain ⟨fuel, rfl⟩ := Nat.exists_eq_succ_of_ne_zero (Nat.ne_of_gt (Nat.zero_lt_of_lt hfuel))
    have hrest : cs.length < fuel := Nat.lt_of_succ_lt_succ hfuel
    rw [List.flatMap_cons, List.append_assoc, scanString_escapeChar, ih hrest]

section Extension

theorem scanHex4_extend {cs r q : List Char} {n : ℕ} (h : scanHex4 cs = .ok (n, r)) :
    scanHex4 (cs ++ q) = .ok (n, r ++ q) := by
  unfold scanHex4 at h
  split at h
  · split at h
    · rename_i h1 h2 h3 h4
      cases h
      simp only [List.cons_append, scanHex4, h1, h2, h3, h4]
    · cases h
  · cases h

theorem scanHex4_error {cs : List Char} {e : JsonError} (h : scanHex4 cs = .error e) : e = .decode := by
  unfold scanHex4 at h
  split at h
  · split at h <;> cases h
    rfl
  · cases h
    rfl

private theorem ok_extend {α : Type} {x y : α} {r r' : List Char}
    (h : (.ok (x, r) : Scan α) = .ok (y, r')) (q : List Char) :
    (.ok (x, r ++ q) : Scan α) = .ok (y, r' ++ q) := by
  obtain ⟨rfl, rfl⟩ := Prod.mk.inj (Except.ok.inj h)
  rfl

private theorem low_escape_extend {r q r' : List Char} (hnil : r ≠ []) (hslash : r ≠ ['\\'])
    (h : r ++ q = '\\' :: 'u' :: r') : ∃ r'', r = '\\' :: 'u' :: r'' := by
  cases r with
  | nil => exact absurd rfl hnil
  | cons a r =>
    cases r with
    | nil =>
      have ha : a = '\\' := (List.cons.inj h).1
      exact absurd (by rw [ha]) hslash
    | cons b r =>
      obtain ⟨ha, hrest⟩ := List.cons.inj h
      have hb : b = 'u' := (List.cons.inj hrest).1
      exact ⟨r, by rw [ha, hb]⟩

/-- Reading on is safe where the rest is not cut inside an escape. -/
theorem scanUnicode_extend {cs r q : List Char} {c : Char} (h : scanUnicode cs = .ok (c, r))
    (hnil : r ≠ []) (hslash : r ≠ ['\\']) : scanUnicode (cs ++ q) = .ok (c, r ++ q) := by
  unfold scanUnicode at h ⊢
  cases hhex : scanHex4 cs with
  | error e => simp [hhex] at h
  | ok x =>
    obtain ⟨n, r1⟩ := x
    rw [scanHex4_extend hhex]
    simp only [hhex] at h ⊢
    split_ifs at h ⊢ with hhigh
    · split at h
      · rename_i r2
        cases hhex' : scanHex4 r2 with
        | error e => simp [hhex'] at h
        | ok y =>
          obtain ⟨m, r3⟩ := y
          simp only [List.cons_append, hhex', scanHex4_extend hhex'] at h ⊢
          split_ifs at h ⊢ with hlow
          · exact ok_extend h q
          · exact ok_extend h q
      · rename_i hno
        have hrest : r1 = r := (Prod.mk.inj (Except.ok.inj h)).2
        split
        · rename_i r2 heq
          rw [hrest] at heq
          obtain ⟨r3, hr⟩ := low_escape_extend hnil hslash heq
          exact absurd (hrest.trans hr) (hno r3)
        · exact ok_extend h q
    · exact ok_extend h q

theorem scanUnicode_error {cs : List Char} {e : JsonError} (h : scanUnicode cs = .error e) :
    e = .decode := by
  unfold scanUnicode at h
  cases hhex : scanHex4 cs with
  | error e' =>
    simp only [hhex] at h
    rw [← Except.error.inj h]
    exact scanHex4_error hhex
  | ok x =>
    obtain ⟨n, r1⟩ := x
    simp only [hhex] at h
    split_ifs at h with hhigh
    split at h
    · rename_i r2
      cases hhex' : scanHex4 r2 with
      | error e' =>
        simp only [hhex'] at h
        rw [← Except.error.inj h]
        exact scanHex4_error hhex'
      | ok y =>
        simp only [hhex'] at h
        split_ifs at h
    · cases h

theorem scanEscape_extend {cs r q : List Char} {c : Char} (h : scanEscape cs = .ok (c, r))
    (hnil : r ≠ []) (hslash : r ≠ ['\\']) : scanEscape (cs ++ q) = .ok (c, r ++ q) := by
  unfold scanEscape at h
  split at h
  case h_9 r' => exact scanUnicode_extend h hnil hslash
  case h_10 => cases h
  all_goals exact ok_extend h q

theorem scanEscape_error {cs : List Char} {e : JsonError} (h : scanEscape cs = .error e) :
    e = .decode := by
  unfold scanEscape at h
  split at h
  case h_9 r' => exact scanUnicode_error h
  case h_10 => exact (Except.error.inj h).symm
  all_goals cases h

/-- What one more character does to the rest of a string. -/
private def prepend (c : Char) : Scan (List Char) → Scan (List Char)
  | .error e => .error e
  | .ok (cs, r) => .ok (c :: cs, r)

private theorem scanString_cons (fuel : ℕ) (c : Char) (r : List Char) :
    scanString (fuel + 1) (c :: r) =
      if c = '"' then .ok ([], r)
      else if c = '\\' then
        match scanEscape r with
        | .error e => .error e
        | .ok (c, r) => prepend c (scanString fuel r)
      else if c.toNat < 32 then .error .decode
      else prepend c (scanString fuel r) := rfl

private theorem prepend_error {c : Char} {x : Scan (List Char)} {e : JsonError}
    (h : prepend c x = .error e) : x = .error e := by
  cases x with
  | error e' => exact h
  | ok y => cases h

private theorem prepend_ok {c : Char} {x : Scan (List Char)} {s r : List Char}
    (h : prepend c x = .ok (s, r)) : ∃ s', x = .ok (s', r) ∧ s = c :: s' := by
  cases x with
  | error e => cases h
  | ok y =>
    obtain ⟨s', r'⟩ := y
    obtain ⟨hs, hr⟩ := Prod.mk.inj (Except.ok.inj h)
    exact ⟨s', by rw [hr], hs.symm⟩

theorem scanString_error {fuel : ℕ} {cs : List Char} {e : JsonError}
    (h : scanString fuel cs = .error e) : e = .decode := by
  induction fuel generalizing cs with
  | zero => exact (Except.error.inj h).symm
  | succ fuel ih =>
    cases cs with
    | nil => exact (Except.error.inj h).symm
    | cons c r =>
      rw [scanString_cons] at h
      split_ifs at h with hquote hslash hcontrol
      · cases hescape : scanEscape r with
        | error e' =>
          rw [hescape] at h
          rw [← Except.error.inj h]
          exact scanEscape_error hescape
        | ok x =>
          rw [hescape] at h
          exact ih (prepend_error h)
      · exact (Except.error.inj h).symm
      · exact ih (prepend_error h)

/-- A string needs at least its closing quote. -/
private theorem scanString_nonempty {fuel : ℕ} {cs s r : List Char}
    (h : scanString fuel cs = .ok (s, r)) : cs ≠ [] ∧ cs ≠ ['\\'] := by
  cases fuel with
  | zero => cases h
  | succ fuel =>
    constructor
    · intro hcs
      rw [hcs] at h
      cases h
    · intro hcs
      rw [hcs] at h
      cases h

/-- A string that has been read is read again, in a longer text and with more fuel. -/
theorem scanString_extend {fuel fuel' : ℕ} {cs s r : List Char} (hfuel : fuel ≤ fuel')
    (h : scanString fuel cs = .ok (s, r)) (q : List Char) :
    scanString fuel' (cs ++ q) = .ok (s, r ++ q) := by
  induction fuel generalizing fuel' cs s with
  | zero => cases h
  | succ fuel ih =>
    obtain ⟨fuel', rfl⟩ : ∃ n, fuel' = n + 1 := ⟨fuel' - 1, by omega⟩
    have hless : fuel ≤ fuel' := by omega
    cases cs with
    | nil => cases h
    | cons c cs =>
      rw [List.cons_append, scanString_cons]
      rw [scanString_cons] at h
      split_ifs at h ⊢ with hquote hslash hcontrol
      · exact ok_extend h q
      · cases hescape : scanEscape cs with
        | error e => rw [hescape] at h; cases h
        | ok x =>
          obtain ⟨c', r'⟩ := x
          rw [hescape] at h
          obtain ⟨s', hrest, hs⟩ := prepend_ok h
          obtain ⟨hnil, hslash'⟩ := scanString_nonempty hrest
          rw [scanEscape_extend hescape hnil hslash', hs]
          simp only [ih hless hrest, prepend]
      · obtain ⟨s', hrest, hs⟩ := prepend_ok h
        rw [ih hless hrest, hs]
        rfl

/-- A text that stops before the closing quote is no string. -/
theorem scanString_cut {cs p : List Char} (hpart : p <+: cs.flatMap escapeChar ++ ['"'])
    (hstrict : p ≠ cs.flatMap escapeChar ++ ['"']) (fuel : ℕ) : scanString fuel p = .error .decode := by
  cases h : scanString fuel p with
  | error e => rw [scanString_error h]
  | ok x =>
    obtain ⟨s, r⟩ := x
    obtain ⟨q, hq⟩ := hpart
    have hwhole := scanString_escaped cs (Nat.lt_succ_of_le (Nat.le_add_right cs.length fuel)) []
    have hread := scanString_extend (Nat.le_succ_of_le (Nat.le_add_left fuel cs.length)) h q
    rw [hq, hwhole] at hread
    have hnil : r ++ q = [] := (Prod.mk.inj (Except.ok.inj hread)).2.symm
    rw [(List.append_eq_nil_iff.mp hnil).2, List.append_nil] at hq
    exact absurd hq hstrict

end Extension

end TvEvents.JsonText
