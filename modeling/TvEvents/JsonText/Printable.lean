import Mathlib.Data.List.TakeWhile
import Mathlib.Tactic.SplitIfs
import TvEvents.JsonText.Loads

namespace TvEvents.JsonText

/-- A character that a document may contain as it is: a blank, or no control character. -/
def Printable (c : Char) : Prop := isWs c = true ∨ 32 ≤ c.toNat

/-- A scan has gone from `cs` on to `r`, over such characters only. -/
def Passed (cs r : List Char) : Prop := ∃ p, cs = p ++ r ∧ ∀ c ∈ p, Printable c

namespace Passed

theorem refl (cs : List Char) : Passed cs cs := ⟨[], rfl, fun _ hc => absurd hc List.not_mem_nil⟩

theorem cons {c : Char} {cs r : List Char} (hc : Printable c) (h : Passed cs r) :
    Passed (c :: cs) r := by
  obtain ⟨p, hp, hall⟩ := h
  refine ⟨c :: p, by rw [hp, List.cons_append], ?_⟩
  intro d hd
  rcases List.mem_cons.mp hd with rfl | hd
  · exact hc
  · exact hall d hd

theorem trans {cs r r' : List Char} (h : Passed cs r) (h' : Passed r r') : Passed cs r' := by
  obtain ⟨p, hp, hall⟩ := h
  obtain ⟨q, hq, hall'⟩ := h'
  refine ⟨p ++ q, by rw [hp, hq, List.append_assoc], ?_⟩
  intro c hc
  rcases List.mem_append.mp hc with hc | hc
  · exact hall c hc
  · exact hall' c hc

theorem takeWhile {p : Char → Bool} (h : ∀ c, p c = true → Printable c) (cs : List Char) :
    Passed cs (cs.dropWhile p) :=
  ⟨cs.takeWhile p, List.takeWhile_append_dropWhile.symm,
    fun _ hc => h _ (List.mem_takeWhile_imp hc)⟩

/-- A text that has been passed to its end has only such characters. -/
theorem all {cs : List Char} (h : Passed cs []) : ∀ c ∈ cs, Printable c := by
  obtain ⟨p, hp, hall⟩ := h
  rwa [hp, List.append_nil]

end Passed

theorem isDigit_printable {c : Char} (h : c.isDigit = true) : Printable c := by
  have hdigit : '0'.toNat ≤ c.toNat := (Char.isDigit_iff_toNat.mp h).1
  have hzero : '0'.toNat = 48 := rfl
  exact .inr (by omega)

theorem passed_skipWs (cs : List Char) : Passed cs (skipWs cs) := .takeWhile (fun _ => .inl) cs

theorem passed_digits (cs : List Char) : Passed cs (cs.dropWhile Char.isDigit) :=
  .takeWhile (fun _ => isDigit_printable) cs

section Strings

theorem hexVal?_printable {c : Char} {n : ℕ} (h : hexVal? c = some n) : Printable c := by
  unfold hexVal? at h
  split_ifs at h with hdigit hlower hupper
  · exact isDigit_printable hdigit
  · have hle : 'a'.toNat ≤ c.toNat := hlower.1
    have ha : 'a'.toNat = 97 := rfl
    exact .inr (by omega)
  · have hle : 'A'.toNat ≤ c.toNat := hupper.1
    have ha : 'A'.toNat = 65 := rfl
    exact .inr (by omega)

theorem scanHex4_passed {cs r : List Char} {n : ℕ} (h : scanHex4 cs = .ok (n, r)) :
    Passed cs r := by
  unfold scanHex4 at h
  split at h
  · split at h
    · rename_i ha hb hc hd
      obtain ⟨-, rfl⟩ := Prod.mk.inj (Except.ok.inj h)
      exact .cons (hexVal?_printable ha) (.cons (hexVal?_printable hb)
        (.cons (hexVal?_printable hc) (.cons (hexVal?_printable hd) (.refl _))))
    · cases h
  · cases h

theorem scanUnicode_passed {cs r : List Char} {c : Char} (h : scanUnicode cs = .ok (c, r)) :
    Passed cs r := by
  unfold scanUnicode at h
  split at h
  · cases h
  · rename_i n r' hhigh
    have hpassed := scanHex4_passed hhigh
    split_ifs at h with hsurrogate
    · split at h
      · split at h
        · cases h
        · rename_i hlow
          split_ifs at h
          · obtain ⟨-, rfl⟩ := Prod.mk.inj (Except.ok.inj h)
            refine hpassed.trans (.cons ?_ (.cons ?_ (scanHex4_passed hlow)))
            · exact .inr (by decide)
            · exact .inr (by decide)
          · obtain ⟨-, rfl⟩ := Prod.mk.inj (Except.ok.inj h)
            exact hpassed
      · obtain ⟨-, rfl⟩ := Prod.mk.inj (Except.ok.inj h)
        exact hpassed
    · obtain ⟨-, rfl⟩ := Prod.mk.inj (Except.ok.inj h)
      exact hpassed

theorem scanEscape_passed {cs r : List Char} {c : Char} (h : scanEscape cs = .ok (c, r)) :
    Passed cs r := by
  have hshort : ∀ {d : Char} {r' : List Char}, 32 ≤ d.toNat → r' = r → Passed (d :: r') r := by
    intro d r' hd hr
    rw [hr]
    exact .cons (.inr hd) (.refl r)
  unfold scanEscape at h
  split at h
  case h_9 => exact .cons (.inr (by decide)) (scanUnicode_passed h)
  case h_10 => cases h
  all_goals exact hshort (by decide) (Prod.mk.inj (Except.ok.inj h)).2

theorem scanString_passed {fuel : ℕ} {cs s r : List Char} (h : scanString fuel cs = .ok (s, r)) :
    Passed cs r := by
  induction fuel generalizing cs s with
  | zero => cases h
  | succ fuel ih =>
    cases cs with
    | nil => cases h
    | cons c cs =>
      rw [scanString] at h
      split_ifs at h with hquote hslash hcontrol
      · obtain ⟨-, rfl⟩ := Prod.mk.inj (Except.ok.inj h)
        exact .cons (.inr (by rw [hquote]; decide)) (.refl _)
      · split at h
        · cases h
        · rename_i hescape
          split at h
          · cases h
          · rename_i hrest
            obtain ⟨-, rfl⟩ := Prod.mk.inj (Except.ok.inj h)
            have hpassed := (scanEscape_passed hescape).trans (ih hrest)
            exact .cons (.inr (by rw [hslash]; decide)) hpassed
      · split at h
        · cases h
        · rename_i hrest
          obtain ⟨-, rfl⟩ := Prod.mk.inj (Except.ok.inj h)
          exact .cons (.inr (by omega)) (ih hrest)

end Strings

section Numbers

theorem scanDigits_passed {cs ds r : List Char} (h : scanDigits cs = some (ds, r)) :
    Passed cs r := by
  cases cs with
  | nil => cases h
  | cons c cs =>
    rw [scanDigits] at h
    split_ifs at h with hdigit
    obtain ⟨-, rfl⟩ := Prod.mk.inj (Option.some.inj h)
    exact .cons (isDigit_printable hdigit) (passed_digits cs)

theorem scanIntPart_passed {cs ds r : List Char} (h : scanIntPart cs = some (ds, r)) :
    Passed cs r := by
  cases cs with
  | nil => cases h
  | cons c cs =>
    rw [scanIntPart] at h
    split_ifs at h with hzero hdigit
    · obtain ⟨-, rfl⟩ := Prod.mk.inj (Option.some.inj h)
      exact .cons (.inr (by rw [hzero]; decide)) (.refl _)
    · obtain ⟨-, rfl⟩ := Prod.mk.inj (Option.some.inj h)
      exact .cons (isDigit_printable hdigit) (passed_digits cs)

theorem scanFrac_passed {cs ds r : List Char} (h : scanFrac cs = some (ds, r)) : Passed cs r := by
  unfold scanFrac at h
  split at h
  · exact .cons (.inr (by decide)) (scanDigits_passed h)
  · cases h

theorem scanSigned_passed {cs r : List Char} {e : ℤ} (h : scanExp.scanSigned cs = some (e, r)) :
    Passed cs r := by
  unfold scanExp.scanSigned at h
  split at h
  all_goals
    obtain ⟨⟨ds, r'⟩, hdigits, heq⟩ := Option.map_eq_some_iff.mp h
    obtain ⟨-, rfl⟩ := Prod.mk.inj heq
    have hpassed := scanDigits_passed hdigits
  · exact .cons (.inr (by decide)) hpassed
  · exact .cons (.inr (by decide)) hpassed
  · exact hpassed

theorem scanExp_passed {cs r : List Char} {e : ℤ} (h : scanExp cs = some (e, r)) : Passed cs r := by
  unfold scanExp at h
  split at h
  · exact .cons (.inr (by decide)) (scanSigned_passed h)
  · exact .cons (.inr (by decide)) (scanSigned_passed h)
  · cases h

theorem scanUnsigned_passed {neg : Bool} {cs r : List Char} {v : Json}
    (h : scanUnsigned neg cs = .ok (v, r)) : Passed cs r := by
  unfold scanUnsigned at h
  split at h
  · cases h
  · rename_i ds r' hpart
    have hint := scanIntPart_passed hpart
    split at h
    · rename_i hfraction
      have hfrac := hint.trans (scanFrac_passed hfraction)
      split at h
      · rename_i hexponent
        obtain ⟨-, rfl⟩ := Prod.mk.inj (Except.ok.inj h)
        exact hfrac.trans (scanExp_passed hexponent)
      · obtain ⟨-, rfl⟩ := Prod.mk.inj (Except.ok.inj h)
        exact hfrac
    · split at h
      · rename_i hexponent
        obtain ⟨-, rfl⟩ := Prod.mk.inj (Except.ok.inj h)
        exact hint.trans (scanExp_passed hexponent)
      · cases hintOf : intOf neg ds with
        | error e =>
          rw [hintOf] at h
          cases h
        | ok w =>
          rw [hintOf] at h
          obtain ⟨-, rfl⟩ := Prod.mk.inj (Except.ok.inj h)
          exact hint

/-- No control character stands in the word. -/
def plainWord (w : String) : Bool := w.toList.all fun c => 32 ≤ c.toNat

theorem scanWord_passed {w : String} (hw : plainWord w = true) {cs r : List Char}
    (h : scanWord w cs = some r) : Passed cs r := by
  unfold scanWord at h
  split_ifs at h with hstart
  obtain rfl := Option.some.inj h
  refine ⟨w.toList, (List.prefix_iff_eq_append.mp hstart).symm, ?_⟩
  intro c hc
  have hcode := List.all_eq_true.mp hw c hc
  exact .inr (of_decide_eq_true hcode)

theorem scanScalar_passed {cs r : List Char} {v : Json} (h : scanScalar cs = .ok (v, r)) :
    Passed cs r := by
  have hword : ∀ {w : String} {r' : List Char}, plainWord w = true → scanWord w cs = some r' →
      r' = r → Passed cs r := by
    intro w r' hw hscan hr
    rw [← hr]
    exact scanWord_passed hw hscan
  unfold scanScalar at h
  repeat' split at h
  case h_2 =>
    unfold scanNumber at h
    split at h
    · exact .cons (.inr (by decide)) (scanUnsigned_passed h)
    · exact scanUnsigned_passed h
  all_goals
    rename_i hscan
    exact hword (by decide) hscan (Prod.mk.inj (Except.ok.inj h)).2

end Numbers

section Documents

/-- With that fuel a scan passes printable characters only. -/
structure Passes (fuel : ℕ) : Prop where
  value : ∀ {cs v r}, scanValue fuel cs = .ok (v, r) → Passed cs r
  elems : ∀ {cs l r}, scanElems fuel cs = .ok (l, r) → Passed cs r
  members : ∀ {cs ws r}, scanMembers fuel cs = .ok (ws, r) → Passed cs r

/-- A mark of the grammar, after blanks. -/
private theorem passed_mark {c : Char} (hc : 32 ≤ c.toNat) {cs r : List Char}
    (h : skipWs cs = c :: r) : Passed cs r := by
  have hskip := passed_skipWs cs
  rw [h] at hskip
  exact hskip.trans (.cons (.inr hc) (.refl r))

private theorem Passes.value_succ {fuel : ℕ} (h : Passes fuel) {cs r : List Char} {v : Json}
    (hscan : scanValue (fuel + 1) cs = .ok (v, r)) : Passed cs r := by
  cases cs with
  | nil => cases hscan
  | cons c cs =>
    rw [scanValue] at hscan
    split_ifs at hscan with hquote hbracket hbrace
    · have hc : Printable c := .inr (by rw [hquote]; decide)
      split at hscan
      · cases hscan
      · rename_i hstring
        obtain ⟨-, rfl⟩ := Prod.mk.inj (Except.ok.inj hscan)
        exact .cons hc (scanString_passed hstring)
    · have hc : Printable c := .inr (by rw [hbracket]; decide)
      split at hscan
      · rename_i hend
        obtain ⟨-, rfl⟩ := Prod.mk.inj (Except.ok.inj hscan)
        exact .cons hc (passed_mark (by decide) hend)
      · split at hscan
        · cases hscan
        · rename_i helems
          obtain ⟨-, rfl⟩ := Prod.mk.inj (Except.ok.inj hscan)
          exact .cons hc ((passed_skipWs cs).trans (h.elems helems))
    · have hc : Printable c := .inr (by rw [hbrace]; decide)
      split at hscan
      · rename_i hend
        obtain ⟨-, rfl⟩ := Prod.mk.inj (Except.ok.inj hscan)
        exact .cons hc (passed_mark (by decide) hend)
      · split at hscan
        · cases hscan
        · rename_i hmembers
          obtain ⟨-, rfl⟩ := Prod.mk.inj (Except.ok.inj hscan)
          exact .cons hc ((passed_skipWs cs).trans (h.members hmembers))
    · exact scanScalar_passed hscan

private theorem Passes.elems_succ {fuel : ℕ} (h : Passes fuel) {cs r : List Char} {l : List Json}
    (hscan : scanElems (fuel + 1) cs = .ok (l, r)) : Passed cs r := by
  rw [scanElems] at hscan
  split at hscan
  · cases hscan
  · rename_i hvalue
    have hfirst := h.value hvalue
    split at hscan
    · rename_i hend
      obtain ⟨-, rfl⟩ := Prod.mk.inj (Except.ok.inj hscan)
      exact hfirst.trans (passed_mark (by decide) hend)
    · rename_i hcomma
      split at hscan
      · cases hscan
      · rename_i hrest
        obtain ⟨-, rfl⟩ := Prod.mk.inj (Except.ok.inj hscan)
        have hmark := hfirst.trans (passed_mark (by decide) hcomma)
        exact (hmark.trans (passed_skipWs _)).trans (h.elems hrest)
    · cases hscan

private theorem Passes.members_succ {fuel : ℕ} (h : Passes fuel) {cs r : List Char}
    {ws : List (String × Json)} (hscan : scanMembers (fuel + 1) cs = .ok (ws, r)) :
    Passed cs r := by
  unfold scanMembers at hscan
  split at hscan
  · cases hscan
  · rename_i heq
    obtain rfl := Nat.succ.inj heq
    split at hscan
    · cases hscan
    · rename_i hkey
      have hfirst := Passed.cons (c := '"') (.inr (by decide)) (scanString_passed hkey)
      split at hscan
      · rename_i hcolon
        have hpair := (hfirst.trans (passed_mark (by decide) hcolon)).trans (passed_skipWs _)
        split at hscan
        · cases hscan
        · rename_i hvalue
          have hmember := hpair.trans (h.value hvalue)
          split at hscan
          · rename_i hend
            obtain ⟨-, rfl⟩ := Prod.mk.inj (Except.ok.inj hscan)
            exact hmember.trans (passed_mark (by decide) hend)
          · rename_i hcomma
            split at hscan
            · cases hscan
            · rename_i hrest
              obtain ⟨-, rfl⟩ := Prod.mk.inj (Except.ok.inj hscan)
              have hmark := hmember.trans (passed_mark (by decide) hcomma)
              exact (hmark.trans (passed_skipWs _)).trans (h.members hrest)
          · cases hscan
      · cases hscan
  · cases hscan

theorem passes (fuel : ℕ) : Passes fuel := by
  induction fuel with
  | zero =>
    refine ⟨?_, ?_, ?_⟩
    · intro cs v r h
      cases h
    · intro cs l r h
      cases h
    · intro cs ws r h
      cases h
  | succ fuel ih => exact ⟨ih.value_succ, ih.elems_succ, ih.members_succ⟩

/-- A document has no control characters but its blanks. -/
theorem loads_printable {cs : List Char} {v : Json} (h : loads cs = .ok v) :
    ∀ c ∈ cs, Printable c := by
  unfold loads at h
  split at h
  · cases h
  · rename_i w r hscan
    split_ifs at h with hend
    have hrest := passed_skipWs r
    rw [hend] at hrest
    exact (((passed_skipWs cs).trans ((passes _).value hscan)).trans hrest).all

end Documents

end TvEvents.JsonText
