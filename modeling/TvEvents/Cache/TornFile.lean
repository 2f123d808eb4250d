import TvEvents.Cache.Coherence

namespace TvEvents

open JsonText BlacklistCache

section AsciiText

theorem digitChar_ascii {n : ℕ} (h : n < 16) : (Nat.digitChar n).toNat < 128 := by
  revert n
  decide

theorem hex4_ascii {n : ℕ} {d : Char} (h : d ∈ hex4 n) : d.toNat < 128 := by
  simp only [hex4, List.mem_cons, List.not_mem_nil, or_false] at h
  rcases h with rfl | rfl | rfl | rfl
  · exact digitChar_ascii (by omega)
  · exact digitChar_ascii (by omega)
  · exact digitChar_ascii (by omega)
  · exact digitChar_ascii (by omega)

/-- Every character is escaped to ASCII, so the bytes of a text are its characters. -/
theorem escapeChar_ascii {c d : Char} (h : d ∈ escapeChar c) : d.toNat < 128 := by
  unfold escapeChar at h
  split at h
  · rename_i e he
    have hshort : e.toNat < 128 := by
      unfold shortEscape at he
      split at he <;> cases he <;> decide
    simp only [List.mem_cons, List.not_mem_nil, or_false] at h
    rcases h with rfl | rfl
    · decide
    · exact hshort
  · split_ifs at h with hplain hbasic
    · rw [List.mem_singleton.mp h]
      omega
    · simp only [List.mem_cons] at h
      rcases h with rfl | rfl | h
      · decide
      · decide
      · exact hex4_ascii h
    · simp only [List.mem_cons, List.mem_append] at h
      rcases h with rfl | rfl | h | rfl | rfl | h
      · decide
      · decide
      · exact hex4_ascii h
      · decide
      · decide
      · exact hex4_ascii h

theorem dumpsStr_ascii {s : String} {d : Char} (h : d ∈ dumpsStr s) : d.toNat < 128 := by
  simp only [dumpsStr, List.mem_cons, List.mem_append, List.mem_flatMap, List.not_mem_nil,
    or_false] at h
  rcases h with rfl | ⟨c, -, h⟩ | rfl
  · decide
  · exact escapeChar_ascii h
  · decide

end AsciiText

section TornFile

variable [Runtime]

/-- The text that a list of texts is written as. -/
def cacheText (ids : List String) : List Char := dumps (.arr (ids.map .str))

theorem dumpsElems_ascii {ids : List String} {d : Char} (h : d ∈ dumpsElems (ids.map .str)) :
    d.toNat < 128 := by
  induction ids with
  | nil => cases h
  | cons s ids ih =>
    cases ids with
    | nil => exact dumpsStr_ascii h
    | cons s' ids =>
      simp only [List.map_cons, dumpsElems, dumps, List.mem_append, List.mem_cons] at h ih
      rcases h with h | rfl | rfl | h
      · exact dumpsStr_ascii h
      · decide
      · decide
      · exact ih h

theorem cacheText_ascii {ids : List String} {d : Char} (h : d ∈ cacheText ids) : d.toNat < 128 := by
  simp only [cacheText, dumps, List.mem_cons, List.mem_append, List.not_mem_nil, or_false] at h
  rcases h with rfl | h | rfl
  · decide
  · exact dumpsElems_ascii h
  · decide

theorem dumpsIds_textIds (ids : List String) : dumpsIds (textIds ids) = some (cacheText ids) := by
  rw [dumpsIds, jsonValues_textIds]
  rfl

omit [Runtime] in
private theorem texts_isId (ids : List String) : ∀ v ∈ ids.map Json.str, IsId v := by
  intro v hv
  obtain ⟨s, -, rfl⟩ := List.mem_map.mp hv
  trivial

theorem readCache_cut {ids : List String} {p : List Char} (hp : p <+: cacheText ids)
    (hcut : p ≠ cacheText ids) (t : Tick) {s : BlacklistCache} (hfile : s.file = .text p) :
    readCache t s = .ok none := by
  have hloads := loads_cut (texts_isId ids) hp hcut
  unfold readCache
  rw [hfile]
  simp only [hloads, ite_self]

theorem readCache_whole {ids : List String} {t : Tick} (ht : t.readFails = false)
    {s : BlacklistCache} (hfile : s.file = .text (cacheText ids)) :
    readCache t s = .ok (some (.list (textIds ids))) := by
  have hloads : loads (cacheText ids) = .ok (.arr (ids.map .str)) := loads_dumps (texts_isId ids)
  unfold readCache
  rw [hfile]
  simp only [ht, hloads, Bool.false_eq_true, if_false, Held.ofJson, List.map_map]
  rfl

/-- However a write ends, the file is as before or holds a part of the text. -/
theorem writeCache_part (t : Tick) (ids : List String) (s : BlacklistCache) :
    (writeCache t (textIds ids) s).2.file = s.file ∨
      ∃ p, p <+: cacheText ids ∧ (writeCache t (textIds ids) s).2.file = .text p := by
  unfold writeCache
  rw [dumpsIds_textIds]
  cases t.write with
  | openFails => exact .inl rfl
  | failsAfter n => exact .inr ⟨_, List.take_prefix n _, rfl⟩
  | completes => exact .inr ⟨_, List.prefix_refl _, rfl⟩

/-- The text is ASCII; a strict part of it is a miss, the whole text is the list, and so a write that
ends anywhere leaves the old file, a miss, or the list. -/
theorem tornFile_not_served (ids : List String) :
    (∀ t s, t.write = .completes →
        (writeCache t (textIds ids) s).2.file = .text (cacheText ids)) ∧
      (∀ d ∈ cacheText ids, d.toNat < 128) ∧
      (∀ p, p <+: cacheText ids → p ≠ cacheText ids → ∀ t s, s.file = .text p →
        readCache t s = .ok none) ∧
      (∀ t s, t.readFails = false → s.file = .text (cacheText ids) →
        readCache t s = .ok (some (.list (textIds ids)))) ∧
      ∀ t t' s, (writeCache t (textIds ids) s).2.file = s.file ∨
        readCache t' (writeCache t (textIds ids) s).2 = .ok none ∨
        readCache t' (writeCache t (textIds ids) s).2 = .ok (some (.list (textIds ids))) := by
  refine ⟨?_, ?_, ?_, ?_, ?_⟩
  · intro t s hwrite
    simp only [writeCache, hwrite, dumpsIds_textIds]
  · intro d hd
    exact cacheText_ascii hd
  · intro p hp hcut t s hfile
    exact readCache_cut hp hcut t hfile
  · intro t s ht hfile
    exact readCache_whole ht hfile
  · intro t t' s
    rcases writeCache_part t ids s with hold | ⟨p, hp, hfile⟩
    · exact .inl hold
    · right
      by_cases hcut : p = cacheText ids
      · rw [hcut] at hfile
        cases ht : t'.readFails with
        | false => exact .inr (readCache_whole ht hfile)
        | true => exact .inl (by simp [readCache, ht])
      · exact .inl (readCache_cut hp hcut t' hfile)

end TornFile

section Samples

/-- Quotes, brackets and characters beyond ASCII inside an id do not end a torn text. -/
theorem tornFile_not_served_quoted :
    let _ : Runtime := asciiRuntime
    let ids := ["a\"]", "\\", "é😀"]
    cacheText ids = "[\"a\\\"]\", \"\\\\\", \"\\u00e9\\ud83d\\ude00\"]".toList ∧
      (∀ n < (cacheText ids).length,
        readCache sampleFetched (.fresh (.text ((cacheText ids).take n))) = .ok none) ∧
      readCache sampleFetched (.fresh (.text (cacheText ids))) = .ok (some (.list (textIds ids))) := by
  intro _ ids
  obtain ⟨-, -, hcut, hwhole, -⟩ := @tornFile_not_served asciiRuntime ids
  refine ⟨by decide +kernel, ?_, hwhole _ _ rfl rfl⟩
  intro n hn
  apply hcut _ (List.take_prefix n _) _ _ _ rfl
  intro heq
  have hlen := congrArg List.length heq
  rw [List.length_take] at hlen
  omega

end Samples

end TvEvents
