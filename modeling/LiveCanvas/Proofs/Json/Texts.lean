import LiveCanvas.Json.Reader
import LiveCanvas.Json.Writer
import LiveCanvas.Proofs.Text.Halves

/-!
# Quoted texts read back

The reader undoes the writer on one text, except that it joins the halves of a character: first a
number in hexadecimal digits, then the escape of one code point, then the code points up to the
closing quote.  What follows the text is left as it is, so the lemmas apply in the middle of a
document.
-/

namespace LiveCanvas
namespace Json

/-! ## Numbers in escapes -/

theorem hexValue?_digitChar : ∀ d < 16, hexValue? d.digitChar = some d := by
  decide

theorem scanHex_digitChar {d : Nat} (hd : d < 16) (rest : List Rune) (count n : Nat) :
    scanHex (.char d.digitChar :: rest) (count + 1) n = scanHex rest count (16 * n + d) := by
  simp [scanHex, hexValue?_digitChar d hd]

theorem scanHex_zeros (k : Nat) (rest : List Rune) (count : Nat) :
    scanHex (List.replicate k (.char '0') ++ rest) (k + count) 0 = scanHex rest count 0 := by
  induction k with
  | zero => simp
  | succ k ih =>
      rw [List.replicate_succ, List.cons_append, show k + 1 + count = k + count + 1 by omega]
      rw [show (.char '0' : Rune) = .char (Nat.digitChar 0) from rfl, scanHex_digitChar (by omega)]
      exact ih

/-- The digits of a number lead the reader to the number.  The induction takes off the last digit,
since that is how digits are made. -/
theorem scanHex_toDigits (n : Nat) (rest : List Rune) (count : Nat) :
    scanHex ((Nat.toDigits 16 n).map .char ++ rest) ((Nat.toDigits 16 n).length + count) 0 =
      scanHex rest count n := by
  induction n using Nat.strongRecOn generalizing rest count with
  | ind n ih =>
      by_cases hn : n < 16
      · rw [Nat.toDigits_of_lt_base hn]
        rw [show [n.digitChar].length + count = count + 1 by simp; omega]
        rw [List.map_singleton, List.singleton_append, scanHex_digitChar hn, Nat.mul_zero,
          Nat.zero_add]
      · rw [Nat.toDigits_of_base_le (by omega) (by omega), List.map_append, List.append_assoc,
          List.length_append]
        rw [List.length_singleton, Nat.add_assoc, ih (n / 16) (by omega)]
        rw [List.map_singleton, List.singleton_append, Nat.add_comm 1 count,
          scanHex_digitChar (by omega)]
        rw [Nat.div_add_mod]

theorem scanHex_hexPadded {n : Nat} (hn : n < 0x10000) (rest : List Rune) :
    scanHex (Text.hexPadded 4 n ++ rest) 4 0 = some (n, rest) := by
  have hlen : (Nat.toDigits 16 n).length ≤ 4 :=
    (Nat.length_toDigits_le_iff (by omega) (by omega)).2 hn
  unfold Text.hexPadded
  rw [List.map_append, List.map_replicate, List.append_assoc]
  have hpad := scanHex_zeros (4 - (Nat.toDigits 16 n).length)
    ((Nat.toDigits 16 n).map .char ++ rest) ((Nat.toDigits 16 n).length + 0)
  rw [show 4 - (Nat.toDigits 16 n).length + ((Nat.toDigits 16 n).length + 0) = 4 by omega] at hpad
  rw [hpad, scanHex_toDigits, scanHex]

/-! ## Code points -/

/-- The text goes on with the escape of a unit that is the second one of a pair. -/
def LowNext (cs : List Rune) : Prop :=
  ∃ more low rest, cs = .char '\\' :: .char 'u' :: more ∧ scanHex more 4 0 = some (low, rest) ∧
    isLowUnit low = true

theorem not_lowNext_quote (rest : List Rune) : ¬LowNext (.char '"' :: rest) := by
  rintro ⟨more, low, rest', heq, -⟩
  simp at heq

/-- A code point of the first plane is read from one unit, unless that unit goes together with the
next one. -/
theorem scanUnits_unit {c : Rune} (hc : c.toNat < 0x10000) {rest : List Rune}
    (hnext : isHighUnit c.toNat = true → ¬LowNext rest) :
    scanUnits (Text.hexPadded 4 c.toNat ++ rest) = some (c, rest) := by
  unfold scanUnits
  rw [scanHex_hexPadded hc]
  dsimp only
  split
  · next more =>
      split
      · next low rest' hlow =>
          have hapart : (isHighUnit c.toNat && isLowUnit low) = false := by
            rw [Bool.and_eq_false_iff, or_iff_not_imp_left, Bool.not_eq_false]
            intro hhigh
            by_contra hlowUnit
            exact hnext hhigh ⟨more, low, rest', rfl, hlow, (Bool.not_eq_false _).mp hlowUnit⟩
          rw [hapart]
          simp
      · simp
  · simp

theorem scanUnits_halves {high low : Nat} (hhigh : isHighUnit high = true)
    (hlow : isLowUnit low = true) (rest : List Rune) :
    scanUnits (Text.hexPadded 4 high ++ (unitEscape low ++ rest)) =
      some (Rune.ofNat (0x10000 + 0x400 * (high - 0xd800) + (low - 0xdc00)), rest) := by
  have hbounds := hhigh
  simp only [isHighUnit, Bool.and_eq_true, decide_eq_true_eq] at hbounds
  have hbounds' := hlow
  simp only [isLowUnit, Bool.and_eq_true, decide_eq_true_eq] at hbounds'
  unfold scanUnits
  rw [scanHex_hexPadded (by omega)]
  simp only [unitEscape, List.cons_append]
  rw [scanHex_hexPadded (by omega)]
  simp [hhigh, hlow]

/-- A character beyond the first plane is read from its two units. -/
theorem scanUnits_pair {c : Rune} (hc : 0x10000 ≤ c.toNat) (rest : List Rune) :
    scanUnits (Text.hexPadded 4 (0xd800 + (c.toNat - 0x10000) / 0x400) ++
      (unitEscape (0xdc00 + (c.toNat - 0x10000) % 0x400) ++ rest)) = some (c, rest) := by
  have hvalid := c.toNat_lt
  have hhigh : isHighUnit (0xd800 + (c.toNat - 0x10000) / 0x400) = true := by
    simp only [isHighUnit, Bool.and_eq_true, decide_eq_true_eq]
    omega
  have hlow : isLowUnit (0xdc00 + (c.toNat - 0x10000) % 0x400) = true := by
    simp only [isLowUnit, Bool.and_eq_true, decide_eq_true_eq]
    omega
  have hnumber : 0x10000 + 0x400 * (0xd800 + (c.toNat - 0x10000) / 0x400 - 0xd800) +
      (0xdc00 + (c.toNat - 0x10000) % 0x400 - 0xdc00) = c.toNat := by
    omega
  rw [scanUnits_halves hhigh hlow, hnumber, Rune.ofNat_toNat]

/-! ## Texts -/

theorem readText_escape {cs rest : List Rune} {c : Rune} (h : scanEscape cs = some (c, rest))
    (read : List Rune) (fuel : Nat) :
    readText read (.char '\\' :: cs) (fuel + 1) = readText (c :: read) rest fuel := by
  rw [readText.eq_def]
  simp [h]

theorem readText_plain {c : Rune} (hquote : c ≠ '"') (hslash : c ≠ '\\') (hc : 0x20 ≤ c.toNat)
    (read rest : List Rune) (fuel : Nat) :
    readText read (c :: rest) (fuel + 1) = readText (c :: read) rest fuel := by
  rw [readText.eq_def]
  dsimp only
  split
  · contradiction
  · next heq => exact absurd (List.cons.inj heq).1 hquote
  · next heq => exact absurd (List.cons.inj heq).1 hslash
  · next heq =>
      obtain ⟨rfl, rfl⟩ := List.cons.inj heq
      rw [if_neg (by omega)]

theorem readText_unitEscape {n : Nat} {cs rest : List Rune} {c : Rune}
    (h : scanUnits (Text.hexPadded 4 n ++ cs) = some (c, rest)) (read : List Rune) (fuel : Nat) :
    readText read (unitEscape n ++ cs) (fuel + 1) = readText (c :: read) rest fuel := by
  have hescape : scanEscape (.char 'u' :: (Text.hexPadded 4 n ++ cs)) = some (c, rest) := h
  exact readText_escape hescape read fuel

/-- The characters that are written with a letter or a mark after a backslash. -/
def shortEscaped : List Rune := ['"', '\\', '\n', '\r', '\t', '\x08', '\x0c']

theorem exists_shortEscape {c : Rune} (h : c ∈ shortEscaped) :
    ∃ letter, escapedChar c = [.char '\\', letter] ∧
      ∀ rest, scanEscape (letter :: rest) = some (c, rest) := by
  simp only [shortEscaped, List.mem_cons, List.not_mem_nil, or_false] at h
  rcases h with rfl | rfl | rfl | rfl | rfl | rfl | rfl <;> exact ⟨_, rfl, fun _ => rfl⟩

theorem escapedChar_of_notMem {c : Rune} (h : c ∉ shortEscaped) :
    escapedChar c =
      if 0x20 ≤ c.toNat && c.toNat ≤ 0x7e then [c]
      else if c.toNat < 0x10000 then unitEscape c.toNat
      else unitEscape (0xd800 + (c.toNat - 0x10000) / 0x400) ++
        unitEscape (0xdc00 + (c.toNat - 0x10000) % 0x400) := by
  simp only [shortEscaped, List.mem_cons, List.not_mem_nil, or_false, not_or] at h
  obtain ⟨hquote, hslash, hn, hr, ht, hb, hf⟩ := h
  unfold escapedChar
  simp only [beq_iff_eq, hquote, hslash, hn, hr, ht, hb, hf, if_false]

/-- A second unit is written only where the second half of a pair stands. -/
theorem isLowUnit_of_lowNext_escapedChar {c : Rune} {rest : List Rune}
    (h : LowNext (escapedChar c ++ rest)) : isLowUnit c.toNat = true := by
  obtain ⟨more, low, rest', heq, hscan, hlow⟩ := h
  have hunit : ∀ n < 0x10000, ∀ after, unitEscape n ++ after = .char '\\' :: .char 'u' :: more →
      n = low := by
    intro n hn after heq
    simp only [unitEscape, List.cons_append, List.cons.injEq, true_and] at heq
    rw [← heq, scanHex_hexPadded hn, Option.some.injEq, Prod.mk.injEq] at hscan
    exact hscan.1
  by_cases hshort : c ∈ shortEscaped
  · simp only [shortEscaped, List.mem_cons, List.not_mem_nil, or_false] at hshort
    rcases hshort with rfl | rfl | rfl | rfl | rfl | rfl | rfl <;> simp [escapedChar] at heq
  · rw [escapedChar_of_notMem hshort] at heq
    split at heq
    · simp only [List.singleton_append, List.cons.injEq] at heq
      obtain ⟨rfl, -⟩ := heq
      exact absurd (by decide) hshort
    · split at heq
      · next hplane => rwa [hunit _ hplane _ heq]
      · -- a character beyond the first plane starts with a first unit
        have hbound := c.toNat_lt
        rw [List.append_assoc] at heq
        have hfirst := hunit _ (by omega) _ heq
        simp only [isLowUnit, Bool.and_eq_true, decide_eq_true_eq] at hlow
        omega

theorem not_isHighUnit_ofHalves {a b : Rune} (h : a.IsPair b) {cs : List Rune} :
    isHighUnit (Rune.ofHalves a b).toNat = true → ¬LowNext cs := by
  intro hhigh
  rw [isHighUnit, h.toNat_ofHalves, Bool.and_eq_true, decide_eq_true_eq, decide_eq_true_eq] at hhigh
  omega

/-- The reader takes what the writer makes of a code point for the code point, unless it is the
first half of a pair and the second half follows. -/
theorem readText_escapedChar {c : Rune} {rest : List Rune}
    (hnext : isHighUnit c.toNat = true → ¬LowNext rest) (read : List Rune) (fuel : Nat) :
    readText read (escapedChar c ++ rest) (fuel + 1) = readText (c :: read) rest fuel := by
  by_cases hshort : c ∈ shortEscaped
  · obtain ⟨letter, hescaped, hscan⟩ := exists_shortEscape hshort
    rw [hescaped]
    exact readText_escape (hscan rest) read fuel
  · rw [escapedChar_of_notMem hshort]
    split
    · next hprintable =>
        rw [Bool.and_eq_true, decide_eq_true_eq] at hprintable
        refine readText_plain ?_ ?_ hprintable.1 read rest fuel
        · rintro rfl
          exact hshort (by decide)
        · rintro rfl
          exact hshort (by decide)
    · split
      · next hunit => exact readText_unitEscape (scanUnits_unit hunit hnext) read fuel
      · next hpair =>
          rw [List.append_assoc]
          exact readText_unitEscape (scanUnits_pair (Nat.le_of_not_lt hpair) rest) read fuel

/-- What is written for a pair of halves is what is written for the character. -/
theorem escapedChar_ofHalves {a b : Rune} (h : a.IsPair b) :
    escapedChar (Rune.ofHalves a b) = escapedChar a ++ escapedChar b := by
  have hunit : ∀ c : Rune, 0x7f < c.toNat → c ∉ shortEscaped := by
    intro c hc hshort
    simp only [shortEscaped, List.mem_cons, List.not_mem_nil, or_false] at hshort
    rcases hshort with rfl | rfl | rfl | rfl | rfl | rfl | rfl <;> exact absurd hc (by decide)
  have hbounds := h.bounds
  have hjoined := h.toNat_ofHalves
  rw [escapedChar_of_notMem (hunit _ (by omega)), escapedChar_of_notMem (hunit a (by omega)),
    escapedChar_of_notMem (hunit b (by omega))]
  simp only [Bool.and_eq_true, decide_eq_true_eq]
  rw [if_neg (by omega), if_neg (by omega), if_neg (by omega), if_pos (by omega),
    if_neg (by omega), if_pos (by omega)]
  rw [show 0xd800 + ((Rune.ofHalves a b).toNat - 0x10000) / 0x400 = a.toNat by omega,
    show 0xdc00 + ((Rune.ofHalves a b).toNat - 0x10000) % 0x400 = b.toNat by omega]

/-- A text is written as it is written with its pairs joined. -/
theorem flatMap_escapedChar_joinHalves (cs : List Rune) :
    (Rune.joinHalves cs).flatMap escapedChar = cs.flatMap escapedChar := by
  induction cs using Rune.joinHalves.induct with
  | case1 => rfl
  | case2 c => rfl
  | case3 first second rest hpair ih =>
      rw [Rune.joinHalves_of_isPair hpair, List.flatMap_cons, escapedChar_ofHalves hpair, ih]
      simp
  | case4 first second rest hpair ih =>
      rw [Rune.joinHalves_of_not_isPair hpair, List.flatMap_cons, ih]
      rfl

/-- The reader gets through an escaped text in at most one step for each code point. -/
theorem readText_escaped (cs read rest : List Rune) (fuel : Nat) :
    readText read (cs.flatMap escapedChar ++ .char '"' :: rest) (fuel + cs.length + 1) =
      .ok (Text.ofList (read.reverse ++ Rune.joinHalves cs), rest) := by
  induction cs using Rune.joinHalves.induct generalizing read fuel with
  | case1 => simp [readText, Rune.joinHalves]
  | case2 c =>
      rw [List.flatMap_singleton, List.length_singleton,
        readText_escapedChar fun _ => not_lowNext_quote rest]
      simp [readText, Rune.joinHalves]
  | case3 first second cs hpair ih =>
      -- the two units of a pair are read at once
      rw [Rune.joinHalves_of_isPair hpair, List.flatMap_cons, List.flatMap_cons,
        ← List.append_assoc, ← escapedChar_ofHalves hpair, List.append_assoc]
      rw [show fuel + (first :: second :: cs).length + 1 = fuel + 1 + cs.length + 1 + 1 by
        simp only [List.length_cons]; omega]
      rw [readText_escapedChar (not_isHighUnit_ofHalves hpair), ih]
      simp
  | case4 first second cs hpair ih =>
      rw [Rune.joinHalves_of_not_isPair hpair, List.flatMap_cons, List.append_assoc]
      rw [show fuel + (first :: second :: cs).length + 1 = fuel + (second :: cs).length + 1 + 1 by
        simp only [List.length_cons]; omega]
      have hnext : isHighUnit first.toNat = true →
          ¬LowNext ((second :: cs).flatMap escapedChar ++ .char '"' :: rest) := by
        intro hhigh hlow
        rw [List.flatMap_cons, List.append_assoc] at hlow
        exact hpair ⟨hhigh, isLowUnit_of_lowNext_escapedChar hlow⟩
      rw [readText_escapedChar hnext, ih]
      simp

theorem exists_digitChar_of_mem_toDigits {c : Char} {n : Nat} (h : c ∈ Nat.toDigits 16 n) :
    ∃ d < 16, c = d.digitChar := by
  induction n using Nat.strongRecOn with
  | ind n ih =>
      by_cases hn : n < 16
      · rw [Nat.toDigits_of_lt_base hn, List.mem_singleton] at h
        exact ⟨n, hn, h⟩
      · rw [Nat.toDigits_of_base_le (by omega) (by omega), List.mem_append, List.mem_singleton] at h
        obtain h | h := h
        · exact ih (n / 16) (by omega) h
        · exact ⟨n % 16, by omega, h⟩

/-- An escape by number is made of a backslash, a letter and hexadecimal digits. -/
theorem unitEscape_eq (n : Nat) :
    ∃ piece, unitEscape n = .char '\\' :: piece ∧ .char '<' ∉ piece ∧ .char '/' ∉ piece := by
  have hdigit : ∀ d < 16, Nat.digitChar d ≠ '<' ∧ Nat.digitChar d ≠ '/' := by
    decide
  have hpiece : ∀ c ∈ Rune.char 'u' :: Text.hexPadded 4 n, c ≠ '<' ∧ c ≠ '/' := by
    intro c hc
    rw [Text.hexPadded, List.mem_cons, List.mem_map] at hc
    obtain rfl | ⟨c, hc, rfl⟩ := hc
    · decide
    · rw [ne_eq, ne_eq, Rune.char_inj, Rune.char_inj]
      obtain hzero | hmem := List.mem_append.1 hc
      · rw [List.eq_of_mem_replicate hzero]
        decide
      · obtain ⟨d, hd, rfl⟩ := exists_digitChar_of_mem_toDigits hmem
        exact hdigit d hd
  exact ⟨_, rfl, fun hmem => (hpiece _ hmem).1 rfl, fun hmem => (hpiece _ hmem).2 rfl⟩

/-- A character stands as it is or becomes an escape, in which there is no `<` and no slash. -/
theorem escapedChar_cases (c : Rune) :
    escapedChar c = [c] ∨
      ∃ piece, escapedChar c = .char '\\' :: piece ∧ .char '<' ∉ piece ∧ .char '/' ∉ piece := by
  by_cases hshort : c ∈ shortEscaped
  · simp only [shortEscaped, List.mem_cons, List.not_mem_nil, or_false] at hshort
    rcases hshort with rfl | rfl | rfl | rfl | rfl | rfl | rfl <;>
      exact .inr ⟨_, rfl, by decide, by decide⟩
  · rw [escapedChar_of_notMem hshort]
    split
    · exact .inl rfl
    · split
      · exact .inr (unitEscape_eq _)
      · obtain ⟨high, hhigh, hhigh'⟩ := unitEscape_eq (0xd800 + (c.toNat - 0x10000) / 0x400)
        obtain ⟨low, hlow, hlow'⟩ := unitEscape_eq (0xdc00 + (c.toNat - 0x10000) % 0x400)
        refine .inr ⟨high ++ .char '\\' :: low, by rw [hhigh, hlow]; rfl, ?_, ?_⟩
        · simp [hhigh'.1, hlow'.1]
        · simp [hhigh'.2, hlow'.2]

theorem escapedChar_ne_nil (c : Rune) : escapedChar c ≠ [] := by
  obtain h | ⟨piece, h, -⟩ := escapedChar_cases c
  · rw [h]
    exact List.cons_ne_nil _ _
  · rw [h]
    exact List.cons_ne_nil _ _

/-- No text gets shorter by being escaped. -/
theorem length_le_escaped (cs : List Rune) : cs.length ≤ (cs.flatMap escapedChar).length := by
  induction cs with
  | nil => simp
  | cons c cs ih =>
      have hpos : 0 < (escapedChar c).length := List.length_pos_iff.2 (escapedChar_ne_nil c)
      rw [List.flatMap_cons, List.length_append, List.length_cons]
      omega

theorem toList_quoted (s : Text) :
    (quoted s).toList = .char '"' :: (s.toList.flatMap escapedChar ++ [.char '"']) := by
  simp [quoted]

/-- A quoted text is read back with its pairs joined, whatever follows it. -/
theorem readText_quoted (s : Text) (rest : List Rune) :
    readText [] (s.toList.flatMap escapedChar ++ .char '"' :: rest)
      ((s.toList.flatMap escapedChar ++ .char '"' :: rest).length + 1) = .ok (s.joined, rest) := by
  have hlen := length_le_escaped s.toList
  have hread := readText_escaped s.toList [] rest
    ((s.toList.flatMap escapedChar ++ .char '"' :: rest).length - s.toList.length)
  rw [Nat.sub_add_cancel (by rw [List.length_append]; omega)] at hread
  rw [hread, List.reverse_nil, List.nil_append, Text.joined]

end Json
end LiveCanvas
