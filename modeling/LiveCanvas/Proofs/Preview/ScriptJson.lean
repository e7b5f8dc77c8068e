import LiveCanvas.Preview.Document
import LiveCanvas.Proofs.Json.RoundTrip
import Mathlib.Data.List.Infix

/-!
# JSON inside a script element

A document embeds JSON in script elements and breaks the slash off each `</` in it.  That is another
spelling of the same JSON, so a reader still finds the value, and no element can be closed from
inside.  A script element is also disturbed by `<!--` and by `<script`.  These stay in the JSON
exactly where a text or a name in the value has them.
-/

namespace LiveCanvas

open Json

namespace Document

/-! ## Breaking closers -/

/-- The closers broken in a text that stands behind a character. -/
def breakClosersAfter (before : Rune) (cs : List Rune) : List Rune :=
  ((before :: cs).zip cs).flatMap fun (before, c) =>
    if before == '<' && c == '/' then ['\\', c] else [c]

theorem breakClosers_eq (cs : List Rune) : breakClosers cs = breakClosersAfter ' ' cs := rfl

theorem breakClosersAfter_closer (cs : List Rune) :
    breakClosersAfter '<' (.char '/' :: cs) =
      .char '\\' :: .char '/' :: breakClosersAfter '/' cs := rfl

theorem breakClosersAfter_cons {before c : Rune} (h : before ≠ '<' ∨ c ≠ '/') (cs : List Rune) :
    breakClosersAfter before (c :: cs) = c :: breakClosersAfter c cs := by
  have hcond : (before == '<' && c == '/') = false := by
    rw [Bool.and_eq_false_iff, beq_eq_false_iff_ne, beq_eq_false_iff_ne]
    exact h
  rw [breakClosersAfter, List.zip_cons_cons, List.flatMap_cons]
  simp only [hcond]
  rfl

/-- Every character is kept, or is the slash of a closer. -/
theorem breakClosersAfter_induction {motive : Rune → List Rune → List Rune → Prop}
    (nil : ∀ before, motive before [] [])
    (closer : ∀ cs, motive '/' cs (breakClosersAfter '/' cs) →
      motive '<' (.char '/' :: cs) (.char '\\' :: .char '/' :: breakClosersAfter '/' cs))
    (kept : ∀ (before c : Rune) cs, before ≠ '<' ∨ c ≠ '/' → motive c cs (breakClosersAfter c cs) →
      motive before (c :: cs) (c :: breakClosersAfter c cs))
    (before : Rune) (cs : List Rune) : motive before cs (breakClosersAfter before cs) := by
  induction cs generalizing before with
  | nil => exact nil before
  | cons c cs ih =>
      by_cases h : before = '<' ∧ c = '/'
      · obtain ⟨rfl, rfl⟩ := h
        rw [breakClosersAfter_closer]
        exact closer cs (ih '/')
      · have hne : before ≠ '<' ∨ c ≠ '/' := not_and_or.1 h
        rw [breakClosersAfter_cons hne]
        exact kept before c cs hne (ih c)

/-- Only `<` matters of what stands before. -/
theorem breakClosersAfter_of_ne {before : Rune} (h : before ≠ '<') (cs : List Rune) :
    breakClosersAfter before cs = breakClosers cs := by
  cases cs with
  | nil => rfl
  | cons c cs =>
      rw [breakClosers_eq, breakClosersAfter_cons (.inl h),
        breakClosersAfter_cons (.inl (by decide))]

theorem breakClosersAfter_split (before : Rune) (cs : List Rune) {c : Rune} (hlt : c ≠ '<')
    (hslash : c ≠ '/') (rest : List Rune) :
    breakClosersAfter before (cs ++ c :: rest) =
      breakClosersAfter before cs ++ c :: breakClosers rest := by
  induction before, cs using breakClosersAfter_induction with
  | nil before =>
      rw [List.nil_append, breakClosersAfter_cons (.inr hslash), breakClosersAfter_of_ne hlt]
      rfl
  | closer cs ih =>
      rw [List.cons_append, breakClosersAfter_closer, ih]
      rfl
  | kept before d cs hne ih =>
      rw [List.cons_append, breakClosersAfter_cons hne, ih, List.cons_append]

/-- What has neither `<` nor a slash stays as it is, and nothing runs over it. -/
theorem breakClosersAfter_quiet (before : Rune) {piece : List Rune} (hne : piece ≠ [])
    (hlt : .char '<' ∉ piece) (hslash : .char '/' ∉ piece) (rest : List Rune) :
    breakClosersAfter before (piece ++ rest) = piece ++ breakClosers rest := by
  induction piece generalizing before with
  | nil => exact absurd rfl hne
  | cons c piece ih =>
      rw [List.mem_cons, not_or] at hlt hslash
      rw [List.cons_append, breakClosersAfter_cons (.inr (Ne.symm hslash.1))]
      cases piece with
      | nil => rw [List.nil_append, breakClosersAfter_of_ne (Ne.symm hlt.1)]; rfl
      | cons d piece => rw [ih c (List.cons_ne_nil _ _) hlt.2 hslash.2]; rfl

/-- No closer is left, even together with what stands before. -/
theorem not_closer_isInfix (before : Rune) (cs : List Rune) :
    ¬ [.char '<', .char '/'] <:+: before :: breakClosersAfter before cs := by
  induction before, cs using breakClosersAfter_induction with
  | nil before => simp [List.infix_cons_iff]
  | closer cs ih =>
      simpa [List.infix_cons_iff (a := Rune.char '<'), List.infix_cons_iff (a := Rune.char '\\')]
      using ih
  | kept before c cs hne ih =>
      rw [List.infix_cons_iff]
      rintro (hstart | hpart)
      · simp only [List.cons_prefix_cons, List.nil_prefix, and_true] at hstart
        exact not_and_or.2 hne ⟨hstart.1.symm, hstart.2.symm⟩
      · exact ih hpart

/-! ## Escapes -/

/-- A character that always stands as it is. -/
def IsPlain (c : Rune) : Prop :=
  escapedChar c = [c] ∧ c ≠ '/'

theorem not_isPlain_backslash : ¬ IsPlain '\\' :=
  fun h => absurd h.1 (by decide)

/-- The second text is the first one with escapes in the place of some characters that are not
plain. -/
inductive Escapes : List Rune → List Rune → Prop
  | nil : Escapes [] []
  | kept (c : Rune) {cs out : List Rune} (h : Escapes cs out) : Escapes (c :: cs) (c :: out)
  | escaped {c : Rune} (hc : ¬ IsPlain c) {piece : List Rune} (hpiece : .char '<' ∉ piece)
      {cs out : List Rune} (h : Escapes cs out) : Escapes (c :: cs) (.char '\\' :: (piece ++ out))

theorem Escapes.length_le {cs out : List Rune} (h : Escapes cs out) : cs.length ≤ out.length := by
  induction h with
  | nil => exact Nat.le_refl _
  | kept c h ih => exact Nat.succ_le_succ ih
  | escaped hc hpiece h ih =>
      rw [List.length_cons, List.length_cons, List.length_append]
      omega

theorem escapes_escaped (cs : List Rune) : Escapes cs (cs.flatMap escapedChar) := by
  induction cs with
  | nil => exact .nil
  | cons c cs ih =>
      rw [List.flatMap_cons]
      by_cases hc : escapedChar c = [c]
      · rw [hc]
        exact .kept c ih
      · obtain h | ⟨piece, h, hpiece, -⟩ := escapedChar_cases c
        · exact absurd h hc
        · rw [h]
          exact .escaped (fun hplain => hc hplain.1) hpiece ih

theorem escapes_breakClosersAfter (before : Rune) (cs : List Rune) :
    Escapes cs (breakClosersAfter before cs) := by
  induction before, cs using breakClosersAfter_induction with
  | nil before => exact .nil
  | closer cs ih =>
      have hslash : Rune.char '<' ∉ [.char '/'] := by decide
      exact .escaped (fun hplain => hplain.2 rfl) hslash ih
  | kept before c cs _ ih => exact .kept c ih

/-! ## Reading what is embedded -/

theorem escapedChar_quiet {c : Rune} (hlt : c ≠ '<') (hslash : c ≠ '/') :
    .char '<' ∉ escapedChar c ∧ .char '/' ∉ escapedChar c := by
  obtain h | ⟨piece, h, hpiece⟩ := escapedChar_cases c
  · simp [h, Ne.symm hlt, Ne.symm hslash]
  · simpa [h] using hpiece

/-- What is written for a code point without `<` and slash is read as it is. -/
theorem breakClosersAfter_escapedChar (before : Rune) {c : Rune} (hlt : c ≠ '<') (hslash : c ≠ '/')
    (rest : List Rune) :
    breakClosersAfter before (escapedChar c ++ rest) = escapedChar c ++ breakClosers rest :=
  breakClosersAfter_quiet before (escapedChar_ne_nil c) (escapedChar_quiet hlt hslash).1
    (escapedChar_quiet hlt hslash).2 rest

/-- Breaking closers puts the second half of a pair nowhere. -/
theorem isLowUnit_of_lowNext_breakClosers {c : Rune} {cs rest : List Rune}
    (h : LowNext (breakClosers (escapedChar c ++ cs) ++ rest)) : isLowUnit c.toNat = true := by
  rw [breakClosers_eq] at h
  by_cases hlt : c = '<'
  · subst hlt
    obtain ⟨more, low, rest', heq, -⟩ := h
    rw [show escapedChar '<' = [.char '<'] from rfl, List.singleton_append,
      breakClosersAfter_cons (.inr (by decide))] at heq
    simp at heq
  by_cases hslash : c = '/'
  · subst hslash
    obtain ⟨more, low, rest', heq, -⟩ := h
    rw [show escapedChar '/' = [.char '/'] from rfl, List.singleton_append,
      breakClosersAfter_cons (.inl (by decide))] at heq
    simp at heq
  · rw [breakClosersAfter_escapedChar ' ' hlt hslash, List.append_assoc] at h
    exact isLowUnit_of_lowNext_escapedChar h

/-- One code point is read from what is written for it, with its closer broken. -/
theorem readText_breakClosers_cons (before c : Rune) {cs read rest : List Rune} {fuel : Nat}
    {result : Except Fault (Text × List Rune)}
    (hnext : isHighUnit c.toNat = true → ¬LowNext (breakClosers cs ++ rest))
    (hrest : ∀ before, readText (c :: read) (breakClosersAfter before cs ++ rest) fuel = result) :
    readText read (breakClosersAfter before (escapedChar c ++ cs) ++ rest) (fuel + 1) = result := by
  by_cases hlt : c = '<'
  · subst hlt
    rw [show escapedChar '<' = [.char '<'] from rfl, List.singleton_append,
      breakClosersAfter_cons (.inr (by decide)), List.cons_append, ← hrest '<']
    exact readText_plain (by decide) (by decide) (by decide) read _ _
  by_cases hslash : c = '/'
  · subst hslash
    rw [show escapedChar '/' = [.char '/'] from rfl, List.singleton_append, ← hrest '/']
    by_cases hbefore : before = '<'
    · rw [hbefore, breakClosersAfter_closer]
      exact readText_escape rfl read _
    · rw [breakClosersAfter_cons (.inl hbefore), List.cons_append]
      exact readText_plain (by decide) (by decide) (by decide) read _ _
  · rw [breakClosersAfter_escapedChar before hlt hslash, List.append_assoc,
      readText_escapedChar hnext]
    exact hrest ' '

/-- A slash behind a backslash is read as a slash, so broken closers change nothing for a reader. -/
theorem readText_breakClosers (before : Rune) (cs read rest : List Rune) (fuel : Nat) :
    readText read (breakClosersAfter before (cs.flatMap escapedChar) ++ .char '"' :: rest)
      (fuel + cs.length + 1) = .ok (Text.ofList (read.reverse ++ Rune.joinHalves cs), rest) := by
  induction cs using Rune.joinHalves.induct generalizing before read fuel with
  | case1 => simp [breakClosersAfter, readText, Rune.joinHalves]
  | case2 c =>
      rw [List.flatMap_cons]
      refine readText_breakClosers_cons before c (fun _ => ?_) fun _ => ?_
      · exact not_lowNext_quote rest
      · simp [breakClosersAfter, readText, Rune.joinHalves]
  | case3 first second cs hpair ih =>
      rw [Rune.joinHalves_of_isPair hpair, List.flatMap_cons, List.flatMap_cons,
        ← List.append_assoc, ← escapedChar_ofHalves hpair]
      rw [show fuel + (first :: second :: cs).length + 1 = fuel + 1 + cs.length + 1 + 1 by
        simp only [List.length_cons]; omega]
      refine readText_breakClosers_cons before _ (not_isHighUnit_ofHalves hpair) fun before => ?_
      rw [ih]
      simp
  | case4 first second cs hpair ih =>
      rw [Rune.joinHalves_of_not_isPair hpair, List.flatMap_cons]
      rw [show fuel + (first :: second :: cs).length + 1 = fuel + (second :: cs).length + 1 + 1 by
        simp only [List.length_cons]; omega]
      refine readText_breakClosers_cons before _ (fun hhigh hlow => ?_) fun before => ?_
      · exact hpair ⟨hhigh, isLowUnit_of_lowNext_breakClosers hlow⟩
      · rw [ih]
        simp

/-- Breaking closers is another spelling of a JSON document. -/
theorem isSpelling_breakClosers : IsSpelling breakClosers where
  nil := rfl
  split := fun cs _ rest hlt hslash => breakClosersAfter_split ' ' cs hlt hslash rest
  read := by
    intro s rest
    have hlen := (length_le_escaped s.toList).trans
      (escapes_breakClosersAfter ' ' (s.toList.flatMap escapedChar)).length_le
    rw [← breakClosers_eq] at hlen
    have hread := readText_breakClosers ' ' s.toList [] rest
      ((breakClosers (s.toList.flatMap escapedChar) ++ .char '"' :: rest).length - s.toList.length)
    rw [Nat.sub_add_cancel (by rw [List.length_append]; omega), ← breakClosers_eq] at hread
    rw [hread, List.reverse_nil, List.nil_append, Text.joined]

/-- What is embedded in a script element is read back. -/
theorem read_scriptJson {v : Value} (h : v.IsTextual) : read (scriptJson v) = .ok v.reread :=
  read_spell_write isReadable_spaced isSpelling_breakClosers h

/-- What is embedded in a script element closes nothing. -/
theorem not_closer_isInfix_scriptJson (v : Value) :
    ¬ [.char '<', .char '/'] <:+: (scriptJson v).toList := by
  intro h
  rw [scriptJson, Text.toList_ofList, breakClosers_eq] at h
  exact not_closer_isInfix ' ' _ (h.trans (List.suffix_cons _ _).isInfix)

/-! ## What is left between escapes -/

/-- What begins with a character that is not in the first part lies in the second one. -/
theorem isInfix_append_iff_of_notMem {c : Rune} {front : List Rune} (h : c ∉ front)
    (w back : List Rune) : c :: w <:+: front ++ back ↔ c :: w <:+: back := by
  induction front with
  | nil => rfl
  | cons d front ih =>
      rw [List.mem_cons, not_or] at h
      rw [List.cons_append, List.infix_cons_iff, List.cons_prefix_cons, ih h.2]
      simp [h.1]

/-- What goes without a separator lies on one side of it. -/
theorem isInfix_split_iff {c : Rune} {w : List Rune} (h : c ∉ w) (front back : List Rune) :
    w <:+: front ++ c :: back ↔ w <:+: front ∨ w <:+: back := by
  have hstart : ∀ front : List Rune, w <+: front ++ c :: back ↔ w <+: front := by
    intro front
    refine ⟨fun hw => ?_, fun hw => hw.trans (List.prefix_append _ _)⟩
    obtain hshort | ⟨tail, rfl⟩ := List.prefix_or_prefix_of_prefix hw (List.prefix_append _ _)
    · exact hshort
    · rw [List.prefix_append_right_inj] at hw
      cases tail with
      | nil => simp
      | cons d tail =>
          rw [List.cons_prefix_cons] at hw
          exact absurd (List.mem_append_right _ (hw.1 ▸ List.mem_cons_self)) h
  induction front with
  | nil =>
      rw [List.nil_append, List.infix_cons_iff, List.infix_nil, ← List.prefix_nil]
      exact or_congr_left (hstart [])
  | cons d front ih =>
      rw [List.cons_append, List.infix_cons_iff, List.infix_cons_iff, or_assoc]
      exact or_congr (hstart (d :: front)) ih

section Plain

variable {w cs out : List Rune}

theorem Escapes.prefix_iff (h : Escapes cs out) (hw : ∀ c ∈ w, IsPlain c) :
    w <+: out ↔ w <+: cs := by
  induction h generalizing w with
  | nil => rfl
  | kept c h ih =>
      cases w with
      | nil => simp
      | cons d w =>
          rw [List.cons_prefix_cons, List.cons_prefix_cons,
            ih fun c hc => hw c (List.mem_cons_of_mem d hc)]
  | escaped hc hpiece h ih =>
      cases w with
      | nil => simp
      | cons d w =>
          have hd : IsPlain d := hw d List.mem_cons_self
          rw [List.cons_prefix_cons, List.cons_prefix_cons]
          constructor
          · rintro ⟨rfl, -⟩
            exact absurd hd not_isPlain_backslash
          · rintro ⟨rfl, -⟩
            exact absurd hd hc

/-- Plain text that begins with `<` stands between the escapes exactly where it stood before. -/
theorem Escapes.isInfix_iff (h : Escapes cs out) (hw : ∀ c ∈ .char '<' :: w, IsPlain c) :
    .char '<' :: w <:+: out ↔ .char '<' :: w <:+: cs := by
  induction h with
  | nil => rfl
  | kept c h ih =>
      rw [List.infix_cons_iff, List.infix_cons_iff, ih, (h.kept c).prefix_iff hw]
  | @escaped c hc piece hpiece cs out h ih =>
      have hlt : c ≠ '<' := by
        rintro rfl
        exact hc (hw '<' List.mem_cons_self)
      have hout : .char '<' ∉ .char '\\' :: piece := by simp [hpiece]
      have hcs : .char '<' ∉ [c] := by simp [Ne.symm hlt]
      rw [← List.cons_append, isInfix_append_iff_of_notMem hout, ih,
        ← isInfix_append_iff_of_notMem hcs, List.singleton_append]

end Plain

end Document

/-! ## Everything a value says -/

namespace Number

theorem lt_notMem_toDigits (n : Nat) : '<' ∉ Nat.toDigits 10 n :=
  fun h => absurd (Nat.isDigit_of_mem_toDigits (by decide) (by decide) h) (by decide)

theorem lt_notMem_sizeText (d : Decimal) : '<' ∉ sizeText d := by
  have hdigits : '<' ∉ d.digits := lt_notMem_toDigits _
  have hreplicate : ∀ n, '<' ∉ List.replicate n '0' := fun n h =>
    absurd (List.eq_of_mem_replicate h) (by decide)
  have htake : ∀ n, '<' ∉ d.digits.take n := fun n h => hdigits (List.mem_of_mem_take h)
  have hdrop : ∀ n, '<' ∉ d.digits.drop n := fun n h => hdigits (List.mem_of_mem_drop h)
  simp only [sizeText]
  split
  · split
    · simp [hreplicate, hdigits]
    · split <;> simp [hreplicate, htake, hdrop]
  · have hexponent := lt_notMem_toDigits (d.point - 1).natAbs
    rw [List.mem_append, not_or]
    constructor
    · generalize d.digits = digits at hdigits
      cases digits with
      | nil => simp
      | cons first rest => cases rest <;> simpa using hdigits
    · repeat' split
      all_goals simp [hexponent]

/-- No number is written with `<`. -/
theorem lt_notMem_text (n : Number) : .char '<' ∉ (n.text jsonWords).toList := by
  cases n with
  | whole n =>
      have hdigits := lt_notMem_toDigits n.natAbs
      rw [text, Text.toList_ofList, ofInt]
      split <;> simp [hdigits]
  | real x =>
      have hsize := lt_notMem_sizeText (Binary.ofFloat x).shortest
      rw [text, realText]
      split
      · decide
      · split
        · split <;> decide
        · rw [Text.toList_ofList]
          split <;> split <;> simp [hsize]

end Number

mutual

/-- The texts and names in a value, at every depth. -/
def Value.sayings : Value → List Text
  | .null => []
  | .bool _ => []
  | .number _ => []
  | .text s => [s]
  | .list items => itemsSayings items
  | .object fields => fieldsSayings fields

/-- The texts and names in some items. -/
def itemsSayings : List Value → List Text
  | [] => []
  | v :: rest => v.sayings ++ itemsSayings rest

/-- The names of some fields, and what their values say. -/
def fieldsSayings : List (Text × Value) → List Text
  | [] => []
  | (name, v) :: rest => name :: (v.sayings ++ fieldsSayings rest)

end

namespace Document

/-- The characters that JSON puts around texts and between them. -/
def marks : List Rune := ['"', '[', ']', '\x7b', '\x7d', ',', ':', ' ']

/-- Text that begins with `<` and has nothing in it that JSON puts around texts or into them. -/
structure IsOpening (w : List Rune) : Prop where
  start : ∃ rest, w = .char '<' :: rest
  plain : ∀ c ∈ w, IsPlain c
  apart : ∀ c ∈ w, c ∉ marks

section Opening

variable {w : List Rune}

theorem IsOpening.not_isInfix (hw : IsOpening w) {cs : List Rune} (h : .char '<' ∉ cs) :
    ¬ w <:+: cs := by
  obtain ⟨rest, rfl⟩ := hw.start
  exact fun hpart => h (hpart.subset List.mem_cons_self)

theorem IsOpening.split_iff (hw : IsOpening w) {c : Rune}
    (hc : c ∈ marks) (front back : List Rune) :
    w <:+: front ++ c :: back ↔ w <:+: front ∨ w <:+: back :=
  isInfix_split_iff (fun hmem => hw.apart c hmem hc) front back

theorem IsOpening.cons_iff (hw : IsOpening w) {c : Rune}
    (hc : c ∈ marks) (back : List Rune) :
    w <:+: c :: back ↔ w <:+: back := by
  rw [← List.nil_append (c :: back), hw.split_iff hc]
  simp [hw.not_isInfix]

/-- Brackets and quotes around a text say nothing. -/
theorem IsOpening.enclosed_iff (hw : IsOpening w) {opening closing : Rune}
    (hopening : opening ∈ marks)
    (hclosing : closing ∈ marks) (cs : List Rune) :
    w <:+: opening :: (cs ++ [closing]) ↔ w <:+: cs := by
  rw [hw.cons_iff hopening, hw.split_iff hclosing]
  simp [hw.not_isInfix]

theorem IsOpening.quoted_iff (hw : IsOpening w) (s : Text) :
    w <:+: (quoted s).toList ↔ w <:+: s.toList := by
  rw [toList_quoted, hw.enclosed_iff (by decide) (by decide)]
  obtain ⟨rest, rfl⟩ := hw.start
  exact (escapes_escaped s.toList).isInfix_iff hw.plain

mutual

/-- What opens markup is in a written value exactly if a text or a name in the value has it. -/
theorem IsOpening.write_iff (hw : IsOpening w) (v : Value) :
    w <:+: (write spaced v).toList ↔ ∃ s ∈ v.sayings, w <:+: s.toList := by
  cases v with
  | null =>
      rw [write, Value.sayings]
      simpa using hw.not_isInfix (by decide)
  | bool b =>
      rw [write, Value.sayings]
      cases b <;> simpa using hw.not_isInfix (by decide)
  | number n =>
      have hnumber : ¬ w <:+: (spaced.number n).toList := hw.not_isInfix n.lt_notMem_text
      rw [write, Value.sayings]
      simpa using hnumber
  | text s =>
      rw [write, Value.sayings, hw.quoted_iff]
      simp
  | list items =>
      rw [toList_write_list, hw.enclosed_iff (by decide) (by decide), Value.sayings]
      exact hw.items_iff items
  | object fields =>
      rw [toList_write_object, hw.enclosed_iff (by decide) (by decide), Value.sayings]
      exact hw.fields_iff fields

/-- The same of items and the commas between them. -/
theorem IsOpening.items_iff (hw : IsOpening w) (items : List Value) :
    w <:+: itemsText spaced items ↔ ∃ s ∈ itemsSayings items, w <:+: s.toList := by
  match items with
  | [] =>
      rw [itemsSayings]
      have hnil : .char '<' ∉ itemsText spaced [] := by decide
      simpa using hw.not_isInfix hnil
  | [v] =>
      rw [itemsText_singleton, itemsSayings, itemsSayings, List.append_nil]
      exact hw.write_iff v
  | v :: next :: rest =>
      have hgap : spaced.afterItem.toList = [.char ',', .char ' '] := rfl
      rw [itemsText_cons, hgap, itemsSayings, List.cons_append, hw.split_iff (by decide),
        List.singleton_append, hw.cons_iff (by decide), hw.write_iff v, hw.items_iff (next :: rest)]
      simp only [List.mem_append, or_and_right, exists_or]

/-- The same of fields, with their names and the colons behind these. -/
theorem IsOpening.fields_iff (hw : IsOpening w) (fields : List (Text × Value)) :
    w <:+: fieldsText spaced fields ↔ ∃ s ∈ fieldsSayings fields, w <:+: s.toList := by
  have hcolon : spaced.afterName.toList = [.char ':', .char ' '] := rfl
  match fields with
  | [] =>
      rw [fieldsSayings]
      have hnil : .char '<' ∉ fieldsText spaced [] := by decide
      simpa using hw.not_isInfix hnil
  | [(name, v)] =>
      rw [fieldsText_singleton, hcolon, fieldsSayings, fieldsSayings, List.append_nil,
        List.cons_append, hw.split_iff (by decide), List.singleton_append, hw.cons_iff (by decide),
        hw.quoted_iff, hw.write_iff v]
      simp only [List.mem_cons, or_and_right, exists_or, exists_eq_left]
  | (name, v) :: next :: rest =>
      have hcomma : spaced.afterItem.toList = [.char ',', .char ' '] := rfl
      rw [fieldsText_cons, hcolon, hcomma, fieldsSayings, List.cons_append,
        hw.split_iff (by decide),
        List.singleton_append, hw.cons_iff (by decide), List.cons_append, hw.split_iff (by decide),
        List.singleton_append, hw.cons_iff (by decide), hw.quoted_iff, hw.write_iff v,
        hw.fields_iff (next :: rest)]
      simp only [List.mem_cons, List.mem_append, or_and_right, exists_or, exists_eq_left]

end

theorem IsOpening.scriptJson_iff (hw : IsOpening w) (v : Value) :
    w <:+: (scriptJson v).toList ↔ ∃ s ∈ v.sayings, w <:+: s.toList := by
  rw [← hw.write_iff, scriptJson, Text.toList_ofList, breakClosers_eq]
  obtain ⟨rest, rfl⟩ := hw.start
  exact (escapes_breakClosersAfter ' ' _).isInfix_iff hw.plain

end Opening

/-! ## What disturbs a script element -/

/-- The sequence stands in the text, in small or capital letters. -/
def HasAnyCase (sequence text : Text) : Prop :=
  ∃ w, w <:+: text.toList ∧ w.map Rune.toLower = sequence.toList

/-- The characters of `<!--` and `<script`, with the capital letters. -/
def IsOpeningChar (n : Nat) : Prop :=
  n = 33 ∨ n = 45 ∨ n = 60 ∨ 65 ≤ n ∧ n ≤ 90 ∨ 97 ≤ n ∧ n ≤ 122

instance : DecidablePred IsOpeningChar := fun _ =>
  inferInstanceAs (Decidable (_ ∨ _))

theorem isPlain_of_isOpeningChar : ∀ n < 128, IsOpeningChar n →
    escapedChar (Rune.ofNat n) = [Rune.ofNat n] ∧ Rune.ofNat n ≠ '/' ∧ Rune.ofNat n ∉ marks := by
  decide

/-- A code point is in lower case already, or a capital letter. -/
theorem toLower_cases (c : Rune) : c.toLower = c ∨
    65 ≤ c.toNat ∧ c.toNat ≤ 90 ∧ c.toLower.toNat = c.toNat + 32 := by
  cases c with
  | half number => exact .inl rfl
  | char c =>
      simp only [Rune.toLower, Rune.mapChar, Rune.char_inj, Rune.toNat]
      unfold Char.toLower
      split
      · next hupper =>
          simp only [ge_iff_le, UInt32.le_iff_toNat_le] at hupper
          have hbounds : 65 ≤ c.val.toNat ∧ c.val.toNat ≤ 90 := hupper
          refine .inr ⟨hbounds.1, hbounds.2, ?_⟩
          change (c.val + 32).toNat = c.val.toNat + 32
          have hsmall : c.val.toNat + 32 < 2 ^ 32 := by omega
          rw [UInt32.toNat_add]
          exact Nat.mod_eq_of_lt hsmall
      · exact .inl rfl

/-- Marks have no other case. -/
theorem eq_of_toLower_eq {c mark : Rune} (hmark : mark.toNat < 65) (h : c.toLower = mark) :
    c = mark := by
  obtain hlower | ⟨hge, -, hlower⟩ := toLower_cases c
  · rw [← hlower, h]
  · rw [h] at hlower
    omega

theorem isOpeningChar_of_toLower {c : Rune} (h : IsOpeningChar c.toLower.toNat) :
    IsOpeningChar c.toNat := by
  obtain hlower | ⟨hge, hle, -⟩ := toLower_cases c
  · rwa [hlower] at h
  · exact .inr (.inr (.inr (.inl ⟨hge, hle⟩)))

theorem isOpening_of_map_toLower {w rest : List Rune} (h : w.map Rune.toLower = .char '<' :: rest)
    (hrest : ∀ c ∈ rest, IsOpeningChar c.toNat) : IsOpening w := by
  have hchar : ∀ c ∈ w, IsOpeningChar c.toNat := by
    intro c hc
    have hmem : c.toLower ∈ .char '<' :: rest := h ▸ List.mem_map_of_mem hc
    apply isOpeningChar_of_toLower
    obtain heq | hmem := List.mem_cons.1 hmem
    · rw [heq]
      decide
    · exact hrest _ hmem
  have hplain : ∀ c ∈ w, IsPlain c ∧ c ∉ marks := by
    intro c hc
    have hlt : c.toNat < 128 := by
      have := hchar c hc
      rw [IsOpeningChar] at this
      omega
    have hall := isPlain_of_isOpeningChar c.toNat hlt (hchar c hc)
    rw [Rune.ofNat_toNat] at hall
    exact ⟨⟨hall.1, hall.2.1⟩, hall.2.2⟩
  refine ⟨?_, fun c hc => (hplain c hc).1, fun c hc => (hplain c hc).2⟩
  cases w with
  | nil => cases h
  | cons c w =>
      rw [List.map_cons, List.cons.injEq] at h
      exact ⟨w, by rw [eq_of_toLower_eq (by decide) h.1]⟩

/-- An opening sequence is embedded exactly if something that the value says has it. -/
theorem hasAnyCase_scriptJson_iff {sequence : Text} {rest : List Rune}
    (hsequence : sequence.toList = .char '<' :: rest)
    (hrest : (rest.all fun c => decide (IsOpeningChar c.toNat)) = true) (v : Value) :
    HasAnyCase sequence (scriptJson v) ↔ ∃ s ∈ v.sayings, HasAnyCase sequence s := by
  have hchars : ∀ c ∈ rest, IsOpeningChar c.toNat := by simpa using hrest
  constructor
  · rintro ⟨w, hw, hlower⟩
    have hopening : IsOpening w := isOpening_of_map_toLower (hlower.trans hsequence) hchars
    obtain ⟨s, hs, hpart⟩ := (hopening.scriptJson_iff v).1 hw
    exact ⟨s, hs, w, hpart, hlower⟩
  · rintro ⟨s, hs, w, hw, hlower⟩
    have hopening : IsOpening w := isOpening_of_map_toLower (hlower.trans hsequence) hchars
    exact ⟨w, (hopening.scriptJson_iff v).2 ⟨s, hs, hw⟩, hlower⟩

/-- What is embedded in a script element never closes the element, in no spelling of its name.  It
has `<!--` or `<script` in it exactly if a text or a name in the value has. -/
theorem scriptJson_disturbs_iff (v : Value) :
    ¬ HasAnyCase "</script" (scriptJson v) ∧
    (HasAnyCase "<!--" (scriptJson v) ↔ ∃ s ∈ v.sayings, HasAnyCase "<!--" s) ∧
    (HasAnyCase "<script" (scriptJson v) ↔ ∃ s ∈ v.sayings, HasAnyCase "<script" s) := by
  refine ⟨?_, hasAnyCase_scriptJson_iff rfl (by decide) v,
    hasAnyCase_scriptJson_iff rfl (by decide) v⟩
  rintro ⟨w, hw, hlower⟩
  obtain ⟨c, tail, rfl, hc, htail⟩ := List.map_eq_cons_iff.1 hlower
  obtain ⟨d, tail, rfl, hd, -⟩ := List.map_eq_cons_iff.1 htail
  have hcloser : [.char '<', .char '/'] <+: c :: d :: tail := by
    rw [eq_of_toLower_eq (by decide) hc, eq_of_toLower_eq (by decide) hd]
    exact List.prefix_append _ tail
  exact not_closer_isInfix_scriptJson v (hcloser.isInfix.trans hw)

/-- A file with this title puts both into the import map. -/
theorem scriptJson_disturbs_for_title :
    let map : Value := .object [("imports", .object [("<!--<SCRIPT>.js", .text "data:")])]
    HasAnyCase "<!--" (scriptJson map) ∧ HasAnyCase "<script" (scriptJson map) := by
  intro map
  exact ⟨⟨Text.toList "<!--", by decide +kernel, by decide⟩,
    ⟨Text.toList "<SCRIPT", by decide +kernel, by decide⟩⟩

end Document
end LiveCanvas
