import LiveCanvas.Text.Encoding
import Mathlib.Data.List.Chain

/-!
# Pairs of halves

A text may hold the two halves of a character next to one another in the place of the character.
Then it is another text, but whoever writes it unit by unit writes the same, and whoever reads that
finds the character.
-/

namespace LiveCanvas

namespace Rune

theorem toNat_ofNat {n : Nat} (h : n < 0x110000) : (ofNat n).toNat = n := by
  rw [ofNat]
  split
  · simp only [toNat]
    omega
  · have hvalid : n.isValidChar := by
      simp only [Nat.isValidChar]
      omega
    rw [toNat, Char.ofNat, dif_pos hvalid]
    rfl

/-- The first half of a pair. -/
def isFirstHalf (c : Rune) : Bool := 0xd800 ≤ c.toNat && c.toNat ≤ 0xdbff

/-- The second half of a pair. -/
def isSecondHalf (c : Rune) : Bool := 0xdc00 ≤ c.toNat && c.toNat ≤ 0xdfff

/-- The two halves of a character. -/
def IsPair (first second : Rune) : Prop :=
  first.isFirstHalf = true ∧ second.isSecondHalf = true

instance (first second : Rune) : Decidable (IsPair first second) :=
  inferInstanceAs (Decidable (_ ∧ _))

/-- The character that two halves write. -/
def ofHalves (first second : Rune) : Rune :=
  ofNat (0x10000 + 0x400 * (first.toNat - 0xd800) + (second.toNat - 0xdc00))

theorem IsPair.bounds {first second : Rune} (h : IsPair first second) :
    (0xd800 ≤ first.toNat ∧ first.toNat ≤ 0xdbff) ∧
      0xdc00 ≤ second.toNat ∧ second.toNat ≤ 0xdfff := by
  simpa only [IsPair, isFirstHalf, isSecondHalf, Bool.and_eq_true, decide_eq_true_eq] using h

/-- No character is a half. -/
theorem isFirstHalf_char (c : Char) : (char c).isFirstHalf = false := by
  have hvalid : c.toNat < 0xd800 ∨ 0xdfff < c.toNat ∧ c.toNat < 0x110000 := c.valid
  rw [← Bool.not_eq_true, isFirstHalf, Bool.and_eq_true, decide_eq_true_eq, decide_eq_true_eq]
  simp only [toNat]
  omega

theorem IsPair.toNat_ofHalves {first second : Rune} (h : IsPair first second) :
    (ofHalves first second).toNat =
      0x10000 + 0x400 * (first.toNat - 0xd800) + (second.toNat - 0xdc00) := by
  have hbounds := h.bounds
  exact toNat_ofNat (by omega)

/-- The code points with a character in the place of each pair of halves. -/
def joinHalves : List Rune → List Rune
  | [] => []
  | [c] => [c]
  | first :: second :: rest =>
    if IsPair first second then ofHalves first second :: joinHalves rest
    else first :: joinHalves (second :: rest)

theorem joinHalves_of_isPair {first second : Rune} (h : IsPair first second) (rest : List Rune) :
    joinHalves (first :: second :: rest) = ofHalves first second :: joinHalves rest := by
  rw [joinHalves, if_pos h]

theorem joinHalves_of_not_isPair {first second : Rune} (h : ¬IsPair first second)
    (rest : List Rune) :
    joinHalves (first :: second :: rest) = first :: joinHalves (second :: rest) := by
  rw [joinHalves, if_neg h]

/-- Where nothing is to be joined all stays as it is. -/
theorem joinHalves_of_isChain {cs : List Rune} (h : cs.IsChain fun a b => ¬a.IsPair b) :
    joinHalves cs = cs := by
  induction cs with
  | nil => rfl
  | cons c cs ih =>
      cases cs with
      | nil => rfl
      | cons d cs =>
          rw [joinHalves_of_not_isPair (List.isChain_cons_cons.1 h).1, ih h.tail]

/-- What was joined starts as before, or with a character that is no half. -/
theorem head_joinHalves {c : Rune} {cs : List Rune} {d : Rune} {ds : List Rune}
    (h : joinHalves (c :: cs) = d :: ds) : d = c ∨ d.isSecondHalf = false := by
  cases cs with
  | nil => exact .inl (List.cons.inj h).1.symm
  | cons e cs =>
      by_cases hpair : IsPair c e
      · rw [joinHalves_of_isPair hpair] at h
        refine .inr ?_
        rw [← (List.cons.inj h).1, isSecondHalf, hpair.toNat_ofHalves]
        simp only [Bool.and_eq_false_iff, decide_eq_false_iff_not]
        omega
      · rw [joinHalves_of_not_isPair hpair] at h
        exact .inl (List.cons.inj h).1.symm

/-- What stands in front of a joined text goes with its start as it did before. -/
theorem isChain_cons_joinHalves {c : Rune} {cs : List Rune}
    (hcs : (joinHalves cs).IsChain fun a b => ¬a.IsPair b)
    (hnext : ∀ d ∈ cs.head?, ¬IsPair c d) :
    (c :: joinHalves cs).IsChain fun a b => ¬a.IsPair b := by
  cases cs with
  | nil => exact .singleton c
  | cons d cs =>
      cases hjoined : joinHalves (d :: cs) with
      | nil => exact .singleton c
      | cons e es =>
          rw [hjoined] at hcs
          refine List.isChain_cons_cons.2 ⟨fun hpair => ?_, hcs⟩
          obtain rfl | hsecond := head_joinHalves hjoined
          · exact hnext e rfl hpair
          · rw [hpair.2] at hsecond
            cases hsecond

/-- After joining, no pair is left. -/
theorem isChain_joinHalves (cs : List Rune) :
    (joinHalves cs).IsChain fun a b => ¬a.IsPair b := by
  induction cs using joinHalves.induct with
  | case1 => exact .nil
  | case2 c => exact .singleton c
  | case3 first second rest hpair ih =>
      rw [joinHalves_of_isPair hpair]
      refine isChain_cons_joinHalves ih fun d _ hnext => ?_
      have hfirst := hnext.bounds.1
      rw [hpair.toNat_ofHalves] at hfirst
      omega
  | case4 first second rest hpair ih =>
      rw [joinHalves_of_not_isPair hpair]
      refine isChain_cons_joinHalves ih fun d hd => ?_
      rwa [← Option.some.inj hd]

end Rune

namespace Text

/-- Nowhere in the text does the first half of a pair stand right before a second one. -/
def IsUnsplit (s : Text) : Prop :=
  s.toList.IsChain fun a b => ¬a.IsPair b

instance (s : Text) : Decidable s.IsUnsplit :=
  inferInstanceAs (Decidable (List.IsChain _ _))

/-- The text with a character in the place of each pair of halves. -/
def joined (s : Text) : Text := ofList (Rune.joinHalves s.toList)

theorem isUnsplit_joined (s : Text) : s.joined.IsUnsplit := Rune.isChain_joinHalves s.toList

/-- The texts in which nothing is to be joined are those that stay as they are. -/
theorem joined_eq_self_iff {s : Text} : s.joined = s ↔ s.IsUnsplit :=
  ⟨fun h => h ▸ isUnsplit_joined s, fun h => ext (Rune.joinHalves_of_isChain h)⟩

@[simp] theorem isUnsplit_ofString (s : String) : (ofString s).IsUnsplit := by
  rw [IsUnsplit, toList_ofString]
  induction s.toList with
  | nil => exact .nil
  | cons c cs ih =>
      cases cs with
      | nil => exact .singleton _
      | cons d cs =>
          refine List.isChain_cons_cons.2 ⟨fun hpair => ?_, ih⟩
          exact absurd hpair.1 (by simp [Rune.isFirstHalf_char])

@[simp] theorem joined_ofString (s : String) : (ofString s).joined = ofString s :=
  joined_eq_self_iff.2 (isUnsplit_ofString s)

end Text
end LiveCanvas
