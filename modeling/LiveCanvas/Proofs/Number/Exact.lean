import LiveCanvas.Proofs.Number.Double

/-!
# Whole numbers that a double holds

A whole number that is the value of some double is converted to a double with that value.  The
conversion shifts the number, rounds it, and packs it into bits, and each of these steps is exact
when the number has no more than 53 significant bits.
-/

namespace LiveCanvas

open Float.Model (Format UnpackedFloat)
open Float.Model.UnpackedFloat (Sign roundWithAccuracy)

/-! ## Natural numbers -/

/-- A whole number that is shifted to the left. -/
theorem Binary.value_shiftLeft (k d : Nat) : (⟨k <<< d, -(d : Int)⟩ : Binary).value = k := by
  rw [value, Nat.shiftLeft_eq, zpow_neg, zpow_natCast]
  push_cast
  field_simp

/-- A machine word that a double holds is shifted until its mantissa is full. -/
theorem hasSize_toFloat {b : Binary} (h : b.IsNormal) {k : UInt64} (hpos : 0 < k.toNat)
    (hk : k.toNat < 2 ^ 53) (hvalue : b.value = k.toNat) : HasSize k.toFloat .positive b := by
  have hcompare : compare (k.toNat : Int) 0 = .gt := by
    rw [compare_gt_iff_gt]
    exact_mod_cast hpos
  have hlog : k.toNat.log2 < 53 := (Nat.log2_lt hpos.ne').mpr hk
  obtain ⟨d, hd⟩ : ∃ d, k.toNat.log2 + d = 52 := ⟨52 - k.toNat.log2, by omega⟩
  have htarget : Format.binary64.targetExponent (Float.Model.totalExponent k.toNat 0) =
      -(d : Int) := by
    simp only [Float.Model.totalExponent, Format.targetExponent, Format.minExponent,
      Format.mantissaBits]
    omega
  have hdecrease : UnpackedFloat.decreaseExponent k.toNat 0 (-(d : Int)) =
      (k.toNat <<< d, -(d : Int)) := by
    simp [UnpackedFloat.decreaseExponent]
  have hshifted : 2 ^ 52 ≤ k.toNat <<< d := by
    rw [Nat.shiftLeft_eq]
    exact (Binary.two_pow_le_mul_lt hpos.ne' hd).1
  have hunpacked : UnpackedFloat.ofUInt64 Format.binary64 k =
      roundWithAccuracy Format.binary64 .positive (k.toNat <<< d) (-(d : Int)) .exact := by
    simp only [UnpackedFloat.ofUInt64, UnpackedFloat.ofNat, UnpackedFloat.ofInt,
      UnpackedFloat.normalize, UnpackedFloat.round, hcompare, Int.toNat_natCast, htarget, hdecrease]
  have hpack : k.toFloat = ⟨Float.Model.pack (UnpackedFloat.ofUInt64 Format.binary64 k)⟩ := rfl
  rw [hpack, hunpacked]
  exact hasSize_pack_roundWithAccuracy h _ hshifted (by rw [Binary.value_shiftLeft, hvalue])

/-- A natural number that a double holds is converted to that double. -/
theorem hasSize_ofNat {b : Binary} (h : b.IsNormal) {k : Nat} (hpos : 0 < k)
    (hvalue : b.value = k) : HasSize (Float.ofNat k) .positive b := by
  change HasSize (Float.ofScientific k false 0) .positive b
  rw [Float.ofScientific]
  by_cases hk : k < 2 ^ 53
  · have hsame : k.toUInt64.toNat = k := Nat.mod_eq_of_lt (by omega)
    have hone : HasSize Float.exactlyRepresentablePowersOfTen[0] .positive ⟨2 ^ 52, -52⟩ :=
      ⟨by decide, rfl⟩
    rw [dif_pos ⟨hk, by decide⟩]
    refine (hasSize_toFloat h ?_ ?_ ?_).mul_one hone h <;> rwa [hsame]
  · rw [dif_neg fun h => hk h.1]
    have hunpacked : UnpackedFloat.ofScientific Format.binary64 k 0 =
        roundWithAccuracy Format.binary64 .positive (k <<< 53) (-(53 : Nat)) .exact := by
      have hlog : ¬ (2048 : Int) < -(k.log2 : Int) := by omega
      simp only [UnpackedFloat.ofScientific, dif_neg hpos.ne', UnpackedFloat.mul,
        Format.mantissaBits]
      simp [hlog]
      rfl
    change HasSize ⟨Float.Model.pack (UnpackedFloat.ofScientific Format.binary64 k 0)⟩ _ _
    rw [hunpacked]
    refine hasSize_pack_roundWithAccuracy h _ ?_ (by rw [Binary.value_shiftLeft, hvalue])
    rw [Nat.shiftLeft_eq]
    omega

/-! ## Whole numbers -/

/-- The same number with all the bits that a mantissa can have. -/
theorem Binary.exists_isNormal {b : Binary} {k : Nat} (hvalue : b.value = k) (hk : 0 < k)
    (hhigh : b.mantissa < 2 ^ 53) (hgreatest : b.exponent ≤ 971) :
    ∃ b' : Binary, b'.IsNormal ∧ b'.value = k := by
  obtain ⟨m, e⟩ := b
  dsimp only at hhigh hgreatest
  have hne : m ≠ 0 := by
    rintro rfl
    have hzero : (0 : Rat) = k := by simpa [value] using hvalue
    exact hk.ne' (by exact_mod_cast hzero.symm)
  have hlog : m.log2 < 53 := (Nat.log2_lt hne).mpr hhigh
  obtain ⟨d, hd⟩ : ∃ d, m.log2 + d = 52 := ⟨52 - m.log2, by omega⟩
  obtain ⟨hlow, hhigh'⟩ := two_pow_le_mul_lt hne hd
  have hshifted : (⟨m * 2 ^ d, e - d⟩ : Binary).value = k := by
    rw [← hvalue, value_eq_iff_of_le (by omega)]
    congr 2
    omega
  have hleast : -53 < e - d := by
    by_contra hsmall
    have hwhole : (⟨k, 0⟩ : Binary).value = k := by simp [value]
    have hmantissa := (value_eq_iff_of_le (by omega)).mp (hshifted.trans hwhole.symm)
    have hpow : 2 ^ 53 ≤ 2 ^ (0 - (e - d)).toNat := Nat.pow_le_pow_right (by decide) (by omega)
    have hmul := Nat.mul_le_mul hk hpow
    omega
  exact ⟨⟨m * 2 ^ d, e - d⟩, ⟨hlow, hhigh', by dsimp only; omega, by dsimp only; omega⟩, hshifted⟩

theorem HasSize.wholeValue? {x : Float} {s : Sign} {b : Binary} (hx : HasSize x s b) {k : Nat}
    (hvalue : b.value = k) : x.isInf = false ∧ LiveCanvas.wholeValue? x = some (s.apply k) := by
  obtain ⟨hsize, hsign, -⟩ := hx.ofFloat
  obtain ⟨hpos, hunpack⟩ := hx
  have hfinite : x.isFinite = true := by
    change x.toModel.unpack.isFinite = true
    rw [hunpack]
    rfl
  have hinf : x.isInf = false := by
    change x.toModel.unpack.isInf = false
    rw [hunpack]
    rfl
  refine ⟨hinf, ?_⟩
  rw [LiveCanvas.wholeValue?, if_pos hfinite, hsize, Binary.whole?_eq_some_iff.mpr hvalue]
  cases s <;> simp_all [withSignOf, Sign.apply]

/-- A whole number that a double holds is converted to that double. -/
theorem hasSize_ofInt {b : Binary} (h : b.IsNormal) {k : Nat} (hpos : 0 < k) (hvalue : b.value = k)
    (s : Sign) : HasSize (Float.ofInt (s.apply k)) s b := by
  have hnat := hasSize_ofNat h hpos hvalue
  cases s with
  | positive => exact hnat
  | negative =>
      obtain ⟨j, rfl⟩ : ∃ j, k = j + 1 := ⟨k - 1, by omega⟩
      exact hnat.neg h

theorem withSignOf_eq_apply (x : Float) (k : Nat) : ∃ s : Sign, withSignOf x k = s.apply k := by
  unfold withSignOf
  split
  · exact ⟨.negative, rfl⟩
  · exact ⟨.positive, rfl⟩

/-- A whole number that is the value of a double is converted to a double with that value. -/
theorem Number.exists_toReal?_of_wholeValue? {x : Float} {n : Int} (h : wholeValue? x = some n) :
    ∃ y, (whole n).toReal? = some y ∧ wholeValue? y = some n := by
  rw [wholeValue?] at h
  split at h
  · next hfinite =>
      obtain ⟨k, hk, rfl⟩ := Option.map_eq_some_iff.mp h
      obtain ⟨s, hs⟩ := withSignOf_eq_apply x k
      rw [hs]
      obtain rfl | hpos := Nat.eq_zero_or_pos k
      · have hzero : s.apply ((0 : Nat) : Int) = 0 := by cases s <;> rfl
        rw [hzero]
        exact ⟨Float.ofInt 0, rfl, by decide +kernel⟩
      · obtain hsize | ⟨s', b, hx⟩ := ofFloat_eq_or_hasSize hfinite
        · rw [hsize] at hk
          have hnone : (⟨0, -1074⟩ : Binary).whole? = some 0 := by decide +kernel
          rw [hnone] at hk
          exact absurd (Option.some.inj hk) hpos.ne
        · obtain ⟨rfl, -, hhigh, hgreatest⟩ := hx.ofFloat
          obtain ⟨b', hnormal, hvalue⟩ :=
            Binary.exists_isNormal (Binary.whole?_eq_some_iff.mp hk) hpos hhigh hgreatest
          obtain ⟨hinf, hwhole⟩ := (hasSize_ofInt hnormal hpos hvalue s).wholeValue? hvalue
          exact ⟨Float.ofInt (s.apply k), by simp [toReal?, hinf], hwhole⟩
  · cases h

end LiveCanvas
