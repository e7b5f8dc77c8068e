import LiveCanvas.Number.Basic
import Mathlib

/-!
# Doubles by sign and size

A finite double that is not zero has a sign and a size, which is a binary fraction.  Here the bits
of a double are connected with the two: the bits say what they are, and rounding and packing a
number that a double holds gives the double with that sign and size.
-/

namespace LiveCanvas

open Float.Model (Format UnpackedFloat)
open Float.Model.UnpackedFloat (Sign Accuracy ExtendedMantissa roundWithAccuracy shiftToExponent
  shiftToTargetExponent packComponents unpackMantissa unpackExponent unpackSign)

/-! ## Binary fractions -/

namespace Binary

/-- The number that a binary fraction stands for. -/
def value (b : Binary) : Rat := b.mantissa * 2 ^ b.exponent

theorem whole?_eq_some_iff {b : Binary} {k : Nat} : b.whole? = some k ↔ b.value = k := by
  obtain ⟨m, e⟩ := b
  have hden : 0 < 2 ^ (-e).toNat := Nat.two_pow_pos _
  have hpow : (2 : Rat) ^ e = 2 ^ e.toNat / 2 ^ (-e).toNat := by
    rw [← zpow_natCast, ← zpow_natCast, ← zpow_sub₀ (by norm_num)]
    congr 1
    omega
  have hvalue : (⟨m, e⟩ : Binary).value = k ↔ m * 2 ^ e.toNat = k * 2 ^ (-e).toNat := by
    rw [value, hpow, ← mul_div_assoc, div_eq_iff (by positivity)]
    exact_mod_cast Iff.rfl
  rw [hvalue]
  by_cases hmod : m * 2 ^ e.toNat % 2 ^ (-e).toNat = 0
  · have hwhole : (⟨m, e⟩ : Binary).whole? = some (m * 2 ^ e.toNat / 2 ^ (-e).toNat) := if_pos hmod
    rw [hwhole, Option.some.injEq,
      Nat.div_eq_iff_eq_mul_left hden (Nat.dvd_of_mod_eq_zero hmod)]
  · have hwhole : (⟨m, e⟩ : Binary).whole? = none := if_neg hmod
    have hne : m * 2 ^ e.toNat ≠ k * 2 ^ (-e).toNat := fun h => hmod (h ▸ Nat.mul_mod_left _ _)
    simp [hwhole, hne]

theorem value_eq_iff_of_le {m m' : Nat} {e e' : Int} (h : e ≤ e') :
    (⟨m, e⟩ : Binary).value = (⟨m', e'⟩ : Binary).value ↔ m = m' * 2 ^ (e' - e).toNat := by
  have hpow : (2 : Rat) ^ e' = 2 ^ (e' - e).toNat * 2 ^ e := by
    rw [← zpow_natCast, ← zpow_add₀ (by norm_num)]
    congr 1
    omega
  rw [value, value, hpow, ← mul_assoc, mul_left_inj' (by positivity)]
  exact_mod_cast Iff.rfl

/-- A mantissa that is shifted to the left until it has all its bits. -/
theorem two_pow_le_mul_lt {m d : Nat} (hm : m ≠ 0) (hd : m.log2 + d = 52) :
    2 ^ 52 ≤ m * 2 ^ d ∧ m * 2 ^ d < 2 ^ 53 := by
  constructor
  · calc 2 ^ 52 = 2 ^ m.log2 * 2 ^ d := by rw [← pow_add, hd]
      _ ≤ m * 2 ^ d := Nat.mul_le_mul_right _ (Nat.log2_self_le hm)
  · calc m * 2 ^ d < 2 ^ (m.log2 + 1) * 2 ^ d :=
          Nat.mul_lt_mul_of_pos_right Nat.lt_log2_self (Nat.two_pow_pos d)
      _ = 2 ^ 53 := by rw [← pow_add, Nat.add_right_comm, hd]

/-- The binary fraction has all the bits that a mantissa can have, and a double holds it. -/
structure IsNormal (b : Binary) : Prop where
  low : 2 ^ 52 ≤ b.mantissa
  high : b.mantissa < 2 ^ 53
  least : -1074 ≤ b.exponent
  greatest : b.exponent ≤ 971

namespace IsNormal

variable {b : Binary}

theorem pos (h : b.IsNormal) : 0 < b.mantissa :=
  Nat.lt_of_lt_of_le (Nat.two_pow_pos 52) h.low

theorem log2_mul_two_pow (h : b.IsNormal) (k : Nat) : (b.mantissa * 2 ^ k).log2 = 52 + k := by
  have hne : b.mantissa * 2 ^ k ≠ 0 := Nat.mul_ne_zero h.pos.ne' (Nat.two_pow_pos k).ne'
  rw [Nat.log2_eq_iff hne, pow_add, add_right_comm, pow_add]
  exact ⟨Nat.mul_le_mul_right _ h.low, Nat.mul_lt_mul_of_pos_right h.high (Nat.two_pow_pos k)⟩

theorem log2_mantissa (h : b.IsNormal) : b.mantissa.log2 = 52 := by
  simpa using h.log2_mul_two_pow 0

end IsNormal
end Binary

/-! ## Rounding -/

theorem shiftRight_mul_two_pow (m k : Nat) :
    (⟨m * 2 ^ k, false, false⟩ : ExtendedMantissa) >>> k = ⟨m, false, false⟩ := by
  change k.repeat ExtendedMantissa.shiftRightOne _ = _
  induction k generalizing m with
  | zero => simp [Nat.repeat]
  | succ k ih =>
      have hsplit : m * 2 ^ (k + 1) = m * 2 * 2 ^ k := by ring
      rw [Nat.repeat, hsplit, ih]
      simp [ExtendedMantissa.shiftRightOne]

/-- Shifting back what was shifted to the left loses nothing. -/
theorem shiftToTargetExponent_mul_two_pow {b : Binary} (h : b.IsNormal) {k : Nat} {e : Int}
    (he : e + k = b.exponent) :
    shiftToTargetExponent Format.binary64 (b.mantissa * 2 ^ k) e .exact =
      (⟨b.mantissa, false, false⟩, b.exponent) := by
  have hleast := h.least
  have htarget : Format.binary64.targetExponent
      (Float.Model.totalExponent (b.mantissa * 2 ^ k) e) = b.exponent := by
    rw [Float.Model.totalExponent, h.log2_mul_two_pow]
    simp only [Format.targetExponent, Format.minExponent, Format.mantissaBits]
    omega
  have hshift : (b.exponent - e).toNat = k := by omega
  simp only [shiftToTargetExponent, shiftToExponent, htarget, hshift,
    ExtendedMantissa.ofMantissaAndAccuracy, shiftRight_mul_two_pow, he]

/-- A number that a double holds is rounded to itself. -/
theorem roundWithAccuracy_exact {b : Binary} (h : b.IsNormal) {s : Sign} {m : Nat} {e : Int}
    (hm : 2 ^ 52 ≤ m) (hvalue : (⟨m, e⟩ : Binary).value = b.value) :
    roundWithAccuracy Format.binary64 s m e .exact = .finite s b.mantissa b.exponent h.pos := by
  have hhigh := h.high
  have hle : e ≤ b.exponent := by
    by_contra hlt
    have hmantissa : b.mantissa = m * 2 ^ (e - b.exponent).toNat :=
      (Binary.value_eq_iff_of_le (by omega)).mp hvalue.symm
    have htwo : 2 ^ 1 ≤ 2 ^ (e - b.exponent).toNat := Nat.pow_le_pow_right (by decide) (by omega)
    have hmul := Nat.mul_le_mul hm htwo
    omega
  have hmantissa : m = b.mantissa * 2 ^ (b.exponent - e).toNat :=
    (Binary.value_eq_iff_of_le hle).mp hvalue
  have hfirst := shiftToTargetExponent_mul_two_pow h (k := (b.exponent - e).toNat) (e := e)
    (by omega)
  have hsecond := shiftToTargetExponent_mul_two_pow h (k := 0) (e := b.exponent) (by omega)
  rw [pow_zero, mul_one] at hsecond
  simp only [roundWithAccuracy, hmantissa, hfirst, ExtendedMantissa.roundedMantissa,
    ExtendedMantissa.accuracy, Accuracy.roundToNearestEven, hsecond, dif_neg h.pos.ne']

/-! ## Packing -/

theorem toNat_append_one (v : BitVec 52) : (1#1 ++ v).toNat = v.toNat + 2 ^ 52 := by
  rw [BitVec.toNat_append, ← Nat.shiftLeft_add_eq_or_of_lt v.isLt]
  simp [Nat.shiftLeft_eq, add_comm]

/-- What is packed into the bits of a double is unpacked from them again. -/
theorem unpack_pack {b : Binary} (h : b.IsNormal) (s : Sign) :
    (Float.Model.pack (.finite s b.mantissa b.exponent h.pos)).unpack =
      .finite s b.mantissa b.exponent h.pos := by
  obtain ⟨hlow, hhigh, hleast, hgreatest⟩ := id h
  have hbias : (Format.binary64.exponentBias : Int) = 1023 := rfl
  have hbits : 52 + 1 = Format.binary64.mantissaBits := rfl
  obtain ⟨n, hn, hlt⟩ : ∃ n : Nat, (n : Int) = b.exponent + 1023 + 52 ∧ n < 2047 :=
    ⟨(b.exponent + 1023 + 52).toNat, by omega, by omega⟩
  have hpack : (Float.Model.pack (.finite s b.mantissa b.exponent h.pos)).toBits.toBitVec =
      packComponents Format.binary64 s (BitVec.ofNat 11 n) (BitVec.ofNat 52 b.mantissa) := by
    simp only [Float.Model.pack, UnpackedFloat.pack, hbias, h.log2_mantissa, ← hn,
      Nat.cast_ofNat, Int.toNat_natCast]
    rw [if_neg (by omega), if_pos hbits]
  have hfield : (BitVec.ofNat 11 n).toNat = n := by
    rw [BitVec.toNat_ofNat, Nat.mod_eq_of_lt (by omega)]
  have hmax : BitVec.ofNat 11 n ≠ -1#11 := by
    rw [ne_eq, ← BitVec.toNat_inj, hfield]
    exact hlt.ne
  have hzero : BitVec.ofNat 11 n ≠ 0#11 := by
    rw [ne_eq, ← BitVec.toNat_inj, hfield]
    exact fun h : n = 0 => by omega
  have hmantissa : (1#1 ++ BitVec.ofNat 52 b.mantissa).toNat = b.mantissa := by
    rw [toNat_append_one, BitVec.toNat_ofNat]
    omega
  have hexponent : (n : Int) - (1023 + 52) = b.exponent := by omega
  rw [Float.Model.unpack, hpack]
  simp only [UnpackedFloat.unpack, UnpackedFloat.unpackMantissa_packComponents,
    UnpackedFloat.unpackExponent_packComponents, UnpackedFloat.unpackSign_packComponents,
    Sign.ofBitVec_toBitVec, if_neg hmax, if_neg hzero, hmantissa, hfield, hbias, Nat.cast_ofNat,
    hexponent]

/-! ## Doubles by sign and size -/

/-- The double has this sign and size, and neither is it zero nor infinite. -/
def HasSize (x : Float) (s : Sign) (b : Binary) : Prop :=
  ∃ hpos : 0 < b.mantissa, x.toModel.unpack = .finite s b.mantissa b.exponent hpos

theorem hasSize_pack {b : Binary} (h : b.IsNormal) (s : Sign) :
    HasSize ⟨Float.Model.pack (.finite s b.mantissa b.exponent h.pos)⟩ s b :=
  ⟨h.pos, unpack_pack h s⟩

/-- Rounding and packing a number that a double holds gives that double. -/
theorem hasSize_pack_roundWithAccuracy {b : Binary} (h : b.IsNormal) (s : Sign) {m : Nat} {e : Int}
    (hm : 2 ^ 52 ≤ m) (hvalue : (⟨m, e⟩ : Binary).value = b.value) :
    HasSize ⟨Float.Model.pack (roundWithAccuracy Format.binary64 s m e .exact)⟩ s b := by
  rw [roundWithAccuracy_exact h hm hvalue]
  exact hasSize_pack h s

theorem HasSize.neg {x : Float} {s : Sign} {b : Binary} (hx : HasSize x s b) (h : b.IsNormal) :
    HasSize x.neg (-s) b := by
  obtain ⟨hpos, hunpack⟩ := hx
  have hneg : x.neg = ⟨Float.Model.pack (.finite (-s) b.mantissa b.exponent hpos)⟩ := by
    change (⟨Float.Model.neg x.toModel⟩ : Float) = _
    rw [Float.Model.neg, hunpack]
    rfl
  rw [hneg]
  exact hasSize_pack h _

theorem HasSize.mul_one {x one : Float} {s : Sign} {b : Binary} (hx : HasSize x s b)
    (hone : HasSize one .positive ⟨2 ^ 52, -52⟩) (h : b.IsNormal) : HasSize (x * one) s b := by
  obtain ⟨hpos, hunpack⟩ := hx
  obtain ⟨hpos', hunpack'⟩ := hone
  have hmul : x * one = ⟨Float.Model.pack (roundWithAccuracy Format.binary64 (s * .positive)
      (b.mantissa * 2 ^ 52) (b.exponent + -52) .exact)⟩ := by
    change (⟨Float.Model.mul x.toModel one.toModel⟩ : Float) = _
    rw [Float.Model.mul, hunpack, hunpack']
    rfl
  have hsign : s * .positive = s := by cases s <;> rfl
  rw [hmul, hsign]
  apply hasSize_pack_roundWithAccuracy h
  · have hlow := h.low
    omega
  · rw [Binary.value_eq_iff_of_le (by omega)]
    congr 2
    omega

/-! ## Doubles by their bits -/

theorem Binary.fractionBits_eq (bits : UInt64) :
    fractionBits bits = (@unpackMantissa Format.binary64 bits.toBitVec).toNat := by
  have hmask : (0xfffffffffffff : UInt64).toNat = 2 ^ 52 - 1 := rfl
  rw [fractionBits, UInt64.toNat_and, hmask, Nat.and_two_pow_sub_one_eq_mod]
  simp [unpackMantissa]

theorem Binary.exponentBits_eq (bits : UInt64) :
    exponentBits bits = (@unpackExponent Format.binary64 bits.toBitVec).toNat := by
  have hmask : (0x7ff : UInt64).toNat = 2 ^ 11 - 1 := rfl
  rw [exponentBits, UInt64.toNat_and, hmask, Nat.and_two_pow_sub_one_eq_mod]
  simp [unpackExponent]

theorem isNegative_iff {x : Float} : isNegative x = true ↔
    Sign.ofBitVec (@unpackSign Format.binary64 x.toBits.toBitVec) = .negative := by
  have hlt := x.toBits.toNat_lt
  have hbit : x.toBits >>> 63 = 1 ↔
      @unpackSign Format.binary64 x.toBits.toBitVec ≠ 0#1 := by
    rw [ne_eq, ← UInt64.toNat_inj, ← BitVec.toNat_inj]
    simp [unpackSign, Nat.shiftRight_eq_div_pow]
    omega
  rw [isNegative, beq_iff_eq, hbit, Sign.ofBitVec]
  split <;> simp_all

/-- Sign and size of a double are what its bits say. -/
theorem HasSize.ofFloat {x : Float} {s : Sign} {b : Binary} (hx : HasSize x s b) :
    Binary.ofFloat x = b ∧ (isNegative x = true ↔ s = .negative) ∧
      b.mantissa < 2 ^ 53 ∧ b.exponent ≤ 971 := by
  obtain ⟨m, e⟩ := b
  obtain ⟨hpos, hunpack⟩ := hx
  have hbias : (Format.binary64.exponentBias : Int) = 1023 := rfl
  have hfraction := Binary.fractionBits_eq x.toBits
  have hexponent := Binary.exponentBits_eq x.toBits
  have hfractionLt : Binary.fractionBits x.toBits < 2 ^ 52 :=
    hfraction ▸ (@unpackMantissa Format.binary64 x.toBits.toBitVec).isLt
  have hexponentLt : Binary.exponentBits x.toBits < 2048 :=
    hexponent ▸ (@unpackExponent Format.binary64 x.toBits.toBitVec).isLt
  have hsize : Binary.ofFloat x = if Binary.exponentBits x.toBits = 0
      then ⟨Binary.fractionBits x.toBits, -1074⟩
      else ⟨Binary.fractionBits x.toBits + 2 ^ 52, Binary.exponentBits x.toBits - 1075⟩ := rfl
  change UnpackedFloat.unpack Format.binary64 x.toBits.toBitVec = _ at hunpack
  simp only [UnpackedFloat.unpack, hbias] at hunpack
  split at hunpack
  · split at hunpack <;> cases hunpack
  next hmax =>
  have hfinite : Binary.exponentBits x.toBits ≠ 2047 := fun h =>
    hmax (BitVec.eq_of_toNat_eq (hexponent ▸ h))
  rw [isNegative_iff]
  split at hunpack
  · next hzero =>
      -- the double is smaller than all with a full mantissa
      have hsub : Binary.exponentBits x.toBits = 0 := by rw [hexponent, hzero]; rfl
      split at hunpack
      · cases hunpack
      · obtain ⟨rfl, hm, he⟩ := UnpackedFloat.finite.inj hunpack
        rw [← hfraction] at hm
        rw [← hexponent, hsub] at he
        rw [hsize, if_pos hsub, Binary.mk.injEq]
        dsimp only at hm he ⊢
        exact ⟨by omega, Iff.rfl, by omega⟩
  · next hzero =>
      have hfull : Binary.exponentBits x.toBits ≠ 0 := fun h =>
        hzero (BitVec.eq_of_toNat_eq (hexponent ▸ h))
      obtain ⟨rfl, hm, he⟩ := UnpackedFloat.finite.inj hunpack
      rw [toNat_append_one, ← hfraction] at hm
      rw [← hexponent] at he
      rw [hsize, if_neg hfull, Binary.mk.injEq]
      dsimp only at hm he ⊢
      exact ⟨by omega, Iff.rfl, by omega⟩

/-- The bits of a zero say that its size is zero. -/
theorem ofFloat_of_zero {x : Float} {s : Sign} (h : x.toModel.unpack = .zero s) :
    Binary.ofFloat x = ⟨0, -1074⟩ := by
  have hbits : x.toBits = ⟨UnpackedFloat.packedZero Format.binary64 s⟩ :=
    UInt64.toBitVec_inj.mp
      ((UnpackedFloat.unpack_eq_zero_iff_of_valid x.toModel.valid (by decide)).mp h)
  rw [Binary.ofFloat, hbits]
  cases s <;> decide

/-- A finite double is a zero or has a size. -/
theorem ofFloat_eq_or_hasSize {x : Float} (h : x.isFinite = true) :
    Binary.ofFloat x = ⟨0, -1074⟩ ∨ ∃ s b, HasSize x s b := by
  change x.toModel.unpack.isFinite = true at h
  cases hunpack : x.toModel.unpack with
  | notANumber | infinity => simp [hunpack, UnpackedFloat.isFinite] at h
  | zero s => exact .inl (ofFloat_of_zero hunpack)
  | finite s m e hpos => exact .inr ⟨s, ⟨m, e⟩, hpos, hunpack⟩

end LiveCanvas
