import Mathlib
import Schemata.Predicate.Value
import Schemata.Proofs.Decimal.Rounding

set_option autoImplicit false

namespace Schemata.Double

open Float.Model (UnpackedFloat Format)
open Float.Model.UnpackedFloat (Sign unpackMantissa unpackExponent unpackSign pack_unpack isNaNBits)

def signBit : Sign → Nat
  | .positive => 0
  | .negative => 2 ^ 63

theorem signBit_eq (sign : Sign) : signBit sign = sign.toBitVec.toNat * 2 ^ 63 := by
  cases sign <;> rfl

def word (sign : Sign) (bits : Nat) : BitVec Format.binary64.numBits :=
  BitVec.ofNat _ (signBit sign + bits)

/-- The parts of a double that is neither subnormal nor infinite, from the bits of its magnitude. -/
def unpacked (sign : Sign) (bits : Nat) : UnpackedFloat :=
  .finite sign (2 ^ 52 + bits % 2 ^ 52) ((bits / 2 ^ 52 : Nat) - 1075) (by omega)

section

variable {bits : Nat} (sign : Sign) (normal : 2 ^ 52 ≤ bits) (finite : bits < 0x7FF * 2 ^ 52)

theorem toNat_word (finite : bits < 0x7FF * 2 ^ 52) :
    (word sign bits).toNat = signBit sign + bits := by
  have size : 2 ^ Format.binary64.numBits = 2 ^ 64 := rfl
  rw [word, BitVec.toNat_ofNat, size]
  apply Nat.mod_eq_of_lt
  cases sign <;> simp only [signBit] <;> omega

theorem unpackMantissa_word (finite : bits < 0x7FF * 2 ^ 52) :
    (unpackMantissa (word sign bits)).toNat = bits % 2 ^ 52 := by
  simp [unpackMantissa, toNat_word sign finite]
  cases sign <;> simp only [signBit] <;> omega

theorem unpackExponent_word (finite : bits < 0x7FF * 2 ^ 52) :
    (unpackExponent (word sign bits)).toNat = bits / 2 ^ 52 := by
  simp [unpackExponent, toNat_word sign finite, Nat.shiftRight_eq_div_pow]
  cases sign <;> simp only [signBit] <;> omega

theorem unpackSign_word (finite : bits < 0x7FF * 2 ^ 52) :
    Sign.ofBitVec (unpackSign (word sign bits)) = sign := by
  have same : unpackSign (word sign bits) = sign.toBitVec := by
    apply BitVec.eq_of_toNat_eq
    simp [unpackSign, toNat_word sign finite, Nat.shiftRight_eq_div_pow, signBit_eq]
    cases sign <;> simp [Sign.toBitVec] <;> omega
  rw [same, Sign.ofBitVec_toBitVec]

theorem unpackExponent_word_ne (finite : bits < 0x7FF * 2 ^ 52) :
    unpackExponent (word sign bits) ≠ -BitVec.ofNat Format.binary64.exponentBits 1 := by
  have ones : (-BitVec.ofNat Format.binary64.exponentBits 1).toNat = 2047 := by decide
  rw [Ne, ← BitVec.toNat_inj, unpackExponent_word sign finite, ones]
  omega

include normal finite

theorem unpack_word : UnpackedFloat.unpack .binary64 (word sign bits) = unpacked sign bits := by
  have mantissa := unpackMantissa_word sign finite
  have exponent := unpackExponent_word sign finite
  have notSubnormal : ¬ unpackExponent (word sign bits) =
      BitVec.ofNat Format.binary64.exponentBits 0 := by
    have zeros : (BitVec.ofNat Format.binary64.exponentBits 0).toNat = 0 := by decide
    rw [← BitVec.toNat_inj, exponent, zeros]
    omega
  unfold UnpackedFloat.unpack unpacked
  simp only [unpackExponent_word_ne sign finite, notSubnormal, if_false,
    unpackSign_word sign finite]
  congr 1
  · have fraction : bits % 2 ^ 52 < 2 ^ 52 := Nat.mod_lt _ (by decide)
    rw [BitVec.toNat_append, mantissa]
    exact (Nat.shiftLeft_add_eq_or_of_lt fraction 1).symm
  · simp [exponent, Format.exponentBias]

theorem pack_unpacked : (unpacked sign bits).pack .binary64 = word sign bits := by
  rw [← unpack_word sign normal finite, pack_unpack, if_neg]
  simp only [isNaNBits, unpackExponent_word_ne sign finite, false_and, decide_false,
    Bool.false_eq_true, not_false_eq_true]

end

section

variable {bits : Nat} (normal : 2 ^ 52 ≤ bits) (finite : bits < 0x7FF * 2 ^ 52)

include normal finite

theorem unpack_ofBits : (Float.ofBits bits.toUInt64).toModel.unpack = unpacked .positive bits := by
  have same : bits.toUInt64.toBitVec = word .positive bits := by
    rw [word]
    exact congrArg (BitVec.ofNat 64) (by simp [signBit])
  have packed : (UnpackedFloat.unpack .binary64 (word .positive bits)).pack .binary64 =
      word .positive bits := by
    rw [unpack_word .positive normal finite, pack_unpacked .positive normal finite]
  calc (Float.ofBits bits.toUInt64).toModel.unpack
    _ = UnpackedFloat.unpack .binary64
          ((UnpackedFloat.unpack .binary64 bits.toUInt64.toBitVec).pack .binary64) := rfl
    _ = unpacked .positive bits := by rw [same, packed, unpack_word .positive normal finite]

theorem unpack_neg_ofBits :
    (-Float.ofBits bits.toUInt64).toModel.unpack = unpacked .negative bits := by
  have positive := unpack_ofBits normal finite
  calc (-Float.ofBits bits.toUInt64).toModel.unpack
    _ = UnpackedFloat.unpack .binary64
          ((Float.ofBits bits.toUInt64).toModel.unpack.neg.pack .binary64) := rfl
    _ = UnpackedFloat.unpack .binary64 ((unpacked .negative bits).pack .binary64) := by
          rw [positive]
          rfl
    _ = unpacked .negative bits := by
          rw [pack_unpacked .negative normal finite, unpack_word .negative normal finite]

end

theorem compareFloats_of_compare {left right : Float} {ordering : Ordering}
    (forwards : left.toModel.unpack.compare right.toModel.unpack = some ordering)
    (backwards : right.toModel.unpack.compare left.toModel.unpack = some ordering.swap) :
    Json.compareFloats left right = some ordering := by
  have less : left < right ↔ ordering = .lt := by
    change (decide ((left.toModel.unpack.compare right.toModel.unpack == some .lt) = true)) =
      true ↔ _
    rw [forwards]
    cases ordering <;> decide
  have same : (left == right) = (ordering == .eq) := by
    change (left.toModel.unpack.compare right.toModel.unpack == some .eq) = _
    rw [forwards]
    cases ordering <;> rfl
  have greater : right < left ↔ ordering = .gt := by
    change (decide ((right.toModel.unpack.compare left.toModel.unpack == some .lt) = true)) =
      true ↔ _
    rw [backwards]
    cases ordering <;> decide
  simp only [Json.compareFloats, less, same, greater]
  cases ordering <;> rfl

/-- Exponents are compared first, then significands: both together as the bits that they make up. -/
theorem compare_unpacked (first second : Nat) :
    (unpacked .positive first).compare (unpacked .positive second) =
      some (compare first second) := by
  refine congrArg some ?_
  rcases Nat.lt_trichotomy (first / 2 ^ 52) (second / 2 ^ 52) with below | same | above
  · rw [Int.compare_eq_lt.2 (by omega), Nat.compare_eq_lt.2 (by omega : first < second)]
    rfl
  · rw [same, Int.compare_eq_eq.2 rfl, Ordering.eq_then]
    rcases Nat.lt_trichotomy first second with less | rfl | greater
    · rw [Nat.compare_eq_lt.2 less, Nat.compare_eq_lt]
      omega
    · rw [Nat.compare_eq_eq.2 rfl, Nat.compare_eq_eq.2 rfl]
    · rw [Nat.compare_eq_gt.2 greater, Nat.compare_eq_gt]
      omega
  · rw [Int.compare_eq_gt.2 (by omega), Nat.compare_eq_gt.2 (by omega : second < first)]
    rfl

structure Fits64 (value : Int) : Prop where
  least : -2 ^ 63 ≤ value
  most : value < 2 ^ 64

variable {value number : Int}

theorem ofInt_natCast (natural : Nat) : ofInt natural = nearest natural 1 := by
  simp [ofInt]

theorem unpack_nearest {natural : Nat} (positive : 0 < natural) (fits : natural < 2 ^ 64) :
    (nearest natural 1).toModel.unpack = unpacked .positive (nearestBits natural 1) := by
  have bounds := nearestBits_bounds positive fits
  exact unpack_ofBits bounds.1 bounds.2

theorem unpack_ofInt_of_neg (negative : value < 0) (fits : Fits64 value) :
    (ofInt value).toModel.unpack = unpacked .negative (nearestBits value.natAbs 1) := by
  have least := fits.least
  have bounds : 2 ^ 52 ≤ nearestBits value.natAbs 1 ∧ nearestBits value.natAbs 1 < 0x7FF * 2 ^ 52 :=
    nearestBits_bounds (by omega) (by omega)
  rw [ofInt, if_pos negative]
  exact unpack_neg_ofBits bounds.1 bounds.2

theorem isFinite_ofInt {natural : Nat} (positive : 0 < natural) (fits : natural < 2 ^ 64) :
    (ofInt natural).isFinite = true := by
  have parts : (ofInt natural).isFinite = (ofInt natural).toModel.unpack.isFinite := rfl
  rw [parts, ofInt_natCast, unpack_nearest positive fits]
  rfl

theorem compare_nearestBits {first second : Nat}
    (apart : nearestBits first 1 = nearestBits second 1 → first = second) :
    compare (nearestBits first 1) (nearestBits second 1) = compare (first : Int) second := by
  rcases Nat.lt_trichotomy first second with less | rfl | greater
  · have grows := nearestBits_mono (Nat.le_of_lt less)
    rw [Int.compare_eq_lt.2 (Int.ofNat_lt.2 less), Nat.compare_eq_lt]
    exact Nat.lt_of_le_of_ne grows fun same => Nat.ne_of_lt less (apart same)
  · rw [Int.compare_eq_eq.2 rfl, Nat.compare_eq_eq.2 rfl]
  · have grows := nearestBits_mono (Nat.le_of_lt greater)
    rw [Int.compare_eq_gt.2 (Int.ofNat_lt.2 greater), Nat.compare_eq_gt]
    exact Nat.lt_of_le_of_ne grows fun same => Nat.ne_of_gt greater (apart same.symm)

theorem compareFloats_ofInt {natural : Nat} (valueFits : Fits64 value) (positive : 0 < natural)
    (fits : natural < 2 ^ 64) (apart : ofInt value = ofInt natural → value = natural) :
    Json.compareFloats (ofInt value) (ofInt natural) = some (compare value natural) := by
  have right : (ofInt natural).toModel.unpack = unpacked .positive (nearestBits natural 1) := by
    rw [ofInt_natCast, unpack_nearest positive fits]
  rcases Int.lt_trichotomy value 0 with negative | rfl | above
  · have left := unpack_ofInt_of_neg negative valueFits
    rw [Int.compare_eq_lt.2 (by omega : value < natural)]
    apply compareFloats_of_compare <;> rw [left, right] <;> rfl
  · have left : (ofInt 0).toModel.unpack = .zero .positive := by rfl
    rw [Int.compare_eq_lt.2 (by omega : (0 : Int) < natural)]
    apply compareFloats_of_compare <;> rw [left, right] <;> rfl
  · obtain ⟨whole, rfl⟩ := Int.eq_ofNat_of_zero_le (Int.le_of_lt above)
    have most := valueFits.most
    have left : (ofInt whole).toModel.unpack = unpacked .positive (nearestBits whole 1) := by
      rw [ofInt_natCast, unpack_nearest (by omega) (by omega)]
    have order : compare (nearestBits whole 1) (nearestBits natural 1) =
        compare (whole : Int) natural := by
      refine compare_nearestBits fun same => Int.ofNat_inj.1 (apart ?_)
      rw [ofInt_natCast, ofInt_natCast, nearest, nearest, same]
    apply compareFloats_of_compare
    · rw [left, right, compare_unpacked, order]
    · rw [left, right, compare_unpacked, ← order, Nat.compare_swap]

end Schemata.Double
