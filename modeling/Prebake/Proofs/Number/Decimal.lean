import Mathlib
import Prebake.Number.Decimal

/-!
# Floats that are numbers

A decimal always denotes a number, also where the nearest float is an infinity or zero (`isNaN_toFloat`). A float is stored as
bits, and an operation unpacks its operands, computes and packs the result again; so the facts come in pairs, one about the
operation on unpacked floats and one about the float that is stored.
-/

namespace Prebake

open Float.Model (Format UnpackedFloat)
open Float.Model.UnpackedFloat

/-! ## Packing -/

/-- What is put together from a sign, an exponent and a mantissa is a number, unless the exponent is the greatest one and the
mantissa is not zero. -/
theorem isNaN_unpack_packComponents {sign : Sign} {exponent : BitVec 11} {mantissa : BitVec 52}
    (h : exponent = -1#11 → mantissa = 0#52) :
    (unpack Format.binary64 (packComponents Format.binary64 sign exponent mantissa)).isNaN = false := by
  unfold unpack
  simp only [unpackMantissa_packComponents, unpackExponent_packComponents]
  split
  · rename_i hgreatest
    rw [if_pos (h hgreatest)]
    rfl
  · split
    · split <;> rfl
    · rfl

/-- Packing keeps whether a float is a number. -/
theorem isNaN_pack (x : UnpackedFloat) : (Float.Model.pack x).isNaN = x.isNaN := by
  show (unpack Format.binary64 (pack Format.binary64 x)).isNaN = x.isNaN
  fun_cases pack Format.binary64 x with
  | case1 => decide
  | case2 | case3 | case4 => exact isNaN_unpack_packComponents fun _ => rfl
  | case5 sign mantissa exponent hpos bits biased hfits =>
    -- an exponent that fits is not the greatest one
    refine isNaN_unpack_packComponents fun hgreatest => ?_
    have hfits : ¬2 ^ 11 ≤ biased + 1 := hfits
    have hbiased : biased % 2 ^ 11 = 2 ^ 11 - 1 := by
      have hbits := congrArg BitVec.toNat hgreatest
      rwa [BitVec.toNat_ofNat] at hbits
    omega
  | case6 => exact isNaN_unpack_packComponents nofun

/-! ## Operations -/

/-- Whether an unpacked float is neither infinite nor zero nor `NaN`. -/
def isRegular : UnpackedFloat → Bool
  | .finite .. => true
  | _ => false

/-- Rounding ends at a number, be it an infinity or zero. -/
theorem isNaN_roundWithAccuracy (format : Format) (sign : Sign) (mantissa : Nat) (exponent : Int) (accuracy : Accuracy) :
    (roundWithAccuracy format sign mantissa exponent accuracy).isNaN = false := by
  unfold roundWithAccuracy
  dsimp only
  split <;> rfl

section

variable {x y : UnpackedFloat} (hx : x.isNaN = false) (hy : isRegular y = true)

include hx hy

/-- The quotient of a number by a finite number other than zero is a number. -/
theorem isNaN_div (format : Format) : (div format x y).isNaN = false := by
  cases y with
  | notANumber | infinity _ | zero _ => cases hy
  | finite _ _ _ _ =>
    cases x with
    | notANumber => cases hx
    | infinity _ | zero _ => rfl
    | finite _ _ _ _ => exact isNaN_roundWithAccuracy ..

/-- The product of a number and a finite number other than zero is a number. -/
theorem isNaN_mul (format : Format) : (mul format x y).isNaN = false := by
  cases y with
  | notANumber | infinity _ | zero _ => cases hy
  | finite _ _ _ _ =>
    cases x with
    | notANumber => cases hx
    | infinity _ | zero _ => rfl
    | finite _ _ _ _ => exact isNaN_roundWithAccuracy ..

end

/-- The negative of a float is a number if the float is. -/
theorem isNaN_neg (x : Float) : (-x).isNaN = x.isNaN := by
  show (Float.Model.pack x.toModel.unpack.neg).isNaN = x.toModel.unpack.isNaN
  rw [isNaN_pack]
  cases x.toModel.unpack <;> rfl

/-! ## Decimals -/

/-- A decimal denotes a number before it is packed. -/
theorem isNaN_unpackedScientific (mantissa : Nat) (exponent : Int) :
    (ofScientific Format.binary64 mantissa exponent).isNaN = false := by
  unfold ofScientific
  split
  · rfl
  split
  · rfl
  split
  · rfl
  split <;> exact isNaN_roundWithAccuracy ..

theorem isNaN_ofUInt64 (n : UInt64) : n.toFloat.isNaN = false := by
  show (Float.Model.pack (UnpackedFloat.normalize Format.binary64 n.toNat 0 .positive)).isNaN = false
  rw [isNaN_pack, UnpackedFloat.normalize]
  split
  · exact isNaN_roundWithAccuracy ..
  · rfl
  · exact isNaN_roundWithAccuracy ..

/-- The powers of ten that are exact are finite and not zero. -/
theorem isRegular_powerOfTen : ∀ exponent : Fin 23,
    isRegular (Float.exactlyRepresentablePowersOfTen[exponent]).toModel.unpack = true := by
  decide +kernel

/-- A decimal denotes a number, in whichever way it is computed. -/
theorem isNaN_ofScientific (mantissa : Nat) (negative : Bool) (exponent : Nat) :
    (Float.ofScientific mantissa negative exponent).isNaN = false := by
  unfold Float.ofScientific
  split
  · rename_i hexact
    have hmantissa := isNaN_ofUInt64 mantissa.toUInt64
    have hpower := isRegular_powerOfTen ⟨exponent, by omega⟩
    dsimp only
    split
    · exact (isNaN_pack _).trans (isNaN_div hmantissa hpower _)
    · exact (isNaN_pack _).trans (isNaN_mul hmantissa hpower _)
  · exact (isNaN_pack _).trans (isNaN_unpackedScientific _ _)

theorem isNaN_zero : (0.0 : Float).isNaN = false := isNaN_ofScientific _ _ _

theorem isNaN_infinity : infinity.isNaN = false := by decide +kernel

/-- There is a float that is no number. -/
theorem isNaN_notANumber : notANumber.isNaN = true := by decide +kernel

/-- A decimal denotes a number. -/
theorem Decimal.isNaN_toFloat (d : Decimal) : d.toFloat.isNaN = false := by
  unfold toFloat
  dsimp only
  split
  · exact isNaN_zero
  split
  · exact isNaN_infinity
  split
  · exact isNaN_zero
  · exact isNaN_ofScientific _ _ _

end Prebake
