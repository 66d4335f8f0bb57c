import Mathlib.Algebra.Ring.Nat
import Mathlib.Data.Int.Notation
import Mathlib.Tactic.Common

/-! Signed 64-bit integers: when an operation is exact.

The plain operations wrap; a saturating one stops at the bounds, and a checked one has no result where the
exact one does not fit. -/
namespace SecOutfall.Signed64
set_option autoImplicit false

def Fits (x : ℤ) : Prop := -9223372036854775808 ≤ x ∧ x < 9223372036854775808

instance decidableFits (x : ℤ) : Decidable (Fits x) := inferInstanceAs (Decidable (_ ∧ _))

theorem fits_toInt (a : Int64) : Fits a.toInt := ⟨a.le_toInt, a.toInt_lt⟩

theorem bmod_eq_self_iff {x : ℤ} : x.bmod (2 ^ 64) = x ↔ Fits x := by
  constructor
  · intro h
    have hlow := Int.le_bmod (x := x) (m := 2 ^ 64) (by decide)
    have hhigh := Int.bmod_lt (x := x) (m := 2 ^ 64) (by decide)
    rw [h] at hlow hhigh
    constructor <;> omega
  · rintro ⟨hlow, hhigh⟩
    exact Int.bmod_eq_of_le (by omega) (by omega)

/-! ## Plain operations -/

theorem toInt_add_eq_iff (a b : Int64) : (a + b).toInt = a.toInt + b.toInt ↔ Fits (a.toInt + b.toInt) := by
  rw [Int64.toInt_add, bmod_eq_self_iff]

theorem toInt_sub_eq_iff (a b : Int64) : (a - b).toInt = a.toInt - b.toInt ↔ Fits (a.toInt - b.toInt) := by
  rw [Int64.toInt_sub, bmod_eq_self_iff]

theorem toInt_mul_eq_iff (a b : Int64) : (a * b).toInt = a.toInt * b.toInt ↔ Fits (a.toInt * b.toInt) := by
  rw [Int64.toInt_mul, bmod_eq_self_iff]

theorem toInt_ofInt {x : ℤ} (h : Fits x) : (Int64.ofInt x).toInt = x := by
  rw [Int64.toInt_ofInt]
  exact bmod_eq_self_iff.mpr h

/-! ## Saturating and checked operations -/

def saturated (x : ℤ) : ℤ := max (-9223372036854775808) (min x 9223372036854775807)

theorem fits_saturated (x : ℤ) : Fits (saturated x) := by
  unfold saturated
  constructor <;> omega

def saturatingMul (a b : Int64) : Int64 := .ofInt (saturated (a.toInt * b.toInt))

theorem toInt_saturatingMul (a b : Int64) : (saturatingMul a b).toInt = saturated (a.toInt * b.toInt) :=
  toInt_ofInt (fits_saturated _)

/-- The exact sum with an unsigned number, where it fits. -/
def checkedAddUnsigned (a : Int64) (b : UInt64) : Option Int64 :=
  if Fits (a.toInt + b.toNat) then some (.ofInt (a.toInt + b.toNat)) else none

/-- `i64::try_from` of an unsigned number. -/
def tryFrom (v : UInt64) : Option Int64 := if Fits v.toNat then some (.ofInt v.toNat) else none

end SecOutfall.Signed64
