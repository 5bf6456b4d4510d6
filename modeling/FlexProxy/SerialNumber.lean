import Mathlib.Data.UInt

/-! # Serial numbers

A counter that only grows is kept in a 32-bit word.  Two words are compared by
the sign of their difference read as a signed number (`diff`), which is the
distance of the counters as long as they are less than `2^31` apart.
-/
namespace SerialNumber

/-- The difference of two serial numbers, as a signed 32-bit number. -/
def diff (later earlier : UInt32) : Int := (later - earlier).toInt32.toInt

theorem diff_eq_bmod (a b : Nat) :
    diff (UInt32.ofNat a) (UInt32.ofNat b) = ((a : Int) - b).bmod (2 ^ 32) := by
  show ((BitVec.ofNat 32 a) - (BitVec.ofNat 32 b)).toInt = _
  rw [BitVec.toInt_sub, BitVec.toInt_ofNat', BitVec.toInt_ofNat', Int.bmod_sub_bmod,
    Int.sub_bmod_bmod]

/-- The words of two counters less than `2^31` apart compare as the counters. -/
theorem diff_ofNat {a b : Nat} (h1 : (a : Int) - b < 2 ^ 31) (h2 : -2 ^ 31 ≤ (a : Int) - b) :
    diff (UInt32.ofNat a) (UInt32.ofNat b) = (a : Int) - b := by
  rw [diff_eq_bmod]
  exact Int.bmod_eq_of_le (by omega) (by omega)

/-- Comparison does not depend on where the counters started. -/
theorem diff_add_right (a b c : UInt32) : diff (a + c) (b + c) = diff a b := by
  have h : a + c - (b + c) = a - b := by grind
  rw [diff, h, diff]

@[simp] theorem diff_self (a : UInt32) : diff a a = 0 := by
  simp [diff]

/-- Counters below `2^32` are determined by their words. -/
theorem ofNat_inj {a b : Nat} (ha : a < 2 ^ 32) (hb : b < 2 ^ 32) :
    UInt32.ofNat a = UInt32.ofNat b ↔ a = b := by
  constructor
  · intro h
    have := congrArg UInt32.toNat h
    rwa [UInt32.toNat_ofNat_of_lt' ha, UInt32.toNat_ofNat_of_lt' hb] at this
  · rintro rfl
    rfl

theorem ofNat_succ (a : Nat) : UInt32.ofNat (a + 1) = UInt32.ofNat a + 1 := by
  rw [UInt32.ofNat_add]
  rfl

end SerialNumber
