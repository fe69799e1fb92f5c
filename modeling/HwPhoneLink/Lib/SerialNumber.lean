import Mathlib.Algebra.Group.Nat.Defs
import Mathlib.Data.Nat.Notation
import Mathlib.Tactic.Common

/-!
# Serial-number comparison

Counters that are compared after truncation to 32 bits. `ahead a b` is the
usual signed-difference test. It agrees with `<` on the untruncated counters
as long as the two lie in one half window (`ahead_ofNat`); no bound on the
counters themselves is needed.
-/

namespace SerialNumber

/-- The difference `a - b`, read as a signed 32-bit number, is positive. -/
def ahead (a b : UInt32) : Bool := decide (0 < (a - b).toInt32)

theorem ahead_eq_toNat (a b : UInt32) :
    ahead a b = decide (0 < (a - b).toNat ∧ (a - b).toNat < 2 ^ 31) := by
  unfold ahead
  generalize a - b = d
  congr 1
  have hd : d.toNat < 2 ^ 32 := d.toNat_lt
  have hint : d.toInt32.toInt = d.toBitVec.toInt := rfl
  have hzero : (0 : Int32).toInt = 0 := rfl
  have hnat : d.toBitVec.toNat = d.toNat := rfl
  rw [Int32.lt_iff_toInt_lt, hint, hzero, BitVec.toInt_eq_toNat_cond, hnat, eq_iff_iff]
  split <;> omega

/-- The distance to a counter that has moved on by one. -/
theorem sub_succ_toNat {a b : UInt32} (h : 1 ≤ (a - b).toNat) :
    (a - (b + 1)).toNat = (a - b).toNat - 1 := by
  have hone : (1 : UInt32).toNat = 1 := rfl
  have ha := a.toNat_lt
  have hb := b.toNat_lt
  simp only [UInt32.toNat_sub, UInt32.toNat_add, hone] at h ⊢
  omega

theorem eq_succ_iff {a b : UInt32} : a = b + 1 ↔ (a - b).toNat = 1 := by
  have hone : (1 : UInt32).toNat = 1 := rfl
  have ha := a.toNat_lt
  have hb := b.toNat_lt
  rw [← UInt32.toNat_inj]
  simp only [UInt32.toNat_sub, UInt32.toNat_add, hone]
  omega

theorem ahead_succ (a : UInt32) : ahead (a + 1) a = true := by
  rw [ahead_eq_toNat, eq_succ_iff.mp rfl]
  decide

/-- On counters of one half window the truncated test is the order. -/
theorem ahead_ofNat {i j : ℕ} (hi : i < j + 2 ^ 31) (hj : j ≤ i + 2 ^ 31) :
    ahead (UInt32.ofNat i) (UInt32.ofNat j) = decide (j < i) := by
  rw [ahead_eq_toNat]
  congr 1
  simp only [UInt32.toNat_sub, UInt32.toNat_ofNat', eq_iff_iff]
  omega

/-- Between a counter and the one two later there is only the next. -/
theorem eq_succ_of_ahead {a b : UInt32} (hlo : ahead a b = true) (hhi : ahead (b + 2) a = true) :
    a = b + 1 := by
  rw [ahead_eq_toNat, decide_eq_true_eq] at hlo hhi
  have htwo : (2 : UInt32).toNat = 2 := rfl
  have hone : (1 : UInt32).toNat = 1 := rfl
  have ha := a.toNat_lt
  have hb := b.toNat_lt
  rw [← UInt32.toNat_inj]
  simp only [UInt32.toNat_sub, UInt32.toNat_add, htwo, hone] at hlo hhi ⊢
  omega

/-- Truncated counters of one window are equal only when the counters are. -/
theorem ofNat_inj {i j : ℕ} (hi : i < j + 2 ^ 32) (hj : j < i + 2 ^ 32)
    (h : UInt32.ofNat i = UInt32.ofNat j) : i = j := by
  have h' := congrArg UInt32.toNat h
  simp only [UInt32.toNat_ofNat'] at h'
  omega

theorem ofNat_succ (i : ℕ) : UInt32.ofNat (i + 1) = UInt32.ofNat i + 1 := by
  simp

end SerialNumber
