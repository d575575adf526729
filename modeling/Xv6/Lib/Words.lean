import Mathlib.Tactic

namespace Xv6.Lib

lemma toNat_add_ofNat {a : UInt32} {j : ℕ} (h : a.toNat + j < 2 ^ 32) :
    (a + UInt32.ofNat j).toNat = a.toNat + j := by
  rw [UInt32.toNat_add, UInt32.toNat_ofNat_of_lt'
    (show j < UInt32.size by simp only [UInt32.size]; omega)]
  omega

lemma toInt_cases (x : Int32) : (x.toUInt32.toNat < 2 ^ 31 ∧ x.toInt = x.toUInt32.toNat) ∨
      (2 ^ 31 ≤ x.toUInt32.toNat ∧ x.toInt = x.toUInt32.toNat - 2 ^ 32) := by
  have h : x.toInt = x.toBitVec.toInt := rfl
  have hn : x.toUInt32.toNat = x.toBitVec.toNat := rfl
  rw [h, hn, BitVec.toInt_eq_toNat_cond]
  split_ifs <;> omega

end Xv6.Lib
