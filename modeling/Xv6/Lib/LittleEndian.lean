import Mathlib.Data.Nat.Digits.Defs
import Mathlib.Tactic

namespace Xv6.Lib.LittleEndian

def value (f : ℕ → UInt8) : ℕ → ℕ
  | 0 => 0
  | n + 1 => value f n + (f n).toNat * 256 ^ n

def digit (x k : ℕ) : UInt8 := UInt8.ofNat (x / 256 ^ k)

@[simp] lemma digit_toNat (x k : ℕ) : (digit x k).toNat = x / 256 ^ k % 256 := by
  simp [digit]

lemma value_lt (f : ℕ → UInt8) (n : ℕ) : value f n < 256 ^ n := by
  induction n with
  | zero => simp [value]
  | succ n ih =>
    have hb : (f n).toNat ≤ 255 := by
      have h := (f n).toNat_lt
      omega
    have hm : (f n).toNat * 256 ^ n ≤ 255 * 256 ^ n := Nat.mul_le_mul_right _ hb
    simp only [value, Nat.pow_succ]
    omega

lemma value_congr {f g : ℕ → UInt8} {n : ℕ} (h : ∀ i < n, f i = g i) : value f n = value g n := by
  induction n with
  | zero => rfl
  | succ n ih => simp only [value, ih (fun i hi => h i (by omega)), h n (by omega)]

lemma value_digit (x n : ℕ) : value (digit x) n = x % 256 ^ n := by
  induction n with
  | zero => simp [value, Nat.mod_one]
  | succ n ih =>
    rw [value, ih, digit_toNat, Nat.pow_succ, Nat.mod_mul, Nat.mul_comm (256 ^ n)]

end Xv6.Lib.LittleEndian
