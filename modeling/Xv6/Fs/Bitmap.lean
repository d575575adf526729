import Xv6.Fs.Layout
import Mathlib.Data.Nat.Bitwise

namespace Xv6

namespace Block

def mask (i : ℕ) : UInt8 := 1 <<< UInt8.ofNat (i % 8)

def bit (b : Block) (i : ℕ) : Bool := b.byte (i / 8) &&& mask i != 0

def setBit (b : Block) (i : ℕ) : Block := b.setByte (i / 8) (b.byte (i / 8) ||| mask i)

def clearBit (b : Block) (i : ℕ) : Block := b.setByte (i / 8) (b.byte (i / 8) &&& ~~~ mask i)

lemma toNat_mask (i : ℕ) : (mask i).toNat = 2 ^ (i % 8) := by
  have hall : ∀ k < 8, ((1 : UInt8) <<< UInt8.ofNat k).toNat = 2 ^ k := by decide
  exact hall (i % 8) (Nat.mod_lt _ (by decide))

lemma bit_eq_testBit (b : Block) (i : ℕ) : b.bit i = (b.byte (i / 8)).toNat.testBit (i % 8) := by
  rw [Bool.eq_iff_iff, bit, bne_iff_ne, ne_eq, ← UInt8.toNat_inj, UInt8.toNat_and, toNat_mask,
    Nat.and_two_pow]
  cases (b.byte (i / 8)).toNat.testBit (i % 8) <;> simp

lemma testBit_not_mask (x : UInt8) (i : ℕ) {j : ℕ} (hj : j < 8) :
    (x &&& ~~~ mask i).toNat.testBit j = (x.toNat.testBit j && !decide (i % 8 = j)) := by
  have hall : ∀ k < 8, ∀ j < 8, (~~~ ((1 : UInt8) <<< UInt8.ofNat k)).toNat.testBit j = !decide
    (k = j) := by
    decide
  rw [UInt8.toNat_and, Nat.testBit_and, mask, hall (i % 8) (Nat.mod_lt _ (by decide)) j hj]

lemma bit_setBit (b : Block) (i : ℕ) {j : ℕ} (hj : j < Fs.BPB) :
    (b.setBit i).bit j = (b.bit j || decide (i = j)) := by
  have hlt : j / 8 < BSIZE := by simp only [Fs.BPB, BSIZE] at hj ⊢; omega
  rw [bit_eq_testBit, bit_eq_testBit, setBit, byte_setByte _ _ _ hlt]
  split_ifs with h
  · rw [UInt8.toNat_or, Nat.testBit_or, toNat_mask, Nat.testBit_two_pow, ← h]
    congr 2
    apply propext
    omega
  · have hij : i ≠ j := by rintro rfl; exact h rfl
    simp [hij]

lemma bit_clearBit (b : Block) (i : ℕ) {j : ℕ} (hj : j < Fs.BPB) :
    (b.clearBit i).bit j = (b.bit j && !decide (i = j)) := by
  have hlt : j / 8 < BSIZE := by simp only [Fs.BPB, BSIZE] at hj ⊢; omega
  rw [bit_eq_testBit, bit_eq_testBit, clearBit, byte_setByte _ _ _ hlt]
  split_ifs with h
  · rw [testBit_not_mask _ _ (Nat.mod_lt _ (by decide)), ← h]
    congr 3
    apply propext
    omega
  · have hij : i ≠ j := by rintro rfl; exact h rfl
    simp [hij]

lemma ext_bit {a b : Block} (h : ∀ i < Fs.BPB, a.bit i = b.bit i) : a = b := by
  refine ext_byte fun k hk => UInt8.toNat_inj.mp (Nat.eq_of_testBit_eq fun j => ?_)
  by_cases hj : j < 8
  · have hi := h (8 * k + j) (by simp only [Fs.BPB, BSIZE] at hk ⊢; omega)
    rwa [bit_eq_testBit, bit_eq_testBit, show (8 * k + j) / 8 = k by omega,
      show (8 * k + j) % 8 = j by omega] at hi
  · have hlt : ∀ x : UInt8, x.toNat < 2 ^ j := fun x =>
      x.toNat_lt.trans_le (Nat.pow_le_pow_right (by decide) (by omega))
    rw [Nat.testBit_lt_two_pow (hlt _), Nat.testBit_lt_two_pow (hlt _)]

lemma clearBit_setBit {b : Block} {i : ℕ} (h : b.bit i = false) : (b.setBit i).clearBit i = b := by
  refine ext_bit fun j hj => ?_
  rw [bit_clearBit _ _ hj, bit_setBit _ _ hj]
  by_cases hij : i = j
  · rw [← hij, h]
    simp
  · simp [hij]

end Block

end Xv6
