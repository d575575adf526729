import Xv6.Lib.LittleEndian
import Xv6.Param

namespace Xv6

open Lib

abbrev Block := Fin BSIZE → UInt8
abbrev Disk := ℕ → Block

namespace Block

def byte (b : Block) (i : ℕ) : UInt8 := if h : i < BSIZE then b ⟨i, h⟩ else 0

def zero : Block := fun _ => 0

def word (b : Block) (k : ℕ) : UInt32 :=
  UInt32.ofNat (LittleEndian.value (fun i => b.byte (4 * k + i)) 4)

def setWord (b : Block) (k : ℕ) (v : UInt32) : Block := fun i =>
  if i.val / 4 = k then LittleEndian.digit v.toNat (i.val % 4) else b i

lemma byte_of_lt (b : Block) {i : ℕ} (h : i < BSIZE) : b.byte i = b ⟨i, h⟩ := by
  simp [byte, h]

lemma ext_byte {a b : Block} (h : ∀ i < BSIZE, a.byte i = b.byte i) : a = b := by
  funext i
  have hi := h i.val i.isLt
  rwa [byte_of_lt a i.isLt, byte_of_lt b i.isLt] at hi

@[simp] lemma byte_zero (i : ℕ) : byte zero i = 0 := by
  simp [byte, zero]

lemma byte_setWord (b : Block) (k : ℕ) (v : UInt32) {i : ℕ} (hi : i < BSIZE) :
    (b.setWord k v).byte i =
      if i / 4 = k then LittleEndian.digit v.toNat (i % 4) else b.byte i := by
  simp only [byte_of_lt _ hi, setWord]

lemma word_setWord_self (b : Block) {k : ℕ} (v : UInt32) (hk : k < 128) : (b.setWord k v).word k = v := by
  have hv : LittleEndian.value (fun i => (b.setWord k v).byte (4 * k + i)) 4 =
      LittleEndian.value (LittleEndian.digit v.toNat) 4 := by
    apply LittleEndian.value_congr
    intro i hi
    rw [byte_setWord b k v (by simp only [BSIZE]; omega), if_pos (by omega)]
    congr 1
    omega
  have hlt : v.toNat < 256 ^ 4 := v.toNat_lt
  rw [word, hv, LittleEndian.value_digit, Nat.mod_eq_of_lt hlt, UInt32.ofNat_toNat]

lemma word_setWord_ne (b : Block) {j k : ℕ} (v : UInt32) (hj : j < 128) (h : j ≠ k) :
    (b.setWord k v).word j = b.word j := by
  unfold word
  congr 1
  apply LittleEndian.value_congr
  intro i hi
  rw [byte_setWord b k v (by simp only [BSIZE]; omega), if_neg (by omega)]

lemma word_zero (k : ℕ) : word zero k = 0 := by
  simp [word, LittleEndian.value]

def half (b : Block) (k : ℕ) : UInt16 :=
  UInt16.ofNat (LittleEndian.value (fun i => b.byte (2 * k + i)) 2)

lemma half_zero (k : ℕ) : half zero k = 0 := by
  simp [half, LittleEndian.value]

def setHalf (b : Block) (k : ℕ) (v : UInt16) : Block := fun i =>
  if i.val / 2 = k then LittleEndian.digit v.toNat (i.val % 2) else b i

lemma word_congr {a b : Block} {k : ℕ} (h : ∀ i < 4, a.byte (4 * k + i) = b.byte (4 * k + i)) :
    a.word k = b.word k := by
  rw [word, word, LittleEndian.value_congr h]

lemma half_congr {a b : Block} {k : ℕ} (h : ∀ i < 2, a.byte (2 * k + i) = b.byte (2 * k + i)) :
    a.half k = b.half k := by
  rw [half, half, LittleEndian.value_congr h]

lemma byte_setHalf (b : Block) (k : ℕ) (v : UInt16) {i : ℕ} (hi : i < BSIZE) :
    (b.setHalf k v).byte i =
      if i / 2 = k then LittleEndian.digit v.toNat (i % 2) else b.byte i := by
  simp only [byte_of_lt _ hi, setHalf]

lemma half_setHalf_self (b : Block) {k : ℕ} (v : UInt16) (hk : k < 256) : (b.setHalf k v).half k = v := by
  have hv : LittleEndian.value (fun i => (b.setHalf k v).byte (2 * k + i)) 2 =
      LittleEndian.value (LittleEndian.digit v.toNat) 2 := by
    apply LittleEndian.value_congr
    intro i hi
    rw [byte_setHalf b k v (by simp only [BSIZE]; omega), if_pos (by omega)]
    congr 1
    omega
  have hlt : v.toNat < 256 ^ 2 := v.toNat_lt
  rw [half, hv, LittleEndian.value_digit, Nat.mod_eq_of_lt hlt, UInt16.ofNat_toNat]

lemma half_setHalf_ne (b : Block) {j k : ℕ} (v : UInt16) (hj : j < 256) (h : j ≠ k) :
    (b.setHalf k v).half j = b.half j := by
  apply half_congr
  intro i hi
  rw [byte_setHalf b k v (by simp only [BSIZE]; omega), if_neg (by omega)]

lemma half_setWord (b : Block) {j k : ℕ} (v : UInt32) (hj : j < 256) (h : j / 2 ≠ k) :
    (b.setWord k v).half j = b.half j := by
  apply half_congr
  intro i hi
  rw [byte_setWord b k v (by simp only [BSIZE]; omega), if_neg (by omega)]

lemma word_setHalf (b : Block) {j k : ℕ} (v : UInt16) (hj : j < 128) (h : j ≠ k / 2) :
    (b.setHalf k v).word j = b.word j := by
  apply word_congr
  intro i hi
  rw [byte_setHalf b k v (by simp only [BSIZE]; omega), if_neg (by omega)]

def setByte (b : Block) (i : ℕ) (v : UInt8) : Block := fun j => if j.val = i then v else b j

lemma byte_setByte (b : Block) (i : ℕ) (v : UInt8) {j : ℕ} (hj : j < BSIZE) :
    (b.setByte i v).byte j = if j = i then v else b.byte j := by
  simp only [byte_of_lt _ hj, setByte]

def splice (b : Block) (off : ℕ) (src : List UInt8) : Block := fun i =>
  if off ≤ i.val then src.getD (i.val - off) (b i) else b i

lemma byte_splice (b : Block) (off : ℕ) (src : List UInt8) {i : ℕ} (hi : i < BSIZE) :
    (b.splice off src).byte i =
      if off ≤ i then src.getD (i - off) (b.byte i) else b.byte i := by
  simp only [byte_of_lt _ hi, splice]

def slice (b : Block) (off n : ℕ) : List UInt8 := (List.range n).map (fun i => b.byte (off + i))

end Block

end Xv6
