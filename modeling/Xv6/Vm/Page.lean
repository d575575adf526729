import Xv6.Lib.LittleEndian
import Mathlib.Data.Nat.Bitwise

namespace Xv6.Vm

open Lib

abbrev EXTMEM : UInt32 := 0x100000
abbrev PHYSTOP : UInt32 := 0xE000000
abbrev DEVSPACE : UInt32 := 0xFE000000
abbrev KERNBASE : UInt32 := 0x80000000
abbrev KERNLINK : UInt32 := KERNBASE + EXTMEM

abbrev NPDENTRIES : ℕ := 1024
abbrev NPTENTRIES : ℕ := 1024
abbrev PGSIZE : UInt32 := 4096

abbrev PTE_P : UInt32 := 1
abbrev PTE_W : UInt32 := 2
abbrev PTE_U : UInt32 := 4

def v2p (a : UInt32) : UInt32 := a - KERNBASE

def p2v (a : UInt32) : UInt32 := a + KERNBASE

def PDX (va : UInt32) : ℕ := ((va >>> 22) &&& 0x3FF).toNat

def PTX (va : UInt32) : ℕ := ((va >>> 12) &&& 0x3FF).toNat

def PGROUNDUP (sz : UInt32) : UInt32 := (sz + PGSIZE - 1) &&& ~~~(PGSIZE - 1)

def PGROUNDDOWN (a : UInt32) : UInt32 := a &&& ~~~(PGSIZE - 1)

def PTE_ADDR (pte : UInt32) : UInt32 := pte &&& ~~~0xFFF

def PTE_FLAGS (pte : UInt32) : UInt32 := pte &&& 0xFFF

abbrev Page := ℕ → UInt8

namespace Page

def fill (c : UInt8) : Page := fun _ => c

def word (p : Page) (i : ℕ) : UInt32 := UInt32.ofNat (LittleEndian.value (fun k => p (4 * i + k)) 4)

def setWord (p : Page) (i : ℕ) (w : UInt32) : Page :=
  fun k => if k / 4 = i then LittleEndian.digit w.toNat (k % 4) else p k

def splice (p : Page) (off : ℕ) (src : List UInt8) : Page :=
  fun k => if off ≤ k then src.getD (k - off) (p k) else p k

@[simp] lemma word_setWord_self (p : Page) (i : ℕ) (w : UInt32) : (p.setWord i w).word i = w := by
  have hv : LittleEndian.value (fun k => p.setWord i w (4 * i + k)) 4 =
      LittleEndian.value (LittleEndian.digit w.toNat) 4 := by
    apply LittleEndian.value_congr
    intro k hk
    rw [setWord, if_pos (by omega)]
    congr 1
    omega
  have hlt : w.toNat < 256 ^ 4 := w.toNat_lt
  rw [word, hv, LittleEndian.value_digit, Nat.mod_eq_of_lt hlt, UInt32.ofNat_toNat]

lemma word_setWord_of_ne (p : Page) {i j : ℕ} (w : UInt32) (h : j ≠ i) :
    (p.setWord i w).word j = p.word j := by
  unfold word
  congr 1
  apply LittleEndian.value_congr
  intro k hk
  rw [setWord, if_neg (by omega)]

@[simp] lemma word_fill_zero (i : ℕ) : word (fill 0) i = 0 := by
  simp [word, fill, LittleEndian.value]

end Page

lemma toNat_and_pageMask (a : UInt32) : (a &&& ~~~0xFFF).toNat = a.toNat / 4096 * 4096 := by
  have hlt := a.toNat_lt
  rw [UInt32.toNat_and, show (~~~(0xFFF : UInt32)).toNat = (2 ^ 20 - 1) * 2 ^ 12 from rfl]
  apply Nat.eq_of_testBit_eq
  intro i
  rw [Nat.testBit_and, Nat.testBit_mul_two_pow, show 4096 = 2 ^ 12 from rfl, Nat.testBit_mul_two_pow,
    Nat.testBit_two_pow_sub_one, Nat.testBit_div_two_pow]
  by_cases h12 : 12 ≤ i
  · rw [Nat.sub_add_cancel h12]
    by_cases hi : i < 32
    · simp [h12]
      omega
    · rw [Nat.testBit_lt_two_pow (hlt.trans_le (Nat.pow_le_pow_right (by decide) (by omega)))]
      simp
  · simp [h12]

lemma toNat_and_low (a : UInt32) (n : ℕ) (hn : n ≤ 31) :
    (a &&& UInt32.ofNat (2 ^ n - 1)).toNat = a.toNat % 2 ^ n := by
  have hlt : 2 ^ n - 1 < 2 ^ 32 := by
    have := Nat.pow_le_pow_right (n := 2) (by decide) (show n ≤ 32 by omega)
    have := Nat.pow_pos (n := n) (show 0 < 2 by decide)
    omega
  rw [UInt32.toNat_and, UInt32.toNat_ofNat_of_lt' hlt, Nat.and_two_pow_sub_one_eq_mod]

lemma toNat_PTE_ADDR (w : UInt32) : (PTE_ADDR w).toNat = w.toNat / 4096 * 4096 := toNat_and_pageMask w

lemma toNat_PGROUNDDOWN (a : UInt32) : (PGROUNDDOWN a).toNat = a.toNat / 4096 * 4096 :=
    toNat_and_pageMask a

lemma toNat_PGROUNDUP {a : UInt32} (h : a.toNat + 4095 < 2 ^ 32) :
    (PGROUNDUP a).toNat = (a.toNat + 4095) / 4096 * 4096 := by
  have hadd : (a + PGSIZE - 1).toNat = a.toNat + 4095 := by
    rw [UInt32.toNat_sub, UInt32.toNat_add, show PGSIZE.toNat = 4096 from rfl,
      show (1 : UInt32).toNat = 1 from rfl]
    omega
  rw [PGROUNDUP, show PGSIZE - 1 = (0xFFF : UInt32) from rfl, toNat_and_pageMask, hadd]

lemma PDX_eq (va : UInt32) : PDX va = va.toNat / 2 ^ 22 := by
  have hlt := va.toNat_lt
  rw [PDX, show (0x3FF : UInt32) = UInt32.ofNat (2 ^ 10 - 1) from rfl, toNat_and_low _ _ (by decide),
    UInt32.toNat_shiftRight]
  simp [Nat.shiftRight_eq_div_pow]
  omega

lemma PTX_eq (va : UInt32) : PTX va = va.toNat / 2 ^ 12 % 2 ^ 10 := by
  rw [PTX, show (0x3FF : UInt32) = UInt32.ofNat (2 ^ 10 - 1) from rfl, toNat_and_low _ _ (by decide),
    UInt32.toNat_shiftRight]
  simp [Nat.shiftRight_eq_div_pow]

lemma PDX_eq_div (va : UInt32) : PDX va = va.toNat / 4096 / 1024 := by
  rw [PDX_eq]
  omega

lemma PTX_eq_mod (va : UInt32) : PTX va = va.toNat / 4096 % 1024 := PTX_eq va

def pframe (w : UInt32) : ℕ := w.toNat / 4096

def Present (w : UInt32) : Prop := w &&& PTE_P ≠ 0

def User (w : UInt32) : Prop := w &&& PTE_U ≠ 0

def Writable (w : UInt32) : Prop := w &&& PTE_W ≠ 0

instance (w : UInt32) : Decidable (Present w) := inferInstanceAs (Decidable (w &&& PTE_P ≠ 0))

instance (w : UInt32) : Decidable (Writable w) := inferInstanceAs (Decidable (w &&& PTE_W ≠ 0))

instance (w : UInt32) : Decidable (User w) := inferInstanceAs (Decidable (w &&& PTE_U ≠ 0))

lemma and_two_pow_ne_zero_iff (w : UInt32) {k : ℕ} (hk : k < 32) :
    w &&& UInt32.ofNat (2 ^ k) ≠ 0 ↔ w.toNat.testBit k = true := by
  have hlt : 2 ^ k < 2 ^ 32 := Nat.pow_lt_pow_right (by decide) hk
  rw [ne_eq, ← UInt32.toNat_inj, UInt32.toNat_and, UInt32.toNat_ofNat_of_lt' hlt, Nat.and_two_pow]
  cases w.toNat.testBit k <;> simp

lemma present_iff (w : UInt32) : Present w ↔ w.toNat.testBit 0 = true :=
    and_two_pow_ne_zero_iff w (k := 0) (by decide)

lemma writable_iff (w : UInt32) : Writable w ↔ w.toNat.testBit 1 = true :=
    and_two_pow_ne_zero_iff w (k := 1) (by decide)

lemma user_iff (w : UInt32) : User w ↔ w.toNat.testBit 2 = true :=
    and_two_pow_ne_zero_iff w (k := 2) (by decide)

@[simp] lemma not_present_zero : ¬ Present 0 := by decide

lemma toNat_or_of_aligned {pa x : UInt32} (hpa : pa.toNat % 4096 = 0) (hx : x.toNat < 4096) :
    (pa ||| x).toNat = pa.toNat + x.toNat := by
  obtain ⟨q, hq⟩ := Nat.dvd_of_mod_eq_zero hpa
  rw [UInt32.toNat_or, hq, ← Nat.two_pow_add_eq_or_of_lt (i := 12) hx]

lemma toNat_or_lt {x y : UInt32} (hx : x.toNat < 4096) (hy : y.toNat < 4096) :
    (x ||| y).toNat < 4096 := by
  rw [UInt32.toNat_or]
  exact Nat.or_lt_two_pow (n := 12) hx hy

variable {pa perm : UInt32}

lemma pframe_entry (hpa : pa.toNat % 4096 = 0) (hp : perm.toNat < 4096) :
    pframe (pa ||| perm ||| PTE_P) = pa.toNat / 4096 := by
  have hx := toNat_or_lt hp (show (PTE_P).toNat < 4096 by decide)
  rw [UInt32.or_assoc, pframe, toNat_or_of_aligned hpa hx]
  omega

lemma present_entry (pa perm : UInt32) : Present (pa ||| perm ||| PTE_P) := by
  rw [present_iff, UInt32.toNat_or, Nat.testBit_or, show (PTE_P).toNat.testBit 0 = true from rfl,
    Bool.or_true]

lemma testBit_aligned (hpa : pa.toNat % 4096 = 0) {k : ℕ} (hk : k < 12) : pa.toNat.testBit k = false := by
  obtain ⟨q, hq⟩ := Nat.dvd_of_mod_eq_zero hpa
  rw [hq, Nat.mul_comm, show 4096 = 2 ^ 12 from rfl, Nat.testBit_mul_two_pow]
  simp [hk]

lemma user_entry (hpa : pa.toNat % 4096 = 0) : User (pa ||| perm ||| PTE_P) ↔ User perm := by
  rw [user_iff, user_iff, UInt32.toNat_or, UInt32.toNat_or, Nat.testBit_or, Nat.testBit_or,
    testBit_aligned hpa (by decide), show (PTE_P).toNat.testBit 2 = false from rfl, Bool.false_or,
    Bool.or_false]

lemma writable_entry (hpa : pa.toNat % 4096 = 0) : Writable (pa ||| perm ||| PTE_P) ↔ Writable perm := by
  rw [writable_iff, writable_iff, UInt32.toNat_or, UInt32.toNat_or, Nat.testBit_or, Nat.testBit_or,
    testBit_aligned hpa (by decide), show (PTE_P).toNat.testBit 1 = false from rfl, Bool.false_or,
    Bool.or_false]

lemma PTE_FLAGS_lt (w : UInt32) : (PTE_FLAGS w).toNat < 4096 := by
  rw [PTE_FLAGS, show (0xFFF : UInt32) = UInt32.ofNat (2 ^ 12 - 1) from rfl, toNat_and_low _ _
    (by decide)]
  exact Nat.mod_lt _ (by decide)

end Xv6.Vm
