import Xv6.Lib.Copy

namespace Xv6.Memmove

open Lib

abbrev Memory := UInt32 → UInt8

def forward (mem : Memory) (d s : UInt32) (n : ℕ) : Memory := copyUp (· + 1) mem d s n

def backward (mem : Memory) (d s : UInt32) : ℕ → Memory
  | 0 => mem
  | n + 1 => backward (assign mem (d - 1) (mem (s - 1))) (d - 1) (s - 1) n

namespace Kernel

def memmove (mem : Memory) (dst src n : UInt32) : Memory :=
  if src < dst ∧ src + n > dst then backward mem (dst + n) (src + n) n.toNat
    else forward mem dst src n.toNat

end Kernel

namespace Ulib

def memmove (mem : Memory) (dst src : UInt32) (n : Int32) : Memory := forward mem dst src n.toInt.toNat

end Ulib

def cell (a : UInt32) (i : ℕ) : UInt32 := a + UInt32.ofNat i

structure Moved (mem : Memory) (dst src : UInt32) (n : ℕ) (mem' : Memory) : Prop where
  inside : ∀ i < n, mem' (cell dst i) = mem (cell src i)
  outside : ∀ a, (∀ i < n, a ≠ cell dst i) → mem' a = mem a

variable {mem mem' : Memory} {dst src : UInt32} {n : ℕ}

lemma cell_zero (a : UInt32) : cell a 0 = a := by
  simp [cell]

lemma iterate_eq_cell (a : UInt32) (i : ℕ) : (· + 1)^[i] a = cell a i := by
  induction i with
  | zero => exact (cell_zero a).symm
  | succ i ih =>
    rw [Function.iterate_succ_apply', ih]
    unfold cell
    rw [UInt32.ofNat_add, ← UInt32.add_assoc]
    rfl

lemma cell_sub_one (a : UInt32) (i : ℕ) : cell a (i + 1) - 1 = cell a i := by
  unfold cell
  rw [UInt32.ofNat_add, ← UInt32.add_assoc]
  exact UInt32.add_sub_cancel _ _

lemma toNat_cell {a : UInt32} {i : ℕ} (h : a.toNat + i < 2 ^ 32) : (cell a i).toNat = a.toNat + i := by
  have hi : i < 2 ^ 32 := by omega
  unfold cell
  rw [UInt32.toNat_add, UInt32.toNat_ofNat_of_lt' hi, Nat.mod_eq_of_lt h]

lemma forward_eq (mem : Memory) (d s : UInt32) (n : ℕ) :
    forward mem d s n = copySeq mem (pairs (cell d) (cell s) n) := by
  rw [forward, copyUp_eq, funext (iterate_eq_cell d), funext (iterate_eq_cell s)]

lemma backward_eq (mem : Memory) (d s : UInt32) (n : ℕ) : backward mem (cell d n) (cell s n) n =
      copySeq mem (pairs (fun i => cell d (n - 1 - i)) (fun i => cell s (n - 1 - i)) n) := by
  induction n generalizing mem with
  | zero => rfl
  | succ n ih =>
    rw [backward, cell_sub_one, cell_sub_one, ih, pairs_succ_eq_cons, copySeq]
    simp only [Nat.add_sub_cancel, Nat.sub_zero, Nat.sub_sub, Nat.add_comm 1]

lemma cell_ne {a : UInt32} {i j : ℕ} (h : a.toNat + n ≤ 2 ^ 32) (hi : i < n) (hj : j < n) (hij : i ≠ j) :
    cell a i ≠ cell a j := by
  intro he
  have := congrArg UInt32.toNat he
  rw [toNat_cell (by omega), toNat_cell (by omega)] at this
  omega

lemma cell_eq_iff {a b : UInt32} {i j : ℕ} (ha : a.toNat + i < 2 ^ 32) (hb : b.toNat + j < 2 ^ 32) :
    cell a i = cell b j ↔ a.toNat + i = b.toNat + j := by
  rw [← UInt32.toNat_inj, toNat_cell ha, toNat_cell hb]

lemma moved_outside {d s : ℕ → UInt32} {m : ℕ} (hd : ∀ i < m, ∃ j < n, d i = cell dst j) {a : UInt32}
    (ha : ∀ i < n, a ≠ cell dst i) : copySeq mem (pairs d s m) a = mem a := by
  refine copySeq_of_ne (fun p hp => ?_)
  obtain ⟨i, hi, rfl⟩ := mem_pairs.mp hp
  obtain ⟨j, hj, hij⟩ := hd i hi
  rw [hij]
  exact ha j hj

lemma forward_moved (hd : dst.toNat + n ≤ 2 ^ 32) (hs : src.toNat + n ≤ 2 ^ 32)
    (h : ¬ (src < dst ∧ dst.toNat < src.toNat + n)) : Moved mem dst src n (forward mem dst src n) := by
  rw [forward_eq]
  refine ⟨fun i hi => ?_, fun a ha => moved_outside (fun i hi => ⟨i, hi, rfl⟩) ha⟩
  refine copySeq_of_pairwise (pairs_pairwise _ (fun i j hij hj => ?_)) (mem_pairs.mpr ⟨i, hi, rfl⟩)
  rw [UInt32.lt_iff_toNat_lt] at h
  refine ⟨cell_ne hd hj (hij.trans hj) (Nat.ne_of_gt hij), fun he => ?_⟩
  have := (cell_eq_iff (by omega) (by omega)).mp he
  omega

lemma backward_moved (hd : dst.toNat + n ≤ 2 ^ 32) (h : src < dst) :
    Moved mem dst src n (backward mem (cell dst n) (cell src n) n) := by
  rw [backward_eq]
  refine ⟨fun i hi => ?_, fun a ha => moved_outside (fun i hi => ⟨n - 1 - i, by omega, rfl⟩) ha⟩
  have hmem : (cell dst i, cell src i) ∈ pairs (fun i => cell dst (n - 1 - i))
    (fun i => cell src (n - 1 - i)) n :=
    mem_pairs.mpr ⟨n - 1 - i, by omega, by rw [show n - 1 - (n - 1 - i) = i by omega]⟩
  refine copySeq_of_pairwise (pairs_pairwise _ (fun i j hij hj => ?_)) hmem
  rw [UInt32.lt_iff_toNat_lt] at h
  refine ⟨cell_ne hd (by omega) (by omega) (by omega), fun he => ?_⟩
  have := (cell_eq_iff (by omega) (by omega)).mp he
  omega

lemma Kernel.memmove_moved (n : UInt32) (hd : dst.toNat + n.toNat ≤ 2 ^ 32)
    (hs : src.toNat + n.toNat ≤ 2 ^ 32) :
    Moved mem dst src n.toNat (Kernel.memmove mem dst src n) := by
  have hcell : ∀ a : UInt32, a + n = cell a n.toNat := fun a => by simp [cell]
  unfold Kernel.memmove
  split_ifs with h
  · rw [hcell, hcell]
    exact backward_moved hd h.1
  · refine forward_moved hd hs (fun h' => h ⟨h'.1, ?_⟩)
    have hlt := UInt32.lt_iff_toNat_lt.mp h'.1
    -- a source below a destination that fits does not reach the end of the address space
    rw [gt_iff_lt, UInt32.lt_iff_toNat_lt, hcell, toNat_cell (by omega)]
    exact h'.2

lemma forward_moved_iff (hd : dst.toNat + n ≤ 2 ^ 32) (hs : src.toNat + n ≤ 2 ^ 32) (h : src < dst) :
    Moved mem dst src n (forward mem dst src n) ↔
      ∀ i, dst.toNat + i < src.toNat + n → mem (cell dst i) = mem (cell src i) := by
  rw [UInt32.lt_iff_toNat_lt] at h
  obtain ⟨k, hk⟩ := Nat.exists_eq_add_of_lt h
  have hshift : ∀ i, i + (k + 1) < n → cell src (i + (k + 1)) = cell dst i := fun i hi =>
    (cell_eq_iff (by omega) (by omega)).mpr (by omega)
  have hiff := copySeq_shift_iff (f := mem) (n := n) (k := k + 1) (d := cell dst) (s := cell src)
    (Nat.succ_pos k) (fun i j hij hj => cell_ne hd (hij.trans hj) hj (Nat.ne_of_lt hij)) hshift
    (fun i j hi hj hin he => by have := (cell_eq_iff (by omega) (by omega)).mp he; omega)
  rw [forward_eq]
  constructor
  · intro hm i hi
    rw [← hshift i (by omega)]
    exact hiff.mp hm.inside i (by omega)
  · intro hrep
    refine ⟨hiff.mpr (fun i hi => ?_), fun a ha => moved_outside (fun i hi => ⟨i, hi, rfl⟩) ha⟩
    rw [hshift i hi]
    exact hrep i (by omega)

lemma Moved.unique {mem1 mem2 : Memory} (h1 : Moved mem dst src n mem1) (h2 : Moved mem dst src n mem2) :
    mem1 = mem2 := by
  funext a
  by_cases ha : ∃ i < n, a = cell dst i
  · obtain ⟨i, hi, rfl⟩ := ha
    rw [h1.inside i hi, h2.inside i hi]
  · push Not at ha
    rw [h1.outside a ha, h2.outside a ha]

theorem memmove_overlap_safe_iff (mem : Memory) (dst src : UInt32) :
    (∀ n : UInt32, dst.toNat + n.toNat ≤ 2 ^ 32 → src.toNat + n.toNat ≤ 2 ^ 32 →
      Moved mem dst src n.toNat (Kernel.memmove mem dst src n)) ∧
    ∀ n : ℕ, n < 2 ^ 31 → dst.toNat + n ≤ 2 ^ 32 → src.toNat + n ≤ 2 ^ 32 →
      (Moved mem dst src n (Ulib.memmove mem dst src (Int32.ofNat n)) ∧
        Kernel.memmove mem dst src (UInt32.ofNat n) = Ulib.memmove mem dst src (Int32.ofNat n) ↔
      (src < dst → ∀ i, dst.toNat + i < src.toNat + n → mem (cell dst i) = mem (cell src i))) := by
  refine ⟨fun n hd hs => Kernel.memmove_moved n hd hs, fun n hn hd hs => ?_⟩
  have hulib : Ulib.memmove mem dst src (Int32.ofNat n) = forward mem dst src n := by
    unfold Ulib.memmove
    rw [Int32.toInt_ofNat_of_lt hn, Int.toNat_natCast]
  have hn32 : (UInt32.ofNat n).toNat = n := UInt32.toNat_ofNat_of_lt' (show n < 2 ^ 32 by omega)
  have hkernel : Moved mem dst src (UInt32.ofNat n).toNat (Kernel.memmove mem dst src (UInt32.ofNat n)) :=
    Kernel.memmove_moved _ (by omega) (by omega)
  rw [hn32] at hkernel
  rw [hulib]
  constructor
  · intro h hlt
    exact (forward_moved_iff hd hs hlt).mp h.1
  · intro h
    have hm : Moved mem dst src n (forward mem dst src n) := by
      by_cases hlt : src < dst
      · exact (forward_moved_iff hd hs hlt).mpr (h hlt)
      · exact forward_moved hd hs (fun h' => hlt h'.1)
    exact ⟨hm, hkernel.unique hm⟩

def abc : Memory := fun a => if a = 4096 then 97 else if a = 4097 then 98 else if a = 4098 then 99 else 0

theorem memmove_overlap_safe_iff_down :
    Moved abc 4096 4097 2 (Ulib.memmove abc 4096 4097 2) ∧
    Kernel.memmove abc 4096 4097 2 = Ulib.memmove abc 4096 4097 2 :=
  ((memmove_overlap_safe_iff abc 4096 4097).2 2 (by decide) (by decide) (by decide)).mpr
    (fun h => absurd h (by decide))

theorem ulib_memmove_repeats_byte :
    ¬ Moved abc 4097 4096 3 (Ulib.memmove abc 4097 4096 3) ∧
      Kernel.memmove abc 4097 4096 3 ≠ Ulib.memmove abc 4097 4096 3 := by
  have hbytes : Ulib.memmove abc 4097 4096 3 (cell 4097 1) = 97 ∧ abc (cell 4096 1) = 98 ∧
      Kernel.memmove abc 4097 4096 3 (cell 4097 1) = 98 := by decide +kernel
  refine ⟨fun h => ?_, fun h => ?_⟩
  · have := h.inside 1 (by decide)
    rw [hbytes.1, hbytes.2.1] at this
    cases this
  · have := congrFun h (cell 4097 1)
    rw [hbytes.1, hbytes.2.2] at this
    cases this

end Xv6.Memmove
