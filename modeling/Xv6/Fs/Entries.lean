import Xv6.Fs.Dir
import Xv6.Fs.Writei

namespace Xv6.Fs

open Lib

def cstr (n : ℕ) (p : List UInt8) : List UInt8 := (p.take n).takeWhile (· != 0)

lemma cstr_cons (n : ℕ) (a : UInt8) (p : List UInt8) :
    cstr (n + 1) (a :: p) = if a = 0 then [] else a :: cstr n p := by
  by_cases ha : a = 0 <;> simp [cstr, ha]

lemma strncmp_eq_zero_iff {n : ℕ} {p q : List UInt8} : strncmp n p q = 0 ↔ cstr n p = cstr n q := by
  have hzero : ∀ a : UInt8, a.toNat = 0 ↔ a = 0 := fun a => UInt8.toNat_inj (b := 0)
  have hsub : ∀ a b : UInt8, ((a.toNat : ℤ) - b.toNat = 0) ↔ a = b := by
    intro a b
    rw [sub_eq_zero, Nat.cast_inj, UInt8.toNat_inj]
  induction n generalizing p q with
  | zero => simp [strncmp, cstr]
  | succ n ih =>
    cases p with
    | nil =>
      cases q with
      | nil => simp [strncmp]
      | cons b q => by_cases hb : b = 0 <;> simp [strncmp, cstr_cons, hb, hzero] <;> simp [cstr]
    | cons a p =>
      cases q with
      | nil => by_cases ha : a = 0 <;> simp [strncmp, cstr_cons, ha, hzero] <;> simp [cstr]
      | cons b q =>
        by_cases ha : a = 0
        · by_cases hb : b = 0 <;> simp [strncmp, cstr_cons, ha, hb, hzero]
        · by_cases hab : a = b
          · subst hab
            simp [strncmp, cstr_cons, ha, ih]
          · by_cases hb : b = 0 <;> simp [strncmp, cstr_cons, ha, hab, hb, hsub, hzero]

lemma namecmp_eq_zero_iff {s t : List UInt8} : namecmp s t = 0 ↔ cstr DIRSIZ s = cstr DIRSIZ t :=
    strncmp_eq_zero_iff

lemma length_strncpy (n : ℕ) (t : List UInt8) : (strncpy n t).length = n := by
  induction n generalizing t with
  | zero => rfl
  | succ n ih =>
    unfold strncpy
    split_ifs
    · exact List.length_replicate
    · rw [List.length_cons, ih]

lemma cstr_strncpy (n : ℕ) (t : List UInt8) : cstr n (strncpy n t) = cstr n t := by
  induction n generalizing t with
  | zero => simp [cstr]
  | succ n ih =>
    cases t with
    | nil => simp [strncpy, List.replicate_succ, cstr]
    | cons a t => by_cases ha : a = 0 <;> simp [strncpy, List.replicate_succ, cstr_cons, ha, ih]

lemma namecmp_strncpy (s t : List UInt8) : namecmp s (strncpy DIRSIZ t) = 0 ↔ namecmp s t = 0 := by
  rw [namecmp_eq_zero_iff, namecmp_eq_zero_iff, cstr_strncpy]

namespace Dirent

lemma ofBytes_toBytes (de : Dirent) : ofBytes de.toBytes = de := by
  obtain ⟨inum, name⟩ := de
  have hlt := inum.toNat_lt
  have h1 : (UInt8.ofNat (inum.toNat % 256)).toNat = inum.toNat % 256 :=
    UInt8.toNat_ofNat_of_lt' (Nat.mod_lt _ (by decide))
  have h2 : (UInt8.ofNat (inum.toNat / 256)).toNat = inum.toNat / 256 := UInt8.toNat_ofNat_of_lt' (by
    rw [show UInt8.size = 256 from rfl]
    omega)
  simp only [ofBytes, toBytes, List.getD_cons_zero, List.getD_cons_succ, List.drop_succ_cons,
    List.drop_zero, h1, h2]
  rw [Nat.mod_add_div, UInt16.ofNat_toNat]

lemma length_toBytes {de : Dirent} (h : de.name.length = DIRSIZ) : de.toBytes.length = DIRENT := by
  simp [toBytes, h]

end Dirent

def nslots (data : List UInt8) : ℕ := data.length / DIRENT

def slot (data : List UInt8) (k : ℕ) : Dirent := .ofBytes ((data.drop (DIRENT * k)).take DIRENT)

def lookup (data name : List UInt8) : Option ℕ :=
  (List.range (nslots data)).find? (fun k => (slot data k).inum ≠ 0 ∧ namecmp name (slot data k).name = 0)

def firstFree (data : List UInt8) : ℕ :=
  ((List.range (nslots data)).find? (fun k => (slot data k).inum = 0)).getD (nslots data)

def setSlot (data : List UInt8) (k : ℕ) (src : List UInt8) : List UInt8 := overwrite data (DIRENT * k) src

section

variable {data name src : List UInt8} {j k : ℕ}

lemma nslots_le (data : List UInt8) : DIRENT * nslots data ≤ data.length := Nat.mul_div_le _ _

lemma nslots_setSlot (hk : k ≤ nslots data) (hsrc : src.length = DIRENT) :
    nslots (setSlot data k src) = max (nslots data) (k + 1) := by
  have hle := (Nat.mul_le_mul_left DIRENT hk).trans (nslots_le data)
  rw [nslots, setSlot, length_overwrite hle, hsrc, nslots]
  simp only [DIRENT] at *
  omega

lemma getD_setSlot (hk : k ≤ nslots data) (p : ℕ) :
    (setSlot data k src).getD p 0 =
      if DIRENT * k ≤ p then src.getD (p - DIRENT * k) (data.getD p 0) else data.getD p 0 :=
  getD_overwrite ((Nat.mul_le_mul_left DIRENT hk).trans (nslots_le data)) 0

lemma slice_ext {l m : List UInt8} {n : ℕ} (hl : n + DIRENT ≤ l.length) (hm : DIRENT ≤ m.length)
    (h : ∀ p < DIRENT, l.getD (n + p) 0 = m.getD p 0) : (l.drop n).take DIRENT = m.take DIRENT := by
  have h1 : ((l.drop n).take DIRENT).length = DIRENT := by
    rw [List.length_take, List.length_drop]
    omega
  have h2 : (m.take DIRENT).length = DIRENT := by
    rw [List.length_take]
    omega
  refine List.ext_getElem (h1.trans h2.symm) (fun p hp _ => ?_)
  rw [h1] at hp
  have := h p hp
  rw [List.getD_eq_getElem _ _ (by omega), List.getD_eq_getElem _ _ (by omega)] at this
  simpa using this

section

variable (hk : k ≤ nslots data) (hsrc : src.length = DIRENT)
include hk hsrc

lemma slot_setSlot_self : slot (setSlot data k src) k = .ofBytes src := by
  have hlen : DIRENT * k + DIRENT ≤ (setSlot data k src).length := by
    have := nslots_le (setSlot data k src)
    rw [nslots_setSlot hk hsrc] at this
    exact le_trans (Nat.mul_le_mul_left DIRENT (le_max_right (nslots data) (k + 1))) this
  rw [slot, slice_ext hlen hsrc.ge (fun p hp => ?_), List.take_of_length_le hsrc.le]
  rw [getD_setSlot hk, if_pos (Nat.le_add_right _ _), Nat.add_sub_cancel_left]
  rw [List.getD_eq_getElem _ _ (by omega), List.getD_eq_getElem _ _ (by omega)]

lemma slot_setSlot_ne (hj : j < nslots data) (hjk : j ≠ k) :
    slot (setSlot data k src) j = slot data j := by
  have hlen : DIRENT * j + DIRENT ≤ data.length :=
    (Nat.mul_le_mul_left DIRENT (Nat.succ_le_of_lt hj)).trans (nslots_le data)
  have hlen' : DIRENT * j + DIRENT ≤ (setSlot data k src).length := by
    have := nslots_le (setSlot data k src)
    rw [nslots_setSlot hk hsrc] at this
    exact le_trans (Nat.mul_le_mul_left DIRENT (hj.trans_le (le_max_left _ _))) this
  rw [slot, slot, slice_ext hlen' (m := data.drop (DIRENT * j)) (by rw [List.length_drop]; omega)
    (fun p hp => ?_)]
  have hdrop : (data.drop (DIRENT * j)).getD p 0 = data.getD (DIRENT * j + p) 0 := by
    simp [List.getD_eq_getElem?_getD, List.getElem?_drop]
  rw [getD_setSlot hk, hdrop]
  split_ifs with h
  · rw [List.getD_eq_default src]
    rw [hsrc]
    rcases Nat.lt_or_gt_of_ne hjk with hlt | hgt
    · simp only [DIRENT] at *
      omega
    · simp only [DIRENT] at *
      omega
  · rfl

lemma slot_setSlot (hj : j < nslots (setSlot data k src)) :
    slot (setSlot data k src) j = if j = k then .ofBytes src else slot data j := by
  split_ifs with h
  · rw [h, slot_setSlot_self hk hsrc]
  · rw [nslots_setSlot hk hsrc] at hj
    exact slot_setSlot_ne hk hsrc (by omega) h

end

lemma lookup_some (h : lookup data name = some k) :
    k < nslots data ∧ (slot data k).inum ≠ 0 ∧ namecmp name (slot data k).name = 0 ∧
      ∀ j < k, ¬ ((slot data j).inum ≠ 0 ∧ namecmp name (slot data j).name = 0) := by
  obtain ⟨hp, hmem, hlt⟩ := List.find?_range_eq_some.mp h
  simp only [decide_eq_true_eq] at hp
  refine ⟨List.mem_range.mp hmem, hp.1, hp.2, ?_⟩
  rintro j hj ⟨h1, h2⟩
  have := hlt j hj
  simp [h1, h2] at this

lemma firstFree_le : firstFree data ≤ nslots data := by
  unfold firstFree
  cases h : (List.range (nslots data)).find? (fun k => (slot data k).inum = 0) with
  | none => exact le_refl _
  | some k => exact (List.mem_range.mp (List.mem_of_find?_eq_some h)).le

lemma slot_firstFree (h : firstFree data < nslots data) : (slot data (firstFree data)).inum = 0 := by
  unfold firstFree at h ⊢
  cases hf : (List.range (nslots data)).find? (fun k => (slot data k).inum = 0) with
  | none =>
    rw [hf] at h
    exact absurd h (lt_irrefl _)
  | some k => simpa using List.find?_some hf

end

end Xv6.Fs
