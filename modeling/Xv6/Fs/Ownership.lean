import Xv6.Fs.Inode
import Xv6.Lib.Ledger

namespace Xv6.Fs

open Lib

lemma bread_spec {b : ℕ} {st : Store} {Q : Block → Store → Prop} {B : Halt → Prop}
    (h : Q (st.disk b) st) : Spec (bread b) st Q B := h

lemma logWrite_spec {b : ℕ} {data : Block} {st : Store} {Q : PUnit → Store → Prop} {B : Halt → Prop}
    (h : Q ⟨⟩ (st.write b data)) : Spec (logWrite b data) st Q B := h

abbrev NSLOT : ℕ := NDIRECT + 1 + NINDIRECT

def slotAddr (disk : Disk) (ip : Dinode) (s : ℕ) : ℕ :=
  if s < NDIRECT + 1 then ip.addr s
  else if ip.addr NDIRECT = 0 then 0
  else ((disk (ip.addr NDIRECT)).word (s - (NDIRECT + 1))).toNat

def ref (disk : Disk) (v : ℕ → Dinode) (i s : ℕ) : ℕ :=
  if (v i).type = 0 then 0 else slotAddr disk (v i) s

def dataSlot (bn : ℕ) : ℕ := if bn < NDIRECT then bn else bn + 1

lemma dataSlot_inj {a b : ℕ} (h : dataSlot a = dataSlot b) : a = b := by
  simp only [dataSlot, NDIRECT] at h
  split_ifs at h <;> omega

lemma dataSlot_of_ge {bn : ℕ} (h : NDIRECT ≤ bn) : dataSlot bn = NDIRECT + 1 + (bn - NDIRECT) := by
  rw [dataSlot, if_neg (by omega)]
  omega

lemma dataSlot_ne (bn : ℕ) : dataSlot bn ≠ NDIRECT := by
  simp only [dataSlot, NDIRECT]
  split_ifs <;> omega

lemma dataSlot_lt {bn : ℕ} (h : bn < MAXFILE) : dataSlot bn < NSLOT := by
  have hm : MAXFILE = 140 := rfl
  have hn : NSLOT = 141 := rfl
  simp only [dataSlot, NDIRECT]
  split_ifs <;> omega

lemma slotAddr_congr {disk disk' : Disk} {ip : Dinode}
    (h : ip.addr NDIRECT ≠ 0 → disk' (ip.addr NDIRECT) = disk (ip.addr NDIRECT)) :
    slotAddr disk' ip = slotAddr disk ip := by
  funext s
  simp only [slotAddr]
  split_ifs with h1 h2
  · rfl
  · rfl
  · rw [h h2]

lemma Superblock.mod_eq_iff {sb : Superblock} {b c : ℕ} (h : sb.bblock c = sb.bblock b) :
    b % BPB = c % BPB ↔ b = c := by
  simp only [Superblock.bblock] at h
  refine ⟨fun hm => ?_, fun he => by rw [he]⟩
  rw [← Nat.div_add_mod b BPB, ← Nat.div_add_mod c BPB, hm, Nat.add_right_cancel h]

namespace Store

lemma bit_write_of_ge (st : Store) {c b : ℕ} (data : Block) (h : st.sb.Ordered) (hb : b < st.sb.size)
    (hc : c < st.sb.bmapstart ∨ st.sb.dstart ≤ c) : (st.write c data).bit b = st.bit b := by
  have hlt := h.bblock_lt hb
  simp only [bit, write]
  rw [assign_of_ne (by omega)]

lemma inode_write (st : Store) {c i : ℕ} (data : Block) (h : st.sb.iblock i ≠ c) :
    (st.write c data).inode i = st.inode i := by
  simp only [inode, write, assign_of_ne h]

lemma bit_write_setBit (st : Store) (b : ℕ) (c : ℕ) :
    (st.write (st.sb.bblock b) ((st.disk (st.sb.bblock b)).setBit (b % BPB))).bit c =
      (st.bit c || decide (b = c)) := by
  have hc : c % BPB < BPB := Nat.mod_lt _ (by decide)
  simp only [bit, write]
  by_cases hbb : st.sb.bblock c = st.sb.bblock b
  · rw [hbb, assign_self, Block.bit_setBit _ _ hc]
    simp only [Superblock.mod_eq_iff hbb]
  · have hne : b ≠ c := by
      rintro rfl
      exact hbb rfl
    rw [assign_of_ne hbb]
    simp [hne]

lemma bit_write_clearBit (st : Store) (b : ℕ) (c : ℕ) :
    (st.write (st.sb.bblock b) ((st.disk (st.sb.bblock b)).clearBit (b % BPB))).bit c =
      (st.bit c && !decide (b = c)) := by
  have hc : c % BPB < BPB := Nat.mod_lt _ (by decide)
  simp only [bit, write]
  by_cases hbb : st.sb.bblock c = st.sb.bblock b
  · rw [hbb, assign_self, Block.bit_clearBit _ _ hc]
    simp only [Superblock.mod_eq_iff hbb]
  · have hne : b ≠ c := by
      rintro rfl
      exact hbb rfl
    rw [assign_of_ne hbb]
    simp [hne]

def freeSet (st : Store) : Finset ℕ := (Finset.range st.sb.size).filter (fun b => st.bit b = false)

def alloc (st : Store) (b : ℕ) : Store :=
  (st.write (st.sb.bblock b) ((st.disk (st.sb.bblock b)).setBit (b % BPB))).write b Block.zero

def free (st : Store) (b : ℕ) : Store :=
  st.write (st.sb.bblock b) ((st.disk (st.sb.bblock b)).clearBit (b % BPB))

lemma alloc_bit (st : Store) {b c : ℕ} (h : st.sb.Ordered) (hb : st.sb.dstart ≤ b) (hc : c < st.sb.size) :
    (st.alloc b).bit c = (st.bit c || decide (b = c)) := by
  rw [← bit_write_setBit]
  exact bit_write_of_ge (st.write _ _) _ h hc (.inr hb)

lemma alloc_freeSet (st : Store) {b : ℕ} (h : st.sb.Ordered) (hb : st.sb.dstart ≤ b) :
    (st.alloc b).freeSet = st.freeSet.erase b := by
  ext c
  simp only [freeSet, Finset.mem_filter, Finset.mem_range, Finset.mem_erase]
  rw [show (st.alloc b).sb = st.sb from rfl]
  by_cases hc : c < st.sb.size
  · rw [st.alloc_bit h hb hc]
    simp only [hc, true_and, Bool.or_eq_false_iff, decide_eq_false_iff_not]
    tauto
  · simp [hc]

lemma alloc_disk_self (st : Store) (b : ℕ) : (st.alloc b).disk b = Block.zero := by
  simp [alloc, write]

lemma alloc_disk_ne (st : Store) {b c : ℕ} (hcb : c ≠ b) (hc : c ≠ st.sb.bblock b) :
    (st.alloc b).disk c = st.disk c := by
  simp [alloc, write, assign, hcb, hc]

lemma free_disk_ne (st : Store) {b c : ℕ} (hc : c ≠ st.sb.bblock b) : (st.free b).disk c = st.disk c := by
  simp [free, write, assign, hc]

end Store

/-- The superblock and the bit map agree with what the inodes `v` hold; `r` is the table of
held blocks, which lags behind the inodes while a file is being truncated. -/
structure Owns (st : Store) (r : ℕ → ℕ → ℕ) : Prop where
  sb : Superblock.ofBlock (st.disk 1) = st.sb
  ordered : st.sb.Ordered
  ledger : Ledger st.sb.dstart st.sb.size st.sb.ninodes NSLOT r st.bit

namespace Owns

variable {st : Store} {r : ℕ → ℕ → ℕ}

lemma dstart_pos (_ : Owns st r) : 0 < st.sb.dstart :=
  Nat.add_pos_right _ (Nat.succ_pos _)

lemma balloc (h : Owns st r) :
    Spec balloc st (fun b st' => st.sb.dstart ≤ b ∧ b < st.sb.size ∧ st.bit b = false ∧ st' = st.alloc b)
      (fun e => e = .panic .ballocOutOfBlocks ∧ st.freeSet = ∅) := by
  unfold Fs.balloc
  apply Spec.bind
  apply Spec.get
  cases hf : (List.range st.sb.size).find? (fun b => !st.bit b) with
  | none =>
    refine Spec.throw ⟨rfl, Finset.filter_eq_empty_iff.mpr (fun b hb => ?_)⟩
    simpa using List.find?_eq_none.mp hf b (List.mem_range.mpr (Finset.mem_range.mp hb))
  | some b =>
    have hbit : st.bit b = false := by simpa using List.find?_some hf
    have hlt : b < st.sb.size := List.mem_range.mp (List.mem_of_find?_eq_some hf)
    exact ⟨h.ledger.lo_le_of_unused hlt hbit, hlt, hbit, rfl⟩

lemma bfree (h : Owns st r) {i s : ℕ} (hi : i < st.sb.ninodes) (hs : s < NSLOT) (hr : r i s ≠ 0)
    (B : Halt → Prop) :
    Spec (bfree (r i s)) st (fun _ st' => st' = st.free (r i s) ∧ Owns st' (Ledger.upd r i s 0)) B := by
  have hrange := h.ledger.range i hi s hs hr
  have hbb := h.ordered.bblock_lt hrange.2
  have hused : st.bit (r i s) = true := h.ledger.used_of_ref hi hs hr
  have hsb : ({ st with sb := Superblock.ofBlock (st.disk 1) } : Store) = st := by rw [h.sb]
  unfold Fs.bfree
  apply Spec.bind
  apply Spec.modify
  rw [hsb]
  apply Spec.bind
  apply Spec.get
  apply Spec.bind
  apply bread_spec
  rw [if_pos (show (st.disk (st.sb.bblock (r i s))).bit (r i s % BPB) = true from hused)]
  refine ⟨rfl, ?_, h.ordered, ?_⟩
  · have h1 : 1 ≠ st.sb.bblock (r i s) := by
      have := h.ordered.log
      have := h.ordered.lt_bmapstart
      omega
    exact (congrArg Superblock.ofBlock (st.free_disk_ne h1)).trans h.sb
  · refine (h.ledger.take h.dstart_pos hi hs hr).congr (fun _ _ _ _ => rfl) (fun c _ => ?_)
    rw [assign_apply]
    refine (st.bit_write_clearBit (r i s) c).trans ?_
    by_cases hc : c = r i s
    · simp [hc]
    · simp [hc, Ne.symm hc]

end Owns

end Xv6.Fs
