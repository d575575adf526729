import Xv6.Fs.Itrunc
import Xv6.Fs.Supply
import Xv6.Mkfs.Program

namespace Xv6.Mkfs

open Lib Fs

abbrev islots : ℕ := ninodeblocks * IPB

def mirrorSb : Superblock := { mkfsSb with ninodes := islots, inodestart := mkfsSb.inodestart - 1 }

lemma mirrorSb_ordered : mirrorSb.Ordered := ⟨by decide, by decide, by decide, by decide⟩

namespace Image

def mount (m : Image) : Store := ⟨Superblock.ofBlock (m.disk 1), m.disk, []⟩

def inode (m : Image) (i : ℕ) : Dinode := (Store.mk mkfsSb m.disk []).inode i

def put (m : Image) (sec : ℕ) (buf : Block) : Image := { m with disk := assign m.disk sec buf }

lemma put_disk_self (m : Image) (sec : ℕ) (buf : Block) : (m.put sec buf).disk sec = buf := assign_self ..

lemma put_disk_ne (m : Image) {c sec : ℕ} (h : c ≠ sec) (buf : Block) :
    (m.put sec buf).disk c = m.disk c :=
  assign_of_ne h ..

def allocated (m : Image) : Image := { m with freeblock := m.freeblock + 1 }

end Image

lemma xint_of_lt {x : ℕ} (h : x < 2 ^ 32) : xint x = x := by
  rw [xint, LittleEndian.value_digit]
  exact Nat.mod_eq_of_lt h

@[simp] lemma ofNat_xint (x : ℕ) : UInt32.ofNat (xint x) = UInt32.ofNat x := by
  rw [xint, LittleEndian.value_digit]
  exact UInt32.ofNat_mod_size

@[simp] lemma xint_toNat (x : UInt32) : xint x.toNat = x.toNat := xint_of_lt x.toNat_lt

@[simp] lemma xint_addr (din : Dinode) (k : ℕ) : xint (din.addr k) = din.addr k := by
  unfold Dinode.addr
  split_ifs
  · exact xint_toNat _
  · rfl

@[simp] lemma setAddr_xint (din : Dinode) (k b : ℕ) : din.setAddr k (xint b) = din.setAddr k b := by
  simp only [Dinode.setAddr, ofNat_xint]

lemma sector_of_lt {sec : ℕ} (h : sec < 2 ^ 23) : sector sec = sec := by
  rw [sector, Nat.mod_eq_of_lt (by simp only [BSIZE]; omega), Nat.mul_div_cancel _ (by decide)]

structure Mirrors (m : Image) (st : Store) : Prop where
  len : m.len = FSSIZE
  super : m.disk 1 = mkfsSb.toBlock
  sb : st.sb = mirrorSb
  inode : ∀ i < islots, st.inode i = m.inode i
  data : ∀ c, nmeta ≤ c → st.disk c = m.disk c
  bit : ∀ b < FSSIZE, st.bit b = decide (b < m.freeblock)
  zero : ∀ c, m.freeblock ≤ c → c < FSSIZE → m.disk c = Block.zero
  lo : nmeta ≤ m.freeblock
  hi : m.freeblock ≤ FSSIZE

section Sectors

variable {m : Image} {sec : ℕ} {B : Exit → Prop}

lemma rsect_spec {Q : Block → Image → Prop} (hl : m.len = FSSIZE) (h : sec < FSSIZE)
    (hq : Q (m.disk sec) m) : Spec (rsect sec) m Q B := by
  have hs : sector sec = sec := sector_of_lt (h.trans (by decide))
  unfold rsect
  apply Spec.bind
  apply Spec.get
  rw [hs, if_pos (by rwa [hl])]
  exact hq

lemma rsect_fails {Q : Block → Image → Prop} (h : m.len ≤ sector sec) (hb : B .read) :
    Spec (rsect sec) m Q B := by
  unfold rsect
  apply Spec.bind
  apply Spec.get
  rw [if_neg (by omega)]
  exact hb

lemma wsect_spec {buf : Block} {Q : PUnit → Image → Prop} (hl : m.len = FSSIZE) (h : sec < FSSIZE)
    (hq : Q ⟨⟩ (m.put sec buf)) : Spec (wsect sec buf) m Q B := by
  have hs : sector sec = sec := sector_of_lt (h.trans (by decide))
  have hm : m.put sec buf =
      { m with disk := assign m.disk (sector sec) buf, len := max m.len (sector sec + 1) } := by
    rw [hs, max_eq_left (by omega)]
    rfl
  rw [hm] at hq
  exact hq

lemma nextBlock_spec {Q : ℕ → Image → Prop} (hq : Q m.freeblock m.allocated) : Spec nextBlock m Q B := hq

end Sectors

lemma mkfsSb_iblock_lt {i : ℕ} (hi : i < islots) :
    1 < mkfsSb.iblock i ∧ mkfsSb.iblock i < mkfsSb.bmapstart := by
  have hd := Nat.div_lt_of_lt_mul (show i < IPB * ninodeblocks by rwa [Nat.mul_comm])
  have hb : mkfsSb.bmapstart = mkfsSb.inodestart + ninodeblocks := rfl
  have hs : mkfsSb.inodestart = 32 := rfl
  rw [Superblock.iblock]
  generalize i / IPB = q at hd ⊢
  omega

namespace Mirrors

variable {m : Image} {st : Store}

section

variable (h : Mirrors m st)
include h

lemma iblock_lt {i : ℕ} (hi : i < islots) : st.sb.iblock i < mkfsSb.bmapstart := by
  rw [h.sb]
  exact (mirrorSb_ordered.iblock_lt hi).2

lemma free (hlt : m.freeblock < FSSIZE) : FreeBlock st m.freeblock := by
  refine ⟨?_, ?_, ?_⟩
  · rw [h.sb]
    exact h.lo
  · rw [h.sb]
    exact hlt
  · rw [h.bit _ hlt]
    exact decide_eq_false (lt_irrefl _)

lemma bblock_eq {b : ℕ} (hb : b < FSSIZE) : st.sb.bblock b = mkfsSb.bmapstart := by
  rw [h.sb, Superblock.bblock, Nat.div_eq_of_lt (hb.trans (by decide)), Nat.zero_add]
  rfl

lemma alloc (hlt : m.freeblock < FSSIZE) : Mirrors m.allocated (st.alloc m.freeblock) where
  __ := h
  inode i hi := by
    have hib := h.iblock_lt hi
    have hlo := h.lo
    have hbm : mkfsSb.bmapstart < nmeta := by decide
    have hne : st.sb.iblock i ≠ m.freeblock := by omega
    have hne' : st.sb.iblock i ≠ st.sb.bblock m.freeblock := by rw [h.bblock_eq hlt]; omega
    rw [show m.allocated.inode i = m.inode i from rfl, ← h.inode i hi, Store.inode, Store.inode]
    rw [show (st.alloc m.freeblock).sb = st.sb from rfl, st.alloc_disk_ne hne hne']
  data c hc := by
    have hbm : mkfsSb.bmapstart < nmeta := by decide
    by_cases hcb : c = m.freeblock
    · rw [hcb, st.alloc_disk_self]
      exact (h.zero _ le_rfl hlt).symm
    · rw [st.alloc_disk_ne hcb (by rw [h.bblock_eq hlt]; omega)]
      exact h.data c hc
  bit b hb := by
    have hsize : b < st.sb.size := by rw [h.sb]; exact hb
    have hord : st.sb.Ordered := by rw [h.sb]; exact mirrorSb_ordered
    rw [st.alloc_bit hord (h.free hlt).1 hsize, h.bit b hb, Bool.eq_iff_iff]
    have hnext : m.allocated.freeblock = m.freeblock + 1 := rfl
    simp only [Bool.or_eq_true, decide_eq_true_eq]
    omega
  zero c hc hlt' := h.zero c (by simp only [Image.allocated] at hc; omega) hlt'
  lo := by
    have := h.lo
    simp only [Image.allocated]
    omega
  hi := hlt

lemma write {c : ℕ} (hlo : nmeta ≤ c) (hc : c < m.freeblock) (data : Block) :
    Mirrors (m.put c data) (st.write c data) where
  __ := h
  super := by
    have hne : 1 ≠ c := by
      have : 1 < nmeta := by decide
      omega
    rw [m.put_disk_ne hne]
    exact h.super
  inode i hi := by
    have hbm : mkfsSb.bmapstart < nmeta := by decide
    have hib := h.iblock_lt hi
    have hib' := mkfsSb_iblock_lt hi
    rw [st.inode_write data (by omega), h.inode i hi, Image.inode, Image.inode, Store.inode, Store.inode]
    simp only [Image.put]
    rw [assign_of_ne (by omega)]
  data d hd := by
    by_cases hdc : d = c
    · simp [Image.put, Store.write, hdc]
    · simp only [Image.put, Store.write, assign_of_ne hdc]
      exact h.data d hd
  bit b hb := by
    have hord : st.sb.Ordered := by rw [h.sb]; exact mirrorSb_ordered
    rw [st.bit_write_of_ge data hord (by rw [h.sb]; exact hb) (.inr (by rw [h.sb]; exact hlo)),
      h.bit b hb]
    rfl
  zero d hd hlt := by
    have hdc : d ≠ c := by simp only [Image.put] at hd; omega
    rw [m.put_disk_ne hdc]
    exact h.zero d hd hlt

lemma update {i : ℕ} (hi : i < islots) (ip : Dinode) :
    Mirrors (m.put (mkfsSb.iblock i) (Dinode.put (m.disk (mkfsSb.iblock i)) (i % IPB) ip))
    (st.update i ip) where
  __ := h
  super := by
    rw [m.put_disk_ne (mkfsSb_iblock_lt hi).1.ne]
    exact h.super
  inode j hj := by
    rw [st.inode_update, h.inode j hj]
    exact ((Store.mk mkfsSb m.disk []).inode_update i ip j).symm
  data c hc := by
    have hib := mkfsSb_iblock_lt hi
    have hib' := h.iblock_lt hi
    have hbm : mkfsSb.bmapstart < nmeta := by decide
    rw [m.put_disk_ne (by omega), ← h.data c hc]
    exact assign_of_ne (by omega) ..
  bit b hb := by
    have hord : st.sb.Ordered := by rw [h.sb]; exact mirrorSb_ordered
    have hib : st.sb.iblock i < st.sb.bmapstart := by
      have := h.iblock_lt hi
      rw [h.sb] at this ⊢
      exact this
    exact (st.bit_write_of_ge _ hord (by rw [h.sb]; exact hb) (.inl hib)).trans (h.bit b hb)
  zero c hc hlt := by
    have hib := mkfsSb_iblock_lt hi
    have hbm : mkfsSb.bmapstart < nmeta := by decide
    have hlo := h.lo
    have hc' : m.freeblock ≤ c := hc
    rw [m.put_disk_ne (by omega)]
    exact h.zero c hc hlt

lemma card_freeSet : st.freeSet.card + m.freeblock = FSSIZE := by
  have hset : st.freeSet = Finset.Ico m.freeblock FSSIZE := by
    ext b
    simp only [Store.freeSet, Finset.mem_filter, Finset.mem_range, Finset.mem_Ico, h.sb]
    constructor
    · rintro ⟨hb, hbit⟩
      rw [h.bit b hb, decide_eq_false_iff_not] at hbit
      exact ⟨by omega, hb⟩
    · rintro ⟨hle, hb⟩
      refine ⟨hb, ?_⟩
      rw [h.bit b hb, decide_eq_false_iff_not]
      omega
  have := h.hi
  rw [hset, Nat.card_Ico]
  omega

lemma freeblock_eq {m' : Image} {st' : Store} {v : ℕ → Dinode} {i bn b : ℕ} {ip' : Dinode}
    (h' : Mirrors m' st') (hm : Mapping st (v i) bn b ip' st') (hh : Holds st v) (hi : i < st.sb.ninodes)
    (ht : (v i).type ≠ 0) : m'.freeblock = m.freeblock + bmapNeed st.disk (v i) bn := by
  have := hm.free hh hi ht
  have := h.card_freeSet
  have := h'.card_freeSet
  omega

end

end Mirrors

section BlockMap

variable {m : Image} {st : Store} {v : ℕ → Dinode} {i : ℕ} {B : Exit → Prop}

lemma addrBlock_new {din : Dinode} {k : ℕ} {Q : Dinode → Image → Prop} (h : din.addr k = 0)
    (hq : Q (din.setAddr k m.freeblock) m.allocated) : Spec (addrBlock din k) m Q B := by
  unfold addrBlock
  rw [xint_addr, if_pos h]
  apply Spec.bind
  apply nextBlock_spec
  rw [setAddr_xint]
  exact hq

lemma addrBlock_old {din : Dinode} {k : ℕ} {Q : Dinode → Image → Prop} (h : din.addr k ≠ 0)
    (hq : Q din m) : Spec (addrBlock din k) m Q B := by
  unfold addrBlock
  rw [xint_addr, if_neg h]
  exact hq

structure Found (m : Image) (st : Store) (ip : Dinode) (bn : ℕ) (r : ℕ × Dinode) (m' : Image) : Prop where
  freeinode : m'.freeinode = m.freeinode
  block : (∃ st', Mapping st ip bn r.1 r.2 st' ∧ Mirrors m' st') ∨
    (m'.len ≤ sector r.1 ∧ FSSIZE < m.freeblock + bmapNeed st.disk ip bn)

lemma sector_FSSIZE : sector FSSIZE = FSSIZE := sector_of_lt (by decide)

lemma freeblock_lt (h : Mirrors m st) : m.freeblock < 2 ^ 32 := h.hi.trans_lt (by decide)

lemma fileBlock_word {m0 : Image} {st0 : Store} {ip0 ip : Dinode} {bn a : ℕ} (h : Mirrors m st)
    (ha : ip.addr NDIRECT = a)
    (hlo : nmeta ≤ a) (hlt : a < m.freeblock) (hbn : NDIRECT ≤ bn) (hmax : bn < MAXFILE)
    (hz : (st.disk a).word (bn - NDIRECT) = 0) (hino : m.freeinode = m0.freeinode)
    (hmap : m.freeblock < FSSIZE → Mapping st0 ip0 bn m.freeblock ip
      ((st.alloc m.freeblock).write a ((st.disk a).setWord (bn - NDIRECT) (UInt32.ofNat m.freeblock))))
    (hneed : FSSIZE ≤ m.freeblock → FSSIZE < m0.freeblock + bmapNeed st0.disk ip0 bn) :
    Spec (do
        let indirect ← rsect (xint (ip.addr NDIRECT))
        if indirect.word (bn - NDIRECT) = 0 then do
          let b ← nextBlock
          let indirect := indirect.setWord (bn - NDIRECT) (UInt32.ofNat (xint b))
          wsect (xint (ip.addr NDIRECT)) indirect
          return (xint (indirect.word (bn - NDIRECT)).toNat, ip)
        else return (xint (indirect.word (bn - NDIRECT)).toNat, ip)) m (Found m0 st0 ip0 bn) B := by
  have hhi := h.hi
  have hword : bn - NDIRECT < 128 := by
    have : MAXFILE = 140 := rfl
    have : NDIRECT = 12 := rfl
    omega
  have hdisk : m.disk a = st.disk a := (h.data a hlo).symm
  rw [xint_addr, ha]
  apply Spec.bind
  refine rsect_spec h.len (by omega) ?_
  rw [if_pos (by rw [hdisk]; exact hz)]
  apply Spec.bind
  apply nextBlock_spec
  apply Spec.bind
  refine wsect_spec h.len (by omega) ?_
  rw [Block.word_setWord_self _ _ hword, ofNat_xint, UInt32.toNat_ofNat_of_lt' (freeblock_lt h),
    xint_of_lt (freeblock_lt h), hdisk]
  refine ⟨hino, ?_⟩
  by_cases hfree : m.freeblock < FSSIZE
  · exact .inl ⟨_, hmap hfree, (h.alloc hfree).write hlo (Nat.lt_succ_of_lt hlt) _⟩
  · have he : m.freeblock = FSSIZE := by omega
    refine .inr ⟨?_, hneed (by omega)⟩
    rw [show ((m.allocated).put a _).len = m.len from rfl, h.len, he, sector_FSSIZE]

lemma Mirrors.held (h : Mirrors m st) (hh : Holds st v) (hi : i < st.sb.ninodes)
    (ht : (v i).type ≠ 0) {s b : ℕ} (hs : s < NSLOT) (hb : slotAddr st.disk (v i) s = b)
    (h0 : b ≠ 0) : nmeta ≤ b ∧ b < FSSIZE ∧ b < m.freeblock := by
  subst hb
  have hrange := hh.slot_range hi ht hs h0
  have hused := hh.ledger.used_of_ref hi hs (by rwa [Holds.ref_eq ht])
  rw [h.sb] at hrange
  rw [Holds.ref_eq ht, h.bit _ hrange.2, decide_eq_true_eq] at hused
  exact ⟨hrange.1, hrange.2, hused⟩

lemma fileBlock_spec (h : Mirrors m st) (hh : Holds st v) (hi : i < st.sb.ninodes)
    (ht : (v i).type ≠ 0) {bn : ℕ} (hbn : bn < MAXFILE) :
    Spec (fileBlock (v i) bn) m (Found m st (v i) bn)
      (fun e => e = .read ∧ FSSIZE < m.freeblock + bmapNeed st.disk (v i) bn) := by
  have hhi := h.hi
  unfold fileBlock
  by_cases hd : bn < NDIRECT
  · rw [if_pos hd]
    apply Spec.bind
    by_cases hz : (v i).addr bn = 0
    · have haddr : ((v i).setAddr bn m.freeblock).addr bn = m.freeblock := by
        rw [Dinode.setAddr_addr _ (by omega) (freeblock_lt h), if_pos rfl]
      refine addrBlock_new hz (Spec.pure ⟨rfl, ?_⟩)
      rw [xint_addr, haddr]
      by_cases hfree : m.freeblock < FSSIZE
      · exact .inl ⟨_, Mapping.direct hd hz (h.free hfree), h.alloc hfree⟩
      · have he : m.freeblock = FSSIZE := by omega
        have hneed := bmapNeed_pos ((slotAddr_direct st.disk (v i) hd).trans hz)
        refine .inr ⟨?_, by omega⟩
        rw [show m.allocated.len = m.len from rfl, h.len, he, sector_FSSIZE]
    · refine addrBlock_old hz (Spec.pure ⟨rfl, .inl ⟨st, ?_, h⟩⟩)
      rw [xint_addr]
      exact Mapping.old (slotAddr_direct _ _ hd) hz
  rw [if_neg hd]
  push Not at hd
  apply Spec.bind
  by_cases hz : (v i).addr NDIRECT = 0
  · have hslot : slotAddr st.disk (v i) (dataSlot bn) = 0 := slotAddr_no_indirect hd hz
    have hneed : bmapNeed st.disk (v i) bn = 2 := by rw [bmapNeed, if_pos hslot, if_pos ⟨hd, hz⟩]
    have haddr : ((v i).setAddr NDIRECT m.freeblock).addr NDIRECT = m.freeblock := by
      rw [Dinode.setAddr_addr _ (by omega) (freeblock_lt h), if_pos rfl]
    refine addrBlock_new hz ?_
    by_cases hfree : m.freeblock < FSSIZE
    swap
    · have he : m.freeblock = FSSIZE := by omega
      apply Spec.bind
      refine rsect_fails ?_ ⟨rfl, by omega⟩
      rw [show m.allocated.len = m.len from rfl, xint_addr, haddr, h.len, he, sector_FSSIZE]
    have hnext : m.allocated.freeblock = m.freeblock + 1 := rfl
    refine fileBlock_word (h.alloc hfree) haddr h.lo (by omega) hd hbn ?_ rfl (fun hfree' => ?_)
      (fun _ => by omega)
    · rw [st.alloc_disk_self, Block.word_zero]
    · exact Mapping.both hd hbn hz (h.free hfree) ((h.alloc hfree).free hfree')
  · refine addrBlock_old hz ?_
    obtain ⟨hlo, hlt, hused⟩ := h.held hh hi ht (by decide) (Holds.indirect_eq ..) hz
    by_cases hw : (st.disk ((v i).addr NDIRECT)).word (bn - NDIRECT) = 0
    · have hslot : slotAddr st.disk (v i) (dataSlot bn) = 0 := by
        rw [slotAddr_indirect _ _ hd hz, hw]
        rfl
      have hneed := bmapNeed_pos hslot
      exact fileBlock_word h rfl hlo hused hd hbn hw rfl
        (fun hfree => Mapping.word hd hbn rfl hz hw (h.free hfree)) (fun hfull => by omega)
    · have hdisk := h.data _ hlo
      rw [xint_addr]
      apply Spec.bind
      refine rsect_spec h.len hlt ?_
      rw [← hdisk, if_neg hw, xint_toNat]
      refine Spec.pure ⟨rfl, .inl ⟨st, Mapping.old (slotAddr_indirect _ _ hd hz) ?_, h⟩⟩
      intro he
      exact hw (UInt32.toNat_inj.mp he)

end BlockMap

end Xv6.Mkfs
