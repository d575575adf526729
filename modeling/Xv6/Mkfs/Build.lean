import Xv6.Mkfs.Append

namespace Xv6.Mkfs

open Lib Fs

def kind (i : ℕ) : Int16 := if i = ROOTINO then T_DIR else T_FILE

lemma kind_ne_zero (i : ℕ) : kind i ≠ 0 := by
  unfold kind
  split_ifs <;> decide

lemma kind_ne_dev (i : ℕ) : kind i ≠ T_DEV := by
  unfold kind
  split_ifs <;> decide

structure Keeps (st : Store) (i : ℕ) (c : List UInt8) : Prop where
  type : (st.inode i).type = kind i
  data : contents st.disk (st.inode i) = c
  exact : Exact st.disk (st.inode i) c.length

namespace Keeps

variable {st : Store} {i : ℕ} {c : List UInt8}

lemma type_ne (h : Keeps st i c) : (st.inode i).type ≠ 0 := by
  rw [h.type]
  exact kind_ne_zero i

lemma size (h : Keeps st i c) : (st.inode i).size.toNat = c.length := by
  rw [← contents_length st.disk, h.data]

lemma other {j : ℕ} {ip' : Dinode} {c' : List UInt8} {st' : Store} (h : Keeps st i c)
    (hch : Changed st j ip' c' st') (hi : i < st.sb.ninodes) (hij : i ≠ j)
    (hs : slotAddr st'.disk (st.inode i) = slotAddr st.disk (st.inode i)) : Keeps st' i c := by
  have hino := hch.others i hi hij
  refine ⟨?_, ?_, ?_⟩
  · rw [hino, h.type]
  · rw [hino, hch.other_contents i hi hij h.type_ne, h.data]
  · rw [hino]
    exact h.exact.congr hs

end Keeps

structure Built (m : Image) (st : Store) (d : ℕ → List UInt8) : Prop where
  mirrors : Mirrors m st
  wf : Wf st
  le : m.freeinode ≤ islots
  keeps : ∀ i, 0 < i → i < m.freeinode → Keeps st i (d i)
  free : ∀ i, m.freeinode ≤ i → i < islots → (st.inode i).type = 0

lemma overwrite_end (c src : List UInt8) : overwrite c c.length src = c ++ src := by
  rw [overwrite, List.take_length, List.drop_eq_nil_of_le (Nat.le_add_right _ _), List.append_nil]

section Inodes

variable {m : Image} {i : ℕ} {B : Exit → Prop}

lemma rinode_spec {Q : Dinode → Image → Prop} (hl : m.len = FSSIZE) (hi : i < islots)
    (hq : Q (m.inode i) m) : Spec (rinode i) m Q B := by
  have hib := mkfsSb_iblock_lt hi
  unfold rinode
  apply Spec.bind
  exact rsect_spec hl (hib.2.trans (by decide)) hq

lemma winode_spec {ip : Dinode} {Q : PUnit → Image → Prop} (hl : m.len = FSSIZE) (hi : i < islots)
    (hq : Q ⟨⟩ (m.put (mkfsSb.iblock i) (Dinode.put (m.disk (mkfsSb.iblock i)) (i % IPB) ip))) :
    Spec (winode i ip) m Q B := by
  have hib : mkfsSb.iblock i < FSSIZE := (mkfsSb_iblock_lt hi).2.trans (by decide)
  unfold winode
  apply Spec.bind
  refine rsect_spec hl hib ?_
  exact wsect_spec hl hib hq

end Inodes

namespace Built

variable {m : Image} {st : Store} {d : ℕ → List UInt8} {i : ℕ}

lemma slots_of_written {off : ℕ} {src : List UInt8} {ip' ip'' : Dinode} {st' : Store}
    (hsb : st'.sb = st.sb)
    (hw : Written st.inode i st off src ip' st') (hi : i < st.sb.ninodes) {j : ℕ} (hj : j < st.sb.ninodes)
    (hji : j ≠ i) (ht : (st.inode j).type ≠ 0) :
    slotAddr (st'.update i ip'').disk (st.inode j) = slotAddr st.disk (st.inode j) := by
  have hv : assign st.inode i ip' j = st.inode j := assign_of_ne hji ..
  have h1 := hw.effect.holds.slotAddr_update (i := i) (by rwa [hsb]) ip'' (j := j) (by rwa [hsb])
    (by rwa [hv])
  rw [hv] at h1
  rw [h1]
  funext s
  have h2 := hw.effect.ref_other hj hji s
  rwa [Holds.ref_eq ht, Holds.ref_eq ht] at h2

lemma iappend (h : Built m st d) (h0 : 0 < i) (hi : i < m.freeinode) {p : List UInt8} (hp : p ≠ []) :
    Spec (iappend i p) m (fun _ m' => (∃ st', Built m' st' (assign d i (d i ++ p))) ∧
    m'.freeinode = m.freeinode ∧
        m'.freeblock + nblocks (d i).length = m.freeblock + nblocks (d i ++ p).length)
      (Stops m (d i).length p.length) := by
  have hk := h.keeps i h0 hi
  have hlt : i < islots := hi.trans_le h.le
  have hin : i < st.sb.ninodes := by rw [h.mirrors.sb]; exact hlt
  have hsize := hk.size
  have hmax := (h.wf.sized i hin hk.type_ne).2
  have hpos := List.length_pos_of_ne_nil hp
  unfold Mkfs.iappend
  apply Spec.bind
  refine rinode_spec h.mirrors.len hlt ?_
  rw [← h.mirrors.inode i hlt, xint_toNat, hsize]
  apply Spec.bind
  refine (iappendLoop_spec h.mirrors h.wf.holds hlt hk.type_ne hk.exact (by omega) le_rfl).imp ?_
  rintro ⟨ip', off⟩ m' ⟨st', ha⟩
  obtain rfl : off = (d i).length + p.length := ha.offset
  have hle := ha.le
  have hM := maxfile_lt
  have hn : (UInt32.ofNat ((d i).length + p.length)).toNat = (d i).length + p.length :=
    toNat_offset (by omega)
  refine winode_spec ha.mirrors.len hlt ?_
  rw [ofNat_xint]
  set ip'' : Dinode := { ip' with size := UInt32.ofNat ((d i).length + p.length) } with hip
  have hch := h.wf.write_grow hin hk.type_ne hsize.ge hn (by omega) (by omega) ha.written
  rw [hk.data, overwrite_end] at hch
  have hsb : st'.sb = st.sb := by rw [ha.mirrors.sb, h.mirrors.sb]
  refine ⟨⟨st'.update i ip'', ha.mirrors.update hlt ip'', hch.wf, ?_, fun j hj0 hj => ?_,
    fun j hj hj' => ?_⟩, ha.freeinode, ?_⟩
  · exact ha.freeinode.trans_le h.le
  · have hj' : j < m.freeinode := ha.freeinode ▸ hj
    have hkj := h.keeps j hj0 hj'
    by_cases hji : j = i
    · subst hji
      have hv : assign st.inode j ip' j = ip' := assign_self ..
      have hty : ip'.type = kind j := by rw [ha.written.effect.type_eq, hkj.type]
      have hslot := ha.written.effect.holds.slotAddr_update (i := j) (by rwa [hsb]) ip'' (j := j)
        (by rwa [hsb]) (by rw [hv, hty]; exact kind_ne_zero j)
      rw [hv] at hslot
      refine ⟨?_, ?_, ?_⟩
      · rw [hch.inode]
        exact hty
      · rw [hch.inode, hch.contents, assign_self]
      · rw [hch.inode, assign_self, List.length_append]
        exact ha.exact.congr hslot
    · rw [assign_of_ne hji]
      have hjn : j < st.sb.ninodes := by rw [h.mirrors.sb]; exact hj'.trans_le h.le
      exact hkj.other hch hjn hji (slots_of_written hsb ha.written hin hjn hji hkj.type_ne)
  · have hge : m.freeinode ≤ j := ha.freeinode ▸ hj
    rw [hch.others j (by rw [h.mirrors.sb]; exact hj') (by omega)]
    exact h.free j hge hj'
  · rw [List.length_append]
    exact ha.freeblock

lemma ialloc (h : Built m st d) (hlt : m.freeinode < islots) {type : Int16}
    (htype : type = kind m.freeinode) :
    Spec (ialloc type) m (fun i m' => i = m.freeinode ∧ (∃ st', Built m' st' (assign d i [])) ∧
    m'.freeinode = i + 1 ∧
        m'.freeblock = m.freeblock) (fun _ => False) := by
  set i := m.freeinode with hi
  have hin : i < st.sb.ninodes := by rw [h.mirrors.sb]; exact hlt
  have hfree := h.free i le_rfl hlt
  set ip : Dinode := { Dinode.zero with type := type, nlink := 1 } with hip
  unfold Mkfs.ialloc
  apply Spec.bind
  apply Spec.get
  apply Spec.bind
  apply Spec.modify
  apply Spec.bind
  refine winode_spec h.mirrors.len hlt (Spec.pure ⟨rfl, ?_, rfl, rfl⟩)
  have hold : ∀ s, ref st.disk st.inode i s = 0 := fun s => by rw [ref, if_pos hfree]
  have hch : Changed st i ip [] (st.update i ip) := h.wf.update_empty hin rfl rfl (fun s _ => hold s)
  have hmir := h.mirrors.update hlt ip
  refine ⟨st.update i ip, { hmir with },
    hch.wf, hlt, fun j hj0 hj => ?_, fun j hj hj' => ?_⟩
  · have hj' : j < i + 1 := hj
    by_cases hji : j = i
    · rw [hji, assign_self]
      refine ⟨?_, ?_, ?_⟩
      · rw [hch.inode]
        exact htype
      · rw [hch.inode, hch.contents]
      · rw [hch.inode]
        have hz : ∀ s, slotAddr (st.update i ip).disk ip s = 0 := slotAddr_of_addrs_zero rfl
        refine ⟨fun bn _ => ?_, ?_⟩
        · simp [hz]
        · have := hz NDIRECT
          rw [Holds.indirect_eq] at this
          simp [this]
    · rw [assign_of_ne hji]
      have hjm : j < m.freeinode := by omega
      have hjn : j < st.sb.ninodes := by rw [h.mirrors.sb]; exact hjm.trans hlt
      have hkj := h.keeps j hj0 hjm
      exact hkj.other hch hjn hji (h.wf.holds.slotAddr_update hin ip hjn hkj.type_ne)
  · have hge : i + 1 ≤ j := hj
    have hjn : j < st.sb.ninodes := by rw [h.mirrors.sb]; exact hj'
    rw [hch.others j hjn (by omega)]
    exact h.free j (by omega) hj'

end Built

end Xv6.Mkfs
