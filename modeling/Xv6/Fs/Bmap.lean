import Xv6.Fs.Ownership

namespace Xv6.Fs

open Lib

namespace Dinode

lemma setAddr_addr (ip : Dinode) {k b : ℕ} (hk : k < NDIRECT + 1) (hb : b < 2 ^ 32) (j : ℕ) :
    (ip.setAddr k b).addr j = if j = k then b else ip.addr j := by
  unfold addr setAddr
  by_cases hj : j < NDIRECT + 1
  · by_cases hjk : j = k
    · simp only [hjk, hk, dite_true, if_true]
      exact UInt32.toNat_ofNat_of_lt' hb
    · simp [hj, hjk]
  · have hjk : j ≠ k := by omega
    simp [hj, hjk]

end Dinode

variable {st : Store} {v : ℕ → Dinode} {i : ℕ}

abbrev Holds (st : Store) (v : ℕ → Dinode) : Prop := Owns st (ref st.disk v)

namespace Holds

lemma ref_eq (ht : (v i).type ≠ 0) (s : ℕ) : ref st.disk v i s = slotAddr st.disk (v i) s := by
  rw [ref, if_neg ht]

lemma indirect_eq (disk : Disk) (ip : Dinode) : slotAddr disk ip NDIRECT = ip.addr NDIRECT := by
  rw [slotAddr, if_pos (Nat.lt_succ_self _)]

section

variable (h : Holds st v)
include h

section

variable (hi : i < st.sb.ninodes) (ht : (v i).type ≠ 0)
include hi ht

lemma slot_range {s : ℕ} (hs : s < NSLOT) (hr : slotAddr st.disk (v i) s ≠ 0) :
    st.sb.dstart ≤ slotAddr st.disk (v i) s ∧ slotAddr st.disk (v i) s < st.sb.size := by
  have := h.ledger.range i hi s hs
  rw [ref_eq ht] at this
  exact this hr

lemma slot_ne {s t : ℕ} (hs : s < NSLOT) (ht' : t < NSLOT) (hst : s ≠ t)
    (hr : slotAddr st.disk (v i) s ≠ 0) : slotAddr st.disk (v i) s ≠ slotAddr st.disk (v i) t := by
  intro he
  have := h.ledger.inj i hi s hs i hi t ht'
  rw [ref_eq ht, ref_eq ht] at this
  exact hst (this hr he).2

lemma indirect_range (ha : (v i).addr NDIRECT ≠ 0) :
    st.sb.dstart ≤ (v i).addr NDIRECT ∧ (v i).addr NDIRECT < st.sb.size := by
  have := h.slot_range hi ht (s := NDIRECT) (by decide)
  rw [indirect_eq] at this
  exact this ha

lemma indirect_ne (hr : (v i).addr NDIRECT ≠ 0) {c : ℕ}
    (hc : c < st.sb.dstart ∨ (c < st.sb.size ∧ st.bit c = false)) : (v i).addr NDIRECT ≠ c := by
  have hrange := h.indirect_range hi ht hr
  rcases hc with hc | ⟨hlt, hc⟩
  · omega
  · rw [← indirect_eq st.disk, ← ref_eq ht]
    exact h.ledger.ne_of_unused hlt hc hi (by decide)

end

lemma ref_frame {disk' : Disk} {s : ℕ} (hi : i < st.sb.ninodes)
    (hd : ∀ c, st.sb.dstart ≤ c → c < st.sb.size → st.bit c = true → disk' c = st.disk c) :
    ref disk' v i s = ref st.disk v i s := by
  by_cases ht : (v i).type = 0
  · simp [ref, ht]
  · rw [ref, ref, slotAddr_congr]
    intro hr
    have hs : NDIRECT < NSLOT := by decide
    have hr' : slotAddr st.disk (v i) NDIRECT ≠ 0 := by rwa [indirect_eq]
    have hrange := h.slot_range hi ht hs hr'
    have hused := h.ledger.used_of_ref hi hs (by rwa [ref_eq ht])
    rw [ref_eq ht] at hused
    rw [indirect_eq] at hrange hused
    exact hd _ hrange.1 hrange.2 hused

end

end Holds

def FreeBlock (st : Store) (b : ℕ) : Prop := st.sb.dstart ≤ b ∧ b < st.sb.size ∧ st.bit b = false

def dataAt (disk : Disk) (ip : Dinode) (bn : ℕ) : Block :=
  if slotAddr disk ip (dataSlot bn) = 0 then Block.zero else disk (slotAddr disk ip (dataSlot bn))

structure Effect (v : ℕ → Dinode) (i : ℕ) (st st' : Store) (ip' : Dinode) : Prop where
  holds : Holds st' (assign v i ip')
  sb : st'.sb = st.sb
  rest : ip' = { v i with addrs := ip'.addrs }
  low : ∀ c < st.sb.bmapstart, st'.disk c = st.disk c
  keep : ∀ s < NSLOT, slotAddr st.disk (v i) s ≠ 0 → slotAddr st'.disk ip' s = slotAddr st.disk (v i) s
  others : ∀ j < st.sb.ninodes, j ≠ i → ∀ s < NSLOT, ref st.disk v j s ≠ 0 →
    st'.disk (ref st.disk v j s) = st.disk (ref st.disk v j s)

namespace Effect

variable {st' st'' : Store} {ip' ip'' : Dinode}

lemma refl (h : Holds st v) : Effect v i st st (v i) where
  holds := by rwa [assign_eq_self rfl]
  sb := rfl
  rest := rfl
  low _ _ := rfl
  keep _ _ _ := rfl
  others _ _ _ _ _ _ := rfl

section

variable (h : Effect v i st st' ip')
include h

lemma type_eq : ip'.type = (v i).type := by rw [h.rest]

lemma size_eq : ip'.size = (v i).size := by rw [h.rest]

lemma ref_other {j : ℕ} (hj : j < st.sb.ninodes) (hji : j ≠ i) (s : ℕ) :
    ref st'.disk v j s = ref st.disk v j s := by
  by_cases ht : (v j).type = 0
  · simp [ref, ht]
  · rw [ref, ref, if_neg ht, if_neg ht, slotAddr_congr]
    intro hr
    have := h.others j hj hji NDIRECT (by decide)
    rw [Holds.ref_eq ht, Holds.indirect_eq] at this
    exact this hr

lemma trans (h' : Effect (assign v i ip') i st' st'' ip'') : Effect v i st st'' ip'' where
  holds := by simpa using h'.holds
  sb := h'.sb.trans h.sb
  rest := by
    have := h'.rest
    rw [assign_self, h.rest] at this
    exact this
  low c hc := (h'.low c (by rwa [h.sb])).trans (h.low c hc)
  keep s hs hr := by
    have hk := h.keep s hs hr
    have hk' := h'.keep s hs
    rw [assign_self] at hk'
    rw [hk' (by rwa [hk]), hk]
  others j hj hji s hs hr := by
    have he : ref st'.disk (assign v i ip') j s = ref st.disk v j s := by
      rw [← h.ref_other hj hji s]
      simp only [ref, assign_of_ne hji]
    have := h'.others j (by rwa [h.sb]) hji s hs
    rw [he] at this
    exact (this hr).trans (h.others j hj hji s hs hr)

lemma dataAt_other {j : ℕ} (hj : j < st.sb.ninodes) (hji : j ≠ i)
    (ht : (v j).type ≠ 0) {bn : ℕ} (hbn : bn < MAXFILE) : dataAt st'.disk (v j) bn = dataAt st.disk
    (v j) bn := by
  have hs := dataSlot_lt hbn
  have he := h.ref_other hj hji (dataSlot bn)
  rw [Holds.ref_eq ht, Holds.ref_eq ht] at he
  have ho := h.others j hj hji _ hs
  rw [Holds.ref_eq ht] at ho
  rw [dataAt, dataAt, he]
  split_ifs with h0
  · rfl
  · exact ho h0

end

end Effect

namespace Holds

variable (h : Holds st v) {b : ℕ} (hb : FreeBlock st b)
include h hb

lemma alloc_frame {c : ℕ} (hc : st.sb.dstart ≤ c) (hbit : st.bit c = true) :
    (st.alloc b).disk c = st.disk c := by
  have hbb := h.ordered.bblock_lt hb.2.1
  refine st.alloc_disk_ne ?_ (by omega)
  rintro rfl
  simp [hb.2.2] at hbit

lemma alloc_held {j s : ℕ} (hj : j < st.sb.ninodes) (hs : s < NSLOT) (hr : ref st.disk v j s ≠ 0) :
    (st.alloc b).disk (ref st.disk v j s) = st.disk (ref st.disk v j s) :=
  h.alloc_frame hb (h.ledger.range j hj s hs hr).1 (h.ledger.used_of_ref hj hs hr)

lemma alloc_low {c : ℕ} (hc : c < st.sb.bmapstart) : (st.alloc b).disk c = st.disk c := by
  have hbb := h.ordered.bblock_lt hb.2.1
  have hlo := hb.1
  exact st.alloc_disk_ne (by omega) (by omega)

lemma alloc_sb : Superblock.ofBlock ((st.alloc b).disk 1) = st.sb := by
  have h2 := h.ordered.log
  have h3 := h.ordered.lt_bmapstart
  rw [h.alloc_low hb (by omega)]
  exact h.sb

lemma alloc_ledger {r : ℕ → ℕ → ℕ} {s : ℕ} (hi : i < st.sb.ninodes) (hs : s < NSLOT)
    (hr : ref st.disk v i s = 0)
    (hupd : ∀ j < st.sb.ninodes, ∀ t < NSLOT, r j t = Ledger.upd (ref st.disk v) i s b j t)
    {used : ℕ → Bool} (hused : ∀ c < st.sb.size, used c = (st.alloc b).bit c) :
    Ledger st.sb.dstart st.sb.size st.sb.ninodes NSLOT r used := by
  refine (h.ledger.give h.dstart_pos hi hs hr hb.2.1 hb.2.2).congr hupd (fun c hc => ?_)
  rw [hused c hc, st.alloc_bit h.ordered hb.1 hc, assign_apply]
  by_cases hcb : c = b
  · simp [hcb]
  · simp [hcb, Ne.symm hcb]

variable (hi : i < st.sb.ninodes) (ht : (v i).type ≠ 0)
include hi ht

section direct

variable {k : ℕ} (hk : k < NDIRECT + 1) (hz : (v i).addr k = 0)
include hk hz

lemma direct_ref {j t : ℕ} (hj : j < st.sb.ninodes) :
    ref (st.alloc b).disk (assign v i ((v i).setAddr k b)) j t =
      Ledger.upd (ref st.disk v) i k b j t := by
  have hb32 : b < 2 ^ 32 := hb.2.1.trans h.ordered.uint
  by_cases hji : j = i
  swap
  · rw [Ledger.upd_of_ne _ _ (fun hjt => hji hjt.1)]
    have : ref (st.alloc b).disk (assign v i ((v i).setAddr k b)) j t = ref (st.alloc b).disk v j t := by
      simp only [ref, assign_of_ne hji]
    rw [this]
    exact h.ref_frame hj (fun c h1 _ h3 => h.alloc_frame hb h1 h3)
  subst hji
  have hty : ((v j).setAddr k b).type = (v j).type := rfl
  simp only [ref, assign_self, hty, if_neg ht]
  simp only [slotAddr, Dinode.setAddr_addr _ hk hb32]
  by_cases htk : t = k
  · subst htk
    simp [hk, Ledger.upd_self]
  rw [Ledger.upd_of_ne _ _ (fun hjt => htk hjt.2), if_neg htk, ref_eq ht, slotAddr]
  by_cases h13 : t < NDIRECT + 1
  · simp [h13]
  rw [if_neg h13, if_neg h13]
  by_cases hkn : k = NDIRECT
  · subst hkn
    simp [hz, st.alloc_disk_self, Block.word_zero]
  · rw [if_neg (Ne.symm hkn)]
    by_cases ha : (v j).addr NDIRECT = 0
    · simp [ha]
    · rw [if_neg ha, if_neg ha]
      have hne := h.indirect_ne hi ht ha (.inr hb.2)
      have hne' := h.indirect_ne hi ht ha (c := st.sb.bblock b) (.inl (h.ordered.bblock_lt hb.2.1).2)
      rw [st.alloc_disk_ne hne hne']

lemma grow_direct : Holds (st.alloc b) (assign v i ((v i).setAddr k b)) := by
  have hks : k < NSLOT := hk.trans_le (by decide)
  have hslot : slotAddr st.disk (v i) k = 0 := by rw [slotAddr, if_pos hk, hz]
  refine ⟨h.alloc_sb hb, h.ordered, ?_⟩
  exact h.alloc_ledger hb hi hks (by rw [ref_eq ht, hslot])
    (fun j hj t _ => h.direct_ref hb hi ht hk hz hj) (fun _ _ => rfl)

lemma slot_direct (s : ℕ) :
    slotAddr (st.alloc b).disk ((v i).setAddr k b) s = if s = k then b else slotAddr st.disk (v i) s := by
  have he := h.direct_ref hb hi ht hk hz (t := s) hi
  have ht' : ((v i).setAddr k b).type ≠ 0 := ht
  rw [ref, assign_self, if_neg ht'] at he
  rw [he]
  by_cases hsk : s = k
  · rw [hsk, Ledger.upd_self, if_pos rfl]
  · rw [Ledger.upd_of_ne _ _ (fun hst => hsk hst.2), ref_eq ht, if_neg hsk]

lemma effect_direct : Effect v i st (st.alloc b) ((v i).setAddr k b) where
  holds := h.grow_direct hb hi ht hk hz
  sb := rfl
  rest := rfl
  low c hc := h.alloc_low hb hc
  keep s hs hr := by
    rw [h.slot_direct hb hi ht hk hz, if_neg]
    rintro rfl
    rw [slotAddr, if_pos hk] at hr
    exact hr hz
  others j hj _ s hs hr := h.alloc_held hb hj hs hr

lemma dataAt_direct {bn : ℕ} (hbn : bn < MAXFILE) :
    dataAt (st.alloc b).disk ((v i).setAddr k b) bn = dataAt st.disk (v i) bn := by
  have hb0 : b ≠ 0 := by have := h.dstart_pos; have := hb.1; omega
  rw [dataAt, dataAt, h.slot_direct hb hi ht hk hz]
  by_cases hsk : dataSlot bn = k
  · have h0 : slotAddr st.disk (v i) (dataSlot bn) = 0 := by rw [hsk, slotAddr, if_pos hk, hz]
    rw [if_pos hsk, if_neg hb0, if_pos h0, st.alloc_disk_self]
  · rw [if_neg hsk]
    split_ifs with h0
    · rfl
    · have := h.alloc_held hb hi (dataSlot_lt hbn) (by rwa [ref_eq ht])
      rwa [ref_eq ht] at this

end direct

section word

variable {a j : ℕ} (ha : (v i).addr NDIRECT = a) (ha0 : a ≠ 0) (hj : j < NINDIRECT)
include ha ha0 hj

lemma word_ref {k t : ℕ} (hk : k < st.sb.ninodes) (ht' : t < NSLOT) :
    ref ((st.alloc b).write a ((st.disk a).setWord j (UInt32.ofNat b))).disk v k t =
      Ledger.upd (ref st.disk v) i (NDIRECT + 1 + j) b k t := by
  have hb32 : b < 2 ^ 32 := hb.2.1.trans h.ordered.uint
  have hslt : NDIRECT < NSLOT := by decide
  have hra : ref st.disk v i NDIRECT = a := by rw [ref_eq ht, indirect_eq, ha]
  by_cases hki : k = i
  swap
  · rw [Ledger.upd_of_ne _ _ (fun hkt => hki hkt.1)]
    by_cases htk : (v k).type = 0
    · simp [ref, htk]
    rw [ref_eq htk, ref, if_neg htk]
    apply congrFun
    apply slotAddr_congr
    intro hr
    have hne : (v k).addr NDIRECT ≠ a := by
      intro he
      have hinj := h.ledger.inj k hk NDIRECT hslt i hi NDIRECT hslt
      rw [ref_eq htk, indirect_eq, hra] at hinj
      exact hki (hinj hr he).1
    have hne' := h.indirect_ne hk htk hr (.inr hb.2)
    have hne'' := h.indirect_ne hk htk hr (c := st.sb.bblock b) (.inl (h.ordered.bblock_lt hb.2.1).2)
    simp only [Store.write, assign_of_ne hne]
    exact st.alloc_disk_ne hne' hne''
  subst hki
  rw [ref, if_neg ht, slotAddr]
  by_cases h13 : t < NDIRECT + 1
  · rw [if_pos h13, Ledger.upd_of_ne _ _ (by omega), ref_eq ht, slotAddr, if_pos h13]
  rw [if_neg h13, ha, if_neg ha0]
  simp only [Store.write, assign_self]
  have h128 : t - (NDIRECT + 1) < 128 := by
    have : NSLOT = 141 := rfl
    have : NDIRECT = 12 := rfl
    omega
  by_cases htj : t = NDIRECT + 1 + j
  · subst htj
    rw [Ledger.upd_self, Nat.add_sub_cancel_left, Block.word_setWord_self _ _ hj]
    exact UInt32.toNat_ofNat_of_lt' hb32
  · rw [Ledger.upd_of_ne _ _ (fun hkt => htj hkt.2), ref_eq ht, slotAddr, if_neg h13, ha, if_neg ha0,
      Block.word_setWord_ne _ _ h128 (by omega)]

lemma slot_word {s : ℕ} (hs : s < NSLOT) :
    slotAddr ((st.alloc b).write a ((st.disk a).setWord j (UInt32.ofNat b))).disk (v i) s =
      if s = NDIRECT + 1 + j then b else slotAddr st.disk (v i) s := by
  have he := h.word_ref hb hi ht ha ha0 hj hi hs
  rw [ref_eq ht] at he
  rw [he]
  by_cases hsk : s = NDIRECT + 1 + j
  · rw [hsk, Ledger.upd_self, if_pos rfl]
  · rw [Ledger.upd_of_ne _ _ (fun hst => hsk hst.2), ref_eq ht, if_neg hsk]

variable (hz : (st.disk a).word j = 0)
include hz

lemma grow_word : Holds ((st.alloc b).write a ((st.disk a).setWord j (UInt32.ofNat b))) v := by
  have hjs : NDIRECT + 1 + j < NSLOT := by simp only [NSLOT]; omega
  have hrange := h.indirect_range hi ht (by rwa [ha])
  rw [ha] at hrange
  have hslot : ref st.disk v i (NDIRECT + 1 + j) = 0 := by
    rw [ref_eq ht, slotAddr, if_neg (by omega), ha, if_neg ha0, Nat.add_sub_cancel_left, hz]
    rfl
  refine ⟨?_, h.ordered, ?_⟩
  · have hne : 1 ≠ a := by
      have h1 := h.ordered.log
      have h2 := h.ordered.lt_bmapstart
      have h3 := st.sb.bmapstart_lt
      omega
    have hd : ((st.alloc b).write a ((st.disk a).setWord j (UInt32.ofNat b))).disk 1 =
      (st.alloc b).disk 1 :=
      assign_of_ne hne ..
    rw [hd]
    exact h.alloc_sb hb
  · exact h.alloc_ledger hb hi hjs hslot (fun k hk t ht' => h.word_ref hb hi ht ha ha0 hj hk ht')
      (fun c hc => (st.alloc b).bit_write_of_ge _ h.ordered hc (.inr hrange.1))

lemma effect_word : Effect v i st ((st.alloc b).write a ((st.disk a).setWord j (UInt32.ofNat b)))
    (v i) where
  holds := by
    rw [assign_eq_self rfl]
    exact h.grow_word hb hi ht ha ha0 hj hz
  sb := rfl
  rest := rfl
  low c hc := by
    have hrange := h.indirect_range hi ht (by rwa [ha])
    have h3 := st.sb.bmapstart_lt
    have hca : c ≠ a := by omega
    simp only [Store.write, assign_of_ne hca]
    exact h.alloc_low hb hc
  keep s hs hr := by
    rw [h.slot_word hb hi ht ha ha0 hj hs, if_neg]
    rintro rfl
    rw [slotAddr, if_neg (by omega), ha, if_neg ha0, Nat.add_sub_cancel_left, hz] at hr
    exact hr rfl
  others k hk hki s hs hr := by
    have hne : ref st.disk v k s ≠ a := by
      intro he
      have hra : ref st.disk v i NDIRECT = a := by rw [ref_eq ht, indirect_eq, ha]
      exact hki (h.ledger.inj k hk s hs i hi NDIRECT (by decide) hr (he.trans hra.symm)).1
    simp only [Store.write, assign_of_ne hne]
    exact h.alloc_held hb hk hs hr

lemma dataAt_word {bn : ℕ} (hbn : bn < MAXFILE) :
    dataAt ((st.alloc b).write a ((st.disk a).setWord j (UInt32.ofNat b))).disk (v i) bn =
      dataAt st.disk (v i) bn := by
  have hb0 : b ≠ 0 := by have := h.dstart_pos; have := hb.1; omega
  have hs := dataSlot_lt hbn
  have hba : b ≠ a := by
    have := h.indirect_ne hi ht (by rwa [ha]) (.inr hb.2)
    rw [ha] at this
    exact this.symm
  rw [dataAt, dataAt, h.slot_word hb hi ht ha ha0 hj hs]
  by_cases hsk : dataSlot bn = NDIRECT + 1 + j
  · have h0 : slotAddr st.disk (v i) (dataSlot bn) = 0 := by
      rw [hsk, slotAddr, if_neg (by omega), ha, if_neg ha0, Nat.add_sub_cancel_left, hz]
      rfl
    rw [if_pos hsk, if_neg hb0, if_pos h0]
    simp only [Store.write, assign_of_ne hba]
    exact st.alloc_disk_self b
  · rw [if_neg hsk]
    split_ifs with h0
    · rfl
    · have hne : slotAddr st.disk (v i) (dataSlot bn) ≠ a := by
        have := h.slot_ne hi ht hs (t := NDIRECT) (by decide) (dataSlot_ne bn) h0
        rwa [indirect_eq, ha] at this
      have := h.alloc_held hb hi hs (by rwa [ref_eq ht])
      rw [ref_eq ht] at this
      simp only [Store.write, assign_of_ne hne]
      exact this

end word

end Holds

inductive Mapping (st : Store) (ip : Dinode) (bn : ℕ) : ℕ → Dinode → Store → Prop
  | old {b : ℕ} : slotAddr st.disk ip (dataSlot bn) = b → b ≠ 0 → Mapping st ip bn b ip st
  | direct {b : ℕ} : bn < NDIRECT → ip.addr bn = 0 → FreeBlock st b →
      Mapping st ip bn b (ip.setAddr bn b) (st.alloc b)
  | word {a b : ℕ} : NDIRECT ≤ bn → bn < MAXFILE → ip.addr NDIRECT = a → a ≠ 0 →
      (st.disk a).word (bn - NDIRECT) = 0 → FreeBlock st b →
      Mapping st ip bn b ip ((st.alloc b).write a ((st.disk a).setWord (bn - NDIRECT) (UInt32.ofNat b)))
  | both {a b : ℕ} : NDIRECT ≤ bn → bn < MAXFILE → ip.addr NDIRECT = 0 → FreeBlock st a →
      FreeBlock (st.alloc a) b →
      Mapping st ip bn b (ip.setAddr NDIRECT a) (((st.alloc a).alloc b).write a
        (((st.alloc a).disk a).setWord (bn - NDIRECT) (UInt32.ofNat b)))

lemma slotAddr_direct (disk : Disk) (ip : Dinode) {bn : ℕ} (h : bn < NDIRECT) :
    slotAddr disk ip (dataSlot bn) = ip.addr bn := by
  rw [dataSlot, if_pos h, slotAddr, if_pos (by omega)]

lemma slotAddr_indirect (disk : Disk) (ip : Dinode) {bn : ℕ} (h : NDIRECT ≤ bn)
    (h0 : ip.addr NDIRECT ≠ 0) :
    slotAddr disk ip (dataSlot bn) = ((disk (ip.addr NDIRECT)).word (bn - NDIRECT)).toNat := by
  rw [dataSlot, if_neg (by omega), slotAddr, if_neg (by omega), if_neg h0, Nat.add_sub_add_right]

def bmapNeed (disk : Disk) (ip : Dinode) (bn : ℕ) : ℕ :=
  (if slotAddr disk ip (dataSlot bn) = 0 then 1 else 0) + if NDIRECT ≤ bn ∧
    ip.addr NDIRECT = 0 then 1 else 0

lemma bmapNeed_pos {disk : Disk} {ip : Dinode} {bn : ℕ} (h : slotAddr disk ip (dataSlot bn) = 0) :
    0 < bmapNeed disk ip bn := by
  rw [bmapNeed, if_pos h]
  omega

lemma slotAddr_no_indirect {disk : Disk} {ip : Dinode} {bn : ℕ} (h : NDIRECT ≤ bn)
    (hz : ip.addr NDIRECT = 0) : slotAddr disk ip (dataSlot bn) = 0 := by
  rw [dataSlot_of_ge h, slotAddr, if_neg (by omega), if_pos hz]

namespace Holds

lemma balloc_free (h : Holds st v) : Spec balloc st (fun b st' => FreeBlock st b ∧ st' = st.alloc b)
      (fun e => e = .panic .ballocOutOfBlocks ∧ st.freeSet = ∅) :=
  h.balloc.imp (fun _ _ hb => ⟨⟨hb.1, hb.2.1, hb.2.2.1⟩, hb.2.2.2⟩)

lemma bmap_mapping (h : Holds st v) (hi : i < st.sb.ninodes) (ht : (v i).type ≠ 0) {bn : ℕ}
    (hbn : bn < MAXFILE) : Spec (bmap (v i) bn) st (fun r st' => Mapping st (v i) bn r.1 r.2 st')
      (fun e => e = .panic .ballocOutOfBlocks ∧ st.freeSet.card < bmapNeed st.disk (v i) bn) := by
  unfold bmap bmapDirect
  by_cases hd : bn < NDIRECT
  · rw [if_pos hd]
    by_cases hz : (v i).addr bn = 0
    · rw [if_pos hz]
      apply Spec.bind
      have hslot := (slotAddr_direct st.disk (v i) hd).trans hz
      refine h.balloc_free.mono ?_ (fun e he => ⟨he.1, by rw [he.2]; exact bmapNeed_pos hslot⟩)
      rintro b st' ⟨hb, rfl⟩
      exact Mapping.direct hd hz hb
    · rw [if_neg hz]
      exact Mapping.old (slotAddr_direct _ _ hd) hz
  rw [if_neg hd, if_pos (by simp only [MAXFILE] at hbn; omega)]
  push Not at hd
  apply Spec.bind
  by_cases hz : (v i).addr NDIRECT = 0
  · rw [if_pos hz]
    apply Spec.bind
    have hslot : slotAddr st.disk (v i) (dataSlot bn) = 0 := slotAddr_no_indirect hd hz
    refine h.balloc_free.mono ?_ (fun e he => ⟨he.1, by rw [he.2]; exact bmapNeed_pos hslot⟩)
    rintro a st' ⟨ha, rfl⟩
    have h' := h.grow_direct ha hi ht (Nat.lt_succ_self _) hz
    have hw : ((st.alloc a).disk a).word (bn - NDIRECT) = 0 := by rw [st.alloc_disk_self, Block.word_zero]
    apply Spec.pure
    apply Spec.bind
    apply bread_spec
    simp only [hw, if_true]
    apply Spec.bind
    refine h'.balloc_free.mono ?_ (fun e he => ⟨he.1, ?_⟩)
    · rintro b st' ⟨hb, rfl⟩
      exact Mapping.both hd hbn hz ha hb
    · have hcard := Finset.pred_card_le_card_erase (s := st.freeSet) (a := a)
      rw [← st.alloc_freeSet h.ordered ha.1, he.2, Finset.card_empty] at hcard
      rw [bmapNeed, if_pos hslot, if_pos ⟨hd, hz⟩]
      omega
  · rw [if_neg hz]
    apply Spec.pure
    apply Spec.bind
    apply bread_spec
    by_cases hw : (st.disk ((v i).addr NDIRECT)).word (bn - NDIRECT) = 0
    · simp only [hw, if_true]
      apply Spec.bind
      have hslot : slotAddr st.disk (v i) (dataSlot bn) = 0 := by
        rw [slotAddr_indirect _ _ hd hz, hw]
        rfl
      refine h.balloc_free.mono ?_ (fun e he => ⟨he.1, by rw [he.2]; exact bmapNeed_pos hslot⟩)
      rintro b st' ⟨hb, rfl⟩
      exact Mapping.word hd hbn rfl hz hw hb
    · simp only [hw, if_false]
      refine Mapping.old (slotAddr_indirect _ _ hd hz) ?_
      intro he
      exact hw (UInt32.toNat_inj.mp he)

end Holds

lemma bmap_of_mapped {ip : Dinode} {bn : ℕ} (hbn : bn < MAXFILE)
    (h : slotAddr st.disk ip (dataSlot bn) ≠ 0) (B : Halt → Prop) :
    Spec (bmap ip bn) st (fun r st' => r = (slotAddr st.disk ip (dataSlot bn), ip) ∧ st' = st) B := by
  unfold bmap bmapDirect
  by_cases hd : bn < NDIRECT
  · rw [slotAddr_direct _ _ hd] at h ⊢
    rw [if_pos hd, if_neg h]
    exact ⟨rfl, rfl⟩
  rw [if_neg hd, if_pos (by simp only [MAXFILE] at hbn; omega)]
  push Not at hd
  have hz : ip.addr NDIRECT ≠ 0 := fun hz => h (slotAddr_no_indirect hd hz)
  rw [slotAddr_indirect _ _ hd hz] at h ⊢
  rw [if_neg hz]
  apply Spec.bind
  apply Spec.pure
  apply Spec.bind
  apply bread_spec
  have hw : (st.disk (ip.addr NDIRECT)).word (bn - NDIRECT) ≠ 0 := by
    intro hw
    rw [hw] at h
    exact h rfl
  simp only [hw, if_false]
  exact ⟨rfl, rfl⟩

lemma Mapping.eq_of_mapped {ip ip' : Dinode} {bn b : ℕ} {st' : Store} (hm : Mapping st ip bn b ip' st')
    (h : slotAddr st.disk ip (dataSlot bn) ≠ 0) : ip' = ip ∧ st' = st := by
  cases hm with
  | old _ _ => exact ⟨rfl, rfl⟩
  | direct hd hz _ =>
    rw [slotAddr_direct _ _ hd] at h
    exact absurd hz h
  | word hd _ ha ha0 hz _ =>
    rw [slotAddr_indirect _ _ hd (by rwa [ha]), ha, hz] at h
    exact absurd rfl h
  | both hd _ hz _ _ => exact absurd (slotAddr_no_indirect hd hz) h

structure Mapped (v : ℕ → Dinode) (i bn : ℕ) (st : Store) (b : ℕ) (ip' : Dinode) (st' : Store) :
    Prop where
  effect : Effect v i st st' ip'
  data : ∀ n < MAXFILE, dataAt st'.disk ip' n = dataAt st.disk (v i) n
  slot : slotAddr st'.disk ip' (dataSlot bn) = b
  ne_zero : b ≠ 0

lemma Mapping.mapped (h : Holds st v) (hi : i < st.sb.ninodes) (ht : (v i).type ≠ 0) {bn b : ℕ}
    {ip' : Dinode} {st' : Store} (hbn : bn < MAXFILE) (hm : Mapping st (v i) bn b ip' st') :
    Mapped v i bn st b ip' st' := by
  have hpos := h.dstart_pos
  cases hm with
  | old hs h0 => exact ⟨.refl h, fun _ _ => rfl, hs, h0⟩
  | direct hd hz hb =>
    have hk : bn < NDIRECT + 1 := by omega
    refine ⟨h.effect_direct hb hi ht hk hz, fun n hn => h.dataAt_direct hb hi ht hk hz hn, ?_, ?_⟩
    · rw [h.slot_direct hb hi ht hk hz, dataSlot, if_pos hd, if_pos rfl]
    · have := hb.1
      omega
  | word hd hlt ha ha0 hz hb =>
    have hj : bn - NDIRECT < NINDIRECT := by simp only [MAXFILE] at hbn; omega
    refine ⟨h.effect_word hb hi ht ha ha0 hj hz, fun n hn => h.dataAt_word hb hi ht ha ha0 hj hz hn,
      ?_, ?_⟩
    · rw [h.slot_word hb hi ht ha ha0 hj (dataSlot_lt hbn), if_pos (dataSlot_of_ge hd)]
    · have := hb.1
      omega
  | @both a b hd hlt hz ha hb =>
    have hj : bn - NDIRECT < NINDIRECT := by simp only [MAXFILE] at hbn; omega
    have hk : NDIRECT < NDIRECT + 1 := Nat.lt_succ_self _
    have ha0 : a ≠ 0 := by have := ha.1; omega
    have h1 := h.effect_direct ha hi ht hk hz
    have hw : ((st.alloc a).disk a).word (bn - NDIRECT) = 0 := by rw [st.alloc_disk_self, Block.word_zero]
    have haddr : ((v i).setAddr NDIRECT a).addr NDIRECT = a := by
      rw [Dinode.setAddr_addr _ hk (ha.2.1.trans h.ordered.uint), if_pos rfl]
    have hv : assign v i ((v i).setAddr NDIRECT a) i = (v i).setAddr NDIRECT a := assign_self ..
    have ht1 : (assign v i ((v i).setAddr NDIRECT a) i).type ≠ 0 := by rw [hv]; exact ht
    have h2 := h1.holds.effect_word hb hi ht1 (by rw [hv, haddr]) ha0 hj hw
    have hd2 := fun n (hn : n < MAXFILE) => h1.holds.dataAt_word hb hi ht1
      (by rw [hv, haddr]) ha0 hj hw hn
    have hs2 := h1.holds.slot_word hb hi ht1 (by rw [hv, haddr]) ha0 hj (dataSlot_lt hbn)
    rw [hv] at h2 hs2
    simp only [hv] at hd2
    refine ⟨h1.trans h2, fun n hn => (hd2 n hn).trans (h.dataAt_direct ha hi ht hk hz hn), ?_, ?_⟩
    · rw [hs2, if_pos (dataSlot_of_ge hd)]
    · have : st.sb.dstart ≤ b := hb.1
      omega

end Xv6.Fs
