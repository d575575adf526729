import Xv6.Fs.Writei

namespace Xv6.Fs

open Lib

variable {st st' : Store} {v : ℕ → Dinode} {i bn b : ℕ} {ip' : Dinode}

lemma Store.freeSet_write (st : Store) {c : ℕ} (data : Block) (h : st.sb.Ordered)
    (hc : st.sb.dstart ≤ c) : (st.write c data).freeSet = st.freeSet := by
  apply Finset.filter_congr
  intro b hb
  rw [st.bit_write_of_ge data h (Finset.mem_range.mp hb) (.inr hc)]

namespace Mapping

lemma slots (hm : Mapping st (v i) bn b ip' st') (h : Holds st v) (hi : i < st.sb.ninodes)
    (ht : (v i).type ≠ 0) (hbn : bn < MAXFILE) {n : ℕ} (hn : n < MAXFILE) :
    slotAddr st'.disk ip' (dataSlot n) = if n = bn then b else slotAddr st.disk (v i) (dataSlot n) := by
  have hinj : ∀ {a c : ℕ}, dataSlot a = dataSlot c ↔ a = c := ⟨dataSlot_inj, fun he => by rw [he]⟩
  have hs := dataSlot_lt hn
  cases hm with
  | old hb _ =>
    split_ifs with hnb
    · rw [hnb, hb]
    · rfl
  | direct hd hz hb =>
    have hk : dataSlot bn = bn := by rw [dataSlot, if_pos hd]
    have hiff : dataSlot n = bn ↔ n = bn := by
      conv_lhs => rw [← hk]
      exact hinj
    rw [h.slot_direct hb hi ht (by omega) hz]
    simp only [hiff]
  | word hd _ ha ha0 _ hb =>
    have hj : bn - NDIRECT < NINDIRECT := by simp only [MAXFILE] at hbn; omega
    rw [h.slot_word hb hi ht ha ha0 hj hs, ← dataSlot_of_ge hd]
    simp only [hinj]
  | @both a b hd _ hz ha hb =>
    have hj : bn - NDIRECT < NINDIRECT := by simp only [MAXFILE] at hbn; omega
    have hk : NDIRECT < NDIRECT + 1 := Nat.lt_succ_self _
    have ha0 : a ≠ 0 := by have := ha.1; have := h.dstart_pos; omega
    have hv : assign v i ((v i).setAddr NDIRECT a) i = (v i).setAddr NDIRECT a := assign_self ..
    have haddr : ((v i).setAddr NDIRECT a).addr NDIRECT = a := by
      rw [Dinode.setAddr_addr _ hk (ha.2.1.trans h.ordered.uint), if_pos rfl]
    have h1 := (h.effect_direct ha hi ht hk hz).holds
    have h2 := h1.slot_word hb hi (by rw [hv]; exact ht) (by rw [hv, haddr]) ha0 hj hs
    rw [hv] at h2
    rw [h2, ← dataSlot_of_ge hd, h.slot_direct ha hi ht hk hz, if_neg (dataSlot_ne n)]
    simp only [hinj]

lemma indirect (hm : Mapping st (v i) bn b ip' st') (h : Holds st v) :
    ip'.addr NDIRECT = 0 ↔ (v i).addr NDIRECT = 0 ∧ bn < NDIRECT := by
  cases hm with
  | old hb hb0 =>
    refine ⟨fun hz => ⟨hz, ?_⟩, And.left⟩
    by_contra hge
    rw [slotAddr_no_indirect (by omega) hz] at hb
    exact hb0 hb.symm
  | direct hd hz hb =>
    rw [Dinode.setAddr_addr _ (by omega) (hb.2.1.trans h.ordered.uint), if_neg (by omega)]
    simp [hd]
  | word hd _ ha ha0 _ hb =>
    rw [ha]
    simp [ha0]
  | @both a b hd _ hz ha hb =>
    have ha0 : a ≠ 0 := by have := ha.1; have := h.dstart_pos; omega
    rw [Dinode.setAddr_addr _ (Nat.lt_succ_self _) (ha.2.1.trans h.ordered.uint), if_pos rfl]
    constructor
    · intro h0
      exact absurd h0 ha0
    · intro hlt
      omega

lemma card_freeSet (st : Store) {b : ℕ} (h : st.sb.Ordered) (hb : FreeBlock st b) :
    (st.alloc b).freeSet.card + 1 = st.freeSet.card := by
  rw [st.alloc_freeSet h hb.1]
  exact Finset.card_erase_add_one (Finset.mem_filter.mpr ⟨Finset.mem_range.mpr hb.2.1, hb.2.2⟩)

lemma free (hm : Mapping st (v i) bn b ip' st') (h : Holds st v) (hi : i < st.sb.ninodes)
    (ht : (v i).type ≠ 0) : st'.freeSet.card + bmapNeed st.disk (v i) bn = st.freeSet.card := by
  have ho := h.ordered
  cases hm with
  | old hb hb0 =>
    have hni : ¬ (NDIRECT ≤ bn ∧ (v i).addr NDIRECT = 0) := by
      rintro ⟨hge, hz⟩
      rw [slotAddr_no_indirect hge hz] at hb
      exact hb0 hb.symm
    rw [bmapNeed, if_neg (by rwa [hb]), if_neg hni, Nat.add_zero]
  | direct hd hz hb =>
    rw [bmapNeed, if_pos ((slotAddr_direct _ _ hd).trans hz), if_neg (by omega), ← card_freeSet st ho hb]
  | word hd _ ha ha0 hz hb =>
    have hz' : slotAddr st.disk (v i) (dataSlot bn) = 0 := by
      rw [slotAddr_indirect _ _ hd (by rwa [ha]), ha, hz]
      rfl
    have hrange := h.indirect_range hi ht (by rwa [ha])
    rw [ha] at hrange
    rw [Store.freeSet_write (st.alloc b) _ ho hrange.1, bmapNeed, if_pos hz', if_neg (by rw [ha]; tauto),
      ← card_freeSet st ho hb]
  | @both a b hd _ hz ha hb =>
    rw [Store.freeSet_write ((st.alloc a).alloc b) _ ho ha.1, bmapNeed,
      if_pos (slotAddr_no_indirect hd hz),
      if_pos ⟨hd, hz⟩, ← card_freeSet st ho ha, ← card_freeSet (st.alloc a) ho hb]

end Mapping

def unmapped (disk : Disk) (ip : Dinode) (off n : ℕ) : Finset ℕ :=
  (Finset.range MAXFILE).filter (fun bn => off < (bn + 1) * BSIZE ∧ bn * BSIZE < off + n ∧
    slotAddr disk ip (dataSlot bn) = 0)

def need (disk : Disk) (ip : Dinode) (off n : ℕ) : ℕ :=
  (unmapped disk ip off n).card + if ip.addr NDIRECT = 0 ∧ NDIRECT * BSIZE < off + n then 1 else 0

section

variable {disk disk' : Disk} {ip ip' : Dinode} {off n m bn b : ℕ}

lemma mem_unmapped (hbn : off / BSIZE = bn) (hlt : bn < MAXFILE) (hn : 0 < n)
    (h0 : slotAddr disk ip (dataSlot bn) = 0) : bn ∈ unmapped disk ip off n := by
  have hB : BSIZE = 512 := rfl
  simp only [unmapped, Finset.mem_filter, Finset.mem_range]
  refine ⟨hlt, ?_, ?_, h0⟩ <;> rw [hB] at hbn ⊢ <;> omega

lemma indirect_touched (hbn : off / BSIZE = bn) (hn : 0 < n) (hge : NDIRECT ≤ bn) :
    NDIRECT * BSIZE < off + n := by
  have hB : BSIZE = 512 := rfl
  have hN : NDIRECT = 12 := rfl
  rw [hB] at hbn ⊢
  rw [hN] at hge ⊢
  omega

lemma bmapNeed_le_need (hbn : off / BSIZE = bn) (hlt : bn < MAXFILE) (hn : 0 < n) :
    bmapNeed disk ip bn ≤ need disk ip off n := by
  rw [need, bmapNeed]
  refine Nat.add_le_add ?_ ?_
  · split_ifs with h0
    · exact Finset.card_pos.mpr ⟨bn, mem_unmapped hbn hlt hn h0⟩
    · exact Nat.zero_le _
  · by_cases hc : NDIRECT ≤ bn ∧ ip.addr NDIRECT = 0
    · rw [if_pos hc, if_pos ⟨hc.2, indirect_touched hbn hn hc.1⟩]
    · rw [if_neg hc]
      exact Nat.zero_le _

lemma need_of_full (hfull : Full disk ip (off + n)) (hn : 0 < n) : need disk ip off n = 0 := by
  have hB : BSIZE = 512 := rfl
  have hempty : unmapped disk ip off n = ∅ := by
    refine Finset.filter_eq_empty_iff.mpr ?_
    rintro bn - ⟨h1, h2, h0⟩
    have hp : max off (bn * BSIZE) / BSIZE = bn := by
      rw [hB] at *
      omega
    exact hfull (max off (bn * BSIZE)) (by omega) (by rwa [hp])
  have hflag : ¬ (ip.addr NDIRECT = 0 ∧ NDIRECT * BSIZE < off + n) := by
    rintro ⟨h0, hlt⟩
    refine hfull (off + n - 1) (by omega) (slotAddr_no_indirect ?_ h0)
    rw [Nat.le_div_iff_mul_le (by decide)]
    omega
  rw [need, hempty, if_neg hflag, Finset.card_empty]

lemma need_step (hbn : off / BSIZE = bn) (hlt : bn < MAXFILE) (hm : m ≤ n) (hm0 : 0 < m) (hb : b ≠ 0)
    (hs : ∀ k < MAXFILE, slotAddr disk' ip' (dataSlot k) = if k = bn then b else slotAddr disk ip
    (dataSlot k)) (hind : ip'.addr NDIRECT = 0 ↔ ip.addr NDIRECT = 0 ∧ bn < NDIRECT) :
    need disk' ip' (off + m) (n - m) + bmapNeed disk ip bn ≤ need disk ip off n := by
  have hsub : unmapped disk' ip' (off + m) (n - m) ⊆ (unmapped disk ip off n).erase bn := by
    intro k hk
    simp only [unmapped, Finset.mem_filter, Finset.mem_range] at hk
    obtain ⟨hkM, h1, h2, h3⟩ := hk
    rw [hs k hkM] at h3
    have hkb : k ≠ bn := by
      rintro rfl
      rw [if_pos rfl] at h3
      exact hb h3
    rw [if_neg hkb] at h3
    simp only [unmapped, Finset.mem_erase, Finset.mem_filter, Finset.mem_range]
    exact ⟨hkb, hkM, by omega, by omega, h3⟩
  have hcard := Finset.card_le_card hsub
  have hslot : (unmapped disk' ip' (off + m) (n - m)).card +
      (if slotAddr disk ip (dataSlot bn) = 0 then 1 else 0) ≤ (unmapped disk ip off n).card := by
    split_ifs with h0
    · have := Finset.card_erase_add_one (mem_unmapped hbn hlt (show 0 < n by omega) h0)
      omega
    · have := Finset.card_le_card (Finset.erase_subset bn (unmapped disk ip off n))
      omega
  have hflag : (if ip'.addr NDIRECT = 0 ∧ NDIRECT * BSIZE < off + m + (n - m) then 1 else 0) +
      (if NDIRECT ≤ bn ∧ ip.addr NDIRECT = 0 then 1 else 0) ≤
      if ip.addr NDIRECT = 0 ∧ NDIRECT * BSIZE < off + n then 1 else 0 := by
    have hoff : off + m + (n - m) = off + n := by omega
    simp only [hoff, hind]
    by_cases hz : ip.addr NDIRECT = 0
    swap
    · simp [hz]
    by_cases hge : NDIRECT ≤ bn
    · have hbig := indirect_touched hbn (show 0 < n by omega) hge
      simp [hz, hge, hbig]
    · simp [hz, hge, Nat.lt_of_not_le hge]
  rw [need, need, bmapNeed]
  omega

end

lemma Holds.writeLoop_supply (h : Holds st v) (hi : i < st.sb.ninodes) (ht : (v i).type ≠ 0)
    {off fuel : ℕ} {src : List UInt8} (hlt : off + src.length ≤ MAXFILE * BSIZE)
    (hneed : need st.disk (v i) off src.length ≤ st.freeSet.card) (hf : src.length ≤ fuel) :
    Spec (Fs.writeLoop (v i) off fuel src) st (fun _ _ => True) (fun _ => False) := by
  induction fuel generalizing st v off src with
  | zero => exact trivial
  | succ fuel ih =>
    by_cases hsrc : src = []
    · subst hsrc
      exact trivial
    have hpos := List.length_pos_of_ne_nil hsrc
    have hmod : off % BSIZE < BSIZE := Nat.mod_lt _ (by decide)
    have hbn : off / BSIZE < MAXFILE := Nat.div_lt_of_lt_mul (by rw [Nat.mul_comm]; omega)
    have hfirst : bmapNeed st.disk (v i) (off / BSIZE) ≤ need st.disk (v i) off src.length :=
      bmapNeed_le_need rfl hbn hpos
    unfold Fs.writeLoop
    rw [if_neg hsrc]
    apply Spec.bind
    refine (h.bmap_mapping hi ht hbn).mono ?_ (fun e he => by have := he.2; omega)
    rintro ⟨b, ip'⟩ st' hm
    apply Spec.bind
    apply bread_spec
    apply Spec.bind
    apply logWrite_spec
    set m := min src.length (BSIZE - off % BSIZE) with hmdef
    have hmap : Mapped v i _ st b ip' st' := hm.mapped h hi ht hbn
    set data := (st'.disk b).splice (off % BSIZE) (src.take m)
    have hslots := hmap.slots_write hi ht hbn data
    have hkeep := st'.freeSet_write data hmap.effect.holds.ordered (hmap.range hi ht hbn).1
    have hfree := hm.free h hi ht
    have hrest : need (st'.write b data).disk ip' (off + m) (src.length - m) + bmapNeed st.disk
      (v i) (off / BSIZE) ≤
        need st.disk (v i) off src.length :=
      need_step rfl hbn (by omega) (by omega) hmap.ne_zero
        (fun k hk => by rw [hslots]; exact hm.slots h hi ht hbn hk) (hm.indirect h)
    have hrec := ih (hmap.effect_write hi ht hbn data).holds (hmap.lt hi)
      (by rwa [assign_self, hmap.effect.type_eq])
      (show off + m + (src.drop m).length ≤ MAXFILE * BSIZE by rw [List.length_drop]; omega)
      (by rw [assign_self, List.length_drop, hkeep]; omega)
      (by rw [List.length_drop]; omega)
    rwa [assign_self] at hrec

lemma Wf.writei_supply (h : Wf st) (hi : i < st.sb.ninodes) (ht : (st.inode i).type ≠ 0)
    (hdev : (st.inode i).type ≠ T_DEV) {src : List UInt8} (hlen : src.length < 2 ^ 32) {off : UInt32}
    (hneed : Writable (st.inode i) off (UInt32.ofNat src.length) →
      need st.disk (st.inode i) off.toNat src.length ≤ st.freeSet.card) :
    Spec (Fs.writei i (st.inode i) src off) st (fun _ _ => True) (fun _ => False) := by
  have hn : (UInt32.ofNat src.length).toNat = src.length := UInt32.toNat_ofNat_of_lt' hlen
  unfold Fs.writei
  rw [if_neg hdev]
  split_ifs with hin hmax
  · exact trivial
  · exact trivial
  rw [inFile_iff] at hin
  rw [toNat_add_of_inFile hin, not_lt] at hmax
  have hW : Writable (st.inode i) off (UInt32.ofNat src.length) := ⟨hin, hmax⟩
  rw [hn] at hmax
  apply Spec.bind
  refine (h.holds.writeLoop_supply hi ht hmax (hneed hW) (le_refl _)).imp ?_
  intro ip' st' _
  split_ifs <;> exact trivial

lemma not_writable_iff {ip : Dinode} {off n : UInt32} :
    ¬ Writable ip off n ↔ ip.size.toNat < off.toNat ∨ 2 ^ 32 ≤ off.toNat + n.toNat ∨
      MAXFILE * BSIZE < off.toNat + n.toNat := by
  unfold Writable InFile
  omega

namespace Wf

variable (h : Wf st) (hi : i < st.sb.ninodes) (ht : (st.inode i).type ≠ 0)
  (hdev : (st.inode i).type ≠ T_DEV) {off : UInt32}

include h hi ht hdev

lemma readi_run {n : UInt32} (hin : InFile (st.inode i) off n) : (readi (st.inode i) off n).run st =
      .ok ((some (((contents st.disk (st.inode i)).drop off.toNat).take n.toNat), st.inode i), st) := by
  have hspec := readi_spec off n hdev (h.sized i hi ht).1 (h.sized i hi ht).2 (fun _ => False)
  obtain ⟨⟨r, ip'⟩, st', hrun, rfl, rfl, hok, -⟩ := hspec.run_ok hspec
  rw [hrun, ← hok hin]

lemma readi_reject {n : UInt32} (hin : ¬ InFile (st.inode i) off n) :
    (readi (st.inode i) off n).run st = .ok ((none, st.inode i), st) := by
  have hspec := readi_spec off n hdev (h.sized i hi ht).1 (h.sized i hi ht).2 (fun _ => False)
  obtain ⟨⟨r, ip'⟩, st', hrun, rfl, rfl, -, hbad⟩ := hspec.run_ok hspec
  rw [hrun, ← hbad hin]

lemma writei_run {s : List UInt8} (hs : s.length < 2 ^ 32)
    (hW : Writable (st.inode i) off (UInt32.ofNat s.length))
    (hneed : need st.disk (st.inode i) off.toNat s.length ≤ st.freeSet.card) :
    ∃ ip' st', (Fs.writei i (st.inode i) s off).run st = .ok ((some s.length, ip'), st') ∧
      Changed st i ip' (overwrite (contents st.disk (st.inode i)) off.toNat s) st' := by
  obtain ⟨⟨r, ip'⟩, st', hrun, hok, -⟩ :=
    (h.writei hi ht hdev hs off).run_ok (h.writei_supply hi ht hdev hs (fun _ => hneed))
  obtain ⟨rfl, -, hch⟩ := hok hW
  exact ⟨ip', st', hrun, hch⟩

lemma writei_reject {s : List UInt8} (hs : s.length < 2 ^ 32)
    (hW : ¬ Writable (st.inode i) off (UInt32.ofNat s.length)) :
    (Fs.writei i (st.inode i) s off).run st = .ok ((none, st.inode i), st) := by
  obtain ⟨r, st', hrun, -, hbad⟩ :=
    (h.writei hi ht hdev hs off).run_ok (h.writei_supply hi ht hdev hs (fun hw => absurd hw hW))
  obtain ⟨rfl, rfl⟩ := hbad hW
  exact hrun

end Wf

end Xv6.Fs
