import Xv6.Fs.Contents

namespace Xv6.Fs

open Lib

variable {st : Store} {i : ℕ}

structure Wf (st : Store) : Prop where
  holds : Holds st st.inode
  sized : ∀ i < st.sb.ninodes, (st.inode i).type ≠ 0 →
    Full st.disk (st.inode i) (st.inode i).size.toNat ∧ (st.inode i).size.toNat ≤ MAXFILE * BSIZE

def overwrite (c : List UInt8) (off : ℕ) (src : List UInt8) : List UInt8 :=
  c.take off ++ src ++ c.drop (off + src.length)

lemma length_overwrite {c src : List UInt8} {off : ℕ} (h : off ≤ c.length) :
    (overwrite c off src).length = max c.length (off + src.length) := by
  simp only [overwrite, List.length_append, List.length_take, List.length_drop]
  omega

lemma getD_overwrite {c src : List UInt8} {off p : ℕ} (h : off ≤ c.length) (d : UInt8) :
    (overwrite c off src).getD p d = if off ≤ p then src.getD (p - off) (c.getD p d) else c.getD p d := by
  have hlen : (c.take off).length = off := by rw [List.length_take]; omega
  rw [overwrite, List.append_assoc]
  by_cases h1 : off ≤ p
  swap
  · rw [if_neg h1, List.getD_append _ _ _ _ (by omega)]
    simp only [List.getD_eq_getElem?_getD, List.getElem?_take]
    rw [if_pos (by omega)]
  rw [if_pos h1, List.getD_append_right _ _ _ _ (by omega), hlen]
  by_cases h2 : p - off < src.length
  · rw [List.getD_append _ _ _ _ h2, List.getD_eq_getElem _ _ h2, List.getD_eq_getElem _ _ h2]
  · rw [List.getD_append_right _ _ _ _ (by omega), List.getD_eq_default src _ (by omega)]
    simp only [List.getD_eq_getElem?_getD, List.getElem?_drop]
    congr 2
    omega

lemma contents_getD (disk : Disk) (ip : Dinode) {p : ℕ} (hp : p < ip.size.toNat) (d : UInt8) :
    (contents disk ip).getD p d = byteAt disk ip p := by
  rw [List.getD_eq_getElem _ _ (by rwa [contents_length])]
  simp [contents]

lemma contents_overwrite {disk disk' : Disk} {ip ip' : Dinode} {off : ℕ} {src : List UInt8}
    (hoff : off ≤ ip.size.toNat) (hsize : ip'.size.toNat = max ip.size.toNat (off + src.length))
    (hb : ∀ p < ip'.size.toNat, byteAt disk' ip' p =
      if off ≤ p then src.getD (p - off) (byteAt disk ip p) else byteAt disk ip p) :
    contents disk' ip' = overwrite (contents disk ip) off src := by
  have hoff' : off ≤ (contents disk ip).length := by rwa [contents_length]
  have hlen : (contents disk' ip').length = (overwrite (contents disk ip) off src).length := by
    rw [contents_length, length_overwrite hoff', contents_length, hsize]
  refine List.ext_getElem hlen (fun p h1 h2 => ?_)
  rw [← List.getD_eq_getElem _ 0 h1, ← List.getD_eq_getElem _ 0 h2]
  rw [contents_length] at h1
  rw [contents_getD _ _ h1, hb p h1, getD_overwrite hoff']
  by_cases hp : p < ip.size.toNat
  · rw [contents_getD _ _ hp]
  · rw [if_pos (by omega), if_pos (by omega), List.getD_eq_getElem src _ (by omega),
      List.getD_eq_getElem src _ (by omega)]

structure Changed (st : Store) (i : ℕ) (ip' : Dinode) (c : List UInt8) (st' : Store) : Prop where
  wf : Wf st'
  sb : st'.sb = st.sb
  inode : st'.inode i = ip'
  contents : contents st'.disk ip' = c
  others : ∀ j < st.sb.ninodes, j ≠ i → st'.inode j = st.inode j
  other_contents : ∀ j < st.sb.ninodes, j ≠ i → (st.inode j).type ≠ 0 →
    Fs.contents st'.disk (st.inode j) = Fs.contents st.disk (st.inode j)

lemma contents_congr {disk disk' : Disk} {ip : Dinode} (hsize : ip.size.toNat ≤ MAXFILE * BSIZE)
    (hd : ∀ bn < MAXFILE, dataAt disk' ip bn = dataAt disk ip bn) :
    contents disk' ip = contents disk ip := by
  apply List.map_congr_left
  intro p hp
  have hlt := List.mem_range.mp hp
  exact byteAt_congr (hd _ (Nat.div_lt_of_lt_mul (by rw [Nat.mul_comm]; omega)))

lemma Effect.inode_eq {v : ℕ → Dinode} {st' : Store} {ip' : Dinode} (h : Effect v i st st' ip')
    (ho : st.sb.Ordered) {j : ℕ} (hj : j < st.sb.ninodes) : st'.inode j = st.inode j := by
  rw [Store.inode, Store.inode, h.sb, h.low _ (ho.iblock_lt hj).2]

lemma Wf.write_inside {st' : Store} (h : Wf st) (hi : i < st.sb.ninodes)
    (ht : (st.inode i).type ≠ 0) {off : ℕ} {src : List UInt8} (hoff : off ≤ (st.inode i).size.toNat)
    (hle : off + src.length ≤ (st.inode i).size.toNat)
    (hw : Written st.inode i st off src (st.inode i) st') :
    Changed st i (st.inode i) (overwrite (contents st.disk (st.inode i)) off src) st' := by
  have ho := h.holds.ordered
  have hsb := hw.effect.sb
  have hino : ∀ j < st.sb.ninodes, st'.inode j = st.inode j := fun j hj => hw.effect.inode_eq ho hj
  have hsz := h.sized i hi ht
  have hother : ∀ j < st.sb.ninodes, j ≠ i → (st.inode j).type ≠ 0 →
      slotAddr st'.disk (st.inode j) = slotAddr st.disk (st.inode j) := by
    intro j hj hji htj
    funext s
    have := hw.effect.ref_other hj hji s
    rwa [Holds.ref_eq htj, Holds.ref_eq htj] at this
  refine ⟨⟨?_, ?_⟩, hsb, hino i hi, ?_, fun j hj _ => hino j hj, ?_⟩
  · have := hw.effect.holds
    rw [assign_eq_self rfl] at this
    exact this.congr (fun j hj => hino j (by rwa [← hsb]))
  · intro j hj
    rw [hsb] at hj
    rw [hino j hj]
    intro htj
    obtain ⟨hf, hs⟩ := h.sized j hj htj
    refine ⟨fun p hp => ?_, hs⟩
    by_cases hji : j = i
    · subst hji
      rw [hw.effect.keep _ (dataSlot_lt (Nat.div_lt_of_lt_mul (by rw [Nat.mul_comm]; omega))) (hf p hp)]
      exact hf p hp
    · rw [hother j hj hji htj]
      exact hf p hp
  · refine contents_overwrite hoff (by omega) (fun p hp => hw.bytes p (by omega))
  · intro j hj hji htj
    exact contents_congr (h.sized j hj htj).2 (fun bn hbn => hw.effect.dataAt_other hj hji htj hbn)

lemma Wf.write_grow {st' : Store} (h : Wf st) (hi : i < st.sb.ninodes) (ht : (st.inode i).type ≠ 0)
    {off : ℕ} {src : List UInt8} {ip' : Dinode} {n : UInt32} (hoff : off ≤ (st.inode i).size.toNat)
    (hn : n.toNat = off + src.length) (hlt : (st.inode i).size.toNat < n.toNat)
    (hmax : n.toNat ≤ MAXFILE * BSIZE) (hw : Written st.inode i st off src ip' st') :
    Changed st i { ip' with size := n } (overwrite (contents st.disk (st.inode i)) off src)
      (st'.update i { ip' with size := n }) := by
  have ho := h.holds.ordered
  have hsb := hw.effect.sb
  have hi' : i < st'.sb.ninodes := by rwa [hsb]
  have hty := hw.effect.type_eq
  have hv : assign st.inode i ip' i = ip' := assign_self ..
  have hH := hw.effect.holds
  have htv : (assign st.inode i ip' i).type ≠ 0 := by rwa [hv, hty]
  have hino : ∀ j < st.sb.ninodes, (st'.update i { ip' with size := n }).inode j =
      if j = i then { ip' with size := n } else st.inode j := by
    intro j hj
    rw [Store.inode_update, hw.effect.inode_eq ho hj]
  have hsz := h.sized i hi ht
  have hslot : slotAddr (st'.update i { ip' with size := n }).disk { ip' with size := n } =
    slotAddr st'.disk ip' := by
    have := hH.slotAddr_update hi' { ip' with size := n } hi' htv
    rw [hv] at this
    exact this
  have hvj : ∀ {j}, j ≠ i → assign st.inode i ip' j = st.inode j := fun hji => assign_of_ne hji ..
  refine ⟨⟨?_, ?_⟩, hsb, ?_, ?_, ?_, ?_⟩
  · have h1 := (hH.iupdate hi' { ip' with size := n }).set_fields (i := i) { ip' with size := n }
      (by rw [hv]) (by rw [hv])
    refine h1.congr (fun j hj => ?_)
    rw [hino j (by rwa [← hsb])]
    by_cases hji : j = i
    · rw [if_pos hji, hji, assign_self]
    · rw [if_neg hji, assign_of_ne hji, hvj hji]
  · intro j hj
    rw [show (st'.update i { ip' with size := n }).sb = st.sb from hsb] at hj
    rw [hino j hj]
    by_cases hji : j = i
    · rw [if_pos hji]
      intro _
      refine ⟨fun p hp => ?_, hmax⟩
      rw [hslot]
      by_cases hp' : off ≤ p
      · exact hw.full p hp' (by simp only at hp; omega)
      · have hlt' : p / BSIZE < MAXFILE := Nat.div_lt_of_lt_mul (by rw [Nat.mul_comm]; omega)
        rw [hw.effect.keep _ (dataSlot_lt hlt') (hsz.1 p (by omega))]
        exact hsz.1 p (by omega)
    · rw [if_neg hji]
      intro htj
      have hs1 := hH.slotAddr_update hi' { ip' with size := n } (j := j) (by rwa [hsb]) (by rwa [hvj hji])
      rw [hvj hji] at hs1
      refine ⟨fun p hp => ?_, (h.sized j hj htj).2⟩
      have hs2 := hw.effect.ref_other hj hji (dataSlot (p / BSIZE))
      rw [Holds.ref_eq htj, Holds.ref_eq htj] at hs2
      rw [hs1, hs2]
      exact (h.sized j hj htj).1 p hp
  · rw [hino i hi, if_pos rfl]
  · refine contents_overwrite hoff (by simp only; omega) (fun p hp => ?_)
    have hp' : p < MAXFILE * BSIZE := hp.trans_le hmax
    have hbn : p / BSIZE < MAXFILE := Nat.div_lt_of_lt_mul (by rwa [Nat.mul_comm])
    rw [← hw.bytes p hp']
    apply byteAt_congr
    have := hH.dataAt_update hi' { ip' with size := n } hi' htv hbn
    rw [hv] at this
    exact this
  · intro j hj hji
    rw [hino j hj, if_neg hji]
  · intro j hj hji htj
    refine contents_congr (h.sized j hj htj).2 (fun bn hbn => ?_)
    have := hH.dataAt_update hi' { ip' with size := n } (j := j) (by rwa [hsb]) (by rwa [hvj hji]) hbn
    rw [hvj hji] at this
    exact this.trans (hw.effect.dataAt_other hj hji htj hbn)

def Writable (ip : Dinode) (off n : UInt32) : Prop :=
  InFile ip off n ∧ off.toNat + n.toNat ≤ MAXFILE * BSIZE

def Outcome (st : Store) (i : ℕ) (src : List UInt8) (off : UInt32) (r : Option ℕ × Dinode)
    (st' : Store) : Prop :=
  (Writable (st.inode i) off (UInt32.ofNat src.length) → r.1 = some src.length ∧
    (∃ a n, r.2 = { st.inode i with addrs := a, size := n }) ∧
    Changed st i r.2 (overwrite (contents st.disk (st.inode i)) off.toNat src) st') ∧
  (¬ Writable (st.inode i) off (UInt32.ofNat src.length) → r = (none, st.inode i) ∧ st' = st)

lemma Wf.writei (h : Wf st) (hi : i < st.sb.ninodes) (ht : (st.inode i).type ≠ 0)
    (hdev : (st.inode i).type ≠ T_DEV)
    {src : List UInt8} (hlen : src.length < 2 ^ 32) (off : UInt32) :
    Spec (writei i (st.inode i) src off) st (Outcome st i src off)
    (fun e => e = .panic .ballocOutOfBlocks) := by
  have hn : (UInt32.ofNat src.length).toNat = src.length := UInt32.toNat_ofNat_of_lt' hlen
  unfold Fs.writei
  rw [if_neg hdev]
  by_cases hin : InFile (st.inode i) off (UInt32.ofNat src.length)
  swap
  · rw [if_pos (by rwa [← inFile_iff, not_not] at hin)]
    exact ⟨fun hw => absurd hw.1 hin, fun _ => ⟨rfl, rfl⟩⟩
  have hadd := toNat_add_of_inFile hin
  rw [if_neg ((inFile_iff _ _ _).mpr hin), hadd, hn]
  by_cases hmax : off.toNat + src.length ≤ MAXFILE * BSIZE
  swap
  · rw [if_pos (by omega)]
    exact ⟨fun hw => absurd hw.2 (by rwa [hn]), fun _ => ⟨rfl, rfl⟩⟩
  have hW : Writable (st.inode i) off (UInt32.ofNat src.length) := ⟨hin, by rwa [hn]⟩
  rw [if_neg (by omega)]
  apply Spec.bind
  refine (h.holds.writeLoop hi ht hmax (le_refl _)).imp ?_
  intro ip' st' hw
  have hsz := hw.effect.size_eq
  have hoff := hin.1
  have hcond : (0 < UInt32.ofNat src.length ∧ off + UInt32.ofNat src.length > ip'.size) ↔
      (st.inode i).size.toNat < off.toNat + src.length := by
    rw [hsz, gt_iff_lt, UInt32.lt_iff_toNat_lt, UInt32.lt_iff_toNat_lt, hadd, hn]
    simp only [UInt32.toNat_zero]
    omega
  by_cases hgrow : (st.inode i).size.toNat < off.toNat + src.length
  · rw [if_pos (hcond.mpr hgrow)]
    have hc := h.write_grow hi ht hoff (n := off + UInt32.ofNat src.length) (by rw [hadd, hn])
      (by rw [hadd, hn]; exact hgrow) (by rw [hadd, hn]; exact hmax) hw
    refine ⟨fun _ => ⟨rfl, ⟨ip'.addrs, off + UInt32.ofNat src.length, ?_⟩, hc⟩,
      fun hnot => absurd hW hnot⟩
    rw [hw.effect.rest]
  · rw [if_neg (fun hc => hgrow (hcond.mp hc))]
    have hmapped : ip' = st.inode i := hw.mapped (fun p _ hp => (h.sized i hi ht).1 p (by omega))
    subst hmapped
    exact ⟨fun _ => ⟨rfl, ⟨(st.inode i).addrs, (st.inode i).size, rfl⟩, h.write_inside hi ht hoff
      (by omega) hw⟩, fun hnot => absurd hW hnot⟩

end Xv6.Fs
