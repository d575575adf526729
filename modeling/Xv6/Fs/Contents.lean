import Xv6.Fs.Bmap

namespace Xv6.Fs

open Lib

variable {st : Store} {v : ℕ → Dinode} {i : ℕ}

def byteAt (disk : Disk) (ip : Dinode) (p : ℕ) : UInt8 := (dataAt disk ip (p / BSIZE)).byte (p % BSIZE)

def contents (disk : Disk) (ip : Dinode) : List UInt8 := (List.range ip.size.toNat).map (byteAt disk ip)

def Full (disk : Disk) (ip : Dinode) (n : ℕ) : Prop :=
    ∀ p < n, slotAddr disk ip (dataSlot (p / BSIZE)) ≠ 0

namespace Holds

section

variable (h : Holds st v) (hi : i < st.sb.ninodes) (ht : (v i).type ≠ 0)
include h hi ht

variable {bn b : ℕ} (hbn : bn < MAXFILE) (hb : slotAddr st.disk (v i) (dataSlot bn) = b) (data : Block)
include hbn hb

lemma effect_write (hb0 : b ≠ 0) : Effect v i st (st.write b data) (v i) := by
  have hs := dataSlot_lt hbn
  have hrb : ref st.disk v i (dataSlot bn) = b := by rw [ref_eq ht, hb]
  have hrange := h.ledger.range i hi _ hs (by rwa [hrb])
  rw [hrb] at hrange
  have h1 := h.ordered.log
  have h2 := h.ordered.lt_bmapstart
  have h3 := st.sb.bmapstart_lt
  have hne : ∀ j < st.sb.ninodes, ∀ s < NSLOT, ref st.disk v j s ≠ 0 → ¬ (j = i ∧ s = dataSlot bn) →
      ref st.disk v j s ≠ b := by
    intro j hj s hs' hr hjs he
    exact hjs (h.ledger.inj j hj s hs' i hi _ hs hr (he.trans hrb.symm))
  have hslot : ∀ j < st.sb.ninodes, (v j).type ≠ 0 → slotAddr (st.write b data).disk
    (v j) = slotAddr st.disk (v j) := by
    intro j hj htj
    apply slotAddr_congr
    intro hr
    have := hne j hj NDIRECT (by decide)
    rw [ref_eq htj, indirect_eq] at this
    exact assign_of_ne (this hr (fun he => dataSlot_ne bn he.2.symm)) ..
  have href : ∀ j < st.sb.ninodes, ∀ s, ref (st.write b data).disk v j s = ref st.disk v j s := by
    intro j hj s
    by_cases htj : (v j).type = 0
    · simp [ref, htj]
    · rw [ref_eq htj, ref, if_neg htj, hslot j hj htj]
  refine ⟨?_, rfl, rfl, fun c hc => assign_of_ne (by omega) .., fun s _ _ => by rw [hslot i hi ht], ?_⟩
  · rw [assign_eq_self rfl]
    refine ⟨?_, h.ordered, ?_⟩
    · have : (st.write b data).disk 1 = st.disk 1 := assign_of_ne (by omega) ..
      rw [this]
      exact h.sb
    · exact h.ledger.congr (fun j hj s _ => href j hj s)
        (fun c hc => st.bit_write_of_ge data h.ordered hc (.inr hrange.1))
  · intro j hj hji s hs' hr
    exact assign_of_ne (hne j hj s hs' hr (fun hjs => hji hjs.1)) ..

lemma slotAddr_write : slotAddr (st.write b data).disk (v i) = slotAddr st.disk (v i) := by
  apply slotAddr_congr
  intro hr
  have hne := h.slot_ne hi ht (s := NDIRECT) (by decide) (dataSlot_lt hbn) (dataSlot_ne bn).symm
    (by rwa [indirect_eq])
  rw [indirect_eq, hb] at hne
  exact assign_of_ne hne ..

lemma dataAt_write (hb0 : b ≠ 0) {n : ℕ} (hn : n < MAXFILE) :
    dataAt (st.write b data).disk (v i) n = if n = bn then data else dataAt st.disk (v i) n := by
  rw [dataAt, dataAt, h.slotAddr_write hi ht hbn hb]
  by_cases hnb : n = bn
  · subst hnb
    rw [hb, if_neg hb0, if_pos rfl]
    exact assign_self ..
  · rw [if_neg hnb]
    split_ifs with h0
    · rfl
    · have hne := h.slot_ne hi ht (dataSlot_lt hn) (dataSlot_lt hbn) (fun he => hnb (dataSlot_inj he)) h0
      rw [hb] at hne
      exact assign_of_ne hne ..

end

end Holds

namespace Mapped

variable {bn b : ℕ} {ip' : Dinode} {st' : Store} (hm : Mapped v i bn st b ip' st')
  (hi : i < st.sb.ninodes) (ht : (v i).type ≠ 0) (hbn : bn < MAXFILE)
include hm

lemma slot_assign : slotAddr st'.disk (assign v i ip' i) (dataSlot bn) = b := by
  rw [assign_self, hm.slot]

include hi in
lemma lt : i < st'.sb.ninodes := by
  rwa [hm.effect.sb]

include ht

lemma type_ne : (assign v i ip' i).type ≠ 0 := by
  rwa [assign_self, hm.effect.type_eq]

include hi hbn

lemma range : st'.sb.dstart ≤ b ∧ b < st'.sb.size := by
  have := hm.effect.holds.slot_range (hm.lt hi) (hm.type_ne ht) (dataSlot_lt hbn)
  rw [hm.slot_assign] at this
  exact this hm.ne_zero

lemma effect_write (data : Block) : Effect (assign v i ip') i st' (st'.write b data) ip' := by
  have := hm.effect.holds.effect_write (hm.lt hi) (hm.type_ne ht) hbn hm.slot_assign data hm.ne_zero
  rwa [assign_self] at this

lemma slots_write (data : Block) : slotAddr (st'.write b data).disk ip' = slotAddr st'.disk ip' := by
  have := hm.effect.holds.slotAddr_write (hm.lt hi) (hm.type_ne ht) hbn hm.slot_assign data
  rwa [assign_self] at this

end Mapped

structure Written (v : ℕ → Dinode) (i : ℕ) (st : Store) (off : ℕ) (src : List UInt8) (ip' : Dinode)
    (st' : Store) : Prop where
  effect : Effect v i st st' ip'
  bytes : ∀ p < MAXFILE * BSIZE, byteAt st'.disk ip' p =
    if off ≤ p then src.getD (p - off) (byteAt st.disk (v i) p) else byteAt st.disk (v i) p
  full : ∀ p, off ≤ p → p < off + src.length → slotAddr st'.disk ip' (dataSlot (p / BSIZE)) ≠ 0
  mapped : (∀ p, off ≤ p → p < off + src.length → slotAddr st.disk (v i)
    (dataSlot (p / BSIZE)) ≠ 0) → ip' = v i

namespace Written

lemma nil (h : Holds st v) (off : ℕ) : Written v i st off [] (v i) st where
  effect := .refl h
  bytes p _ := by simp
  full p h1 h2 := by simp at h2; omega
  mapped _ := rfl

lemma append {st' st'' : Store} {ip' ip'' : Dinode} {off : ℕ} {a b : List UInt8}
    (h : Written v i st off a ip' st')
    (h' : Written (assign v i ip') i st' (off + a.length) b ip'' st'')
    (hlt : off + (a ++ b).length ≤ MAXFILE * BSIZE) : Written v i st off (a ++ b) ip'' st'' where
  effect := h.effect.trans h'.effect
  bytes p hp := by
    rw [h'.bytes p hp, assign_self, h.bytes p hp]
    by_cases h1 : off ≤ p
    swap
    · rw [if_neg h1, if_neg (by omega), if_neg h1]
    rw [if_pos h1, if_pos h1]
    by_cases h2 : off + a.length ≤ p
    · rw [if_pos h2, List.getD_append_right _ _ _ _ (by omega), List.getD_eq_default a _ (by omega),
        Nat.sub_sub]
    · rw [if_neg h2, List.getD_append _ _ _ _ (by omega)]
  full p h1 h2 := by
    rw [List.length_append] at h2 hlt
    by_cases hp : off + a.length ≤ p
    · exact h'.full p hp (by omega)
    · have hlt' : p / BSIZE < MAXFILE := Nat.div_lt_of_lt_mul (by rw [Nat.mul_comm]; omega)
      have hf := h.full p h1 (by omega)
      have hk := h'.effect.keep _ (dataSlot_lt hlt')
      rw [assign_self] at hk
      rw [hk hf]
      exact hf
  mapped hm := by
    have he : ip' = v i := h.mapped (fun p h1 h2 => hm p h1 (by rw [List.length_append]; omega))
    have he' := h'.mapped (fun p h1 h2 => ?_)
    · rw [he', assign_self, he]
    · rw [List.length_append] at hm hlt
      have hlt' : p / BSIZE < MAXFILE := Nat.div_lt_of_lt_mul (by rw [Nat.mul_comm]; omega)
      have hf := hm p (by omega) (by omega)
      rw [assign_self, h.effect.keep _ (dataSlot_lt hlt') hf]
      exact hf

end Written

lemma byteAt_congr {disk disk' : Disk} {ip ip' : Dinode} {p : ℕ}
    (h : dataAt disk' ip' (p / BSIZE) = dataAt disk ip (p / BSIZE)) :
    byteAt disk' ip' p = byteAt disk ip p := by
  rw [byteAt, byteAt, h]

lemma Mapped.write {bn b off : ℕ} {ip' : Dinode} {st' : Store} {src : List UInt8} (hi : i < st.sb.ninodes)
    (ht : (v i).type ≠ 0) (hm : Mapped v i bn st b ip' st')
    (hold : slotAddr st.disk (v i) (dataSlot bn) ≠ 0 → ip' = v i)
    (hbn : bn < MAXFILE) (hoff : off / BSIZE = bn) (hfit : off % BSIZE + src.length ≤ BSIZE)
    (hne : src ≠ []) :
    Written v i st off src ip' (st'.write b ((st'.disk b).splice (off % BSIZE) src)) := by
  have hw := hm.effect_write hi ht hbn ((st'.disk b).splice (off % BSIZE) src)
  have hd := fun n (hn : n < MAXFILE) => hm.effect.holds.dataAt_write (hm.lt hi) (hm.type_ne ht) hbn
    hm.slot_assign ((st'.disk b).splice (off % BSIZE) src) hm.ne_zero hn
  simp only [assign_self] at hd
  have hB : BSIZE = 512 := rfl
  have hblock : ∀ p, off ≤ p → p < off + src.length → p / BSIZE = bn := by
    intro p h1 h2
    rw [← hoff]
    rw [hB] at hfit ⊢
    omega
  constructor
  · exact hm.effect.trans hw
  · intro p hp
    have hpb : p / BSIZE < MAXFILE := Nat.div_lt_of_lt_mul (by rwa [Nat.mul_comm])
    by_cases hpn : p / BSIZE = bn
    · have hdat : dataAt st'.disk ip' bn = st'.disk b := by rw [dataAt, hm.slot, if_neg hm.ne_zero]
      have hmod : p % BSIZE < BSIZE := Nat.mod_lt _ (by decide)
      have hbyte : byteAt st.disk (v i) p = (st'.disk b).byte (p % BSIZE) := by
        rw [byteAt, hpn, ← hm.data bn hbn, hdat]
      rw [byteAt, hpn, hd bn hbn, if_pos rfl, Block.byte_splice _ _ _ hmod, ← hbyte]
      by_cases hle : off ≤ p
      · rw [if_pos hle, if_pos (by rw [hB] at hpn hoff ⊢; omega)]
        congr 1
        rw [hB] at hpn hoff ⊢
        omega
      · rw [if_neg hle, if_neg (by rw [hB] at hpn hoff ⊢; omega)]
    · have hsame : byteAt (st'.write b ((st'.disk b).splice (off % BSIZE) src)).disk ip' p =
        byteAt st.disk (v i) p := by
        apply byteAt_congr
        rw [hd _ hpb, if_neg hpn, hm.data _ hpb]
      rw [hsame]
      split_ifs with hle
      · rw [List.getD_eq_default]
        by_contra hlt
        exact hpn (hblock p hle (by omega))
      · rfl
  · intro p h1 h2
    have hk := hw.keep _ (dataSlot_lt hbn)
    rw [assign_self, hm.slot] at hk
    rw [hblock p h1 h2, hk hm.ne_zero]
    exact hm.ne_zero
  · intro hall
    have hpos := List.length_pos_of_ne_nil hne
    have := hall off (le_refl _) (by omega)
    rw [hoff] at this
    exact hold this

lemma Holds.bmap (h : Holds st v) (hi : i < st.sb.ninodes) (ht : (v i).type ≠ 0) {bn : ℕ}
    (hbn : bn < MAXFILE) : Spec (bmap (v i) bn) st (fun r st' => Mapped v i bn st r.1 r.2 st' ∧
        (slotAddr st.disk (v i) (dataSlot bn) ≠ 0 → r.2 = v i ∧ st' = st))
        (fun e => e = .panic .ballocOutOfBlocks) :=
  (h.bmap_mapping hi ht hbn).mono (fun _ _ hm => ⟨hm.mapped h hi ht hbn, hm.eq_of_mapped⟩)
    (fun _ he => he.1)

lemma Holds.writeLoop (h : Holds st v) (hi : i < st.sb.ninodes) (ht : (v i).type ≠ 0) {off fuel : ℕ}
    {src : List UInt8} (hlt : off + src.length ≤ MAXFILE * BSIZE) (hf : src.length ≤ fuel) :
    Spec (writeLoop (v i) off fuel src) st (fun ip' st' => Written v i st off src ip' st')
      (fun e => e = .panic .ballocOutOfBlocks) := by
  induction fuel generalizing st v off src with
  | zero =>
    obtain rfl : src = [] := List.length_eq_zero_iff.mp (by omega)
    exact Written.nil h off
  | succ fuel ih =>
    by_cases hsrc : src = []
    · subst hsrc
      exact Written.nil h off
    have hpos := List.length_pos_of_ne_nil hsrc
    have hmod : off % BSIZE < BSIZE := Nat.mod_lt _ (by decide)
    have hbn : off / BSIZE < MAXFILE := Nat.div_lt_of_lt_mul (by rw [Nat.mul_comm]; omega)
    unfold Fs.writeLoop
    rw [if_neg hsrc]
    apply Spec.bind
    refine (h.bmap hi ht hbn).imp ?_
    rintro ⟨b, ip'⟩ st' ⟨hm, hold⟩
    apply Spec.bind
    apply bread_spec
    apply Spec.bind
    apply logWrite_spec
    set m := min src.length (BSIZE - off % BSIZE) with hmdef
    have hlen : (src.take m).length = m := by rw [List.length_take]; omega
    have hw := hm.write hi ht (fun h0 => (hold h0).1) hbn rfl
      (show off % BSIZE + (src.take m).length ≤ BSIZE by omega) (List.ne_nil_of_length_pos (by omega))
    have hv : assign v i ip' i = ip' := assign_self ..
    have hrec := ih hw.effect.holds (by rwa [hw.effect.sb]) (by rwa [hv, hw.effect.type_eq])
      (show off + m + (src.drop m).length ≤ MAXFILE * BSIZE by rw [List.length_drop]; omega)
      (by rw [List.length_drop]; omega)
    rw [hv] at hrec
    refine hrec.imp ?_
    intro ip'' st'' hw'
    have happ := hw.append (b := src.drop m) (by rwa [hlen]) (by rwa [List.take_append_drop])
    rwa [List.take_append_drop] at happ

lemma slice_eq {disk : Disk} {ip : Dinode} {off m b : ℕ}
    (hs : slotAddr disk ip (dataSlot (off / BSIZE)) = b)
    (hb : b ≠ 0) (hm : off % BSIZE + m ≤ BSIZE) :
    (disk b).slice (off % BSIZE) m = (List.range m).map (fun k => byteAt disk ip (off + k)) := by
  have hB : BSIZE = 512 := rfl
  apply List.map_congr_left
  intro k hk
  have hk' := List.mem_range.mp hk
  have hdiv : (off + k) / BSIZE = off / BSIZE := by rw [hB] at hm ⊢; omega
  have hmod : (off + k) % BSIZE = off % BSIZE + k := by rw [hB] at hm ⊢; omega
  rw [byteAt, hdiv, hmod, dataAt, hs, if_neg hb]

lemma readLoop_spec {ip : Dinode} {off fuel n : ℕ} (hlt : off + n ≤ MAXFILE * BSIZE)
    (hfull : Full st.disk ip (off + n)) (hf : n ≤ fuel) (B : Halt → Prop) :
    Spec (readLoop ip off fuel n) st
      (fun r st' => r = ((List.range n).map (fun k => byteAt st.disk ip (off + k)), ip) ∧
      st' = st) B := by
  induction fuel generalizing off n with
  | zero =>
    obtain rfl : n = 0 := by omega
    exact ⟨rfl, rfl⟩
  | succ fuel ih =>
    unfold readLoop
    by_cases hn : n = 0
    · subst hn
      rw [if_pos rfl]
      exact ⟨rfl, rfl⟩
    rw [if_neg hn]
    have hmod : off % BSIZE < BSIZE := Nat.mod_lt _ (by decide)
    have hbn : off / BSIZE < MAXFILE := Nat.div_lt_of_lt_mul (by rw [Nat.mul_comm]; omega)
    have hs := hfull off (by omega)
    apply Spec.bind
    refine (bmap_of_mapped hbn hs B).imp ?_
    rintro r st' ⟨rfl, rfl⟩
    apply Spec.bind
    apply bread_spec
    set m := min n (BSIZE - off % BSIZE) with hm
    have hsplit : n = m + (n - m) := by omega
    apply Spec.bind
    refine (ih (n := n - m) (show off + m + (n - m) ≤ MAXFILE * BSIZE by omega)
      (fun p hp => hfull p (by omega)) (by omega)).imp ?_
    rintro r st'' ⟨rfl, rfl⟩
    refine ⟨?_, rfl⟩
    rw [slice_eq rfl hs (by omega)]
    conv_rhs => rw [hsplit, List.range_add, List.map_append, List.map_map]
    simp only [Function.comp_def, Nat.add_assoc]

lemma contents_length (disk : Disk) (ip : Dinode) : (contents disk ip).length = ip.size.toNat := by
  simp [contents]

lemma contents_slice (disk : Disk) (ip : Dinode) (off n : ℕ) (h : off + n ≤ ip.size.toNat) :
    (List.range n).map (fun k => byteAt disk ip (off + k)) = ((contents disk ip).drop off).take n := by
  apply List.ext_getElem
  · simp [contents_length]
    omega
  · intro k h1 h2
    simp [contents]

def InFile (ip : Dinode) (off n : UInt32) : Prop := off.toNat ≤ ip.size.toNat ∧
    off.toNat + n.toNat < 2 ^ 32

lemma inFile_iff (ip : Dinode) (off n : UInt32) : ¬ (off > ip.size ∨ off + n < off) ↔
    InFile ip off n := by
  have h1 := off.toNat_lt
  have h2 := n.toNat_lt
  simp only [InFile, gt_iff_lt, UInt32.lt_iff_toNat_lt, UInt32.toNat_add, not_or, not_lt]
  omega

lemma toNat_add_of_inFile {ip : Dinode} {off n : UInt32} (h : InFile ip off n) :
    (off + n).toNat = off.toNat + n.toNat := by
  rw [UInt32.toNat_add, Nat.mod_eq_of_lt h.2]

lemma readi_mapped {ip : Dinode} {off n : UInt32} (hdev : ip.type ≠ T_DEV) (hin : InFile ip off n)
    (hfull : Full st.disk ip (min (off.toNat + n.toNat) ip.size.toNat))
    (hmax : min (off.toNat + n.toNat) ip.size.toNat ≤ MAXFILE * BSIZE) (B : Halt → Prop) :
    Spec (readi ip off n) st
      (fun r st' => r = (some (((contents st.disk ip).drop off.toNat).take n.toNat), ip) ∧
      st' = st) B := by
  unfold readi
  rw [if_neg hdev, if_neg ((inFile_iff ip off n).mpr hin)]
  have hadd := toNat_add_of_inFile hin
  have hle := hin.1
  have hn : (if off + n > ip.size then ip.size - off else n).toNat = min n.toNat
    (ip.size.toNat - off.toNat) := by
    simp only [gt_iff_lt, UInt32.lt_iff_toNat_lt, hadd]
    split_ifs with hlt
    · rw [UInt32.toNat_sub_of_le _ _ (UInt32.le_iff_toNat_le.mpr hle)]
      omega
    · omega
  apply Spec.bind
  refine (readLoop_spec (by omega) (fun p hp => hfull p (by omega)) (le_refl _) B).imp ?_
  rintro r st' ⟨rfl, rfl⟩
  refine ⟨?_, rfl⟩
  simp only [hn]
  rw [contents_slice _ _ _ _ (by omega)]
  congr 2
  rw [List.take_eq_take_iff, List.length_drop, contents_length]
  omega

lemma readi_spec {ip : Dinode} (off n : UInt32) (hdev : ip.type ≠ T_DEV)
    (hfull : Full st.disk ip ip.size.toNat)
    (hsize : ip.size.toNat ≤ MAXFILE * BSIZE) (B : Halt → Prop) :
    Spec (readi ip off n) st (fun r st' => r.2 = ip ∧ st' = st ∧
      (InFile ip off n → r.1 = some (((contents st.disk ip).drop off.toNat).take n.toNat)) ∧
      (¬ InFile ip off n → r.1 = none)) B := by
  by_cases hin : InFile ip off n
  · refine (readi_mapped hdev hin (fun p hp => hfull p (by omega)) (by omega) B).imp ?_
    rintro r st' ⟨rfl, rfl⟩
    exact ⟨rfl, rfl, fun _ => rfl, fun h => absurd hin h⟩
  · unfold readi
    rw [if_neg hdev, if_pos (by rwa [← inFile_iff, not_not] at hin)]
    exact ⟨rfl, rfl, fun h => absurd h hin, fun _ => rfl⟩

namespace Store

def update (st : Store) (i : ℕ) (ip : Dinode) : Store :=
  st.write (st.sb.iblock i) (Dinode.put (st.disk (st.sb.iblock i)) (i % IPB) ip)

lemma inode_update (st : Store) (i : ℕ) (ip : Dinode) (j : ℕ) :
    (st.update i ip).inode j = if j = i then ip else st.inode j := by
  have hi : i % IPB < IPB := Nat.mod_lt _ (by decide)
  have hj : j % IPB < IPB := Nat.mod_lt _ (by decide)
  simp only [inode, update, write]
  by_cases hb : st.sb.iblock j = st.sb.iblock i
  · rw [hb, assign_self]
    by_cases hji : j = i
    · rw [if_pos hji, hji, Dinode.get_put_self _ hi]
    · rw [if_neg hji, Dinode.get_put_ne _ hj]
      intro hm
      refine hji ?_
      simp only [Superblock.iblock] at hb
      rw [← Nat.div_add_mod j IPB, ← Nat.div_add_mod i IPB, hm, Nat.add_right_cancel hb]
  · have hji : j ≠ i := by
      rintro rfl
      exact hb rfl
    rw [assign_of_ne hb, if_neg hji]

end Store

lemma iupdate_spec {ip : Dinode} {Q : PUnit → Store → Prop} {B : Halt → Prop}
    (h : Q ⟨⟩ (st.update i ip)) : Spec (iupdate i ip) st Q B := h

lemma slotAddr_frame {disk disk' : Disk} {ip : Dinode} {lo : ℕ} (hd : ∀ c, lo ≤ c → disk' c = disk c)
    (h : ip.addr NDIRECT ≠ 0 → lo ≤ ip.addr NDIRECT) : slotAddr disk' ip = slotAddr disk ip :=
  slotAddr_congr (fun h0 => hd _ (h h0))

namespace Holds

lemma congr {w : ℕ → Dinode} (h : Holds st v) (hw : ∀ j < st.sb.ninodes, w j = v j) : Holds st w := by
  refine ⟨h.sb, h.ordered, h.ledger.congr (fun j hj s _ => ?_) (fun _ _ => rfl)⟩
  simp only [ref, hw j hj]

lemma set_fields (h : Holds st v) (ip : Dinode) (ha : ip.addrs = (v i).addrs)
    (ht : ip.type = 0 ↔ (v i).type = 0) : Holds st (assign v i ip) := by
  refine ⟨h.sb, h.ordered, h.ledger.congr (fun j hj s _ => ?_) (fun _ _ => rfl)⟩
  by_cases hji : j = i
  · subst hji
    have haddr : ∀ k, ip.addr k = (v j).addr k := by
      intro k
      simp only [Dinode.addr, ha]
    simp only [ref, assign_self, slotAddr, haddr, ht]
  · simp only [ref, assign_of_ne hji]

section

variable (h : Holds st v) (hi : i < st.sb.ninodes) (ip : Dinode)
include h hi ip

lemma update_disk {c : ℕ} (hc : st.sb.bmapstart ≤ c) : (st.update i ip).disk c = st.disk c := by
  have := (h.ordered.iblock_lt hi).2
  exact assign_of_ne (by omega) ..

lemma iupdate : Holds (st.update i ip) v := by
  have hib := h.ordered.iblock_lt hi
  have hbm := st.sb.bmapstart_lt
  refine ⟨?_, h.ordered, h.ledger.congr (fun j hj s _ => ?_) (fun c hc => ?_)⟩
  · have h1 : (st.update i ip).disk 1 = st.disk 1 := assign_of_ne (by omega) ..
    rw [h1]
    exact h.sb
  · exact h.ref_frame hj (fun c hc _ _ => h.update_disk hi ip (by omega))
  · exact st.bit_write_of_ge _ h.ordered hc (.inl hib.2)

lemma slotAddr_update {j : ℕ} (hj : j < st.sb.ninodes)
    (ht : (v j).type ≠ 0) : slotAddr (st.update i ip).disk (v j) = slotAddr st.disk (v j) := by
  have hbm := st.sb.bmapstart_lt
  exact slotAddr_frame (fun c hc => h.update_disk hi ip hc)
    (fun h0 => hbm.le.trans (h.indirect_range hj ht h0).1)

lemma dataAt_update {j : ℕ} (hj : j < st.sb.ninodes) (ht : (v j).type ≠ 0) {bn : ℕ} (hbn : bn < MAXFILE) :
    dataAt (st.update i ip).disk (v j) bn = dataAt st.disk (v j) bn := by
  rw [dataAt, dataAt, h.slotAddr_update hi ip hj ht]
  split_ifs with h0
  · rfl
  · have hbm := st.sb.bmapstart_lt
    exact h.update_disk hi ip (hbm.le.trans (h.slot_range hj ht (dataSlot_lt hbn) h0).1)

end

end Holds

end Xv6.Fs
