import Xv6.Fs.Supply

namespace Xv6.Fs

open Lib

variable {st st' : Store} {v : ℕ → Dinode} {i bn b off n : ℕ} {ip' : Dinode} {src : List UInt8}

def touched (off n : ℕ) : Finset ℕ :=
  (Finset.range MAXFILE).filter (fun bn => 0 < n ∧ off < (bn + 1) * BSIZE ∧ bn * BSIZE < off + n)

def Logs (sb : Superblock) (disk : Disk) (ip : Dinode) (disk' : Disk) (ip' : Dinode) (bn c : ℕ) : Prop :=
  c = slotAddr disk' ip' (dataSlot bn) ∨ slotAddr disk ip (dataSlot bn) = 0 ∧
    (c = sb.bblock (slotAddr disk' ip' (dataSlot bn)) ∨ NDIRECT ≤ bn ∧
      (c = ip'.addr NDIRECT ∨ ip.addr NDIRECT = 0 ∧ c = sb.bblock (ip'.addr NDIRECT)))

lemma mem_logged_write {c : ℕ} {data : Block} : c ∈ (st.write b data).logged ↔ c ∈ st.logged ∨ c = b := by
  simp [Store.write]

lemma mem_logged_alloc {c : ℕ} :
    c ∈ (st.alloc b).logged ↔ c ∈ st.logged ∨ c = st.sb.bblock b ∨ c = b := by
  simp [Store.alloc, Store.write]

lemma Mapping.logged (h : Holds st v) (hi : i < st.sb.ninodes) (ht : (v i).type ≠ 0) (hbn : bn < MAXFILE)
    (hm : Mapping st (v i) bn b ip' st') (data : Block) {c : ℕ} :
    c ∈ (st'.write b data).logged ↔ c ∈ st.logged ∨ Logs st.sb st.disk (v i) st'.disk ip' bn c := by
  have hslot := hm.slots h hi ht hbn hbn
  rw [if_pos rfl] at hslot
  rw [mem_logged_write, Logs, hslot]
  cases hm with
  | old hb hb0 => simp [hb, hb0]
  | direct hd hz hb =>
    rw [mem_logged_alloc, slotAddr_direct _ _ hd]
    simp only [hz, not_le.mpr hd, false_and, or_false, true_and]
    tauto
  | word hd _ ha ha0 hz hb =>
    have hz' : slotAddr st.disk (v i) (dataSlot bn) = 0 := by
      rw [slotAddr_indirect _ _ hd (by rwa [ha]), ha, hz]
      rfl
    rw [mem_logged_write, mem_logged_alloc, hz', ha]
    simp only [hd, ha0, true_and, false_and, or_false]
    tauto
  | @both a b hd _ hz ha hb =>
    have haddr : ((v i).setAddr NDIRECT a).addr NDIRECT = a := by
      rw [Dinode.setAddr_addr _ (Nat.lt_succ_self _) (ha.2.1.trans h.ordered.uint), if_pos rfl]
    rw [mem_logged_write, mem_logged_alloc, mem_logged_alloc, slotAddr_no_indirect hd hz, haddr]
    simp only [hd, hz, true_and]
    have hsb : (st.alloc a).sb.bblock b = st.sb.bblock b := rfl
    rw [hsb]
    tauto

lemma mem_touched_step {m k : ℕ} (hn : 0 < n) (hmax : off + n ≤ MAXFILE * BSIZE)
    (hm : m = min n (BSIZE - off % BSIZE)) : k ∈ touched off n ↔ k = off / BSIZE ∨
    k ∈ touched (off + m) (n - m) := by
  simp only [touched, Finset.mem_filter, Finset.mem_range, BSIZE, MAXFILE, NDIRECT, NINDIRECT] at *
  omega

lemma touched_zero (off : ℕ) : touched off 0 = ∅ := by
  simp [touched]

lemma Logs.congr {sb : Superblock} {disk d1 d2 : Disk} {ip ip1 ip2 : Dinode} {c : ℕ}
    (hs : slotAddr d2 ip2 (dataSlot bn) = slotAddr d1 ip1 (dataSlot bn))
    (ha : NDIRECT ≤ bn → ip2.addr NDIRECT = ip1.addr NDIRECT) :
    Logs sb disk ip d2 ip2 bn c ↔ Logs sb disk ip d1 ip1 bn c := by
  rw [Logs, Logs, hs]
  by_cases hbn : NDIRECT ≤ bn
  · rw [ha hbn]
  · simp [hbn]

lemma Logs.later {s : Superblock} {disk disk1 d : Disk} {ip ip1 e : Dinode} {k c : ℕ}
    (hs : slotAddr disk1 ip1 (dataSlot k) = slotAddr disk ip (dataSlot k))
    (hind : ip1.addr NDIRECT = 0 ↔ ip.addr NDIRECT = 0 ∧ bn < NDIRECT) :
    (Logs s disk1 ip1 d e k c → Logs s disk ip d e k c) ∧
      (Logs s disk ip d e k c → Logs s disk1 ip1 d e k c ∨ Logs s disk ip d e bn c) := by
  unfold Logs
  rw [hs]
  constructor
  · rintro (hl | ⟨h0, hl | ⟨hk, hl | ⟨hz, hl⟩⟩⟩)
    · exact .inl hl
    · exact .inr ⟨h0, .inl hl⟩
    · exact .inr ⟨h0, .inr ⟨hk, .inl hl⟩⟩
    · exact .inr ⟨h0, .inr ⟨hk, .inr ⟨(hind.mp hz).1, hl⟩⟩⟩
  · rintro (hl | ⟨h0, hl | ⟨hk, hl | ⟨hz, hl⟩⟩⟩)
    · exact .inl (.inl hl)
    · exact .inl (.inr ⟨h0, .inl hl⟩)
    · exact .inl (.inr ⟨h0, .inr ⟨hk, .inl hl⟩⟩)
    · rcases Nat.lt_or_ge bn NDIRECT with hlt | hge
      · exact .inl (.inr ⟨h0, .inr ⟨hk, .inr ⟨hind.mpr ⟨hz, hlt⟩, hl⟩⟩⟩)
      · exact .inr (.inr ⟨slotAddr_no_indirect hge hz, .inr ⟨hge, .inr ⟨hz, hl⟩⟩⟩)

lemma Holds.writeLoop_logged (h : Holds st v) (hi : i < st.sb.ninodes) (ht : (v i).type ≠ 0)
    {off fuel : ℕ} (hmax : off + src.length ≤ MAXFILE * BSIZE) (hf : src.length ≤ fuel) :
    Spec (Fs.writeLoop (v i) off fuel src) st (fun ip' st' => Effect v i st st' ip' ∧ ∀ c,
    c ∈ st'.logged ↔
      c ∈ st.logged ∨ ∃ bn ∈ touched off src.length, Logs st.sb st.disk (v i) st'.disk ip' bn c)
      (fun _ => True) := by
  induction fuel generalizing st v off src with
  | zero =>
    have : src = [] := List.eq_nil_of_length_eq_zero (by omega)
    subst this
    exact Spec.pure ⟨.refl h, fun c => by simp [touched_zero]⟩
  | succ fuel ih =>
    by_cases hsrc : src = []
    · subst hsrc
      exact Spec.pure ⟨.refl h, fun c => by simp [touched_zero]⟩
    have hpos := List.length_pos_of_ne_nil hsrc
    have hmod : off % BSIZE < BSIZE := Nat.mod_lt _ (by decide)
    have hbn : off / BSIZE < MAXFILE := Nat.div_lt_of_lt_mul (by rw [Nat.mul_comm]; omega)
    unfold Fs.writeLoop
    rw [if_neg hsrc]
    apply Spec.bind
    refine (h.bmap_mapping hi ht hbn).mono ?_ (fun e he => trivial)
    rintro ⟨b, ip'⟩ st' hm
    apply Spec.bind
    apply bread_spec
    apply Spec.bind
    apply logWrite_spec
    set m := min src.length (BSIZE - off % BSIZE) with hmdef
    have hmap := hm.mapped h hi ht hbn
    have hv : assign v i ip' i = ip' := assign_self ..
    set data := (st'.disk b).splice (off % BSIZE) (src.take m)
    have hw := hmap.effect_write hi ht hbn data
    have hslots := hmap.slots_write hi ht hbn data
    have hH := hw.holds
    rw [assign_assign] at hH
    have hrec := ih hH (hmap.lt hi) (hmap.type_ne ht)
      (show off + m + (src.drop m).length ≤ MAXFILE * BSIZE by rw [List.length_drop]; omega)
      (by rw [List.length_drop]; omega)
    rw [hv, List.length_drop] at hrec
    refine hrec.imp ?_
    rintro ip'' st'' ⟨he, hlog⟩
    have hkeep := he.keep
    rw [hv, hslots] at hkeep
    refine ⟨hmap.effect.trans (hw.trans (by rwa [assign_assign])), fun c => ?_⟩
    have hfirst : Logs st.sb st.disk (v i) st''.disk ip'' (off / BSIZE) c ↔
        Logs st.sb st.disk (v i) st'.disk ip' (off / BSIZE) c := by
      refine Logs.congr (hkeep _ (dataSlot_lt hbn) (by rw [hmap.slot]; exact hmap.ne_zero))
        (fun hge => ?_)
      have h0 : ip'.addr NDIRECT ≠ 0 := fun hz => absurd ((hm.indirect h).mp hz).2 (by omega)
      have := hkeep NDIRECT (by decide)
      rw [Holds.indirect_eq, Holds.indirect_eq] at this
      exact this h0
    have hrest : ∀ k ∈ touched (off + m) (src.length - m),
        slotAddr st'.disk ip' (dataSlot k) = slotAddr st.disk (v i) (dataSlot k) := by
      intro k hk
      simp only [touched, Finset.mem_filter, Finset.mem_range] at hk
      rw [hm.slots h hi ht hbn hk.1, if_neg]
      rintro rfl
      simp only [BSIZE] at *
      omega
    have hstep := fun k hk => Logs.later (c := c) (s := st.sb) (d := st''.disk) (e := ip'')
      ((congrFun hslots (dataSlot k)).trans (hrest k hk)) (hm.indirect h)
    have hsb : (st'.write b data).sb = st.sb := hmap.effect.sb
    rw [hlog c, hm.logged h hi ht hbn data, or_assoc, ← hfirst, hsb]
    refine or_congr Iff.rfl ?_
    simp only [mem_touched_step hpos hmax hmdef]
    constructor
    · rintro (hl | ⟨k, hk, hl⟩)
      · exact ⟨_, .inl rfl, hl⟩
      · exact ⟨k, .inr hk, (hstep k hk).1 hl⟩
    · rintro ⟨k, rfl | hk, hl⟩
      · exact .inl hl
      · exact ((hstep k hk).2 hl).elim (fun hl => .inr ⟨k, hk, hl⟩) .inl

def WriteLogs (st : Store) (i off n : ℕ) (st' : Store) (ip' : Dinode) (c : ℕ) : Prop :=
  (∃ bn ∈ touched off n, Logs st.sb st.disk (st.inode i) st'.disk ip' bn c) ∨
    (st.inode i).size.toNat < off + n ∧ c = st.sb.iblock i

lemma Wf.writei_logged (h : Wf st) (hi : i < st.sb.ninodes) (ht : (st.inode i).type ≠ 0)
    (hdev : (st.inode i).type ≠ T_DEV) (hlen : src.length < 2 ^ 32) {off : UInt32}
    (hW : Writable (st.inode i) off (UInt32.ofNat src.length)) :
    Spec (Fs.writei i (st.inode i) src off) st (fun r st' =>
      ∀ c, c ∈ st'.logged ↔ c ∈ st.logged ∨ WriteLogs st i off.toNat src.length st' r.2 c)
        (fun _ => True) := by
  have hn : (UInt32.ofNat src.length).toNat = src.length := UInt32.toNat_ofNat_of_lt' hlen
  have hadd := toNat_add_of_inFile hW.1
  have hmax := hW.2
  rw [hn] at hmax hadd
  unfold Fs.writei
  rw [if_neg hdev, if_neg ((inFile_iff _ _ _).mpr hW.1), hadd, if_neg (by omega)]
  apply Spec.bind
  refine (h.holds.writeLoop_logged hi ht hmax (le_refl _)).imp ?_
  rintro ip' st' ⟨he, hlog⟩
  have hcond : (0 < UInt32.ofNat src.length ∧ off + UInt32.ofNat src.length > ip'.size) ↔
      (st.inode i).size.toNat < off.toNat + src.length := by
    have := hW.1.1
    rw [he.size_eq, gt_iff_lt, UInt32.lt_iff_toNat_lt, UInt32.lt_iff_toNat_lt, hadd, hn]
    simp only [UInt32.toNat_zero]
    omega
  by_cases hgrow : (st.inode i).size.toNat < off.toNat + src.length
  · rw [if_pos (hcond.mpr hgrow)]
    set ip'' : Dinode := { ip' with size := off + UInt32.ofNat src.length }
    have hi' : i < st'.sb.ninodes := by rwa [he.sb]
    have hv : assign st.inode i ip' i = ip' := assign_self ..
    have hslot := he.holds.slotAddr_update hi' ip'' hi' (by rw [hv, he.type_eq]; exact ht)
    rw [hv] at hslot
    apply Spec.bind
    apply iupdate_spec
    apply Spec.pure
    intro c
    have hl : ∀ bn, Logs st.sb st.disk (st.inode i) (st'.update i ip'').disk ip'' bn c ↔
        Logs st.sb st.disk (st.inode i) st'.disk ip' bn c := fun bn =>
      Logs.congr (congrFun hslot (dataSlot bn)) (fun _ => rfl)
    have hblock : st'.sb.iblock i = st.sb.iblock i := by rw [he.sb]
    have hmem : c ∈ (st'.update i ip'').logged ↔ c ∈ st'.logged ∨ c = st.sb.iblock i := by
      rw [← hblock]
      exact mem_logged_write
    rw [hmem, hlog c, WriteLogs, or_assoc]
    simp only [hl, hgrow, true_and]
  · rw [if_neg (fun hc => hgrow (hcond.mp hc))]
    intro c
    rw [hlog c, WriteLogs]
    simp only [hgrow, false_and, or_false]

end Xv6.Fs
