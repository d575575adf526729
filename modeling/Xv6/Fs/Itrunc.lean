import Xv6.Fs.State
import Xv6.Fs.Writei

namespace Xv6.Fs

open Lib

variable {st st' : Store} {i : ℕ} {r : ℕ → ℕ → ℕ}

namespace Dinode

variable (ip : Dinode)

lemma addr_setAddr_zero (k l : ℕ) : (ip.setAddr k 0).addr l = if l = k then 0 else ip.addr l := by
  by_cases hl : l < NDIRECT + 1
  · simp only [addr, setAddr, dif_pos hl]
    split_ifs <;> rfl
  · simp [addr, hl]

lemma setAddr_of_zero {k : ℕ} (h : ip.addr k = 0) : ip.setAddr k 0 = ip := by
  have ha : (ip.setAddr k 0).addrs = ip.addrs := by
    funext j
    simp only [setAddr]
    split_ifs with hj
    · have hk : k < NDIRECT + 1 := hj ▸ j.isLt
      rw [addr, dif_pos hk] at h
      have he : j = ⟨k, hk⟩ := Fin.ext hj
      rw [he]
      exact (UInt32.toNat_inj.mp h).symm
    · rfl
  show { ip with addrs := (ip.setAddr k 0).addrs } = ip
  rw [ha]

def clear (ks : List ℕ) : Dinode := ks.foldl (fun ip k => ip.setAddr k 0) ip

lemma clear_eq (ks : List ℕ) :
    ip.clear ks = { ip with addrs := fun j => if j.val ∈ ks then 0 else ip.addrs j } := by
  induction ks generalizing ip with
  | nil => simp [clear]
  | cons k ks ih =>
    have : ip.clear (k :: ks) = (ip.setAddr k 0).clear ks := rfl
    rw [this, ih, setAddr]
    simp only [mk.injEq, true_and, List.mem_cons]
    funext j
    by_cases hj : j.val ∈ ks
    · simp [hj]
    · by_cases hk : j.val = k <;> simp [hj, hk]

lemma clear_all : (ip.clear (List.range NDIRECT)).setAddr NDIRECT 0 =
    { ip with addrs := fun _ => 0 } := by
  rw [clear_eq, setAddr]
  simp only [mk.injEq, true_and, List.mem_range]
  funext j
  have := j.isLt
  split_ifs with h1 h2
  · rfl
  · rfl
  · omega

end Dinode

def without (r : ℕ → ℕ → ℕ) (i : ℕ) (S : Finset ℕ) : ℕ → ℕ → ℕ :=
    fun j s => if j = i ∧ s ∈ S then 0 else r j s

lemma without_of_notMem {S : Finset ℕ} {s : ℕ} (h : s ∉ S) : without r i S i s = r i s := by
  simp [without, h]

lemma without_insert (S : Finset ℕ) (s : ℕ) :
    without r i (insert s S) = Ledger.upd (without r i S) i s 0 := by
  funext j t
  simp only [without, Ledger.upd, Finset.mem_insert]
  by_cases hj : j = i
  · by_cases ht : t = s <;> simp [hj, ht]
  · simp [hj]

structure Freed (st : Store) (r : ℕ → ℕ → ℕ) (i : ℕ) (S : Finset ℕ) (st' : Store) : Prop where
  owns : Owns st' (without r i S)
  sb : st'.sb = st.sb
  disk : ∀ c, c < st.sb.bmapstart ∨ st.sb.dstart ≤ c → st'.disk c = st.disk c
  logged : ∀ c ∈ st'.logged, c ∈ st.logged ∨ st.sb.bmapstart ≤ c ∧ c < st.sb.dstart

namespace Freed

variable {S : Finset ℕ}

lemma refl (h : Owns st r) : Freed st r i ∅ st where
  owns := by
    have : without r i ∅ = r := by funext j s; simp [without]
    rwa [this]
  sb := rfl
  disk _ _ := rfl
  logged _ := .inl

section

variable (h : Freed st r i S st')
include h

lemma widen {T : Finset ℕ} (hsub : S ⊆ T) (hr : ∀ s ∈ T, s ∉ S → r i s = 0) : Freed st r i T st' where
  __ := h
  owns := by
    refine ⟨h.owns.sb, h.owns.ordered, h.owns.ledger.congr (fun j _ s _ => ?_) (fun _ _ => rfl)⟩
    by_cases hj : j = i
    swap
    · simp [without, hj]
    subst hj
    by_cases hS : s ∈ S
    · simp [without, hS, hsub hS]
    · by_cases hT : s ∈ T
      · simp [without, hS, hT, hr s hT hS]
      · simp [without, hS, hT]

lemma skip {s : ℕ} (hr : r i s = 0) : Freed st r i (insert s S) st' := by
  refine h.widen (Finset.subset_insert s S) (fun t ht hS => ?_)
  rwa [(Finset.mem_insert.mp ht).resolve_right hS]

lemma bfree (hi : i < st.sb.ninodes) {s : ℕ} (hs : s < NSLOT) (hS : s ∉ S) (hr : r i s ≠ 0)
    (B : Halt → Prop) : Spec (bfree (r i s)) st' (fun _ st'' => Freed st r i (insert s S) st'') B := by
  have hi' : i < st'.sb.ninodes := by rwa [h.sb]
  have hval := without_of_notMem (r := r) (i := i) hS
  have hspec := h.owns.bfree hi' hs (by rwa [hval]) B
  have hrange := h.owns.ledger.range i hi' s hs (by rwa [hval])
  rw [hval] at hspec hrange
  refine hspec.imp ?_
  rintro _ st'' ⟨rfl, hown⟩
  have hbb := h.owns.ordered.bblock_lt hrange.2
  rw [h.sb] at hbb
  refine ⟨by rwa [without_insert], h.sb, fun c hc => ?_, fun c hc => ?_⟩
  · rw [st'.free_disk_ne (by rw [h.sb]; omega), h.disk c hc]
  · rcases List.mem_append.mp (show c ∈ st'.logged ++ [st'.sb.bblock (r i s)] from hc) with hold | hnew
    · exact h.logged c hold
    · rw [List.mem_singleton.mp hnew, h.sb]
      exact .inr hbb

lemma itruncDirect (hi : i < st.sb.ninodes) {ks : List ℕ} (hks : ∀ k ∈ ks, k < NDIRECT)
    (hnd : ks.Nodup) (hS : ∀ k ∈ ks, k ∉ S) {ip : Dinode} (hip : ∀ k ∈ ks, ip.addr k = r i k)
    (B : Halt → Prop) :
    Spec (itruncDirect ip ks) st' (fun ip' st'' => ip' = ip.clear ks ∧
    Freed st r i (S ∪ ks.toFinset) st'') B := by
  induction ks generalizing S st' ip with
  | nil => exact ⟨rfl, by simpa using h⟩
  | cons k ks ih =>
    obtain ⟨hk, hks⟩ := List.forall_mem_cons.mp hks
    obtain ⟨hkS, hS⟩ := List.forall_mem_cons.mp hS
    obtain ⟨hkip, hip⟩ := List.forall_mem_cons.mp hip
    obtain ⟨hkks, hnd⟩ := List.nodup_cons.mp hnd
    have hrest : ∀ l ∈ ks, l ∉ insert k S := by
      intro l hl hmem
      rcases Finset.mem_insert.mp hmem with rfl | hmem
      · exact hkks hl
      · exact hS l hl hmem
    have hunion : insert k S ∪ ks.toFinset = S ∪ (k :: ks).toFinset := by
      rw [List.toFinset_cons, Finset.insert_union, Finset.union_insert]
    unfold Fs.itruncDirect
    split_ifs with h0
    · have hrec := ih (h.skip (by rw [← hkip, h0])) hks hnd hrest hip
      rw [hunion] at hrec
      have hclear : ip.clear (k :: ks) = ip.clear ks :=
        congrArg (Dinode.clear · ks) (ip.setAddr_of_zero h0)
      rwa [hclear]
    · apply Spec.bind
      rw [hkip] at h0 ⊢
      refine (h.bfree hi (hk.trans (by decide)) hkS h0 B).imp ?_
      intro _ st'' h'
      have hip' : ∀ l ∈ ks, (ip.setAddr k 0).addr l = r i l := by
        intro l hl
        have hne : l ≠ k := by
          rintro rfl
          exact hkks hl
        rw [Dinode.addr_setAddr_zero, if_neg hne]
        exact hip l hl
      have hrec := ih h' hks hnd hrest hip'
      rwa [hunion] at hrec

lemma itruncWords (hi : i < st.sb.ninodes) {bp : Block} {js : List ℕ}
    (hjs : ∀ j ∈ js, j < NINDIRECT) (hnd : js.Nodup) (hS : ∀ j ∈ js, NDIRECT + 1 + j ∉ S)
    (hbp : ∀ j ∈ js, (bp.word j).toNat = r i (NDIRECT + 1 + j)) (B : Halt → Prop) :
    Spec (itruncWords bp js) st' (fun _ st'' => Freed st r i
    (S ∪ (js.map (NDIRECT + 1 + ·)).toFinset) st'') B := by
  induction js generalizing S st' with
  | nil =>
    apply Spec.pure
    simpa using h
  | cons j js ih =>
    obtain ⟨hj, hjs⟩ := List.forall_mem_cons.mp hjs
    obtain ⟨hjS, hS⟩ := List.forall_mem_cons.mp hS
    obtain ⟨hjbp, hbp⟩ := List.forall_mem_cons.mp hbp
    obtain ⟨hjjs, hnd⟩ := List.nodup_cons.mp hnd
    have hrest : ∀ l ∈ js, NDIRECT + 1 + l ∉ insert (NDIRECT + 1 + j) S := by
      intro l hl hmem
      rcases Finset.mem_insert.mp hmem with he | hmem
      · exact hjjs (Nat.add_left_cancel he ▸ hl)
      · exact hS l hl hmem
    have hunion : insert (NDIRECT + 1 + j) S ∪ (js.map (NDIRECT + 1 + ·)).toFinset =
        S ∪ ((j :: js).map (NDIRECT + 1 + ·)).toFinset := by
      rw [List.map_cons, List.toFinset_cons, Finset.insert_union, Finset.union_insert]
    have hslot : NDIRECT + 1 + j < NSLOT := Nat.add_lt_add_left hj _
    unfold Fs.itruncWords
    split_ifs with h0
    · have hrec := ih (h.skip (by rw [← hjbp, h0]; rfl)) hjs hnd hrest hbp
      rwa [hunion] at hrec
    · apply Spec.bind
      have h0' : (bp.word j).toNat ≠ 0 := fun he => h0 (UInt32.toNat_inj.mp he)
      rw [hjbp] at h0' ⊢
      refine (h.bfree hi hslot hjS h0' B).imp ?_
      intro _ st'' h'
      have hrec := ih h' hjs hnd hrest hbp
      rwa [hunion] at hrec

end

end Freed

lemma Owns.update (h : Owns st r) (hi : i < st.sb.ninodes) (ip : Dinode) : Owns (st.update i ip) r := by
  have hib := h.ordered.iblock_lt hi
  refine ⟨?_, h.ordered, h.ledger.congr (fun _ _ _ _ => rfl) (fun c hc => ?_)⟩
  · have h1 : (st.update i ip).disk 1 = st.disk 1 := assign_of_ne (by omega) ..
    rw [h1]
    exact h.sb
  · exact st.bit_write_of_ge _ h.ordered hc (.inl hib.2)

lemma Holds.addr_eq {v : ℕ → Dinode} (ht : (v i).type ≠ 0) {k : ℕ} (hk : k < NDIRECT + 1) :
    (v i).addr k = ref st.disk v i k := by
  rw [Holds.ref_eq ht, slotAddr, if_pos hk]

lemma Holds.itruncIndirect {v : ℕ → Dinode} (h : Holds st v) (hi : i < st.sb.ninodes)
    (ht : (v i).type ≠ 0) (hf : Freed st (ref st.disk v) i (Finset.range NDIRECT) st') {ip : Dinode}
    (hip : ip.addr NDIRECT = (v i).addr NDIRECT) (B : Halt → Prop) :
    Spec (itruncIndirect ip) st' (fun ip' st'' => ip' = ip.setAddr NDIRECT 0 ∧
      Freed st (ref st.disk v) i (Finset.range NSLOT) st'') B := by
  have hsub : Finset.range NDIRECT ⊆ Finset.range NSLOT := Finset.range_subset_range.mpr (by decide)
  have hword : ∀ j < NINDIRECT, ref st.disk v i (NDIRECT + 1 + j) =
      if (v i).addr NDIRECT = 0 then 0 else ((st.disk ((v i).addr NDIRECT)).word j).toNat := by
    intro j _
    rw [Holds.ref_eq ht, slotAddr, if_neg (by omega), Nat.add_sub_cancel_left]
  have hind : ref st.disk v i NDIRECT = (v i).addr NDIRECT := (Holds.addr_eq ht (by decide)).symm
  unfold Fs.itruncIndirect
  split_ifs with h0
  · refine ⟨(ip.setAddr_of_zero h0).symm, hf.widen hsub (fun s hs hS => ?_)⟩
    rw [Finset.mem_range] at hs hS
    rw [hip] at h0
    rcases Nat.lt_or_ge s (NDIRECT + 1) with hlt | hge
    · rw [show s = NDIRECT by omega, hind, h0]
    · have := hword (s - (NDIRECT + 1)) (by simp only [NSLOT] at hs; omega)
      rwa [if_pos h0, Nat.add_sub_cancel' hge] at this
  · rw [hip] at h0 ⊢
    have hlow := (h.indirect_range hi ht h0).1
    apply Spec.bind
    apply bread_spec
    apply Spec.bind
    rw [hf.disk _ (.inr hlow)]
    refine (hf.itruncWords hi (fun j hj => List.mem_range.mp hj) List.nodup_range
      (fun j _ => by rw [Finset.mem_range]; omega) (fun j hj => ?_) B).imp ?_
    · rw [hword j (List.mem_range.mp hj), if_neg h0]
    · intro _ st'' hf'
      apply Spec.bind
      have hnot : NDIRECT ∉ Finset.range NDIRECT ∪
        ((List.range NINDIRECT).map (NDIRECT + 1 + ·)).toFinset := by
        simp
        omega
      have hb := hf'.bfree hi (s := NDIRECT) (by decide) hnot (by rwa [hind]) B
      rw [hind] at hb
      refine hb.imp (fun _ st3 hf3 => ⟨rfl, ?_⟩)
      convert hf3 using 1
      ext s
      simp only [Finset.mem_range, Finset.mem_insert, Finset.mem_union, List.mem_toFinset, List.mem_map,
        List.mem_range, NSLOT]
      constructor
      · intro hs
        rcases Nat.lt_trichotomy s NDIRECT with hlt | heq | hgt
        · exact .inr (.inl hlt)
        · exact .inl heq
        · exact .inr (.inr ⟨s - (NDIRECT + 1), by omega, by omega⟩)
      · rintro (rfl | hlt | ⟨j, hj, rfl⟩) <;> omega

section

variable (h : Wf st) (hi : i < st.sb.ninodes)
include h hi

lemma Wf.replace {ip' : Dinode} (hsb : st'.sb = st.sb)
    (hdisk : ∀ c, st.sb.dstart ≤ c → st'.disk c = st.disk c)
    (hino : ∀ j < st.sb.ninodes, st'.inode j = if j = i then ip' else st.inode j) (hown : Owns st' r)
    (hr : ∀ s < NSLOT, r i s = if ip'.type = 0 then 0 else slotAddr st.disk ip' s)
    (hother : ∀ j < st.sb.ninodes, j ≠ i → ∀ s < NSLOT, r j s = ref st.disk st.inode j s)
    (hfull : ip'.type ≠ 0 → Full st.disk ip' ip'.size.toNat ∧ ip'.size.toNat ≤ MAXFILE * BSIZE)
    (hzero : ip'.type = 0 → ip'.size = 0) :
    Changed st i ip' (contents st.disk ip') st' := by
  have hrange := hown.ledger.range
  rw [hsb] at hrange
  have hslot : ip'.type ≠ 0 → slotAddr st'.disk ip' = slotAddr st.disk ip' := by
    intro ht
    refine slotAddr_frame hdisk (fun h0 => ?_)
    have := hr NDIRECT (by decide)
    rw [if_neg ht, Holds.indirect_eq] at this
    have hlow := hrange i hi NDIRECT (by decide)
    rw [this] at hlow
    exact (hlow h0).1
  have hslotj : ∀ j < st.sb.ninodes, (st.inode j).type ≠ 0 →
      slotAddr st'.disk (st.inode j) = slotAddr st.disk (st.inode j) :=
    fun j hj htj => slotAddr_frame hdisk (fun h0 => (h.holds.indirect_range hj htj h0).1)
  have hdata : ∀ {ip : Dinode}, slotAddr st'.disk ip = slotAddr st.disk ip →
      (∀ s < NSLOT, slotAddr st.disk ip s ≠ 0 → st.sb.dstart ≤ slotAddr st.disk ip s) → ∀ bn < MAXFILE,
      dataAt st'.disk ip bn = dataAt st.disk ip bn := by
    intro ip hs hlow bn hbn
    rw [dataAt, dataAt, hs]
    split_ifs with h0
    · rfl
    · exact hdisk _ (hlow _ (dataSlot_lt hbn) h0)
  refine ⟨⟨?_, ?_⟩, hsb, by rw [hino i hi, if_pos rfl], ?_,
    fun j hj hji => by rw [hino j hj, if_neg hji], ?_⟩
  · refine ⟨hown.sb, hown.ordered, hown.ledger.congr (fun j hj s hs => ?_) (fun _ _ => rfl)⟩
    rw [hsb] at hj
    rw [ref, hino j hj]
    by_cases hji : j = i
    · subst hji
      rw [if_pos rfl, hr s hs]
      split_ifs with ht
      · rfl
      · rw [hslot ht]
    · rw [if_neg hji, hother j hj hji s hs, ref]
      split_ifs with ht
      · rfl
      · rw [hslotj j hj ht]
  · intro j hj
    rw [hsb] at hj
    rw [hino j hj]
    by_cases hji : j = i
    · rw [if_pos hji]
      intro ht
      refine ⟨fun p hp => ?_, (hfull ht).2⟩
      rw [hslot ht]
      exact (hfull ht).1 p hp
    · rw [if_neg hji]
      intro ht
      refine ⟨fun p hp => ?_, (h.sized j hj ht).2⟩
      rw [hslotj j hj ht]
      exact (h.sized j hj ht).1 p hp
  · by_cases ht : ip'.type = 0
    · simp [contents, hzero ht]
    · refine contents_congr (hfull ht).2 (hdata (hslot ht) (fun s hs h0 => ?_))
      have := hrange i hi s hs
      rw [hr s hs, if_neg ht] at this
      exact (this h0).1
  · intro j hj _ htj
    exact contents_congr (h.sized j hj htj).2 (hdata (hslotj j hj htj)
      (fun s hs h0 => (h.holds.slot_range hj htj hs h0).1))

lemma Wf.itrunc (ht : (st.inode i).type ≠ 0) (B : Halt → Prop) :
    Spec (itrunc i (st.inode i)) st (fun ip' st' =>
      ip' = { st.inode i with addrs := fun _ => 0, size := 0 } ∧ Changed st i ip' [] st' ∧
        ∀ c ∈ st'.logged,
        c ∈ st.logged ∨ (st.sb.bmapstart ≤ c ∧ c < st.sb.dstart) ∨ c = st.sb.iblock i) B := by
  unfold Fs.itrunc
  apply Spec.bind
  refine ((Freed.refl h.holds).itruncDirect hi (fun k hk => List.mem_range.mp hk) List.nodup_range
    (by simp) (fun k hk => Holds.addr_eq ht (Nat.lt_succ_of_lt (List.mem_range.mp hk))) B).imp ?_
  rintro _ st1 ⟨rfl, hf1⟩
  rw [Finset.empty_union, List.toFinset_range] at hf1
  apply Spec.bind
  have haddr : ((st.inode i).clear (List.range NDIRECT)).addr NDIRECT = (st.inode i).addr NDIRECT := by
    rw [Dinode.clear_eq]
    simp [Dinode.addr]
  refine (h.holds.itruncIndirect hi ht hf1 haddr B).imp ?_
  rintro _ st2 ⟨rfl, hf2⟩
  rw [Dinode.clear_all]
  apply Spec.bind
  apply iupdate_spec
  refine Spec.pure ⟨rfl, ?_, fun c hc => ?_⟩
  swap
  · rcases List.mem_append.mp hc with hold | hnew
    · exact (hf2.logged c hold).imp_right .inl
    · rw [List.mem_singleton.mp hnew, hf2.sb]
      exact .inr (.inr rfl)
  set ip' : Dinode := { st.inode i with addrs := fun _ => 0, size := 0 }
  have hib := h.holds.ordered.iblock_lt hi
  have hbm := st.sb.bmapstart_lt
  have hi2 : i < st2.sb.ninodes := by rwa [hf2.sb]
  have hslot : ∀ s, slotAddr st.disk ip' s = 0 := by
    intro s
    simp [slotAddr, Dinode.addr, ip']
  refine h.replace hi hf2.sb (fun c hc => ?_) (fun j hj => ?_) (hf2.owns.update hi2 ip') (fun s hs => ?_)
    (fun j _ hji s _ => by simp [without, hji]) (fun _ => ⟨fun p hp => ?_, Nat.zero_le _⟩) (fun _ => rfl)
  · rw [← hf2.disk c (.inr hc)]
    exact assign_of_ne (by rw [hf2.sb]; omega) ..
  · rw [Store.inode_update]
    split_ifs
    · rfl
    · have := h.holds.ordered.iblock_lt hj
      rw [Store.inode, Store.inode, hf2.sb, hf2.disk _ (.inl this.2)]
  · rw [hslot, ite_self]
    simp [without, hs]
  · exact absurd hp (Nat.not_lt_zero p)

lemma Wf.update {ip' : Dinode}
    (hr : ∀ s < NSLOT, ref st.disk st.inode i s = if ip'.type = 0 then 0 else slotAddr st.disk ip' s)
    (hfull : ip'.type ≠ 0 → Full st.disk ip' ip'.size.toNat ∧ ip'.size.toNat ≤ MAXFILE * BSIZE)
    (hzero : ip'.type = 0 → ip'.size = 0) : Changed st i ip' (contents st.disk ip')
    (st.update i ip') := by
  have hbm := st.sb.bmapstart_lt
  exact h.replace hi rfl (fun c hc => h.holds.update_disk hi ip' (by omega))
    (fun j _ => st.inode_update i ip' j)
    (Owns.update h.holds hi ip') hr (fun _ _ _ _ _ => rfl) hfull hzero

lemma Wf.update_fields (ht : (st.inode i).type ≠ 0) (major minor nlink : Int16) :
    Changed st i { st.inode i with major := major, minor := minor, nlink := nlink }
    (contents st.disk (st.inode i))
      (st.update i { st.inode i with major := major, minor := minor, nlink := nlink }) :=
  h.update hi (fun _ _ => rfl) (fun _ => h.sized i hi ht) (fun h0 => absurd h0 ht)

end

lemma slotAddr_of_addrs_zero {disk : Disk} {ip : Dinode} (h : ip.addrs = fun _ => 0) (s : ℕ) :
    slotAddr disk ip s = 0 := by
  simp [slotAddr, Dinode.addr, h]

lemma Wf.update_empty (h : Wf st) (hi : i < st.sb.ninodes) {ip' : Dinode}
    (haddrs : ip'.addrs = fun _ => 0)
    (hsize : ip'.size = 0) (hold : ∀ s < NSLOT, ref st.disk st.inode i s = 0) :
    Changed st i ip' [] (st.update i ip') := by
  have hc : contents st.disk ip' = [] := by simp [contents, hsize]
  rw [← hc]
  refine h.update hi (fun s hs => ?_)
    (fun _ => ⟨fun p hp => ?_, by rw [hsize]; exact Nat.zero_le _⟩) (fun _ => hsize)
  · rw [hold s hs, slotAddr_of_addrs_zero haddrs, ite_self]
  · rw [hsize] at hp
    exact absurd hp (Nat.not_lt_zero p)

lemma Changed.trans {st'' : Store} {ip1 ip2 : Dinode} {c1 c2 : List UInt8} (h1 : Changed st i ip1 c1 st')
    (h2 : Changed st' i ip2 c2 st'') : Changed st i ip2 c2 st'' where
  __ := h2
  sb := h2.sb.trans h1.sb
  others j hj hji := (h2.others j (by rwa [h1.sb]) hji).trans (h1.others j hj hji)
  other_contents j hj hji ht := by
    have hj' : j < st'.sb.ninodes := by rwa [h1.sb]
    have h := h2.other_contents j hj' hji
    rw [h1.others j hj hji] at h
    rw [h ht, h1.other_contents j hj hji ht]

lemma Wf.ifree (h : Wf st) (hi : i < st.sb.ninodes) (ht : (st.inode i).type ≠ 0) (B : Halt → Prop) :
    Spec (ifree i (st.inode i)) st (fun _ st' => (∃ ip', ip'.type = 0 ∧ Changed st i ip' [] st') ∧
    ∀ c ∈ st'.logged,
        c ∈ st.logged ∨ (st.sb.bmapstart ≤ c ∧ c < st.sb.dstart) ∨ c = st.sb.iblock i) B := by
  unfold Fs.ifree
  apply Spec.bind
  refine (h.itrunc hi ht B).imp ?_
  rintro _ st' ⟨rfl, hch, hlog⟩
  apply iupdate_spec
  set ip' : Dinode := { st.inode i with addrs := fun _ => 0, size := 0 }
  have hi' : i < st'.sb.ninodes := by rwa [hch.sb]
  refine ⟨⟨{ ip' with type := 0 }, rfl,
    hch.trans (hch.wf.update_empty hi' rfl rfl (fun s _ => ?_))⟩, fun c hc => ?_⟩
  · rw [ref, hch.inode]
    split_ifs
    · rfl
    · exact slotAddr_of_addrs_zero rfl s
  · rcases List.mem_append.mp hc with hold | hnew
    · exact hlog c hold
    · rw [List.mem_singleton.mp hnew, hch.sb]
      exact .inr (.inr rfl)

end Xv6.Fs
