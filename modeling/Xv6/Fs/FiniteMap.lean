import Xv6.Fs.Dirlink
import Xv6.Fs.Itrunc

namespace Xv6.Fs

open Lib Prog

def Answers (fs : FsState) (dp : ℕ) (f : List UInt8 → Option ℕ) : Prop :=
  ∀ m, (f m = none → ((Sys.dirlookup dp m).run handler).run fs = .ok (none, fs)) ∧
    ∀ i, f m = some i → ¬ CacheFull fs i →
      ∃ off fs', ((Sys.dirlookup dp m).run handler).run fs = .ok (some (i, off), fs')

structure Entered (old new : List UInt8) (k : ℕ) (de : Dirent) : Prop where
  place : k ≤ nslots old
  free : k < nslots old → (slot old k).inum = 0
  size : nslots new = max (nslots old) (k + 1)
  entry : slot new k = de
  kept : ∀ j < nslots old, j ≠ k → slot new j = slot old j

structure Cleared (old new : List UInt8) (off : ℕ) : Prop where
  place : ∃ k < nslots old, off = DIRENT * k ∧ (slot old k).inum ≠ 0 ∧ (slot new k).inum = 0
  size : nslots new = nslots old
  kept : ∀ j < nslots old, DIRENT * j ≠ off → slot new j = slot old j

lemma firstFree_lt_iff {data : List UInt8} :
    firstFree data < nslots data ↔ ∃ k < nslots data, (slot data k).inum = 0 := by
  refine ⟨fun h => ⟨_, h, slot_firstFree h⟩, fun ⟨k, hk, hfree⟩ => ?_⟩
  by_contra hc
  have hused : ∀ j < nslots data, (slot data j).inum ≠ 0 := by
    unfold firstFree at hc
    cases hf : (List.range (nslots data)).find? (fun k => (slot data k).inum = 0) with
    | none => exact fun j hj => by simpa using List.find?_eq_none.mp hf j (List.mem_range.mpr hj)
    | some j =>
      rw [hf] at hc
      exact absurd (List.mem_range.mp (List.mem_of_find?_eq_some hf)) hc
  exact hused k hk hfree

lemma entered (data name : List UInt8) (inum : ℕ) :
    Entered data (setSlot data (firstFree data) (newEntry name inum)) (firstFree data)
      ⟨UInt16.ofNat inum, strncpy DIRSIZ name⟩ where
  place := firstFree_le
  free := slot_firstFree
  size := nslots_setSlot firstFree_le (length_newEntry name inum)
  entry := (slot_setSlot_self firstFree_le (length_newEntry name inum)).trans (ofBytes_newEntry name inum)
  kept _ hj hjk := slot_setSlot_ne firstFree_le (length_newEntry name inum) hj hjk

lemma cleared {data m : List UInt8} {k : ℕ} (h : lookup data m = some k) :
    Cleared data (setSlot data k noEntry) (DIRENT * k) := by
  obtain ⟨hk, hhit, -⟩ := lookup_eq_some h
  have hsize : nslots (setSlot data k noEntry) = max (nslots data) (k + 1) :=
    nslots_setSlot hk.le length_noEntry
  refine ⟨⟨k, hk, rfl, hhit.1, ?_⟩, by omega, fun j hj hjk => ?_⟩
  · rw [slot_setSlot_self hk.le length_noEntry, inum_noEntry]
  · exact slot_setSlot_ne hk.le length_noEntry hj (fun h => hjk (congrArg _ h))

namespace Directory

variable {fs fs' : FsState} {dp : ℕ} {ip : Dinode} {name m : List UInt8} {inum k : ℕ}

lemma answers (h : Directory fs dp ip) : Answers fs dp (names (entries fs ip)) := by
  intro m
  refine ⟨fun hn => h.dirlookup_none (Option.map_eq_none_iff.mp hn), fun i hi hroom => ?_⟩
  obtain ⟨k, hk, rfl⟩ := Option.map_eq_some_iff.mp hi
  obtain ⟨fs', hget⟩ := iget_run hroom
  exact ⟨_, fs', h.dirlookup_some hk hget⟩

lemma dirlookup_inv {i off : ℕ} (h : Directory fs dp ip)
    (hrun : ((Sys.dirlookup dp m).run handler).run fs = .ok (some (i, off), fs')) :
    ∃ k, lookup (entries fs ip) m = some k ∧ off = DIRENT * k ∧ (iget i).run fs = .ok (⟨⟩, fs') := by
  cases hl : lookup (entries fs ip) m with
  | none =>
    rw [h.dirlookup_none hl] at hrun
    cases hrun
  | some k =>
    by_cases hroom : CacheFull fs (slot (entries fs ip) k).inum.toNat
    · rw [h.dirlookup_full hl hroom] at hrun
      cases hrun
    · obtain ⟨fs1, hget⟩ := iget_run hroom
      rw [h.dirlookup_some hl hget] at hrun
      cases hrun
      exact ⟨k, rfl, rfl, hget⟩

end Directory

theorem dirlink_finite_map {fs : FsState} {dp : ℕ} {ip : Dinode} (h : Directory fs dp ip)
    (hd : Distinct (entries fs ip))
    (hroom : (∃ k < nslots (entries fs ip), (slot (entries fs ip) k).inum = 0) ∨
      (ip.size.toNat + DIRENT ≤ MAXFILE * BSIZE ∧
        need fs.store.disk ip ip.size.toNat DIRENT ≤ fs.store.freeSet.card))
    (name : List UInt8) (inum : ℕ) (hpos : 1 ≤ inum) (hle : inum ≤ 65535)
    (hcache : ∀ i, names (entries fs ip) name = some i → ¬ CacheFull fs i) :
    Answers fs dp (names (entries fs ip)) ∧
    (((Sys.dirlink dp name inum).run handler).run fs = .ok (false, fs) ↔
      ∃ k < nslots (entries fs ip), Hits (entries fs ip) name k) ∧
    ((¬ ∃ k < nslots (entries fs ip), Hits (entries fs ip) name k) →
      ∃ fs' ip' k, ((Sys.dirlink dp name inum).run handler).run fs = .ok (true, fs') ∧
      Directory fs' dp ip' ∧
        Entered (entries fs ip) (entries fs' ip') k ⟨UInt16.ofNat inum, strncpy DIRSIZ name⟩ ∧
        Distinct (entries fs' ip') ∧ (∀ i, CacheFull fs' i ↔ CacheFull fs i) ∧
        Answers fs' dp (fun m => if cstr DIRSIZ m = cstr DIRSIZ name then some inum else names
        (entries fs ip) m)) ∧
    ∀ m i off fs₁, ((Sys.dirlookup dp m).run handler).run fs = .ok (some (i, off), fs₁) →
      ∃ fs₂ ip₂, ((Sys.writei dp (List.replicate DIRENT 0) (UInt32.ofNat off)).run handler).run fs₁ =
          .ok (some DIRENT, fs₂) ∧ Directory fs₂ dp ip₂ ∧ Cleared (entries fs ip) (entries fs₂ ip₂) off ∧
        Distinct (entries fs₂ ip₂) ∧
        Answers fs₂ dp (fun n => if cstr DIRSIZ n = cstr DIRSIZ m then none else names
          (entries fs ip) n) := by
  rw [exists_hits_iff]
  refine ⟨h.answers, ?_, fun hnone => ?_, fun m i off fs₁ hrun => ?_⟩
  · cases hl : lookup (entries fs ip) name with
    | none =>
      obtain ⟨fs', ip', hrun, -⟩ := h.dirlink_enter inum hl (hroom.imp_left firstFree_lt_iff.mpr)
      simp [hrun]
    | some k => simp [h.dirlink_bound inum hl (hcache _ (by rw [names, hl, Option.map_some]))]
  · rw [not_not] at hnone
    obtain ⟨fs', ip', hrun, hdir, hch, hfull, -⟩ :=
      h.dirlink_enter inum hnone (hroom.imp_left firstFree_lt_iff.mpr)
    have hnew : entries fs' ip' = _ := hch.contents
    have hnames : names (entries fs' ip') =
        fun m => if cstr DIRSIZ m = cstr DIRSIZ name then some inum else names (entries fs ip) m :=
      funext fun m => by rw [hnew, names_enter firstFree_le slot_firstFree hnone hd hpos hle]
    refine ⟨fs', ip', firstFree (entries fs ip), hrun, hdir, ?_, ?_, hfull, hnames ▸ hdir.answers⟩
    · rw [hnew]
      exact entered (entries fs ip) name inum
    · rw [hnew]
      exact hd.enter firstFree_le hnone
  · obtain ⟨k, hl, rfl, hget⟩ := h.dirlookup_inv hrun
    have h₁ := h.get hget
    have hk := (lookup_eq_some hl).1
    have hsame : entries fs₁ ip = entries fs ip := by
      rw [entries, entries, iget_store hget]
    have hk₁ : k < nslots (entries fs₁ ip) := by rwa [hsame]
    have hmax : DIRENT * k + DIRENT ≤ MAXFILE * BSIZE := (h.slot_end hk).trans h.size_le
    have hneed : need fs₁.store.disk ip (DIRENT * k) DIRENT ≤ fs₁.store.freeSet.card := by
      rw [h₁.need_slot hk₁]
      exact Nat.zero_le _
    obtain ⟨fs₂, ip₂, hrun₂, hdir, hch, -⟩ := h₁.writei length_noEntry hk₁.le hmax hneed
    have hnew : entries fs₂ ip₂ = setSlot (entries fs ip) k noEntry := hsame ▸ hch.contents
    have hnames : names (entries fs₂ ip₂) =
        fun n => if cstr DIRSIZ n = cstr DIRSIZ m then none else names (entries fs ip) n :=
      funext fun n => by rw [hnew, names_erase hd hl]
    refine ⟨fs₂, ip₂, hrun₂, hdir, ?_, ?_, hnames ▸ hdir.answers⟩
    · rw [hnew]
      exact cleared hl
    · rw [hnew]
      exact hd.erase hk.le

def rootLocked (n : ℕ) : FsState where
  store := mkfsImage
  icache := fun i => if i = ROOTINO then some ⟨1, true, some rootInode⟩
    else if 0 < i ∧ i ≤ n then some ⟨1, false, none⟩ else none
  used := n
  kern := ⟨fun _ => ⟨.none, 0, false, false, 0, 0⟩, 1, fun _ => ⟨fun _ => none, ROOTINO⟩⟩

lemma rootLocked_directory (n : ℕ) : Directory (rootLocked n) ROOTINO rootInode where
  wf := mkfsImage_wf
  lt := show ROOTINO < mkfsSb.ninodes by decide
  copy := mkfsImage_root
  locked := ⟨1, rfl⟩
  dir := rfl
  aligned := by decide
  refs i e he := by
    simp only [rootLocked] at he
    split_ifs at he
    · obtain rfl := Option.some.inj he
      exact Nat.one_pos
    · obtain rfl := Option.some.inj he
      exact Nat.one_pos

lemma root_slot : ∀ k < 32, slot (contents mkfsDisk rootInode) k =
    if k = 0 then ⟨1, 46 :: List.replicate 13 0⟩ else if k = 1 then ⟨1, 46 :: 46 :: List.replicate 12 0⟩
    else ⟨0, List.replicate 14 0⟩ := by decide +kernel

lemma root_nslots : nslots (contents mkfsDisk rootInode) = 32 := by
  rw [nslots, contents_length]
  rfl

lemma root_distinct : Distinct (contents mkfsDisk rootInode) := by
  have hall : ∀ j < 32, ∀ k < 32, (slot (contents mkfsDisk rootInode) j).inum ≠ 0 →
      (slot (contents mkfsDisk rootInode) k).inum ≠ 0 → j < 2 ∧ k < 2 := by
    intro j hj k hk uj uk
    rw [root_slot j hj] at uj
    rw [root_slot k hk] at uk
    constructor <;> by_contra hc
    · exact uj (by rw [if_neg (by omega), if_neg (by omega)])
    · exact uk (by rw [if_neg (by omega), if_neg (by omega)])
  intro j hj k hk uj uk hjk
  rw [root_nslots] at hj hk
  obtain ⟨hj2, hk2⟩ := hall j hj k hk uj uk
  rw [root_slot j hj, root_slot k hk] at hjk
  interval_cases j <;> interval_cases k
  · rfl
  · exact absurd hjk (by decide)
  · exact absurd hjk (by decide)
  · rfl

lemma root_free : ∃ k < nslots (contents mkfsDisk rootInode),
    (slot (contents mkfsDisk rootInode) k).inum = 0 :=
  ⟨2, by rw [root_nslots]; decide, by rw [root_slot 2 (by decide)]; rfl⟩

lemma root_lookup {m : List UInt8} (h1 : namecmp m (46 :: List.replicate 13 0) ≠ 0)
    (h2 : namecmp m (46 :: 46 :: List.replicate 12 0) ≠ 0) :
    lookup (contents mkfsDisk rootInode) m = none := by
  rw [lookup_eq_none_iff]
  rintro k hk ⟨hused, hname⟩
  rw [root_nslots] at hk
  rw [root_slot k hk] at hused hname
  split_ifs at hused hname
  · exact h1 hname
  · exact h2 hname
  · exact hused rfl

lemma root_new : lookup (contents mkfsDisk rootInode) [102] = none := root_lookup (by decide) (by decide)

theorem dirlink_finite_map_root :
    ∃ fs', ((Sys.dirlink ROOTINO [102] 2).run handler).run (rootLocked 1) = .ok (true, fs') := by
  have hnames : names (contents mkfsDisk rootInode) [102] = none := by
    rw [names, root_new, Option.map_none]
  obtain ⟨-, -, henter, -⟩ := dirlink_finite_map (rootLocked_directory 1) root_distinct
    (.inl root_free) [102] 2 (by decide) (by decide) (fun i hi => by cases hnames.symm.trans hi)
  obtain ⟨fs', -, -, hrun, -⟩ := henter (by rw [exists_hits_iff, not_not]; exact root_new)
  exact ⟨fs', hrun⟩

theorem dirlink_bound_cache_full : ∃ fs ip, Directory fs ROOTINO ip ∧ Distinct (entries fs ip) ∧
    (∃ k < nslots (entries fs ip), (slot (entries fs ip) k).inum = 0) ∧
    (∃ k < nslots (entries fs ip), Hits (entries fs ip) [102] k) ∧
    ((Sys.dirlink ROOTINO [102] 60).run handler).run fs = .error (.panic .igetNoInodes) := by
  obtain ⟨fs, ip, -, hdir, hch, hcache, -⟩ :=
    (rootLocked_directory NINODE).dirlink_enter 60 root_new (.inl (firstFree_lt_iff.mpr root_free))
  have hff : firstFree (contents mkfsDisk rootInode) = 2 := by
    refine firstFree_of_first (by rw [root_nslots]; decide) (by rw [root_slot 2 (by decide)]; rfl)
      (fun j hj => ?_)
    interval_cases j
    · rw [root_slot 0 (by decide)]
      decide
    · rw [root_slot 1 (by decide)]
      decide
  have hnew : entries fs ip = setSlot (contents mkfsDisk rootInode) 2 (newEntry [102] 60) := by
    rw [← hff]
    exact hch.contents
  have hent : Entered (contents mkfsDisk rootInode) (entries fs ip) 2 ⟨60, strncpy DIRSIZ [102]⟩ := by
    rw [hnew, ← hff]
    exact entered (contents mkfsDisk rootInode) [102] 60
  have hd : Distinct (entries fs ip) := by
    rw [hnew, ← hff]
    exact root_distinct.enter firstFree_le root_new
  have hsize : nslots (entries fs ip) = 32 := by rw [hent.size, root_nslots]; rfl
  have hhit : Hits (entries fs ip) [102] 2 := by
    rw [Hits, hent.entry]
    decide
  have hfull : CacheFull fs 60 := (hcache 60).mpr ⟨rfl, le_refl _⟩
  refine ⟨fs, ip, hdir, hd, ⟨3, by omega, ?_⟩, ⟨2, by omega, hhit⟩, ?_⟩
  · rw [hent.kept 3 (by rw [root_nslots]; decide) (by decide), root_slot 3 (by decide)]
    rfl
  · refine hdir.dirlink_cacheFull 60 (hd.lookup_eq_some_iff.mpr ⟨by omega, hhit⟩) ?_
    rw [hent.entry]
    exact hfull

theorem dirlink_returns_iff {fs : FsState} {dp : ℕ} {ip : Dinode} (h : Directory fs dp ip)
    (hblocks : ip.size.toNat + DIRENT ≤ MAXFILE * BSIZE →
      need fs.store.disk ip ip.size.toNat DIRENT ≤ fs.store.freeSet.card) (name : List UInt8) (inum : ℕ) :
    (∃ r fs', ((Sys.dirlink dp name inum).run handler).run fs = .ok (r, fs')) ↔
      (names (entries fs ip) name = none →
      (∃ k < nslots (entries fs ip), (slot (entries fs ip) k).inum = 0) ∨
        ip.size.toNat + DIRENT ≤ MAXFILE * BSIZE) ∧
      ∀ i, names (entries fs ip) name = some i → ¬ CacheFull fs i := by
  rw [← firstFree_lt_iff]
  cases hl : lookup (entries fs ip) name with
  | none =>
    have hn : names (entries fs ip) name = none := by rw [names, hl, Option.map_none]
    rw [hn]
    by_cases hroom : firstFree (entries fs ip) < nslots (entries fs ip) ∨
      ip.size.toNat + DIRENT ≤ MAXFILE * BSIZE
    · obtain ⟨fs', ip', hrun, -⟩ :=
        h.dirlink_enter inum hl (hroom.imp_right fun hmax => ⟨hmax, hblocks hmax⟩)
      simp [hrun, hroom]
    · rw [not_or, not_lt, not_le] at hroom
      have hrun := h.dirlink_no_room inum hl hroom.1 hroom.2
      simp [hrun, hroom]
  | some k =>
    have hn : names (entries fs ip) name = some (slot (entries fs ip) k).inum.toNat := by
      rw [names, hl, Option.map_some]
    rw [hn]
    by_cases hroom : CacheFull fs (slot (entries fs ip) k).inum.toNat
    · simp [h.dirlink_cacheFull inum hl hroom, hroom]
    · simp [h.dirlink_bound inum hl hroom, hroom]

theorem dirlink_returns_root :
    ∃ r fs', ((Sys.dirlink ROOTINO [102] 2).run handler).run (rootLocked 1) = .ok (r, fs') := by
  have hnames : names (entries (rootLocked 1) rootInode) [102] = none := by
    rw [names]
    exact Option.map_eq_none_iff.mpr root_new
  have hneed : need mkfsDisk rootInode 512 DIRENT = 1 := by decide +kernel
  refine (dirlink_returns_iff (rootLocked_directory 1) (fun _ => ?_) [102] 2).mpr
    ⟨fun _ => .inl root_free, fun i hi => by cases hnames.symm.trans hi⟩
  have hfree : 60 ∈ mkfsImage.freeSet :=
    Finset.mem_filter.mpr ⟨Finset.mem_range.mpr (by decide), by rw [mkfsImage_bit (by decide)]; decide⟩
  exact hneed.trans_le (Finset.card_pos.mpr ⟨60, hfree⟩)

section Fill

def usedSlots (data : List UInt8) : Finset ℕ :=
  (Finset.range (nslots data)).filter (fun k => (slot data k).inum ≠ 0)

lemma Entered.card_usedSlots {old new : List UInt8} {k : ℕ} {de : Dirent} (h : Entered old new k de)
    (hde : de.inum ≠ 0) : (usedSlots new).card = (usedSlots old).card + 1 := by
  have hk : k ∉ usedSlots old := by
    intro hmem
    rw [usedSlots, Finset.mem_filter, Finset.mem_range] at hmem
    exact hmem.2 (h.free hmem.1)
  have heq : usedSlots new = insert k (usedSlots old) := by
    ext j
    have hplace := h.place
    rw [Finset.mem_insert, usedSlots, usedSlots, Finset.mem_filter, Finset.mem_filter, Finset.mem_range,
      Finset.mem_range, h.size]
    by_cases hjk : j = k
    · subst hjk
      rw [h.entry]
      simp [hde]
    · constructor
      · rintro ⟨hj, hused⟩
        have hj' : j < nslots old := by omega
        exact .inr ⟨hj', by rwa [← h.kept j hj' hjk]⟩
      · rintro (hj | ⟨hj, hused⟩)
        · exact absurd hj hjk
        · exact ⟨by omega, by rwa [h.kept j hj hjk]⟩
  rw [heq, Finset.card_insert_of_notMem hk]

lemma need_entry_le (disk : Disk) (ip : Dinode) (k : ℕ) : need disk ip (DIRENT * k) DIRENT ≤ 2 := by
  have hsub : unmapped disk ip (DIRENT * k) DIRENT ⊆ {DIRENT * k / BSIZE} := by
    intro bn hbn
    rw [unmapped, Finset.mem_filter] at hbn
    rw [Finset.mem_singleton]
    have h1 := hbn.2.1
    have h2 := hbn.2.2.1
    simp only [DIRENT, BSIZE] at *
    omega
  have hcard := Finset.card_le_card hsub
  rw [Finset.card_singleton] at hcard
  rw [need]
  split_ifs <;> omega

lemma Wf.card_freeSet_alone {st : Store} {dp : ℕ} (h : Wf st)
    (halone : ∀ j < st.sb.ninodes, j ≠ dp → (st.inode j).addrs = fun _ => 0) :
    st.sb.size - st.sb.dstart - NSLOT ≤ st.freeSet.card := by
  have hsub : Finset.Ico st.sb.dstart st.sb.size \ (Finset.range NSLOT).image (ref st.disk st.inode dp) ⊆
      st.freeSet := by
    intro b hb
    rw [Finset.mem_sdiff, Finset.mem_Ico, Finset.mem_image] at hb
    rw [Store.freeSet, Finset.mem_filter, Finset.mem_range, ← Bool.not_eq_true,
      h.holds.ledger.bits b hb.1.2]
    refine ⟨hb.1.2, ?_⟩
    rintro (hlt | ⟨i, hi, s, hs, hib⟩)
    · omega
    · by_cases hid : i = dp
      · exact hb.2 ⟨s, Finset.mem_range.mpr hs, hid ▸ hib⟩
      · rw [ref, slotAddr_of_addrs_zero (halone i hi hid), ite_self] at hib
        have := h.holds.dstart_pos
        omega
  have hcard := Finset.card_le_card hsub
  have himage : ((Finset.range NSLOT).image (ref st.disk st.inode dp)).card ≤ NSLOT :=
    Finset.card_image_le.trans (Finset.card_range _).le
  have hdiff := Finset.le_card_sdiff ((Finset.range NSLOT).image (ref st.disk st.inode dp))
    (Finset.Ico st.sb.dstart st.sb.size)
  rw [Nat.card_Ico] at hdiff
  omega

def fileName (j : ℕ) : List UInt8 := [120, UInt8.ofNat (j % 255 + 1), UInt8.ofNat (j / 255 + 1)]

lemma cstr_fileName_inj {i j : ℕ} (hi : i < 5000) (hj : j < 5000)
    (h : cstr DIRSIZ (fileName i) = cstr DIRSIZ (fileName j)) : i = j := by
  have hbyte : ∀ n < 255, (UInt8.ofNat (n + 1)).toNat = n + 1 := fun n hn =>
    UInt8.toNat_ofNat_of_lt' (by rw [show UInt8.size = 256 from rfl]; omega)
  have hne : ∀ n < 255, UInt8.ofNat (n + 1) ≠ 0 := by
    intro n hn h0
    have := hbyte n hn
    rw [h0] at this
    exact absurd this (by simp)
  have hstr : ∀ n < 5000, cstr DIRSIZ (fileName n) = fileName n := by
    intro n hn
    have h1 := hne (n % 255) (by omega)
    have h2 := hne (n / 255) (by omega)
    rw [fileName]
    generalize UInt8.ofNat (n % 255 + 1) = a at h1
    generalize UInt8.ofNat (n / 255 + 1) = b at h2
    simp [cstr, h1, h2]
  rw [hstr i hi, hstr j hj, fileName, fileName] at h
  simp only [List.cons.injEq, true_and, and_true] at h
  have h1 := congrArg UInt8.toNat h.1
  have h2 := congrArg UInt8.toNat h.2
  rw [hbyte _ (by omega), hbyte _ (by omega)] at h1 h2
  omega

structure Filled (fs : FsState) (ip : Dinode) (n : ℕ) : Prop where
  directory : Directory fs ROOTINO ip
  distinct : Distinct (entries fs ip)
  count : (usedSlots (entries fs ip)).card = n + 2
  fresh : ∀ j, n ≤ j → j < 5000 → lookup (entries fs ip) (fileName j) = none
  sb : fs.store.sb = mkfsSb
  alone : ∀ j < fs.store.sb.ninodes, j ≠ ROOTINO → (fs.store.inode j).addrs = fun _ => 0
  room : ∀ i, ¬ CacheFull fs i

namespace Filled

variable {fs : FsState} {ip : Dinode} {n : ℕ}

lemma free (h : Filled fs ip n) : 2 ≤ fs.store.freeSet.card := by
  have := h.directory.wf.card_freeSet_alone h.alone
  rw [h.sb] at this
  exact le_trans (by decide) this

lemma need_le (h : Filled fs ip n) :
    need fs.store.disk ip ip.size.toNat DIRENT ≤ fs.store.freeSet.card := by
  rw [h.directory.size_eq]
  exact (need_entry_le _ _ _).trans h.free

lemma used_le (h : Filled fs ip n) : n + 2 ≤ nslots (entries fs ip) := by
  rw [← h.count]
  exact (Finset.card_filter_le _ _).trans (Finset.card_range _).le

lemma step (h : Filled fs ip n) (hn : n + 2 < MAXFILE * BSIZE / DIRENT) :
    ∃ fs' ip', ((Sys.dirlink ROOTINO (fileName n) 2).run handler).run fs = .ok (true, fs') ∧
    Filled fs' ip' (n + 1) := by
  have hdir := h.directory
  have hN : MAXFILE * BSIZE / DIRENT = 4480 := rfl
  have hl := h.fresh n (le_refl _) (by omega)
  have hroom : firstFree (entries fs ip) < nslots (entries fs ip) ∨
    (ip.size.toNat + DIRENT ≤ MAXFILE * BSIZE ∧
      need fs.store.disk ip ip.size.toNat DIRENT ≤ fs.store.freeSet.card) := by
    by_cases hff : firstFree (entries fs ip) < nslots (entries fs ip)
    · exact .inl hff
    · refine .inr ⟨?_, h.need_le⟩
      have hall : usedSlots (entries fs ip) = Finset.range (nslots (entries fs ip)) := by
        refine Finset.filter_true_of_mem
          (fun k hk h0 => hff (firstFree_lt_iff.mpr ⟨k, Finset.mem_range.mp hk, h0⟩))
      have hc := h.count
      rw [hall, Finset.card_range] at hc
      have hM : MAXFILE * BSIZE = 71680 := rfl
      rw [hdir.size_eq, hc, hM]
      simp only [DIRENT]
      omega
  obtain ⟨fs', ip', hrun, hdir', hch, hfull, -⟩ := hdir.dirlink_enter 2 hl hroom
  have hnew : entries fs' ip' = _ := hch.contents
  have hent : Entered (entries fs ip) (entries fs' ip') (firstFree (entries fs ip))
      ⟨2, strncpy DIRSIZ (fileName n)⟩ := by
    rw [hnew]
    exact entered (entries fs ip) (fileName n) 2
  refine ⟨fs', ip', hrun, hdir', ?_, ?_, fun j hj hlt => ?_, hch.sb.trans h.sb, fun j hj hne => ?_,
    fun i => ?_⟩
  · rw [hnew]
    exact h.distinct.enter firstFree_le hl
  · rw [hent.card_usedSlots (show (2 : UInt16) ≠ 0 by decide), h.count]
  · have hnames : names (setSlot (entries fs ip) (firstFree (entries fs ip))
      (newEntry (fileName n) 2)) (fileName j) =
        _ := names_enter firstFree_le slot_firstFree hl h.distinct (by decide) (by decide)
    have hne : cstr DIRSIZ (fileName j) ≠ cstr DIRSIZ (fileName n) := by
      intro he
      have := cstr_fileName_inj hlt (by omega) he
      omega
    rw [if_neg hne, ← hnew, names, names, h.fresh j (by omega) hlt, Option.map_none] at hnames
    exact Option.map_eq_none_iff.mp hnames
  · rw [hch.sb] at hj
    rw [hch.others j hj hne]
    exact h.alone j hj hne
  · rw [hfull]
    exact h.room i

end Filled

def linkAll (dp inum : ℕ) : List (List UInt8) → FsProg Bool
  | [] => return true
  | name :: rest => do
    if ← Sys.dirlink dp name inum then linkAll dp inum rest else return false

lemma Filled.run {fs : FsState} {ip : Dinode} {n d : ℕ} (h : Filled fs ip n)
    (hd : n + d + 2 ≤ MAXFILE * BSIZE / DIRENT) :
    ∃ l fs' ip', ((linkAll ROOTINO 2 l).run handler).run fs = .ok (true, fs') ∧
    Filled fs' ip' (n + d) := by
  induction d generalizing fs ip n with
  | zero => exact ⟨[], fs, ip, rfl, h⟩
  | succ d ih =>
    obtain ⟨fs1, ip1, hrun, h1⟩ := h.step (by omega)
    obtain ⟨l, fs', ip', hrun', h'⟩ := ih h1 (by omega)
    refine ⟨fileName n :: l, fs', ip', ?_, ?_⟩
    · rw [linkAll, run_bind_ok hrun]
      exact hrun'
    · rwa [show n + (d + 1) = n + 1 + d by omega]

def emptyFile : Dinode := { Dinode.zero with type := T_FILE, nlink := 1 }

def oneFile : FsState := { rootLocked 2 with store := mkfsImage.update 2 emptyFile }

lemma oneFile_changed : Changed mkfsImage 2 emptyFile [] oneFile.store := by
  refine mkfsImage_wf.update_empty (show 2 < mkfsSb.ninodes by decide) rfl rfl (fun s hs => ?_)
  rw [show mkfsImage.disk = mkfsDisk from rfl, mkfsImage_ref (by decide) hs,
    if_neg (fun h => absurd h.1 (by decide))]

lemma oneFile_inode {j : ℕ} (hj : j < NINODES) : oneFile.store.inode j =
    if j = 2 then emptyFile else if j = ROOTINO then rootInode else Dinode.zero := by
  rw [oneFile, Store.inode_update, mkfsImage_inode hj]

lemma oneFile_entries : entries oneFile rootInode = contents mkfsDisk rootInode := by
  have h := oneFile_changed.other_contents ROOTINO (show ROOTINO < mkfsSb.ninodes by decide) (by decide)
  rw [mkfsImage_root] at h
  exact h (by decide)

lemma oneFile_filled : Filled oneFile rootInode 0 where
  directory := by
    refine ⟨oneFile_changed.wf, show ROOTINO < mkfsSb.ninodes by decide, ?_, ⟨1, rfl⟩, rfl, by decide,
      (rootLocked_directory 2).refs⟩
    exact (oneFile_inode (by decide)).trans ((if_neg (by decide)).trans (if_pos rfl))
  distinct := by
    rw [oneFile_entries]
    exact root_distinct
  count := by
    have hused : usedSlots (contents mkfsDisk rootInode) = {0, 1} := by
      ext k
      rw [usedSlots, Finset.mem_filter, Finset.mem_range, root_nslots, Finset.mem_insert,
        Finset.mem_singleton]
      constructor
      · rintro ⟨hk, hused⟩
        by_contra hc
        rw [root_slot k hk, if_neg (by tauto), if_neg (by tauto)] at hused
        exact hused rfl
      · rintro (rfl | rfl)
        · exact ⟨by decide, by rw [root_slot 0 (by decide)]; decide⟩
        · exact ⟨by decide, by rw [root_slot 1 (by decide)]; decide⟩
    rw [oneFile_entries, hused]
    rfl
  fresh j _ _ := by
    rw [oneFile_entries]
    refine root_lookup ?_ ?_ <;> simp [namecmp, strncmp, fileName]
  sb := rfl
  alone j hj hne := by
    rw [oneFile_inode hj, if_neg hne]
    split_ifs <;> rfl
  room i := by
    rintro ⟨-, hfull⟩
    exact absurd hfull (by decide)

end Fill

theorem dirlink_full_directory_panics : ∃ l fs ip,
    ((linkAll ROOTINO 2 l).run handler).run oneFile = .ok (true, fs) ∧ Directory fs ROOTINO ip ∧
    Distinct (entries fs ip) ∧ 2 ≤ fs.store.freeSet.card ∧ (∀ i, ¬ CacheFull fs i) ∧
    ((Sys.dirlink ROOTINO (fileName 4478) 2).run handler).run fs = .error (.panic .dirlink) := by
  have hN : MAXFILE * BSIZE / DIRENT = 4480 := rfl
  obtain ⟨l, fs, ip, hrun, h⟩ := oneFile_filled.run (d := 4478) (by rw [hN])
  have hle := h.used_le
  have hcount := h.count
  have hsize := h.directory.size_eq
  have hmax := h.directory.size_le
  have hM : MAXFILE * BSIZE = 71680 := rfl
  have hslots : nslots (entries fs ip) = 4480 := by
    rw [hsize, hM] at hmax
    simp only [DIRENT] at hmax
    omega
  refine ⟨l, fs, ip, hrun, h.directory, h.distinct, h.free, h.room, ?_⟩
  refine h.directory.dirlink_no_room 2 (h.fresh 4478 (by omega) (by omega)) ?_ ?_
  · by_contra hc
    obtain ⟨k, hk, hfree⟩ := firstFree_lt_iff.mp (Nat.lt_of_not_le hc)
    have hssub : usedSlots (entries fs ip) ⊂ Finset.range (nslots (entries fs ip)) := by
      refine Finset.filter_ssubset.mpr ⟨k, Finset.mem_range.mpr hk, not_not.mpr hfree⟩
    have := Finset.card_lt_card hssub
    rw [hcount, Finset.card_range] at this
    omega
  · rw [hsize, hslots, hM]
    decide

end Xv6.Fs
