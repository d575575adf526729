import Xv6.Fs.Image
import Xv6.Fs.Lookup
import Xv6.Fs.Supply

namespace Xv6.Fs

open Lib Prog

structure Directory (fs : FsState) (dp : ℕ) (ip : Dinode) : Prop where
  wf : Wf fs.store
  lt : dp < fs.store.sb.ninodes
  copy : fs.store.inode dp = ip
  locked : Locked fs dp ip
  dir : ip.type = T_DIR
  aligned : ip.size.toNat % DIRENT = 0
  refs : ∀ i e, fs.icache i = some e → 0 < e.ref

abbrev entries (fs : FsState) (ip : Dinode) : List UInt8 := contents fs.store.disk ip

lemma iget_cases {fs fs' : FsState} {i : ℕ} (h : (iget i).run fs = .ok (⟨⟩, fs')) :
    (∃ e, fs.icache i = some e ∧ fs' = fs.setEntry i { e with ref := e.ref + 1 }) ∨
    (fs.icache i = none ∧ fs' = { fs.setEntry i ⟨1, false, none⟩ with used := fs.used + 1 }) := by
  rw [StateT.run] at h
  unfold iget at h
  cases he : fs.icache i with
  | some e =>
    rw [he] at h
    exact .inl ⟨e, rfl, (Prod.mk.inj (Except.ok.inj h)).2.symm⟩
  | none =>
    rw [he] at h
    dsimp only at h
    split_ifs at h
    exact .inr ⟨rfl, (Prod.mk.inj (Except.ok.inj h)).2.symm⟩

lemma iget_run {fs : FsState} {i : ℕ} (h : ¬ CacheFull fs i) :
    ∃ fs', (iget i).run fs = .ok (⟨⟩, fs') := by
  have hspec := (iget_spec fs i).mono (fun _ _ hs => hs) (fun _ he => h he.2)
  obtain ⟨_, fs', hrun, -⟩ := hspec.run_ok hspec
  exact ⟨fs', hrun⟩

lemma iget_full {fs : FsState} {i : ℕ} (h : CacheFull fs i) :
    (iget i).run fs = .error (.panic .igetNoInodes) := by
  rw [StateT.run]
  unfold iget
  rw [h.1]
  dsimp only
  rw [if_neg (by have := h.2; omega)]

section iget

variable {fs fs' : FsState} {i : ℕ} (h : (iget i).run fs = .ok (⟨⟩, fs'))
include h

lemma iput_iget (hrefs : ∀ e, fs.icache i = some e → 0 < e.ref) : (iput i).run fs' = .ok (⟨⟩, fs) := by
  obtain ⟨e, he, rfl⟩ | ⟨he, rfl⟩ := iget_cases h
  · have hpos := hrefs e he
    have hput : (fs.setEntry i { e with ref := e.ref + 1 }).putEntry i
      { e with ref := e.ref + 1 } = fs := by
      rw [FsState.putEntry, if_neg (by dsimp only; omega)]
      simp only [FsState.setEntry, assign_assign, Nat.add_sub_cancel]
      rw [assign_eq_self he]
    have hcell : (fs.setEntry i { e with ref := e.ref + 1 }).icache i = some
      { e with ref := e.ref + 1 } :=
      assign_self ..
    rw [StateT.run]
    unfold iput
    simp only [hcell]
    cases hd : e.dip with
    | none =>
      rw [hd] at hput
      simp only [hput]
    | some ip =>
      rw [hd] at hput
      dsimp only
      rw [if_neg (by omega), hput]
  · have hput : ({ fs.setEntry i ⟨1, false, none⟩ with used := fs.used + 1 } : FsState).putEntry i
      ⟨1, false, none⟩ =
        fs := by
      rw [FsState.putEntry, if_pos rfl]
      simp only [FsState.dropEntry, FsState.setEntry, assign_assign, Nat.add_sub_cancel]
      rw [assign_eq_self he]
    have hcell : ({ fs.setEntry i ⟨1, false, none⟩ with used := fs.used + 1 } : FsState).icache i =
        some ⟨1, false, none⟩ := assign_self ..
    rw [StateT.run]
    unfold iput
    rw [hcell]
    dsimp only
    rw [hput]

lemma iget_other {j : ℕ} (hij : j ≠ i) : fs'.icache j = fs.icache j := by
  obtain ⟨e, -, rfl⟩ | ⟨-, rfl⟩ := iget_cases h <;> exact assign_of_ne hij ..

lemma iget_locked {j : ℕ} {ip : Dinode} (hl : Locked fs j ip) : Locked fs' j ip := by
  obtain ⟨r, hj⟩ := hl
  by_cases hij : j = i
  · subst hij
    obtain ⟨e, he, rfl⟩ | ⟨he, rfl⟩ := iget_cases h
    · obtain rfl := Option.some.inj (hj.symm.trans he)
      exact ⟨r + 1, assign_self ..⟩
    · cases hj.symm.trans he
  · exact ⟨r, (iget_other h hij).trans hj⟩

lemma iget_refs (hrefs : ∀ j e, fs.icache j = some e → 0 < e.ref) (j : ℕ) (e : Entry)
    (hj : fs'.icache j = some e) : 0 < e.ref := by
  by_cases hij : j = i
  · subst hij
    obtain ⟨e0, -, rfl⟩ | ⟨-, rfl⟩ := iget_cases h
    · obtain rfl := Option.some.inj ((assign_self ..).symm.trans hj)
      exact Nat.succ_pos _
    · obtain rfl := Option.some.inj ((assign_self ..).symm.trans hj)
      exact Nat.one_pos
  · exact hrefs j e ((iget_other h hij).symm.trans hj)

lemma iget_store : fs'.store = fs.store := by
  obtain ⟨e, -, rfl⟩ | ⟨-, rfl⟩ := iget_cases h <;> rfl

end iget

lemma icache_setEntry (fs : FsState) (i : ℕ) (e : Entry) (j : ℕ) :
    (fs.setEntry i e).icache j = if j = i then some e else fs.icache j := rfl

lemma onInode_run {α : Type} {m : Dinode → BlockM (α × Dinode)} {fs : FsState} {i r : ℕ}
    {ip ip' : Dinode} {a : α} {st' : Store} (he : fs.icache i = some ⟨r, true, some ip⟩)
    (hm : (m ip).run fs.store = .ok ((a, ip'), st')) :
    (onInode i m).run fs = .ok (a, { fs with store := st' }.setEntry i ⟨r, true, some ip'⟩) := by
  rw [StateT.run]
  unfold onInode
  simp only [he, hm]

lemma Locked.inode {fs : FsState} {i : ℕ} {ip : Dinode} (h : Locked fs i ip) :
    (handler (.inode i)).run fs = .ok (ip.fields, fs) := by
  obtain ⟨r, he⟩ := h
  have hrun : (onInode i (fun ip => return (ip.fields, ip))).run fs = .ok (ip.fields, _) :=
    onInode_run he (show _ = Except.ok ((ip.fields, ip), fs.store) from rfl)
  rw [FsState.setEntry, assign_eq_self he] at hrun
  exact hrun

namespace Directory

variable {fs : FsState} {dp : ℕ} {ip : Dinode} {name m : List UInt8} {B : Halt → Prop}

lemma get {fs' : FsState} {i : ℕ} (h : Directory fs dp ip) (hget : (iget i).run fs = .ok (⟨⟩, fs')) :
    Directory fs' dp ip := by
  have hst := iget_store hget
  exact ⟨by rw [hst]; exact h.wf, by rw [hst]; exact h.lt, by rw [hst]; exact h.copy,
    iget_locked hget h.locked, h.dir, h.aligned, iget_refs hget h.refs⟩

variable (h : Directory fs dp ip)

include h

lemma not_dev : ip.type ≠ T_DEV := by
  rw [h.dir]
  decide

lemma used : (fs.store.inode dp).type ≠ 0 := by
  rw [h.copy, h.dir]
  decide

lemma full : Full fs.store.disk ip ip.size.toNat := by
  have := (h.wf.sized dp h.lt h.used).1
  rwa [h.copy] at this

lemma size_le : ip.size.toNat ≤ MAXFILE * BSIZE := by
  have := (h.wf.sized dp h.lt h.used).2
  rwa [h.copy] at this

lemma size_eq : ip.size.toNat = DIRENT * nslots (entries fs ip) := by
  have := h.aligned
  rw [nslots, contents_length]
  simp only [DIRENT] at *
  omega

lemma slot_end {k : ℕ} (hk : k < nslots (entries fs ip)) : DIRENT * k + DIRENT ≤ ip.size.toNat := by
  have := Nat.mul_le_mul_left DIRENT (Nat.succ_le_of_lt hk)
  rw [h.size_eq]
  exact this

lemma scan : Scan handler B fs dp ip.fields (entries fs ip) (nslots (entries fs ip)) :=
  h.locked.scan h.dir h.size_eq.ge (h.size_eq.ge.trans h.size_le) (by rw [← h.size_eq]; exact h.full)

lemma dirlookup_wp {Q : Option (ℕ × ℕ) → FsState → Prop}
    (hnone : lookup (entries fs ip) m = none → Q none fs)
    (hsome : ∀ k, lookup (entries fs ip) m = some k → Spec (iget (slot (entries fs ip) k).inum.toNat) fs
      (fun _ => Q (some ((slot (entries fs ip) k).inum.toNat, DIRENT * k))) B) :
    Wp handler (fun _ _ => True) B Q (Sys.dirlookup dp m) fs :=
  h.scan.lookup h.size_eq hnone fun k hk => wp_call (o := Op.iget _) trivial (hsome k hk)

lemma dirlookup_none (hl : lookup (entries fs ip) m = none) :
    ((Sys.dirlookup dp m).run handler).run fs = .ok (none, fs) := by
  have hw := (h.dirlookup_wp (B := fun _ => False) (Q := fun r fs' => r = none ∧ fs' = fs)
    (fun _ => ⟨rfl, rfl⟩) (fun k hk => by rw [hl] at hk; cases hk)).spec
  obtain ⟨r, fs', hrun, rfl, rfl⟩ := hw.run_ok hw
  exact hrun

lemma dirlookup_some {k : ℕ} {fs' : FsState} (hl : lookup (entries fs ip) m = some k)
    (hget : (iget (slot (entries fs ip) k).inum.toNat).run fs = .ok (⟨⟩, fs')) :
    ((Sys.dirlookup dp m).run handler).run fs = .ok
    (some ((slot (entries fs ip) k).inum.toNat, DIRENT * k), fs') := by
  have hw := (h.dirlookup_wp (B := fun _ => False)
    (Q := fun r f => r = some ((slot (entries fs ip) k).inum.toNat, DIRENT * k) ∧ f = fs')
    (fun hn => by rw [hl] at hn; cases hn) (fun j hj => by
      obtain rfl := Option.some.inj (hl.symm.trans hj)
      unfold Spec
      rw [hget]
      exact ⟨rfl, rfl⟩)).spec
  obtain ⟨r, f, hrun, rfl, rfl⟩ := hw.run_ok hw
  exact hrun

lemma dirlookup_full {k : ℕ} (hl : lookup (entries fs ip) m = some k)
    (hfull : CacheFull fs (slot (entries fs ip) k).inum.toNat) :
    ((Sys.dirlookup dp m).run handler).run fs = .error (.panic .igetNoInodes) := by
  have hw := (h.dirlookup_wp (B := fun e => e = .panic .igetNoInodes) (Q := fun _ _ => False)
    (fun hn => by rw [hl] at hn; cases hn) (fun j hj => by
      obtain rfl := Option.some.inj (hl.symm.trans hj)
      unfold Spec
      rw [iget_full hfull])).spec
  cases hrun : ((Sys.dirlookup dp m).run handler).run fs with
  | ok r => exact (hw.of_run_ok hrun).elim
  | error e => rw [hw.of_run_error hrun]

omit h in
lemma cacheFull_setEntry {st' : Store} {e e' : Entry} (he : fs.icache dp = some e) (i : ℕ) :
    CacheFull ({ fs with store := st' }.setEntry dp e') i ↔ CacheFull fs i := by
  refine and_congr ?_ Iff.rfl
  rw [icache_setEntry]
  split_ifs with hid
  · rw [hid, he]
    simp
  · rfl

lemma changed {ip' : Dinode} {st' : Store} {r : ℕ} {c : List UInt8}
    (he : fs.icache dp = some ⟨r, true, some ip⟩)
    (hch : Changed fs.store dp ip' c st') (hdir : ip'.type = T_DIR) (hlen : c.length % DIRENT = 0) :
    Directory ({ fs with store := st' }.setEntry dp ⟨r, true, some ip'⟩) dp ip' := by
  refine ⟨hch.wf, hch.sb ▸ h.lt, hch.inode, ⟨r, assign_self ..⟩, hdir, ?_, fun i e hi => ?_⟩
  · rwa [← contents_length st'.disk, hch.contents]
  · rw [icache_setEntry] at hi
    split_ifs at hi with hid
    · obtain rfl := Option.some.inj hi
      exact h.refs dp ⟨r, true, some ip⟩ he
    · exact h.refs i e hi

lemma length_setSlot {k : ℕ} {src : List UInt8} (hsrc : src.length = DIRENT)
    (hk : k ≤ nslots (entries fs ip)) : (setSlot (entries fs ip) k src).length % DIRENT = 0 := by
  have hle := (Nat.mul_le_mul_left DIRENT hk).trans (nslots_le _)
  have := h.aligned
  rw [setSlot, length_overwrite hle, contents_length, hsrc]
  simp only [DIRENT] at *
  omega

lemma writei {k : ℕ} {src : List UInt8} (hsrc : src.length = DIRENT) (hk : k ≤ nslots (entries fs ip))
    (hmax : DIRENT * k + DIRENT ≤ MAXFILE * BSIZE)
    (hneed : need fs.store.disk ip (DIRENT * k) DIRENT ≤ fs.store.freeSet.card) :
    ∃ fs' ip', ((Sys.writei dp src (UInt32.ofNat (DIRENT * k))).run handler).run fs = .ok
    (some DIRENT, fs') ∧
      Directory fs' dp ip' ∧ Changed fs.store dp ip' (setSlot (entries fs ip) k src) fs'.store ∧
      (∀ i, CacheFull fs' i ↔ CacheFull fs i) ∧ ∃ a n, ip' = { ip with addrs := a, size := n } := by
  have hM := maxfile_lt
  have hoff : (UInt32.ofNat (DIRENT * k)).toNat = DIRENT * k := toNat_offset (by omega)
  have hlen : (UInt32.ofNat src.length).toNat = DIRENT := by rw [hsrc]; rfl
  have hD : DIRENT = 16 := rfl
  have hin : DIRENT * k ≤ ip.size.toNat := h.size_eq ▸ Nat.mul_le_mul_left _ hk
  have hW : Writable ip (UInt32.ofNat (DIRENT * k)) (UInt32.ofNat src.length) := by
    refine ⟨⟨?_, ?_⟩, ?_⟩ <;> rw [hoff]
    · exact hin
    · omega
    · rwa [hlen]
  have hlt : src.length < 2 ^ 32 := by omega
  have hdev : (fs.store.inode dp).type ≠ T_DEV := by rw [h.copy]; exact h.not_dev
  obtain ⟨⟨n, ip'⟩, st', hrun, hok, -⟩ :=
    (h.wf.writei h.lt h.used hdev hlt (UInt32.ofNat (DIRENT * k))).run_ok
    (h.wf.writei_supply h.lt h.used hdev hlt (fun _ => by rwa [h.copy, hoff, hsrc]))
  rw [h.copy, hoff] at hok
  rw [h.copy] at hrun
  obtain ⟨hn, ⟨a, size, hip⟩, hch⟩ := hok hW
  obtain rfl : n = some DIRENT := hn.trans (congrArg some hsrc)
  have hdir : ip'.type = T_DIR := by
    rw [show ip' = _ from hip]
    exact h.dir
  obtain ⟨r, he⟩ := h.locked
  exact ⟨_, ip', run_call (onInode_run he hrun), h.changed he hch hdir (h.length_setSlot hsrc hk), hch,
    cacheFull_setEntry he, a, size, hip⟩

lemma need_slot {k : ℕ} (hk : k < nslots (entries fs ip)) :
    need fs.store.disk ip (DIRENT * k) DIRENT = 0 :=
  need_of_full (fun p hp => h.full p (hp.trans_le (h.slot_end hk))) (by decide)

lemma dirlinkLoop : ((Sys.dirlinkLoop dp ip.size.toNat (ip.size.toNat / DIRENT + 1) 0).run
    handler).run fs = .ok (DIRENT * firstFree (entries fs ip), fs) := by
  have hw := (h.scan.dirlinkLoop (B := fun _ => False) h.size_eq
    (Q := fun r fs' => r = DIRENT * firstFree (entries fs ip) ∧ fs' = fs) ⟨rfl, rfl⟩).spec
  obtain ⟨r, fs', hrun, rfl, rfl⟩ := hw.run_ok hw
  exact hrun

variable (inum : ℕ) {k : ℕ}

lemma dirlink_bound (hl : lookup (entries fs ip) name = some k)
    (hroom : ¬ CacheFull fs (slot (entries fs ip) k).inum.toNat) :
    ((Sys.dirlink dp name inum).run handler).run fs = .ok (false, fs) := by
  obtain ⟨fs', hget⟩ := iget_run hroom
  have hput : ((Sys.iput (slot (entries fs ip) k).inum.toNat).run handler).run fs' = .ok (⟨⟩, fs) :=
    run_call (iput_iget hget (h.refs _))
  rw [Sys.dirlink, run_bind_ok (h.dirlookup_some hl hget)]
  exact run_bind_ok hput

lemma dirlink_cacheFull (hl : lookup (entries fs ip) name = some k)
    (hroom : CacheFull fs (slot (entries fs ip) k).inum.toNat) :
    ((Sys.dirlink dp name inum).run handler).run fs = .error (.panic .igetNoInodes) := by
  rw [Sys.dirlink, run_bind_error (h.dirlookup_full hl hroom)]

lemma dirlink_new (hl : lookup (entries fs ip) name = none) :
    ((Sys.dirlink dp name inum).run handler).run fs =
      ((Sys.writei dp (newEntry name inum) (UInt32.ofNat (DIRENT * firstFree (entries fs ip))) >>=
      fun r =>
        if r = some DIRENT then return true else Sys.panic .dirlink).run handler).run fs := by
  rw [Sys.dirlink, run_bind_ok (h.dirlookup_none hl)]
  refine (run_bind_ok (run_call h.locked.inode)).trans ?_
  exact run_bind_ok h.dirlinkLoop

lemma dirlink_enter (hl : lookup (entries fs ip) name = none)
    (hroom : firstFree (entries fs ip) < nslots (entries fs ip) ∨
    (ip.size.toNat + DIRENT ≤ MAXFILE * BSIZE ∧
      need fs.store.disk ip ip.size.toNat DIRENT ≤ fs.store.freeSet.card)) :
    ∃ fs' ip', ((Sys.dirlink dp name inum).run handler).run fs = .ok (true, fs') ∧ Directory fs' dp ip' ∧
      Changed fs.store dp ip' (setSlot (entries fs ip) (firstFree (entries fs ip))
      (newEntry name inum)) fs'.store ∧
      (∀ i, CacheFull fs' i ↔ CacheFull fs i) ∧ ∃ a n, ip' = { ip with addrs := a, size := n } := by
  have hle : firstFree (entries fs ip) ≤ nslots (entries fs ip) := firstFree_le
  have hfits : DIRENT * firstFree (entries fs ip) + DIRENT ≤ MAXFILE * BSIZE ∧
      need fs.store.disk ip (DIRENT * firstFree (entries fs ip)) DIRENT ≤ fs.store.freeSet.card := by
    rcases Nat.lt_or_eq_of_le hle with hlt | heq
    · exact ⟨(h.slot_end hlt).trans h.size_le, (h.need_slot hlt).trans_le (Nat.zero_le _)⟩
    · rw [heq, ← h.size_eq]
      exact hroom.resolve_left (by omega)
  obtain ⟨fs', ip', hrun, hdir, hrest⟩ := h.writei (length_newEntry name inum) hle hfits.1 hfits.2
  refine ⟨fs', ip', ?_, hdir, hrest⟩
  rw [h.dirlink_new inum hl, run_bind_ok hrun, if_pos rfl]
  rfl

lemma dirlink_no_room (hl : lookup (entries fs ip) name = none)
    (hused : nslots (entries fs ip) ≤ firstFree (entries fs ip))
    (hmax : MAXFILE * BSIZE < ip.size.toNat + DIRENT) :
    ((Sys.dirlink dp name inum).run handler).run fs = .error (.panic .dirlink) := by
  have hM := maxfile_lt
  have hsize := h.size_le
  have hoff : DIRENT * firstFree (entries fs ip) = ip.size.toNat := by
    rw [h.size_eq, le_antisymm firstFree_le hused]
  have hoff' : (UInt32.ofNat ip.size.toNat).toNat = ip.size.toNat := toNat_offset (by omega)
  have hsrc := length_newEntry name inum
  have hW : ¬ Writable ip (UInt32.ofNat ip.size.toNat) (UInt32.ofNat (newEntry name inum).length) := by
    intro hw
    have := hw.2
    rw [hoff', hsrc] at this
    exact absurd this (Nat.not_le_of_lt hmax)
  have hdev : (fs.store.inode dp).type ≠ T_DEV := by rw [h.copy]; exact h.not_dev
  have hrun : (Fs.writei dp (fs.store.inode dp) (newEntry name inum)
    (UInt32.ofNat ip.size.toNat)).run fs.store =
      .ok ((none, fs.store.inode dp), fs.store) :=
    h.wf.writei_reject h.lt h.used hdev (by rw [hsrc]; decide) (by rwa [h.copy])
  rw [h.copy] at hrun
  obtain ⟨r, he⟩ := h.locked
  have hcall : ((Sys.writei dp (newEntry name inum) (UInt32.ofNat ip.size.toNat)).run handler).run
    fs = .ok (none, _) :=
    run_call (onInode_run he hrun)
  rw [h.dirlink_new inum hl, hoff, run_bind_ok hcall]
  rfl

end Directory

end Xv6.Fs
