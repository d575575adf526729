import Xv6.Fs.Scan

namespace Xv6.Fs

open Lib Prog

def Locked (fs : FsState) (i : ℕ) (ip : Dinode) : Prop := ∃ r, fs.icache i = some ⟨r, true, some ip⟩

variable {fs : FsState} {dp : ℕ} {ip : Dinode} {B : Halt → Prop}

lemma onInode_spec {α : Type} {m : Dinode → BlockM (α × Dinode)} {a : α} (h : Locked fs dp ip)
    (hm : (m ip).run fs.store = .ok ((a, ip), fs.store)) {Q : α → FsState → Prop} (hq : Q a fs) :
    Spec (onInode dp m) fs Q B := by
  obtain ⟨r, he⟩ := h
  have hset : fs.setEntry dp ⟨r, true, some ip⟩ = fs := by
    rw [FsState.setEntry, assign_eq_self he]
  have hrun : onInode dp m fs = .ok (a, fs) := by
    unfold onInode
    simp only [he, hm]
    exact congrArg (fun s => Except.ok (a, s)) hset
  unfold Spec
  rw [StateT.run, hrun]
  exact hq

lemma slot_of_contents {disk : Disk} {k : ℕ} (h : DIRENT * k + DIRENT ≤ ip.size.toNat) :
    (((contents disk ip).drop (DIRENT * k)).take 16).length = DIRENT := by
  rw [List.length_take, List.length_drop, contents_length]
  simp only [DIRENT] at h ⊢
  omega

lemma Locked.scan {n : ℕ} (h : Locked fs dp ip) (hdir : ip.type = T_DIR) (hn : DIRENT * n ≤ ip.size.toNat)
    (hmax : DIRENT * n ≤ MAXFILE * BSIZE) (hfull : Full fs.store.disk ip (DIRENT * n)) :
    Scan handler B fs dp ip.fields (contents fs.store.disk ip) n := by
  have hM := maxfile_lt
  have h16 : (16 : UInt32).toNat = DIRENT := rfl
  have hle : ∀ k < n, DIRENT * k + DIRENT ≤ DIRENT * n := fun k hk => Nat.mul_le_mul_left DIRENT hk
  refine ⟨hdir, fun Q hq => wp_call (o := Op.inode dp) trivial
    (onInode_spec (m := fun ip => return (ip.fields, ip)) h rfl hq),
    fun k hk => (hle k hk).trans hn, fun k hk p Q hq => ?_⟩
  have hk := hle k hk
  have hoff : (UInt32.ofNat (DIRENT * k)).toNat = DIRENT * k := toNat_offset (by omega)
  have hin : InFile ip (UInt32.ofNat (DIRENT * k)) 16 := by
    refine ⟨?_, ?_⟩ <;> rw [hoff]
    · omega
    · rw [h16]
      omega
  have hmapped : Full fs.store.disk ip
      (min ((UInt32.ofNat (DIRENT * k)).toNat + (16 : UInt32).toNat) ip.size.toNat) :=
    fun q hq => hfull q (by rw [hoff, h16] at hq; omega)
  have hread := readi_mapped (by rw [hdir]; decide) hin hmapped (by rw [hoff, h16]; omega)
    (fun _ => False)
  obtain ⟨r, st', hrun, rfl, rfl⟩ := hread.run_ok hread
  rw [hoff] at hrun
  unfold Sys.readDirent
  refine wp_bind (wp_call (o := Op.readi dp _ 16) trivial (onInode_spec h hrun ?_))
  dsimp only
  rw [if_pos (by rw [h16]; exact slot_of_contents (hk.trans hn))]
  exact wp_pure hq

def CacheFull (fs : FsState) (i : ℕ) : Prop := fs.icache i = none ∧ NINODE ≤ fs.used

lemma iget_spec (fs : FsState) (i : ℕ) :
    Spec (iget i) fs (fun _ fs' => fs'.store = fs.store)
    (fun e => e = .panic .igetNoInodes ∧ CacheFull fs i) := by
  unfold Spec iget
  rw [StateT.run]
  cases he : fs.icache i with
  | some e => rfl
  | none =>
    dsimp only
    split_ifs with hu
    · rfl
    · exact ⟨rfl, he, by omega⟩

lemma dirlookup_found {name : List UInt8} {k : ℕ} (h : Locked fs dp ip) (hdir : ip.type = T_DIR)
    (hk : DIRENT * k + DIRENT ≤ ip.size.toNat) (hmax : DIRENT * k + DIRENT ≤ MAXFILE * BSIZE)
    (hfull : Full fs.store.disk ip (DIRENT * k + DIRENT)) (hhit : Hits (contents fs.store.disk ip) name k)
    (hfirst : ∀ j < k, ¬ Hits (contents fs.store.disk ip) name j) :
    Spec ((Sys.dirlookup dp name).run handler) fs
      (fun r fs' => r = some ((slot (contents fs.store.disk ip) k).inum.toNat, DIRENT * k) ∧
      fs'.store = fs.store)
      (fun e => e = .panic .igetNoInodes ∧
      CacheFull fs (slot (contents fs.store.disk ip) k).inum.toNat) := by
  refine ((h.scan (n := k + 1) hdir hk hmax hfull).dirlookup (.inr ⟨k, Nat.lt_succ_self k, hhit⟩)
    (fun hnone => ?_) (fun j hj hj' _ => ?_)).spec
  · exact absurd hhit (hnone k (Nat.lt_succ_self k))
  · obtain rfl : j = k := by
      rcases Nat.lt_succ_iff_lt_or_eq.mp hj with hlt | rfl
      · exact absurd hj' (hfirst j hlt)
      · rfl
    exact wp_call (o := Op.iget _) trivial ((iget_spec fs _).imp fun _ _ hst => ⟨rfl, hst⟩)

lemma dirlookup_store (name : List UInt8) (h : Locked fs dp ip) (hdir : ip.type = T_DIR)
    (hsize : ip.size.toNat ≤ MAXFILE * BSIZE) (hmod : ip.size.toNat % DIRENT = 0)
    (hfull : Full fs.store.disk ip ip.size.toNat) :
    Spec ((Sys.dirlookup dp name).run handler) fs (fun _ fs' => fs'.store = fs.store)
      (fun e => e = .panic .igetNoInodes) := by
  have heq : DIRENT * (ip.size.toNat / DIRENT) = ip.size.toNat :=
    Nat.mul_div_cancel' (Nat.dvd_of_mod_eq_zero hmod)
  have hscan := h.scan (n := ip.size.toNat / DIRENT) (B := fun e => e = .panic .igetNoInodes) hdir heq.le
    (heq.trans_le hsize) (by rwa [heq])
  refine (hscan.dirlookup (.inl heq.ge) (fun _ => rfl) fun k _ _ _ =>
    wp_call (o := Op.iget _) trivial ?_).spec
  exact (iget_spec fs _).mono (fun _ _ hst => hst) (fun _ he => he.1)

end Xv6.Fs
