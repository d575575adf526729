import Xv6.Fs.FiniteMap
import Xv6.Fs.Namex

namespace Xv6.Fs

open Lib Prog

def Returned (fs fs' : FsState) (r : Option ℕ) : Prop :=
  fs'.store = fs.store ∧ (∀ i, refCount fs' i = refCount fs i + if r = some i then 1 else 0) ∧
    ∀ i e, fs'.icache i = some e → e.busy = false

section

variable {fs fs' : FsState}

lemma After.returned {x : ℕ → ℕ} {r : Option ℕ} (h : After fs fs' none x)
    (hx : ∀ i, x i = if r = some i then 1 else 0) : Returned fs fs' r := by
  refine ⟨h.store, fun i => by rw [h.refs, hx], fun i e he => ?_⟩
  rw [← Bool.not_eq_true, h.cache.busy i e he]
  simp

lemma single_eq_ite (i j : ℕ) : (Pi.single i 1 : ℕ → ℕ) j = if some i = some j then 1 else 0 := by
  rw [Pi.single_apply]
  simp only [Option.some.injEq, eq_comm]

lemma elim_single (r : Option ℕ) (j : ℕ) :
    r.elim (0 : ℕ → ℕ) (fun i => Pi.single i 1) j = if r = some j then 1 else 0 := by
  cases r with
  | none => rfl
  | some i => exact single_eq_ite i j

lemma taken_eq (r : Option (ℕ × List UInt8)) (j : ℕ) :
    taken r j = if r.map Prod.fst = some j then 1 else 0 := by
  cases r with
  | none => rfl
  | some q => exact single_eq_ite q.1 j

end

theorem namex_walks {fs : FsState} (hcache : Cache fs none) (htree : Tree fs) (p : ℕ)
    (hcwd : refCount fs (fs.kern.procs p).cwd ≠ 0) (hheld : Held fs (fs.kern.procs p).cwd)
    (path : List UInt8) : elems path = components path ∧
    Spec ((Sys.namei p path).run handler) fs
      (fun r fs' => r = walk (node fs.store) (origin fs.kern p path) (components path) ∧
      Returned fs fs' r) (fun e => e = .panic .igetNoInodes ∧ NINODE ≤ fs.used + 1) ∧
    Spec ((Sys.nameiparent p path).run handler) fs
      (fun r fs' => (∀ dp name, r = some (dp, name) ↔ ∃ init, components path = init ++ [name] ∧
          walk (node fs.store) (origin fs.kern p path) init = some dp ∧
          (fs.store.inode dp).type = T_DIR) ∧
        Returned fs fs' (r.map Prod.fst) ∧
        ∀ dp name, r = some (dp, name) → ∃ fs'', ((Sys.ilock dp).run handler).run fs' = .ok (⟨⟩, fs'') ∧
          ∃ f, Answers fs'' dp f ∧ f name = walk (node fs.store) (origin fs.kern p path)
          (components path))
      (fun e => e = .panic .igetNoInodes ∧ NINODE ≤ fs.used + 1) := by
  refine ⟨elems_eq_components path, (namei_spec hcache htree hcwd hheld path).imp ?_,
    (namex_spec hcache htree hcwd hheld true path).imp ?_⟩
  · rintro r fs' ⟨hr, h'⟩
    exact ⟨hr, h'.returned (elim_single r)⟩
  · rintro r fs' ⟨hr, h'⟩
    replace hr : r = walkParent (node fs.store) (origin fs.kern p path) (components path) := hr
    refine ⟨fun dp name => by simp only [hr, walkParent_eq_some_iff, node_type],
      h'.returned (taken_eq r), ?_⟩
    rintro dp name rfl
    obtain ⟨init, -, hw, hdir⟩ := walkParent_eq_some_iff.mp hr.symm
    rw [node_type] at hdir
    have hdp := htree.walk_held (held_origin htree hheld path) hw
    obtain ⟨fs'', hrun, h'', hl⟩ := After.ilock h' hdp
    refine ⟨fs'', run_call hrun, _, (h''.directory htree hdp hl hdir).answers, ?_⟩
    rw [walk_of_walkParent hr.symm, node_data hdir, entries, h''.store]

lemma tree_of_root {st : Store} {ip : Dinode} (hwf : Wf st) (hlt : ROOTINO < st.sb.ninodes)
    (hroot : st.inode ROOTINO = ip) (hdir : ip.type = T_DIR) (hlink : ip.nlink ≠ 0)
    (haligned : ip.size.toNat % DIRENT = 0) (hothers : ∀ j < st.sb.ninodes, j ≠ ROOTINO →
    (st.inode j).type ≠ T_DIR)
    (hslots : ∀ k < nslots (contents st.disk ip), (slot (contents st.disk ip) k).inum ≠ 0 →
      (slot (contents st.disk ip) k).inum.toNat = ROOTINO ∨
      (slot (contents st.disk ip) k).inum.toNat < st.sb.ninodes ∧
      (st.inode (slot (contents st.disk ip) k).inum.toNat).type ≠ 0 ∧
      (st.inode (slot (contents st.disk ip) k).inum.toNat).nlink ≠ 0) {fs : FsState}
      (hst : fs.store = st) :
    Tree fs := by
  have hrt : (st.inode ROOTINO).type ≠ 0 := by rw [hroot, hdir]; decide
  have honly : ∀ d < st.sb.ninodes, (st.inode d).type = T_DIR → st.inode d = ip := by
    intro d hd ht
    by_cases hdr : d = ROOTINO
    · rw [hdr, hroot]
    · exact absurd ht (hothers d hd hdr)
  subst hst
  have hheld : Held fs ROOTINO := ⟨hlt, hrt, fun _ => by rwa [hroot]⟩
  refine ⟨hwf, fun d hd ht => ?_, fun d hd ht => ?_, hheld⟩
  · rwa [honly d hd ht]
  · rw [honly d hd ht]
    intro k hk hused
    rcases hslots k hk hused with hself | ⟨h1, h2, h3⟩
    · rwa [hself]
    · exact ⟨h1, h2, fun _ => h3⟩

lemma root_slot_inum {k : ℕ} (hk : k < nslots (contents mkfsDisk rootInode))
    (h : (slot (contents mkfsDisk rootInode) k).inum ≠ 0) :
    (slot (contents mkfsDisk rootInode) k).inum = 1 := by
  rw [root_nslots] at hk
  rw [root_slot k hk] at h ⊢
  split_ifs at h ⊢
  · rfl
  · rfl
  · exact absurd rfl h

def idle (st : Store) (s : Finset ℕ) : FsState where
  store := st
  icache := fun i => if i ∈ s then some ⟨1, false, none⟩ else none
  used := s.card
  kern := ⟨fun _ => ⟨.none, 0, false, false, 0, 0⟩, 1, fun _ => ⟨fun _ => none, ROOTINO⟩⟩

lemma idle_cache (st : Store) (s : Finset ℕ) : Cache (idle st s) none := by
  have hcell : ∀ i e, (idle st s).icache i = some e → e = ⟨1, false, none⟩ := by
    intro i e he
    simp only [idle] at he
    split_ifs at he
    exact (Option.some.inj he).symm
  refine ⟨⟨s, rfl, fun i => ?_⟩, fun i e he => ?_, fun i e he => ?_, (fun i hi => by cases hi),
    fun i e ip he hd => ?_⟩
  · simp only [idle]
    split_ifs with hi <;> simp [hi]
  · rw [hcell i e he]
    exact Nat.one_pos
  · rw [hcell i e he]
    simp
  · rw [hcell i e he] at hd
    cases hd

lemma refCount_idle (st : Store) (s : Finset ℕ) (i : ℕ) :
    refCount (idle st s) i = if i ∈ s then 1 else 0 := by
  simp only [refCount, idle]
  split_ifs <;> rfl

lemma mkfsImage_tree (s : Finset ℕ) : Tree (idle mkfsImage s) := by
  refine tree_of_root mkfsImage_wf (by decide) mkfsImage_root rfl (by decide) (by decide)
    (fun j hj hne => ?_) (fun k hk hused => .inl ?_) rfl
  · rw [mkfsImage_inode hj, if_neg hne]
    decide
  · rw [show mkfsImage.disk = mkfsDisk from rfl, root_slot_inum hk hused]
    rfl

theorem namex_walks_root :
    ∃ fs', ((Sys.namei 0 [47, 46, 46]).run handler).run (idle mkfsImage {ROOTINO}) = .ok
    (some ROOTINO, fs') := by
  have hcount : refCount (idle mkfsImage {ROOTINO}) ROOTINO ≠ 0 := by
    rw [refCount_idle]
    decide
  have htree := mkfsImage_tree {ROOTINO}
  obtain ⟨-, hspec, -⟩ := namex_walks
    (idle_cache mkfsImage {ROOTINO}) htree 0 hcount htree.root [47, 46, 46]
  have hroom : ¬ NINODE ≤ (idle mkfsImage {ROOTINO}).used + 1 := by decide
  obtain ⟨r, fs', hrun, hr, -⟩ := hspec.run_ok (hspec.mono (fun _ _ h => h) (fun _ he => hroom he.2))
  have hwalk : walk (node mkfsImage) ROOTINO [[46, 46]] = some ROOTINO := by
    have hnames : names (contents mkfsDisk rootInode) [46, 46] = some ROOTINO := by decide +kernel
    have hdir : (mkfsImage.inode ROOTINO).type = T_DIR := by rw [mkfsImage_root]; rfl
    rw [walk_cons, child, node_type, node_data hdir, if_pos hdir, mkfsImage_root,
      show mkfsImage.disk = mkfsDisk from rfl, hnames]
    rfl
  have hcomp : components [47, 46, 46] = [[46, 46]] := by decide
  rw [hcomp] at hr
  obtain rfl := hr.trans hwalk
  exact ⟨fs', hrun⟩

def plainFile (j : ℕ) : Dinode := { Dinode.zero with type := T_FILE, nlink := if j = 2 then 1 else 0 }

def plainFiles : ℕ → Store
  | 0 => mkfsImage
  | n + 1 => (plainFiles n).update (n + 2) (plainFile (n + 2))

structure Files (st : Store) (n : ℕ) : Prop where
  wf : Wf st
  sb : st.sb = mkfsSb
  root : st.inode ROOTINO = rootInode
  names : contents st.disk rootInode = contents mkfsDisk rootInode
  files : ∀ j < NINODES, j ≠ ROOTINO → st.inode j = if 2 ≤ j ∧ j < n + 2 then plainFile j else Dinode.zero

lemma plainFiles_files {n : ℕ} (hn : n + 2 ≤ NINODES) : Files (plainFiles n) n := by
  induction n with
  | zero =>
    refine ⟨mkfsImage_wf, rfl, mkfsImage_root, rfl, fun j hj hne => ?_⟩
    rw [plainFiles, mkfsImage_inode hj, if_neg hne, if_neg (by omega)]
  | succ n ih =>
    have h := ih (by omega)
    have hlt : n + 2 < (plainFiles n).sb.ninodes := by
      rw [h.sb]
      exact hn
    have hzero : (plainFiles n).inode (n + 2) = Dinode.zero := by
      rw [h.files (n + 2) hn (by simp only [ROOTINO]; omega), if_neg (by omega)]
    have hch : Changed (plainFiles n) (n + 2) (plainFile (n + 2)) [] (plainFiles (n + 1)) := by
      refine h.wf.update_empty hlt rfl rfl (fun s _ => ?_)
      rw [ref, hzero]
      exact if_pos rfl
    have hrlt : ROOTINO < (plainFiles n).sb.ninodes := by
      rw [h.sb]
      decide
    have hrne : ROOTINO ≠ n + 2 := by
      simp only [ROOTINO]
      omega
    refine ⟨hch.wf, hch.sb.trans h.sb, (hch.others _ hrlt hrne).trans h.root, ?_, fun j hj hne => ?_⟩
    · have hc := hch.other_contents ROOTINO hrlt hrne
      rw [h.root] at hc
      rw [hc (by decide), h.names]
    · by_cases hjn : j = n + 2
      · rw [hjn, hch.inode, if_pos (by omega)]
      · rw [hch.others j (by rwa [h.sb]) hjn, h.files j hj hne]
        by_cases hin : 2 ≤ j ∧ j < n + 2
        · rw [if_pos hin, if_pos (by omega)]
        · rw [if_neg hin, if_neg (by omega)]

lemma exists_named_file :
    ∃ st, (∀ s, Tree (idle st s)) ∧ walk (node st) ROOTINO [[102]] = some 2 := by
  have hfiles : Files (plainFiles 50) 50 := plainFiles_files (by decide)
  have hdir0 : Directory { rootLocked 1 with store := plainFiles 50 } ROOTINO rootInode :=
    ⟨hfiles.wf, by rw [hfiles.sb]; decide, hfiles.root, ⟨1, rfl⟩, rfl, by decide,
      (rootLocked_directory 1).refs⟩
  have hents : entries { rootLocked 1 with store := plainFiles 50 } rootInode =
    contents mkfsDisk rootInode := hfiles.names
  obtain ⟨fs, ip, -, hdir, hch, -, a, n, hip⟩ := hdir0.dirlink_enter 2 (by rw [hents]; exact root_new)
    (.inl (by rw [hents]; exact firstFree_lt_iff.mpr root_free))
  rw [hents] at hch
  have hnew : contents fs.store.disk ip = _ := hch.contents
  have hent := entered (contents mkfsDisk rootInode) [102] 2
  rw [← hnew] at hent
  have hsb : fs.store.sb = mkfsSb := hch.sb.trans hfiles.sb
  have hothers : ∀ j < NINODES, j ≠ ROOTINO → fs.store.inode j = (plainFiles 50).inode j :=
    fun j hj hne => hch.others j (by rwa [hfiles.sb]) hne
  have hnames : names (contents fs.store.disk ip) [102] = some 2 := by
    rw [hnew, names_enter firstFree_le slot_firstFree root_new root_distinct (by decide)
      (by decide), if_pos rfl]
  refine ⟨fs.store, fun _ => tree_of_root hdir.wf hdir.lt hdir.copy hdir.dir
    (by rw [hip]; exact (by decide : rootInode.nlink ≠ 0)) hdir.aligned (fun j hj hne => ?_)
    (fun k hk hused => ?_) rfl, ?_⟩
  · rw [hsb] at hj
    rw [hothers j hj hne, hfiles.files j hj hne]
    split_ifs <;> simp [plainFile] <;> decide
  · by_cases hkf : k = firstFree (contents mkfsDisk rootInode)
    · right
      rw [hkf, hent.entry]
      have htwo : fs.store.inode 2 = plainFile 2 := by
        rw [hothers 2 (by decide) (by decide), hfiles.files 2 (by decide) (by decide), if_pos (by decide)]
      refine ⟨by rw [hsb]; decide, ?_⟩
      rw [show (⟨UInt16.ofNat 2, strncpy DIRSIZ [102]⟩ : Dirent).inum.toNat = 2 from rfl, htwo]
      decide
    · left
      have hk' : k < nslots (contents mkfsDisk rootInode) := by
        have := hent.size
        have := hent.place
        omega
      rw [hent.kept k hk' hkf] at hused ⊢
      rw [root_slot_inum hk' hused]
      rfl
  · have htype : (fs.store.inode ROOTINO).type = T_DIR := by rw [hdir.copy, hdir.dir]
    rw [walk_cons, child, node_type, node_data htype, if_pos htype, hdir.copy, hnames]
    rfl

theorem namei_cache_full : ∃ st, Tree (idle st (insert ROOTINO (Finset.Icc 3 51))) ∧
    walk (node st) ROOTINO [[102]] = some 2 ∧
    ((Sys.namei 0 [47, 102]).run handler).run (idle st (insert ROOTINO (Finset.Icc 3 51))) =
      .error (.panic .igetNoInodes) := by
  obtain ⟨st, hall, hwalk⟩ := exists_named_file
  have htree := hall (insert ROOTINO (Finset.Icc 3 51))
  refine ⟨st, htree, hwalk, ?_⟩
  have hcache := idle_cache st (insert ROOTINO (Finset.Icc 3 51))
  have hcount := refCount_idle st (insert ROOTINO (Finset.Icc 3 51))
  have hfull : (idle st (insert ROOTINO (Finset.Icc 3 51))).used = NINODE :=
    (by decide : (insert ROOTINO (Finset.Icc 3 51)).card = NINODE)
  have hst : (idle st (insert ROOTINO (Finset.Icc 3 51))).store = st := rfl
  generalize idle st (insert ROOTINO (Finset.Icc 3 51)) = fs at *
  subst hst
  have hroot : refCount fs ROOTINO = 1 := (hcount ROOTINO).trans (if_pos (by decide))
  have htwo : refCount fs 2 = 0 := (hcount 2).trans (if_neg (by decide))
  have hheld := htree.root
  have hnot : ¬ CacheFull fs ROOTINO := fun h => by
    have := hcache.icache_eq_none_iff.mp h.1
    omega
  obtain ⟨fs₁, hget⟩ := iget_run hnot
  obtain ⟨fs₂, hlock, h₂, hl⟩ := (hcache.iget hget).ilock hheld
  have hused : fs₂.used = NINODE := by
    rw [h₂.used_eq hcache, hfull]
    intro j hj
    exact Pi.single_eq_of_ne (fun hjr => by rw [hjr] at hj; omega) 1
  have hnone : CacheFull fs₂ 2 := by
    refine ⟨h₂.cache.icache_eq_none_iff.mpr ?_, hused.ge⟩
    rw [h₂.refs, htwo]
    rfl
  have hchild : (fs.store.inode ROOTINO).type = T_DIR ∧
      names (contents fs.store.disk (fs.store.inode ROOTINO)) [102] = some 2 := by
    rw [walk_cons, Option.bind_eq_some_iff] at hwalk
    obtain ⟨j, hj, hw⟩ := hwalk
    obtain rfl := Option.some.inj hw
    unfold child at hj
    split_ifs at hj with hdir
    rw [node_type] at hdir
    exact ⟨hdir, node_data hdir ▸ hj⟩
  have hdir := h₂.directory htree hheld hl hchild.1
  obtain ⟨k, hk, hinum⟩ := Option.map_eq_some_iff.mp hchild.2
  have hlookup : lookup (entries fs₂ (fs.store.inode ROOTINO)) [102] = some k := by
    rwa [entries, h₂.store]
  have herr := hdir.dirlookup_full hlookup (by rw [entries, h₂.store, hinum]; exact hnone)
  have hget' : ((Sys.iget ROOTINO).run handler).run fs = .ok (⟨⟩, fs₁) := run_call hget
  have hlock' : ((Sys.ilock ROOTINO).run handler).run fs₁ = .ok (⟨⟩, fs₂) := run_call hlock
  have hinode : ((Sys.inode ROOTINO).run handler).run fs₂ = .ok ((fs.store.inode ROOTINO).fields, fs₂) :=
    run_call hl.inode
  unfold Sys.namei
  refine run_bind_error ?_
  unfold Sys.namex
  rw [if_pos (by rfl), run_bind_ok hget']
  unfold Sys.namexLoop
  rw [show skipelem [47, 102] = some ([], [102]) from rfl]
  dsimp only
  rw [run_bind_ok hlock', run_bind_ok hinode]
  rw [if_neg (not_not.mpr (show (fs.store.inode ROOTINO).fields.type = T_DIR from hchild.1)),
    if_neg (by decide)]
  exact run_bind_error herr

end Xv6.Fs
