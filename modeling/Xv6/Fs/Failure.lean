import Xv6.Fs.Brackets
import Xv6.Fs.Namex

namespace Xv6.Fs

open Lib Prog

def FsState.abs (fs : FsState) : Afs where
  ninodes := fs.store.sb.ninodes
  ino i := if i < fs.store.sb.ninodes then node fs.store i else Node.zero
  ref := refCount fs
  busy i := (fs.icache i).any Entry.busy
  valid i := (fs.icache i).any (fun e => e.dip.isSome)
  kern := fs.kern
  iu := ∅
  wr := fs.store.logged.toFinset.card

structure AtRest (fs : FsState) : Prop where
  wf : Wf fs.store
  cache : ∀ i e, fs.icache i = some e → i < fs.store.sb.ninodes ∧ 0 < e.ref ∧
    ∀ d, e.dip = some d → d = fs.store.inode i ∧ d.type ≠ 0
  quiet : fs.abs.Quiet

lemma AtRest.rel {fs : FsState} (h : AtRest fs) : Rel fs fs.abs where
  wf := h.wf
  ninodes := rfl
  ino _ hi := if_pos hi
  out _ hi := if_neg (Nat.not_lt.2 hi)
  cache i := by
    have hbusy := h.quiet.busy i
    cases he : fs.icache i with
    | none => exact ⟨refCount_of_none he, hbusy, by simp [FsState.abs, he]⟩
    | some e =>
      obtain ⟨hlt, hpos, hdip⟩ := h.cache i e he
      have hb : e.busy = false := by simpa [FsState.abs, he] using hbusy
      refine ⟨hlt, hpos, refCount_of_some he, by simp [FsState.abs, he], by simp [FsState.abs, he],
        ?_, hdip⟩
      intro hc
      rw [hb] at hc
      cases hc
  kern := rfl
  logged := ⟨fs.store.logged.toFinset, le_rfl, fun c hc => .inr (.inr (List.mem_toFinset.2 hc))⟩

lemma Rel.refCount {fs : FsState} {a : Afs} (h : Rel fs a) (i : ℕ) : refCount fs i = a.ref i := by
  cases he : fs.icache i with
  | none => rw [refCount_of_none he, (Cached.of_none h he).1]
  | some e => rw [refCount_of_some he, (Cached.of_some h he).ref]

lemma AtRest.outcome {fs fs' : FsState} (h : AtRest fs) {p : ℕ} (hp : p < fs.kern.nproc) {c : Call}
    {r : Option ℕ} (hrun : ((c.prog p).run handler).run fs = .ok (r, fs')) :
    ∃ w a', fs.abs.stage.Outcome p c r w ∧ w.Is a' ∧ Rel fs' a' := by
  have hspec := (simulates.wp h.rel (fun e he => not_not.2 he) (h.quiet.call_goes hp c)).spec
  obtain ⟨a', hrel, w, hw, his⟩ := hspec.of_run_ok hrun
  exact ⟨w, a', hw, his, hrel⟩

theorem call_refines_outcome {fs fs' : FsState} (h : AtRest fs) {p : ℕ} (hp : p < fs.kern.nproc)
    {c : Call} {r : Option ℕ} {n n' : ℤ}
    (hrun : ((c.prog p).run (counting opsDelta handler)).run (fs, n) = .ok (r, (fs', n'))) :
    (∃ w a', fs.abs.stage.Outcome p c r w ∧ w.Is a' ∧ Rel fs' a') ∧ n' = n := by
  obtain ⟨hret, rfl⟩ := (Opens.call p c).run hrun
  exact ⟨h.outcome hp hret, add_zero n⟩

structure Same (fs fs' : FsState) : Prop where
  node : ∀ i < fs.store.sb.ninodes, node fs'.store i = node fs.store i
  kern : fs'.kern = fs.kern
  refs : ∀ i, refCount fs' i = refCount fs i

lemma Same.of_stage {fs fs' : FsState} {w : Stage} {a' : Afs} (his : w.Is a') (hrel : Rel fs' a')
    (hn : w.ninodes = fs.abs.stage.ninodes) (hino : w.ino = fs.abs.stage.ino)
    (hk : w.kern = fs.abs.stage.kern) (hr : w.ref = fs.abs.stage.ref) : Same fs fs' where
  node i hi := by
    rw [← hrel.ino i (by rw [his.ninodes, hn]; exact hi), his.ino, hino]
    exact if_pos hi
  kern := by rw [← hrel.kern, his.kern, hk]; rfl
  refs i := by rw [hrel.refCount, his.ref, hr]; rfl

def Doomed (fs : FsState) (p : ℕ) : Call → Prop
  | .sysOpen path omode => ∃ s, argstr path = some s ∧ omode &&& O_CREATE ≠ 0 ∧ fs.abs.stage.Missing p s ∧
      (fs.kern.freeFile = none ∨ fs.kern.freeFd p = none)
  | _ => False

theorem failed_call_changes_nothing_iff {fs fs' : FsState} (h : AtRest fs) {p : ℕ}
    (hp : p < fs.kern.nproc) {c : Call} {r : Option ℕ} {n n' : ℤ}
    (hrun : ((c.prog p).run (counting opsDelta handler)).run (fs, n) = .ok (r, (fs', n'))) :
    (r = none → Same fs fs' ∧ n' = n) ↔ ¬ Doomed fs p c := by
  obtain ⟨hret, rfl⟩ := (Opens.call p c).run hrun
  obtain ⟨w, a', hw, his, hrel⟩ := h.outcome hp hret
  clear hrun hret
  simp only [add_zero, and_true]
  cases hw with
  | refused hbad =>
    refine ⟨?_, fun _ _ => .of_stage his hrel rfl rfl rfl rfl⟩
    intro _ hd
    cases c with
    | sysOpen path omode =>
      obtain ⟨s, hs, -⟩ := hd
      cases (show argstr path = none from hbad).symm.trans hs
    | _ => exact hd
  | failed hm =>
    refine ⟨?_, fun _ _ => .of_stage his hrel rfl rfl rfl rfl⟩
    intro _ hd
    cases c with
    | sysOpen path omode =>
      obtain ⟨s, hs, hc, hmiss, -⟩ := hd
      obtain ⟨t, ht, hthere, -⟩ := hm
      cases hs.symm.trans ht
      exact hthere hc hmiss
    | _ => exact hd
  | undone => exact ⟨fun _ hd => hd, fun _ _ => .of_stage his hrel rfl rfl rfl rfl⟩
  | @lost _ _ s name dp ip hs hc hcr hfull =>
    refine ⟨fun hsame => ?_, fun hd => absurd ⟨s, hs, hc, ⟨dp, name, hcr.parent, hcr.missing⟩, hfull⟩ hd⟩
    -- the new inode is still there
    obtain ⟨-, hlt, hfree⟩ := Stage.fresh_spec hcr.fresh
    have hnew := Stage.ino_entered_new fs.abs.stage.begin name T_FILE 0 0 hcr.ne
    have hnode := (hsame rfl).node ip hlt
    rw [← hrel.ino ip (by rw [his.ninodes]; simpa using hlt), his.ino, Stage.give_ino,
      Stage.ino_release_of_ne hcr.ne, hnew] at hnode
    have hold : (node fs.store ip).type = 0 := (congrArg Node.type (if_pos hlt).symm).trans hfree
    rw [← hnode] at hold
    exact absurd hold (show ¬ T_FILE = 0 by decide)
  | opened hs ho hf hfd =>
    refine ⟨fun _ hd => ?_, fun _ hr => by cases hr⟩
    obtain ⟨-, -, -, -, hno | hno⟩ := hd
    · cases hno.symm.trans hf
    · cases hno.symm.trans hfd
  | created hs hc hcr hf hfd =>
    refine ⟨fun _ hd => ?_, fun _ hr => by cases hr⟩
    obtain ⟨-, -, -, -, hno | hno⟩ := hd
    · cases hno.symm.trans hf
    · cases hno.symm.trans hfd
  | madeDir | madeNode | linked | unlinked | moved | dropped | closed | released =>
    exact ⟨fun _ hd => hd, fun _ hr => by cases hr⟩

def openedRoot (n : ℕ) : FsState where
  store := mkfsImage
  icache := assign (fun _ => none) ROOTINO (some ⟨n + 1, false, some rootInode⟩)
  used := 1
  kern := {
    ftable := fun f =>
      if f < n then ⟨.inode, 1, true, false, ROOTINO, 0⟩ else ⟨.none, 0, false, false, 0, 0⟩
    nproc := 1
    procs := fun _ => ⟨fun fd => if fd < n then some fd else none, ROOTINO⟩ }

section openedRoot

@[irreducible] def rootNode : Node := ⟨T_DIR, 0, 0, 1, contents mkfsDisk rootInode⟩

lemma rootNode_type : rootNode.type = T_DIR := by rw [rootNode]

lemma rootNode_nlink : rootNode.nlink = 1 := by rw [rootNode]

lemma rootNode_slot : ∀ k < 32, (slot rootNode.data k).inum.toNat = if k < 2 then ROOTINO else 0 := by
  rw [rootNode]
  decide +kernel

lemma rootNode_length : rootNode.data.length = 512 := by
  rw [rootNode, contents_length]
  rfl

lemma nslots_rootNode : nslots rootNode.data = 32 := by
  rw [nslots, rootNode_length]
  rfl

lemma rootNode_isDir : rootNode.IsDir NINODES where
  type := rootNode_type
  aligned := by
    rw [rootNode_length, nslots_rootNode]
    rfl
  size := by
    rw [rootNode_length]
    decide
  inum k hk := by
    rw [nslots_rootNode] at hk
    rw [rootNode_slot k hk]
    split_ifs <;> decide

variable (n : ℕ)

lemma node_mkfsImage {i : ℕ} (hi : i < NINODES) : node mkfsImage i = if i = ROOTINO then rootNode
    else Node.zero := by
  rw [node, mkfsImage_inode hi, rootNode]
  split_ifs <;> rfl

lemma openedRoot_ino (i : ℕ) :
    (openedRoot n).abs.stage.ino i = if i = ROOTINO then rootNode else Node.zero := by
  show (if i < NINODES then node mkfsImage i else Node.zero) = _
  by_cases hi : i < NINODES
  · rw [if_pos hi, node_mkfsImage hi]
  · rw [if_neg hi, if_neg (by rintro rfl; exact hi (by decide))]

lemma openedRoot_ref (i : ℕ) : (openedRoot n).abs.stage.ref i = if i = ROOTINO then n + 1 else 0 := by
  show refCount (openedRoot n) i = _
  rw [refCount]
  simp only [openedRoot, assign_apply]
  split_ifs <;> rfl

lemma openedRoot_atRest : AtRest (openedRoot n) := by
  have hino : (openedRoot n).abs.stage.ino ROOTINO = rootNode := by rw [openedRoot_ino, if_pos rfl]
  have href : (openedRoot n).abs.stage.ref ROOTINO ≠ 0 := by
    rw [openedRoot_ref, if_pos rfl]
    exact Nat.succ_ne_zero n
  have htype : ∀ i, ((openedRoot n).abs.stage.ino i).type ≠ 0 → i = ROOTINO := by
    intro i ht
    by_contra hi
    rw [openedRoot_ino, if_neg hi] at ht
    exact ht rfl
  have hheld : ∀ i, (openedRoot n).abs.stage.ref i ≠ 0 → i = ROOTINO := by
    intro i hr
    by_contra hi
    rw [openedRoot_ref, if_neg hi] at hr
    exact hr rfl
  have hvalid : ∀ i, (openedRoot n).abs.valid i = true → i = ROOTINO := by
    intro i hv
    by_contra hi
    simp [FsState.abs, openedRoot, assign_of_ne hi] at hv
  have hroot : (openedRoot n).abs.stage.Alive ROOTINO := fun _ => .inl (by
    rw [hino, rootNode_nlink]
    decide)
  have hused : ((openedRoot n).abs.stage.ino ROOTINO).type ≠ 0 := by
    rw [hino, rootNode_type]
    decide
  refine ⟨mkfsImage_wf, fun i e he => ?_, ⟨fun i => ?_, fun i hv => hvalid i hv ▸ hused,
    ⟨⟨fun i hv => hvalid i hv ▸ href, fun i ht => ?_, fun j hj => ?_,
    (by decide : ROOTINO < NINODES), hroot⟩,
      (by decide : NINODES ≤ 2 ^ 16), fun i hi => ?_, fun i hr => hheld i hr ▸ hused, fun i hr hn => ?_⟩,
    fun f _ hf => ?_, fun q _ => href, fun f hf ht => ?_⟩⟩
  · simp only [openedRoot, assign_apply] at he
    split_ifs at he with hi
    cases he
    refine ⟨hi ▸ (by decide : ROOTINO < NINODES), Nat.succ_pos n, fun d hd => ?_⟩
    cases hd
    rw [hi]
    exact ⟨mkfsImage_root.symm, by decide⟩
  · simp only [FsState.abs, openedRoot, assign_apply]
    split_ifs <;> rfl
  · obtain rfl := htype i (by rw [ht]; decide)
    rw [hino]
    exact rootNode_isDir
  · obtain ⟨d, ht, k, hk, hu, rfl⟩ := hj
    obtain rfl := htype d (by rw [ht]; decide)
    rw [hino] at hk hu ⊢
    rw [nslots_rootNode] at hk
    have hslot := rootNode_slot k hk
    split_ifs at hslot
    · rw [hslot]
      exact hroot
    · exact absurd (UInt16.toNat_inj.1 hslot) hu
  · rw [openedRoot_ino, if_neg]
    · rfl
    · rintro rfl
      exact absurd hi (by decide : ¬ NINODES ≤ ROOTINO)
  · rw [hheld i hr, hino, rootNode_nlink] at hn
    exact absurd hn (by decide)
  · simp only [FsState.abs, openedRoot] at hf ⊢
    split_ifs at hf ⊢
    rfl
  · simp only [FsState.abs, openedRoot] at ht
    split_ifs at ht with hfn
    have hip : ((openedRoot n).abs.kern.ftable f).ip = ROOTINO := by simp [FsState.abs, openedRoot, hfn]
    rw [hip]
    exact href

end openedRoot

def openRoot : Call := .sysOpen (some [47]) 0

lemma eq_ok_of_mem_toOption {ε α : Type} {e : Except ε α} {x : α} (h : x ∈ e.toOption) : e = .ok x := by
  cases e with
  | ok y => exact congrArg Except.ok (Option.some.inj h)
  | error => cases h

theorem call_refines_outcome_open : ∃ fs' n',
    ((openRoot.prog 0).run (counting opsDelta handler)).run (openedRoot 0, 0) = .ok (some 0, (fs', n')) ∧
    (∃ w a', (openedRoot 0).abs.stage.Outcome 0 openRoot (some 0) w ∧ w.Is a' ∧ Rel fs' a') ∧ n' = 0 := by
  obtain ⟨⟨r, fs', n'⟩, hmem, rfl⟩ :
    ∃ x ∈ (((openRoot.prog 0).run (counting opsDelta handler)).run (openedRoot 0, 0)).toOption,
    x.1 = some 0 := by decide +kernel
  have hrun := eq_ok_of_mem_toOption hmem
  exact ⟨fs', n', hrun, call_refines_outcome (openedRoot_atRest 0) (by decide) hrun⟩

theorem failed_chdir_changes_nothing : AtRest (openedRoot 0) ∧ ∃ fs' n',
    (((Call.sysChdir (some [97])).prog 0).run (counting opsDelta handler)).run
    (openedRoot 0, 0) = .ok (none, (fs', n')) ∧
      Same (openedRoot 0) fs' ∧ n' = 0 := by
  obtain ⟨⟨r, fs', n'⟩, hmem, rfl⟩ :
    ∃ x ∈ ((((Call.sysChdir (some [97])).prog 0).run (counting opsDelta handler)).run
    (openedRoot 0, 0)).toOption, x.1 = none := by decide +kernel
  have hrun := eq_ok_of_mem_toOption hmem
  exact ⟨openedRoot_atRest 0, fs', n', hrun,
    (failed_call_changes_nothing_iff (openedRoot_atRest 0) (by decide) hrun).2 id rfl⟩

theorem failed_open_leaves_file : AtRest (openedRoot 16) ∧ ∃ fs' n',
    (((Call.sysOpen (some [97]) 0x201).prog 0).run (counting opsDelta handler)).run (openedRoot 16, 0) =
      .ok (none, (fs', n')) ∧ ¬ Same (openedRoot 16) fs' := by
  obtain ⟨⟨r, fs', n'⟩, hmem, rfl, htype⟩ : ∃ x ∈ ((((Call.sysOpen (some [97]) 0x201).prog 0).run
    (counting opsDelta handler)).run (openedRoot 16, 0)).toOption, x.1 = none ∧
    (x.2.1.store.inode 2).type = T_FILE := by decide +kernel
  refine ⟨openedRoot_atRest 16, fs', n', eq_ok_of_mem_toOption hmem, fun hsame => ?_⟩
  have hnode := congrArg Node.type (hsame.node 2 (show 2 < NINODES by decide))
  have hold : (node (openedRoot 16).store 2).type = 0 := by
    rw [show (openedRoot 16).store = mkfsImage from rfl, node_mkfsImage (by decide)]
    rfl
  rw [node_type, htype, hold] at hnode
  exact absurd hnode (by decide)

end Xv6.Fs
