import Xv6.Fs.Create

namespace Xv6.Fs

open Lib Prog

namespace Kern

def freeFile (k : Kern) : Option ℕ := (List.range NFILE).find? (fun f => (k.ftable f).ref = 0)

def freeFd (k : Kern) (p : ℕ) : Option ℕ :=
    (List.range NOFILE).find? (fun fd => (k.procs p).ofile fd = none)

def reserve (k : Kern) (f : ℕ) : Kern := k.setFile f { k.ftable f with ref := 1 }

def opened (k : Kern) (p f fd ip : ℕ) (omode : UInt32) : Kern :=
  ((k.reserve f).setFd p fd (some f)).setFile f (openFile ((k.reserve f).ftable f) ip omode)

def chdir (k : Kern) (p ip : ℕ) : Kern := k.setProc p { k.procs p with cwd := ip }

def closed (k : Kern) (f : ℕ) : Kern := k.setFile f { k.ftable f with ref := 0, type := .none }

def Clean (k : Kern) : Prop := ∀ f < NFILE, (k.ftable f).ref = 0 → (k.ftable f).type = .none

lemma freeFile_spec {k : Kern} {f : ℕ} (h : k.freeFile = some f) : f < NFILE ∧ (k.ftable f).ref = 0 := by
  have hp := List.find?_some h
  have hm := List.mem_of_find?_eq_some h
  exact ⟨List.mem_range.1 hm, by simpa using hp⟩

lemma closed_setFile {k : Kern} (hk : k.Clean) {f : ℕ} (h : k.freeFile = some f) :
    (k.reserve f).closed f = k := by
  obtain ⟨hlt, hr⟩ := freeFile_spec h
  have ht := hk f hlt hr
  have hfile : ({ k.ftable f with ref := 0, type := .none } : File) = k.ftable f := by rw [← hr, ← ht]
  simp only [closed, reserve, setFile, assign_self, assign_assign, hfile, assign_eq_self]

end Kern

/-- A call of `sysfile.c` that names a file, or `sys_close`; a path is `none` if it cannot be
fetched. -/
inductive Call
  | sysOpen (path : Option (List UInt8)) (omode : UInt32)
  | sysLink (old new : Option (List UInt8))
  | sysUnlink (path : Option (List UInt8))
  | sysMkdir (path : Option (List UInt8))
  | sysMknod (path : Option (List UInt8)) (major minor : Int16)
  | sysChdir (path : Option (List UInt8))
  | sysClose (fd : ℕ)

namespace Call

def prog (p : ℕ) : Call → FsProg (Option ℕ)
  | sysOpen path omode => Sys.sys_open p path omode
  | sysLink old new => Sys.sys_link p old new
  | sysUnlink path => Sys.sys_unlink p path
  | sysMkdir path => Sys.sys_mkdir p path
  | sysMknod path major minor => Sys.sys_mknod p path major minor
  | sysChdir path => Sys.sys_chdir p path
  | sysClose fd => Sys.sys_close p fd

end Call

namespace Stage

def erased (v : Stage) (dp ip k : ℕ) : Stage :=
  let w := ((((v.take dp).take ip).promise dp).promise ip).erase dp k
  if (v.ino ip).type = T_DIR then w.setNlink dp ((w.ino dp).nlink - 1) else w

def unlinked (v : Stage) (dp ip k : ℕ) : Stage := ((v.erased dp ip k).release dp).setNlink ip
    ((v.ino ip).nlink - 1)

structure Unlinks (v : Stage) (p : ℕ) (path : List UInt8) (dp : ℕ) (name : List UInt8) (k ip : ℕ) :
    Prop where
  parent : follow v.ino true (origin v.kern p path) (components path) = some (dp, name)
  dots : ¬ (namecmp name DOT = 0 ∨ namecmp name DOTDOT = 0)
  found : lookup (v.ino dp).data name = some k
  inum : (slot (v.ino dp).data k).inum.toNat = ip
  ne : ip ≠ dp
  type : (v.ino ip).type ≠ 0
  nlink : 1 ≤ (v.ino ip).nlink
  vacant : (v.ino ip).type = T_DIR → Vacant (v.ino ip).data

def bumped (v : Stage) (ip : ℕ) : Stage := ((v.take ip).promise ip).setNlink ip ((v.ino ip).nlink + 1)

def linked (v : Stage) (ip dp : ℕ) (name : List UInt8) : Stage :=
  (((v.bumped ip).take dp).promise dp).enter dp name ip

structure Links (v : Stage) (p : ℕ) (old new : List UInt8) (ip dp : ℕ) (name : List UInt8) : Prop where
  source : ∃ n, follow v.ino false (origin v.kern p old) (components old) = some (ip, n)
  type : (v.ino ip).type ≠ 0
  file : (v.ino ip).type ≠ T_DIR
  parent : follow v.ino true (origin v.kern p new) (components new) = some (dp, name)
  missing : lookup (v.ino dp).data name = none
  room : HasRoom (v.ino dp).data

def touch (v : Stage) (i : ℕ) : Stage := { v with iu := insert i v.iu }

def Finds (v : Stage) (p : ℕ) (path : List UInt8) (ip : ℕ) : Prop :=
  ∃ n, follow v.ino false (origin v.kern p path) (components path) = some (ip, n)

def Openable (v : Stage) (p : ℕ) (path : List UInt8) (omode : UInt32) (ip : ℕ) : Prop :=
  if omode &&& O_CREATE ≠ 0 then v.HasFile p path ip
  else v.Finds p path ip ∧ (v.ino ip).type ≠ 0 ∧ ((v.ino ip).type = T_DIR → omode = 0)

def Refuses (v : Stage) (p : ℕ) : Call → Prop
  | .sysOpen path _ => argstr path = none
  | .sysLink old new => argstr old = none ∨ argstr new = none
  | .sysUnlink path => argstr path = none
  | .sysClose fd => argfd v.kern p fd = none
  | .sysMkdir _ | .sysMknod _ _ _ | .sysChdir _ => False

def Fails (v : Stage) (p : ℕ) : Call → Prop
  | .sysOpen path omode => ∃ s, argstr path = some s ∧ (omode &&& O_CREATE ≠ 0 → ¬ v.Missing p s) ∧
      ((∀ ip, ¬ v.Openable p s omode ip) ∨ v.kern.freeFile = none ∨ v.kern.freeFd p = none)
  | .sysLink old new => ∃ s t, argstr old = some s ∧ argstr new = some t ∧
      ∀ ip, v.Finds p s ip → (v.ino ip).type = T_DIR
  | .sysUnlink path => ∃ s, argstr path = some s ∧ ∀ dp name k ip, ¬ v.Unlinks p s dp name k ip
  | .sysMkdir path => ∀ s, argstr path = some s → ¬ v.Missing p s
  | .sysMknod path _ _ => ∀ s, argstr path = some s → ¬ v.Missing p s
  | .sysChdir path => ∀ s ip, argstr path = some s → v.Finds p s ip → (v.ino ip).type ≠ T_DIR
  | .sysClose _ => False

inductive Outcome (v : Stage) (p : ℕ) : Call → Option ℕ → Stage → Prop
  | refused {c : Call} (h : v.Refuses p c) : Outcome v p c none v
  | failed {c : Call} (h : v.Fails p c) : Outcome v p c none v.begin
  | undone {old new : Option (List UInt8)} {s t : List UInt8} {ip : ℕ} (hs : argstr old = some s)
      (ht : argstr new = some t) (hf : v.Finds p s ip) (hd : (v.ino ip).type ≠ T_DIR)
      (hm : ¬ v.Missing p t) : Outcome v p (.sysLink old new) none (v.begin.touch ip)
  | opened {path : Option (List UInt8)} {omode : UInt32} {s : List UInt8} {ip f fd : ℕ}
      (hs : argstr path = some s) (ho : v.Openable p s omode ip) (hf : v.kern.freeFile = some f)
      (hfd : v.kern.freeFd p = some fd) :
      Outcome v p (.sysOpen path omode) (some fd)
        ((v.begin.take ip).setKern (v.kern.opened p f fd ip omode))
  | lost {path : Option (List UInt8)} {omode : UInt32} {s name : List UInt8} {dp ip : ℕ}
      (hs : argstr path = some s) (hc : omode &&& O_CREATE ≠ 0) (hcr : v.Creates p s dp name ip)
      (hfull : v.kern.freeFile = none ∨ v.kern.freeFd p = none) :
      Outcome v p (.sysOpen path omode) none
        (((v.begin.entered dp name ip T_FILE 0 0).release dp).give ip)
  | created {path : Option (List UInt8)} {omode : UInt32} {s name : List UInt8} {dp ip f fd : ℕ}
      (hs : argstr path = some s) (hc : omode &&& O_CREATE ≠ 0) (hcr : v.Creates p s dp name ip)
      (hf : v.kern.freeFile = some f) (hfd : v.kern.freeFd p = some fd) :
      Outcome v p (.sysOpen path omode) (some fd)
        (((v.begin.entered dp name ip T_FILE 0 0).release dp).setKern (v.kern.opened p f fd ip omode))
  | madeDir {path : Option (List UInt8)} {s name : List UInt8} {dp ip : ℕ} (hs : argstr path = some s)
      (hcr : v.Creates p s dp name ip) : Outcome v p (.sysMkdir path) (some 0)
        (((v.begin.entered dp name ip T_DIR 0 0).release dp).give ip)
  | madeNode {path : Option (List UInt8)} {major minor : Int16} {s name : List UInt8} {dp ip : ℕ}
      (hs : argstr path = some s) (hcr : v.Creates p s dp name ip) :
      Outcome v p (.sysMknod path major minor) (some 0)
        (((v.begin.entered dp name ip T_DEV major minor).release dp).give ip)
  | linked {old new : Option (List UInt8)} {s t name : List UInt8} {ip dp : ℕ}
      (hs : argstr old = some s) (ht : argstr new = some t) (hl : v.Links p s t ip dp name) :
      Outcome v p (.sysLink old new) (some 0) (((v.begin.linked ip dp name).release dp).release ip)
  | unlinked {path : Option (List UInt8)} {s name : List UInt8} {dp k ip : ℕ}
      (hs : argstr path = some s) (hu : v.Unlinks p s dp name k ip) :
      Outcome v p (.sysUnlink path) (some 0) ((v.begin.unlinked dp ip k).release ip)
  | moved {path : Option (List UInt8)} {s : List UInt8} {ip : ℕ} (hs : argstr path = some s)
      (hf : v.Finds p s ip) (hd : (v.ino ip).type = T_DIR) : Outcome v p (.sysChdir path) (some 0)
        (((v.begin.take ip).release (v.kern.procs p).cwd).setKern (v.kern.chdir p ip))
  | dropped {fd f : ℕ} (hf : argfd v.kern p fd = some f) (hr : 1 < (v.kern.ftable f).ref) :
      Outcome v p (.sysClose fd) (some 0) (v.setKern ((v.kern.setFd p fd none).setFile f
        { v.kern.ftable f with ref := (v.kern.ftable f).ref - 1 }))
  | closed {fd f : ℕ} (hf : argfd v.kern p fd = some f) (hr : (v.kern.ftable f).ref = 1)
      (ht : (v.kern.ftable f).type ≠ .inode) :
      Outcome v p (.sysClose fd) (some 0) (v.setKern ((v.kern.setFd p fd none).closed f))
  | released {fd f : ℕ} (hf : argfd v.kern p fd = some f) (hr : (v.kern.ftable f).ref = 1)
      (ht : (v.kern.ftable f).type = .inode) : Outcome v p (.sysClose fd) (some 0)
        ((v.setKern ((v.kern.setFd p fd none).closed f)).begin.release (v.kern.ftable f).ip)

abbrev Ends (v : Stage) (p : ℕ) (c : Call) (r : Option ℕ) (a' : Afs) : Prop :=
    ∃ w, v.Outcome p c r w ∧ w.Is a'

lemma Walkable.begin {v : Stage} (h : v.Walkable) : v.begin.Walkable := { h with }

lemma Creates.of_begin {v : Stage} {p dp ip : ℕ} {path name : List UInt8}
    (h : v.begin.Creates p path dp name ip) : v.Creates p path dp name ip :=
  { h with }

lemma Finds.unique {v : Stage} {p ip : ℕ} {path n : List UInt8}
    (h : follow v.ino false (origin v.kern p path) (components path) = some (ip, n)) {j : ℕ}
    (hj : v.Finds p path j) : j = ip := by
  obtain ⟨m, hm⟩ := hj
  cases h.symm.trans hm
  rfl

lemma not_finds {v : Stage} {p : ℕ} {path : List UInt8}
    (h : follow v.ino false (origin v.kern p path) (components path) = none) (ip : ℕ) :
    ¬ v.Finds p path ip := by
  rintro ⟨n, hn⟩
  cases h.symm.trans hn

namespace Openable

variable {v : Stage} {p ip : ℕ} {path : List UInt8} {omode : UInt32} (h : v.Openable p path omode ip)
include h

lemma not_missing (hc : omode &&& O_CREATE ≠ 0) : ¬ v.Missing p path := by
  rw [Openable, if_pos hc] at h
  exact h.not_missing

lemma within : v.Within p ip := by
  unfold Openable at h
  split_ifs at h
  · exact h.within
  · obtain ⟨⟨n, hn⟩, -⟩ := h
    exact Within.follow hn

lemma type_ne_zero : (v.ino ip).type ≠ 0 := by
  unfold Openable at h
  split_ifs at h
  · obtain ⟨_, _, _, _, ht⟩ := h
    rw [ht]
    decide
  · exact h.2.1

end Openable

section bumped

variable {v : Stage} {ip : ℕ}

lemma bumped_back (v : Stage) (ip : ℕ) :
    (v.bumped ip).setNlink ip (((v.bumped ip).ino ip).nlink - 1) = ((v.touch ip).take ip).promise ip := by
  simp only [bumped, setNlink, setNode, take, promise, touch, assign_self, assign_assign,
    Int16.add_sub_cancel, Finset.insert_idem]
  rw [assign_eq_self (f := v.ino) rfl]

lemma bumped_tree (i : ℕ) :
    ((v.bumped ip).ino i).type = (v.ino i).type ∧ ((v.bumped ip).ino i).data = (v.ino i).data := by
  simp only [bumped, setNlink, setNode_ino, promise_ino, take_ino, assign_apply]
  split_ifs with h
  · rw [h]
    exact ⟨rfl, rfl⟩
  · exact ⟨rfl, rfl⟩

lemma ref_take_ne_zero {i j : ℕ} (h : v.ref j ≠ 0) : (v.take i).ref j ≠ 0 := by
  simp only [take_ref, assign_apply]
  split_ifs <;> omega

lemma linked_flag {dp : ℕ} (hne : ip ≠ dp) (name : List UInt8) :
    ((v.linked ip dp name).release dp).flag ip = true := by
  have hflag : (v.linked ip dp name).flag ip = true := by
    simp [linked, Stage.enter, bumped, setNlink, assign_of_ne hne]
  rw [flag_release]
  split_ifs
  · rwa [assign_of_ne hne]
  · exact hflag

lemma Walkable.bumped (hw : v.Walkable) (ip : ℕ) : (v.bumped ip).Walkable := by
  have halive : ∀ j, v.Alive j → (v.bumped ip).Alive j := by
    intro j ha ht
    by_cases hj : j = ip
    · right
      simp [Stage.bumped, setNlink, hj]
    · rw [(bumped_tree j).1] at ht
      simpa [Stage.bumped, setNlink, assign_of_ne hj] using ha ht
  refine ⟨fun i hf => ?_, fun i ht => ?_, fun j hj => halive j
    (hw.alive j ((named_congr bumped_tree j).1 hj)), hw.root.1, halive _ hw.root.2⟩
  · by_cases hi : i = ip
    · simp [Stage.bumped, setNlink, hi]
    · refine ref_take_ne_zero (hw.idle i ?_)
      simpa [Stage.bumped, setNlink, assign_of_ne hi] using hf
  · rw [(bumped_tree i).1] at ht
    have hd := hw.dir i ht
    exact ⟨(bumped_tree i).1.trans ht, by rw [(bumped_tree i).2]; exact hd.aligned,
      by rw [(bumped_tree i).2]; exact hd.size, by rw [(bumped_tree i).2]; exact hd.inum⟩

end bumped

namespace Is

variable {v : Stage} {a : Afs} {p : ℕ}

section branch

variable {α : Type} {Q : α → Afs → Prop} {c : Prop} [Decidable c] {m n : FsProg α}

lemma opt {I : Afs → Prop} (hn : ∀ a, I a → Goes Q n a) (hm : c → (∀ a, I a → Goes Q n a) → Goes Q m a)
    (hc : ¬ c → I a) : Goes Q (if c then m else n) a := by
  split_ifs with h
  · exact hm h hn
  · exact hn a (hc h)

lemma guard {q : Panic} (hn : ¬ c → Goes Q n a) :
    Goes Q (if c then Sys.panic q >>= fun _ : PUnit => n else n) a := by
  split_ifs with h
  · exact wp_bind panic
  · exact hn h

end branch

section file

lemma filealloc {Q : Option ℕ → Afs → Prop} (h : v.Is a) (hnone : v.kern.freeFile = none → Q none a)
    (hsome : ∀ f, v.kern.freeFile = some f → ∀ a', (v.setKern (v.kern.reserve f)).Is a' → Q (some f) a') :
    Goes Q Sys.filealloc a := by
  unfold Kern.freeFile at hnone hsome
  refine wp_bind (h.kget ?_)
  cases hf : (List.range NFILE).find? (fun f => (v.kern.ftable f).ref = 0) with
  | none => exact wp_pure (hnone hf)
  | some f => exact wp_bind (h.kset fun a' h' => wp_pure (hsome f hf a' h'))

lemma fdalloc {f : ℕ} {Q : Option ℕ → Afs → Prop} (h : v.Is a) (hnone : v.kern.freeFd p = none → Q none a)
    (hsome : ∀ fd, v.kern.freeFd p = some fd → ∀ a', (v.setKern (v.kern.setFd p fd (some f))).Is
    a' → Q (some fd) a') : Goes Q (Sys.fdalloc p f) a := by
  unfold Kern.freeFd at hnone hsome
  refine wp_bind (h.kget ?_)
  cases hf : (List.range NOFILE).find? (fun fd => (v.kern.procs p).ofile fd = none) with
  | none => exact wp_pure (hnone hf)
  | some fd => exact wp_bind (h.kset fun a' h' => wp_pure (hsome fd hf a' h'))

lemma fileclose {f : ℕ} {Q : PUnit → Afs → Prop} (h : v.Is a)
    (hmore : 1 < (v.kern.ftable f).ref → ∀ a', (v.setKern (v.kern.setFile f
      { v.kern.ftable f with ref := (v.kern.ftable f).ref - 1 })).Is a' → Q ⟨⟩ a')
    (hother : (v.kern.ftable f).ref = 1 → (v.kern.ftable f).type ≠ .inode →
      ∀ a', (v.setKern (v.kern.closed f)).Is a' → Q ⟨⟩ a')
    (hinode : (v.kern.ftable f).ref = 1 → (v.kern.ftable f).type = .inode →
      ∀ a', (v.setKern (v.kern.closed f)).begin.Is a' → Goes Q (Sys.iput (v.kern.ftable f).ip) a') :
    Goes Q (Sys.fileclose f) a := by
  refine wp_bind (h.kget ?_)
  dsimp only
  split_ifs with h1 h2 ht
  · exact panic
  · exact h.kset (hmore (by omega))
  · refine wp_bind (h.kset fun a1 h₁ => wp_bind (h₁.beginOp fun a2 h₂ => ?_))
    exact wp_bind ((hinode (by omega) ht a2 h₂).imp fun _ a3 hq => endOp hq)
  · exact wp_bind (h.kset fun a1 h₁ => wp_pure (hother (by omega) ht a1 h₁))

lemma openTail {ip : ℕ} {omode : UInt32} {Q : Option ℕ → Afs → Prop} (h : (v.setLocks {ip}).Is a)
    (hi : v.ref ip ≠ 0) (hlive : (v.ino ip).nlink ≠ 0 ∨ v.ref ip ≠ 1) (hk : v.kern.Clean)
    (hfail : v.kern.freeFile = none ∨ v.kern.freeFd p = none → ∀ a', ((v.give ip).setLocks ∅).Is
    a' → Q none a') (hok : ∀ f fd, v.kern.freeFile = some f → v.kern.freeFd p = some fd →
      ∀ a', ((v.setKern (v.kern.opened p f fd ip omode)).setLocks ∅).Is a' → Q (some fd) a') :
    Goes Q (do
      match ← Sys.filealloc with
      | none =>
        Sys.iunlockput ip
        Sys.endOp
        return none
      | some f =>
        match ← Sys.fdalloc p f with
        | none =>
          Sys.fileclose f
          Sys.iunlockput ip
          Sys.endOp
          return none
        | some fd =>
          Sys.iunlock ip
          Sys.endOp
          let k ← Sys.kget
          Sys.kset (k.setFile f (openFile (k.ftable f) ip omode))
          return some fd) a := by
  have hlocks : (v.setLocks {ip}).unlock ip = v.setLocks ∅ := setLocks_unlock v (Finset.notMem_empty ip)
  have hleave : ∀ {a}, (v.setLocks {ip}).Is a → v.kern.freeFile = none ∨ v.kern.freeFd p = none →
      Goes Q (do Sys.iunlockput ip; Sys.endOp; return none) a := by
    intro a h hno
    refine wp_bind (h.iunlockput hi (Finset.mem_singleton_self ip) hlive fun a' h' => ?_)
    rw [hlocks] at h'
    exact wp_bind (endOp (wp_pure (hfail hno a' h')))
  refine wp_bind (h.filealloc (fun hno => hleave h (.inl hno)) fun f hf a1 h1 => ?_)
  change ((v.setKern (v.kern.reserve f)).setLocks {ip}).Is a1 at h1
  have hfile : ((v.setKern (v.kern.reserve f)).setLocks {ip}).kern.ftable f =
    { v.kern.ftable f with ref := 1 } :=
    assign_self ..
  refine wp_bind (h1.fdalloc (fun hno => ?_) fun fd hfd a2 h2 => ?_)
  · have hclean := hk f (Kern.freeFile_spec hf).1 (Kern.freeFile_spec hf).2
    refine wp_bind (h1.fileclose (fun hc => ?_) (fun _ _ a' h' => ?_) (fun _ hc => ?_))
    · rw [hfile] at hc
      exact absurd hc (lt_irrefl 1)
    · refine hleave ?_ (.inr hno)
      have heq : v.kern = (v.kern.reserve f).closed f := (Kern.closed_setFile hk hf).symm
      have hst : v.setLocks {ip} = ((v.setKern (v.kern.reserve f)).setLocks {ip}).setKern
          ((v.kern.reserve f).closed f) := by
        rw [← heq]
        rfl
      rw [hst]
      exact h'
    · rw [hfile] at hc
      exact absurd (hclean.symm.trans hc) (by decide)
  · refine wp_bind (h2.iunlock hi (Finset.mem_singleton_self ip) fun a3 h3 => wp_bind (endOp ?_))
    refine wp_bind (h3.kget (wp_bind (h3.kset fun a4 h4 => wp_pure (hok f fd hf hfd a4 ?_))))
    rw [show (v.setKern (v.kern.opened p f fd ip omode)).setLocks ∅ =
      (v.setLocks ∅).setKern (v.kern.opened p f fd ip omode) from rfl, ← hlocks]
    exact h4

end file

section walk

variable (hw : v.Walkable) (hlocks : v.locks = ∅) (hcwd : v.ref (v.kern.procs p).cwd ≠ 0)
include hw hlocks hcwd

lemma openInode {path : List UInt8} {omode : UInt32} {Q : Option ℕ → Afs → Prop} (h : v.Is a)
    (hnone : (omode &&& O_CREATE ≠ 0 → ¬ v.Missing p path) → (∀ ip, ¬ v.Openable p path omode ip) →
      ∀ a', v.Is a' → Q none a')
    (hold : ∀ ip, v.Openable p path omode ip → ∀ a', ((v.take ip).setLocks {ip}).Is a' → Q (some ip) a')
    (hnew : ∀ dp name ip, omode &&& O_CREATE ≠ 0 → v.Creates p path dp name ip →
      ∀ a', (((v.entered dp name ip T_FILE 0 0).release dp).setLocks {ip}).Is a' → Q (some ip) a') :
    Goes Q (Sys.openInode p path omode) a := by
  unfold Openable at hnone hold
  unfold Sys.openInode
  split_ifs with hcreate
  · simp only [if_pos hcreate] at hnone hold
    exact create hw hlocks hcwd h (fun hm hno => hnone (fun _ => hm) (hno rfl)) (fun ip _ => hold ip)
      (fun dp name ip => hnew dp name ip hcreate)
  · simp only [if_neg hcreate] at hnone hold
    have hfail := hnone fun hc => absurd hc hcreate
    refine wp_bind (namei hw hlocks h hcwd (fun hf a' h' => wp_pure (hfail (fun ip hip => ?_) a' h')) ?_)
    · exact not_finds hf ip hip.1
    intro ip n hf a1 h1
    refine wp_bind (lockWithin hlocks h1 fun ht a2 h2 => ?_)
    refine wp_bind (h2.inode (by simp [setLocks]) (Finset.mem_singleton_self ip) ?_)
    change Goes Q (if (v.ino ip).type = T_DIR ∧ omode ≠ 0 then _ else _) a2
    split_ifs with hbad
    · refine wp_bind (putWithin hw hlocks h2 ((Within.follow hf).alive hw hcwd) ht fun a' h' =>
        wp_pure (hfail (fun j hj => ?_) a' h'))
      obtain rfl := Finds.unique hf hj.1
      exact hbad.2 (hj.2.2 hbad.1)
    · exact wp_pure (hold ip ⟨⟨n, hf⟩, ht, fun hd => by_contra fun hm => hbad ⟨hd, hm⟩⟩ a2 h2)

lemma sys_open {path : Option (List UInt8)} {omode : UInt32} (h : v.Is a) (hk : v.kern.Clean) :
    Goes (v.Ends p (.sysOpen path omode)) (Sys.sys_open p path omode) a := by
  unfold Sys.sys_open
  cases hs : argstr path with
  | none => exact wp_pure ⟨_, .refused hs, h⟩
  | some s =>
    refine wp_bind (h.beginOp fun a1 h1 => ?_)
    refine wp_bind (openInode hw.begin hlocks hcwd h1 (fun hm hno a' h' => ?_) (fun ip ho a2 h2 => ?_)
      (fun dp name ip hc hcr a2 h2 => ?_))
    · exact wp_bind (endOp (wp_pure ⟨_, .failed ⟨s, hs, hm, .inl hno⟩, h'⟩))
    · have ho : v.Openable p s omode ip := ho
      refine openTail h2 (by simp) ?_ hk (fun hfull a' h' => ?_) fun f fd hf hfd a' h' => ?_
      · exact (ho.within.alive hw hcwd ho.type_ne_zero).imp id fun hr => by simpa using hr
      · rw [take_give hw.begin.idle, setLocks_empty (v := v.begin) hlocks] at h'
        exact ⟨_, .failed ⟨s, hs, ho.not_missing, .inr hfull⟩, h'⟩
      · rw [setLocks_empty (v := (v.begin.take ip).setKern _) hlocks] at h'
        exact ⟨_, .opened hs ho hf hfd, h'⟩
    · obtain ⟨hr, hn⟩ := hcr.live T_FILE 0 0
      refine openTail h2 hr (.inl hn) (by simpa using hk)
        (fun hno a' h' => ?_) fun f fd hf hfd a' h' => ?_
      · rw [setLocks_empty (by simpa using hlocks)] at h'
        exact ⟨_, .lost hs hc hcr.of_begin (by simpa using hno), h'⟩
      · rw [setLocks_empty (by simpa using hlocks)] at h'
        simp only [kern_release, kern_entered, begin_kern] at hf hfd h'
        exact ⟨_, .created hs hc hcr.of_begin hf hfd, h'⟩

lemma createPut {path : Option (List UInt8)} {type major minor : Int16} {Q : Option ℕ → Afs → Prop}
    (h : v.Is a)
    (hfile : type ≠ T_FILE) (hnone : (∀ s, argstr path = some s → ¬ v.Missing p s) → ∀ a',
    v.begin.Is a' → Q none a')
    (hnew : ∀ s dp name ip, argstr path = some s → v.Creates p s dp name ip →
      ∀ a', (((v.begin.entered dp name ip type major minor).release dp).give ip).Is a' → Q (some 0) a') :
    Goes Q (Sys.createPut p path type major minor) a := by
  refine wp_bind (h.beginOp fun a1 h1 => ?_)
  cases hs : argstr path with
  | none => exact wp_bind (endOp (wp_pure (hnone (fun s hs' => by cases hs.symm.trans hs') a1 h1)))
  | some s =>
    refine wp_bind (create hw.begin hlocks hcwd h1 (fun hm _ a' h' => ?_) (fun _ hf => absurd hf hfile)
      (fun dp name ip hcr a2 h2 => ?_))
    · refine wp_bind (endOp (wp_pure (hnone (fun t ht => ?_) a' h')))
      cases hs.symm.trans ht
      exact hm
    · obtain ⟨hr, hn⟩ := hcr.live type major minor
      refine wp_bind (h2.iunlockput hr (Finset.mem_singleton_self ip) (.inl hn) fun a3 h3 => ?_)
      refine wp_bind (endOp (wp_pure (hnew s dp name ip hs hcr.of_begin a3 ?_)))
      rwa [← Finset.insert_empty, setLocks_unlock _ (Finset.notMem_empty ip),
        setLocks_empty (by simpa using hlocks)] at h3

lemma sys_chdir {path : Option (List UInt8)} (h : v.Is a)
    (hflag : (v.ino (v.kern.procs p).cwd).nlink = 0 → v.flag (v.kern.procs p).cwd = true) :
    Goes (v.Ends p (.sysChdir path)) (Sys.sys_chdir p path) a := by
  refine wp_bind (h.beginOp fun a1 h1 => ?_)
  cases hs : argstr path with
  | none => exact wp_bind (endOp (wp_pure ⟨_, .failed fun s ip hs' => (by cases hs.symm.trans hs'), h1⟩))
  | some s =>
    have hnone : (∀ ip, v.Finds p s ip → (v.ino ip).type ≠ T_DIR) → ∀ a', v.begin.Is a' →
        v.Ends p (.sysChdir path) none a' := by
      refine fun hno a' h' => ⟨_, .failed fun t ip ht => ?_, h'⟩
      cases hs.symm.trans ht
      exact hno ip
    refine wp_bind (namei hw.begin hlocks h1 hcwd (fun hf a' h' => ?_) fun ip n hf a2 h2 => ?_)
    · exact wp_bind (endOp (wp_pure
        (hnone (fun ip hip => absurd hip (not_finds (v := v.begin) hf ip)) a' h')))
    have hin : v.Within p ip := Within.follow (v := v.begin) hf
    refine wp_bind (lockWithin (v := v.begin) hlocks h2 fun ht a3 h3 => ?_)
    refine wp_bind (h3.inode (by simp) (Finset.mem_singleton_self ip) ?_)
    change Goes _ (if (v.ino ip).type ≠ T_DIR then _ else _) a3
    split_ifs with hdir
    · refine wp_bind (putWithin hw.begin hlocks h3 (Within.alive hw.begin hcwd hin) ht
        fun a' h' => wp_bind (endOp (wp_pure (hnone (fun j hj => ?_) a' h'))))
      obtain rfl := Finds.unique (v := v.begin) hf hj
      exact hdir
    have hdir : (v.ino ip).type = T_DIR := not_not.1 hdir
    refine wp_bind (h3.iunlock (by simp) (Finset.mem_singleton_self ip) fun a4 h4 => ?_)
    rw [← Finset.insert_empty, setLocks_unlock _ (Finset.notMem_empty ip), setLocks_empty (v :=
      v.begin.take ip) hlocks] at h4
    refine wp_bind (h4.kget (wp_bind (h4.iput_release ?_ ?_ (fun hl => hflag hl.2.1) ?_)))
    · simp only [take_ref, begin_ref, take_kern, begin_kern, assign_apply]
      split_ifs <;> omega
    · simp [hlocks]
    intro a5 h5
    refine wp_bind (endOp (wp_bind
      (h5.kget (wp_bind (h5.kset fun a6 h6 => wp_pure ⟨_, .moved hs ⟨n, hf⟩ hdir, ?_⟩)))))
    simpa [Kern.chdir] using h6

omit hcwd in
lemma unlinkBad {dp : ℕ} {Q : Option ℕ → Afs → Prop} (h : ((v.take dp).setLocks {dp}).Is a)
    (halive : v.Alive dp)
    (ht : (v.ino dp).type ≠ 0) (hq : ∀ a', v.Is a' → Q none a') : Goes Q (Sys.unlinkBad dp) a :=
  wp_bind (putWithin hw hlocks h halive ht fun a' h' => wp_bind (endOp (wp_pure (hq a' h'))))

omit hcwd in
lemma unlinkErase {dp ip k : ℕ} {Q : Option ℕ → Afs → Prop}
    (h : (((v.take dp).take ip).setLocks {ip, dp}).Is a)
    (hne : ip ≠ dp) (hdir : (v.ino dp).type = T_DIR) (hk : k < nslots (v.ino dp).data)
    (hq : ∀ a', ((v.unlinked dp ip k).release ip).Is a' → Q (some 0) a') :
    Goes Q (do
      if (← Sys.writei dp (List.replicate DIRENT 0) (UInt32.ofNat (DIRENT * k))) ≠ some DIRENT then
        Sys.panic .unlinkWritei
      if (v.ino ip).fields.type = T_DIR then
        let d ← Sys.inode dp
        Sys.iupdate dp d.major d.minor (d.nlink - 1)
      Sys.iunlockput dp
      Sys.iupdate ip (v.ino ip).fields.major (v.ino ip).fields.minor ((v.ino ip).fields.nlink - 1)
      Sys.iunlockput ip
      Sys.endOp
      return some 0) a := by
  set w := (((v.take dp).take ip).promise dp).promise ip with hwdef
  have hrdp : w.ref dp ≠ 0 := by simp [hwdef, assign_of_ne hne.symm]
  replace h : (w.setLocks {ip, dp}).Is a := (h.promise (i := dp) (by simp)).promise (i := ip) (by simp)
  refine wp_bind (h.writeSlot (hw.dir dp hdir) hrdp (by simp) rfl hk.le (fun hfull => ?_)
    fun _ a1 h1 => ?_)
  · have := ((hw.dir dp hdir).slot_end hk).trans (hw.dir dp hdir).size
    omega
  rw [if_neg (by simp)]
  change ((w.erase dp k).setLocks {ip, dp}).Is a1 at h1
  -- both branches come to the same rest of the program
  refine opt (I := ((v.erased dp ip k).setLocks {ip, dp}).Is) (fun a h => ?_) (fun hd hend => ?_)
    fun hd => ?_
  rotate_left
  · refine wp_bind (h1.inode hrdp (by simp)
      (wp_bind (relink h1 hrdp (by simp) rfl rfl fun a2 h2 => hend a2 ?_)))
    rw [erased, if_pos (by exact hd)]
    exact h2
  · rw [erased, if_neg (by exact hd)]
    exact h1
  have hkeep : (v.erased dp ip k).ino ip = v.ino ip ∧ (v.erased dp ip k).ref = w.ref ∧
      (v.erased dp ip k).locks = v.locks := by
    unfold erased
    split_ifs <;> exact ⟨by simp [erase, setNlink, assign_of_ne hne], rfl, rfl⟩
  obtain ⟨hino, href, hlk⟩ := hkeep
  have hrip : (v.erased dp ip k).ref ip ≠ 0 := by rw [href]; simp [hwdef]
  rw [Finset.pair_comm] at h
  refine wp_bind (put h (by rw [href]; exact hrdp) (by simpa using hne.symm) fun a2 h2 => ?_)
  have hrip' : ((v.erased dp ip k).release dp).ref ip ≠ 0 := by
    rw [ref_release, assign_of_ne hne]
    exact hrip
  have hst : ((v.erased dp ip k).release dp).ino ip = v.ino ip := by rw [ino_release_of_ne hne, hino]
  refine wp_bind (relink h2 hrip' (Finset.mem_singleton_self ip) (by rw [hst]; rfl)
    (by rw [hst]; rfl) fun a3 h3 => ?_)
  change ((v.unlinked dp ip k).setLocks {ip}).Is a3 at h3
  have hl : ((v.unlinked dp ip k).setLocks ∅) = v.unlinked dp ip k :=
    setLocks_empty (by simp [unlinked, setNlink, hlk, hlocks])
  refine wp_bind (put (s := ∅) h3 hrip' (Finset.notMem_empty ip) fun a4 h4 => ?_)
  rw [← release_setLocks, hl] at h4
  exact wp_bind (endOp (wp_pure (hq a4 h4)))

lemma unlinkEntry {path name : List UInt8} {dp ip k : ℕ} {Q : Option ℕ → Afs → Prop}
    (h : (((v.take dp).take ip).setLocks {dp}).Is a)
    (hf : follow v.ino true (origin v.kern p path) (components path) = some (dp, name))
    (hdots : ¬ (namecmp name DOT = 0 ∨ namecmp name DOTDOT = 0))
    (hk : lookup (v.ino dp).data name = some k) (hip : (slot (v.ino dp).data k).inum.toNat = ip)
    (hnone : ((v.ino ip).type = T_DIR ∧ ¬ Vacant (v.ino ip).data) → ∀ a', v.Is a' → Q none a')
    (hok : v.Unlinks p path dp name k ip → ∀ a', ((v.unlinked dp ip k).release ip).Is a' →
    Q (some 0) a') : Goes Q (Sys.unlinkEntry dp ip (DIRENT * k)) a := by
  have hdir := follow_parent_dir hf
  have hr : ((v.take dp).take ip).ref ip ≠ 0 := by simp
  refine wp_bind (h.ilock hr fun hl ht a1 h1 => ?_)
  have hne : ip ≠ dp := by simpa using hl
  change (((v.take dp).take ip).setLocks {ip, dp}).Is a1 at h1
  refine wp_bind (h1.inode hr (by simp) ?_)
  rw [setLocks_ino, take_ino, take_ino]
  refine guard fun hn => ?_
  have hn : 1 ≤ (v.ino ip).nlink := by simpa [Node.fields] using hn
  have hklt := (lookup_eq_some hk).1
  -- the entry is removed, if the inode is no directory or an empty one
  have hremove : ((v.ino ip).type = T_DIR → Vacant (v.ino ip).data) → v.Unlinks p path dp name k ip :=
    fun hv => ⟨hf, hdots, hk, hip, hne, ht, hn, hv⟩
  have hkeep : (v.ino ip).type = T_DIR ∧ ¬ Vacant (v.ino ip).data →
      Goes Q (do Sys.iunlockput ip; Sys.unlinkBad dp) a1 := by
    intro hfull
    have hn0 : (v.ino ip).nlink ≠ 0 := by
      rintro h0
      rw [h0] at hn
      exact absurd hn (by decide)
    refine wp_bind (h1.iunlockput hr (by simp) (.inl hn0) fun a2 h2 => ?_)
    rw [setLocks_unlock _ (by simpa using hne)] at h2
    change (((v.take dp).take ip).give ip |>.setLocks {dp}).Is a2 at h2
    rw [take_give (hw.idle.take dp)] at h2
    exact unlinkBad hw hlocks h2 ((Within.follow hf).alive hw hcwd) (by rw [hdir]; decide) (hnone hfull)
  by_cases hd : (v.ino ip).type = T_DIR
  · rw [if_pos (show (v.ino ip).fields.type = T_DIR from hd)]
    refine wp_bind (h1.isdirempty (hw.dir ip hd) hr (by simp) (fun hv => ?_) (fun hv => ?_))
    · have hu := hremove fun _ => hv
      exact unlinkErase hw hlocks h1 hne hdir hklt (hok hu)
    · exact hkeep ⟨hd, hv⟩
  · rw [if_neg (show ¬ (v.ino ip).fields.type = T_DIR from hd)]
    have hu := hremove fun hd' => absurd hd' hd
    exact unlinkErase hw hlocks h1 hne hdir hklt (hok hu)

lemma sys_unlink {path : Option (List UInt8)} (h : v.Is a) :
    Goes (v.Ends p (.sysUnlink path)) (Sys.sys_unlink p path) a := by
  have hun : ∀ {s dp name k ip}, v.begin.Unlinks p s dp name k ip → v.Unlinks p s dp name k ip :=
    fun hu => { hu with }
  unfold Sys.sys_unlink
  cases hs : argstr path with
  | none => exact wp_pure ⟨_, .refused hs, h⟩
  | some s =>
    have hnone : (∀ dp name k ip, ¬ v.Unlinks p s dp name k ip) → ∀ a', v.begin.Is a' →
        v.Ends p (.sysUnlink path) none a' := fun hno a' h' => ⟨_, .failed ⟨s, hs, hno⟩, h'⟩
    refine wp_bind (h.beginOp fun a1 h1 => ?_)
    refine wp_bind (namex hw.begin hlocks h1 hcwd (fun hf a' h' => ?_) ?_)
    · refine wp_bind (endOp (wp_pure (hnone (fun dp name k ip hu => ?_) a' h')))
      cases (show follow v.ino true _ _ = none from hf).symm.trans hu.parent
    rintro ⟨dp, name⟩ hf a2 h2
    have hf : follow v.ino true (origin v.kern p s) (components s) = some (dp, name) := hf
    have hdir := follow_parent_dir hf
    have hdp := Within.follow hf
    refine wp_bind (lockWithin (v := v.begin) hlocks h2 fun ht a3 h3 => ?_)
    have hleave : (∀ k ip, ¬ v.Unlinks p s dp name k ip) →
        Goes (v.Ends p (.sysUnlink path)) (Sys.unlinkBad dp) a3 := by
      refine fun hno => unlinkBad hw.begin hlocks h3 (Within.alive hw.begin hcwd hdp) ht (hnone ?_)
      intro dp' name' k ip hu
      cases hf.symm.trans hu.parent
      exact hno k ip hu
    split_ifs with hdots
    · exact hleave fun k ip hu => hu.dots hdots
    refine wp_bind (lookupWithin hw.begin h3 hdir (fun hno => ?_) (fun ip k hk hip _ a4 h4 => ?_))
    · refine hleave fun k ip hu => ?_
      cases (show lookup (v.ino dp).data name = none from hno).symm.trans hu.found
    refine unlinkEntry hw.begin hlocks hcwd h4 hf hdots hk hip (fun hfull => hnone ?_)
      fun hu a' h' => ⟨_, .unlinked hs (hun hu), h'⟩
    intro dp' name' k' ip' hu
    cases hf.symm.trans hu.parent
    cases (show lookup (v.ino dp).data name = some k from hk).symm.trans hu.found
    obtain rfl : ip = ip' := hip.symm.trans hu.inum
    exact hfull.2 (hu.vacant hfull.1)

omit hw hlocks hcwd in
lemma forget (h : v.Is a) {f : ℕ → Bool} (hf : ∀ i, f i = true → v.flag i = true) :
    ({ v with flag := f } : Stage).Is a :=
  { h with kept := fun i hi => h.kept i (hf i hi) }

omit hcwd in
lemma linkBad {ip : ℕ} {Q : Option ℕ → Afs → Prop} (h : (v.bumped ip).Is a) (halive : v.Alive ip)
    (ht : (v.ino ip).type ≠ 0) (hq : ∀ a', (v.touch ip).Is a' → Q none a') :
    Goes Q (Sys.linkBad ip) a := by
  have hr : (v.bumped ip).ref ip ≠ 0 := by simp [bumped, setNlink]
  have hlk : (v.bumped ip).locks = ∅ := hlocks
  have hwt : (v.touch ip).Walkable := { hw with }
  refine wp_bind (h.ilock hr fun _ _ a1 h1 => ?_)
  rw [lock_eq hlk] at h1
  refine wp_bind (h1.inode hr (Finset.mem_singleton_self ip) ?_)
  refine wp_bind (relink h1 hr (Finset.mem_singleton_self ip) rfl rfl fun a2 h2 => ?_)
  change (((v.bumped ip).setNlink ip (((v.bumped ip).ino ip).nlink - 1)).setLocks {ip}).Is a2 at h2
  rw [bumped_back] at h2
  have h2 : (((v.touch ip).take ip).setLocks {ip}).Is a2 := h2.forget fun i hi => by
    simp only [setLocks_flag, promise_flag, take_flag, assign_apply]
    split_ifs
    · rfl
    · exact hi
  exact wp_bind (putWithin hwt hlocks h2 halive ht fun a' h' => wp_bind (endOp (wp_pure (hq a' h'))))

lemma sys_link {old new : Option (List UInt8)} (h : v.Is a) :
    Goes (v.Ends p (.sysLink old new)) (Sys.sys_link p old new) a := by
  unfold Sys.sys_link
  cases hs : argstr old with
  | none => exact wp_pure ⟨_, .refused (.inl hs), h⟩
  | some s =>
  cases ht : argstr new with
  | none => exact wp_pure ⟨_, .refused (.inr ht), h⟩
  | some t =>
  have hnone : (∀ ip, v.Finds p s ip → (v.ino ip).type = T_DIR) → ∀ a', v.begin.Is a' →
      v.Ends p (.sysLink old new) none a' := fun hno a' h' => ⟨_, .failed ⟨s, t, hs, ht, hno⟩, h'⟩
  refine wp_bind (h.beginOp fun a1 h1 => ?_)
  refine wp_bind (namei hw.begin hlocks h1 hcwd (fun hf a' h' => ?_) fun ip n hf a2 h2 => ?_)
  · exact wp_bind (endOp (wp_pure
      (hnone (fun ip hip => absurd hip (not_finds (v := v.begin) hf ip)) a' h')))
  have hin : v.Within p ip := Within.follow (v := v.begin) hf
  have halive : v.begin.Alive ip := Within.alive hw.begin hcwd hin
  refine wp_bind (lockWithin (v := v.begin) hlocks h2 fun htype a3 h3 => ?_)
  refine wp_bind (h3.inode (by simp) (Finset.mem_singleton_self ip) ?_)
  rw [setLocks_ino, take_ino]
  split_ifs with hdir
  · refine wp_bind (putWithin hw.begin hlocks h3 halive htype
      fun a' h' => wp_bind (endOp (wp_pure (hnone (fun j hj => ?_) a' h'))))
    rw [Finds.unique (v := v.begin) hf hj]
    exact hdir
  have hr : ((v.begin.take ip).promise ip).ref ip ≠ 0 := by simp
  refine wp_bind (relink (v := (v.begin.take ip).promise ip) (h3.promise (i := ip) (by simp)) hr
    (Finset.mem_singleton_self ip) rfl rfl fun a4 h4 => ?_)
  change ((v.begin.bumped ip).setLocks {ip}).Is a4 at h4
  refine wp_bind (h4.iunlock hr (Finset.mem_singleton_self ip) fun a5 h5 => ?_)
  rw [← Finset.insert_empty, setLocks_unlock _ (Finset.notMem_empty ip),
    setLocks_empty (v := v.begin.bumped ip) hlocks] at h5
  have hwb := hw.begin.bumped ip
  have hlb : (v.begin.bumped ip).locks = ∅ := hlocks
  have hcb : (v.begin.bumped ip).ref (v.kern.procs p).cwd ≠ 0 := ref_take_ne_zero (v := v.begin) hcwd
  -- the walk of the second path, with the link already counted
  have hundo : ¬ v.Missing p t → ∀ a', (v.begin.touch ip).Is a' → v.Ends p (.sysLink old new) none a' :=
    fun hm a' h' => ⟨_, .undone hs ht ⟨n, hf⟩ hdir hm, h'⟩
  refine wp_bind (namex hwb hlb h5 hcb (fun hfollow a' h' => ?_) ?_)
  · rw [follow_congr bumped_tree] at hfollow
    refine linkBad hw.begin hlocks h' halive htype (hundo ?_)
    rintro ⟨dp, name, hf', -⟩
    cases (show follow v.ino true _ _ = none from hfollow).symm.trans hf'
  rintro ⟨dp, name⟩ hfollow a6 h6
  have hdp := Within.follow hfollow
  have hdpdir := follow_parent_dir hfollow
  have hne : ip ≠ dp := by
    rintro rfl
    exact hdir ((bumped_tree ip).1.symm.trans hdpdir)
  rw [follow_congr bumped_tree] at hfollow
  refine wp_bind (lockWithin hlb h6 fun hdpt a7 h7 => ?_)
  have hdata : ((v.begin.bumped ip).ino dp).data = (v.ino dp).data := (bumped_tree dp).2
  cases hlook : lookup (v.ino dp).data name with
  | some k =>
    have hlook' : lookup ((v.begin.bumped ip).ino dp).data name = some k := by rwa [hdata]
    refine wp_bind (h7.dirlink_old (hwb.dir dp hdpdir) (by simp) (Finset.mem_singleton_self dp) hlook'
      (hwb.idle.take dp) (fun ht0 => ?_) (by simp) fun a' h' => ?_)
    · exact (hwb.alive _ (named_of_lookup hdpdir hlook') ht0).imp id ref_take_ne_zero
    rw [if_neg (by simp)]
    refine wp_bind (putWithin hwb hlb h' (hdp.alive hwb hcb) hdpt fun a'' h'' => ?_)
    refine linkBad hw.begin hlocks h'' halive htype (hundo ?_)
    rintro ⟨dp', name', hf', hmiss⟩
    cases (show follow v.ino true _ _ = some (dp, name) from hfollow).symm.trans hf'
    cases hlook.symm.trans hmiss
  | none =>
    have hlook' : lookup ((v.begin.bumped ip).ino dp).data name = none := by rwa [hdata]
    have h7 : ((((v.begin.bumped ip).take dp).promise dp).setLocks {dp}).Is a7 :=
      h7.promise (i := dp) (by simp)
    refine wp_bind (link h7 (hwb.dir dp hdpdir) (by simp) (Finset.mem_singleton_self dp) hlook'
      fun hroom a8 h8 => ?_)
    rw [if_pos rfl]
    have hlinks : v.Links p s t ip dp name := ⟨⟨n, hf⟩, htype, hdir, hfollow, hlook, hdata ▸ hroom⟩
    change ((v.begin.linked ip dp name).setLocks {dp}).Is a8 at h8
    have hlk : (v.begin.linked ip dp name).locks = ∅ := hlocks
    have hrdp : (v.begin.linked ip dp name).ref dp ≠ 0 := by simp [linked, Stage.enter]
    refine wp_bind (put (s := ∅) h8 hrdp (Finset.notMem_empty dp) fun a9 h9 => ?_)
    rw [setLocks_empty (by rw [locks_release]; exact hlk)] at h9
    refine wp_bind (h9.iput_release ?_ (by simp [hlk]) (fun _ => linked_flag hne name) fun a' h' => ?_)
    · simp [linked, Stage.enter, assign_of_ne hne, bumped, setNlink]
    · exact wp_bind (endOp (wp_pure ⟨_, .linked hs ht hlinks, h'⟩))

end walk

end Is

end Stage

end Xv6.Fs
