import Xv6.Fs.Calls

namespace Xv6.Fs

open Lib Prog

namespace Stage

namespace Is

variable {v : Stage} {a : Afs} {p : ℕ}

lemma sys_close {fd : ℕ} (h : v.Is a) (hlocks : v.locks = ∅)
    (hheld : ∀ f, argfd v.kern p fd = some f → (v.kern.ftable f).ref ≠ 0 →
    (v.kern.ftable f).type = .inode →
      v.ref (v.kern.ftable f).ip ≠ 0 ∧
      ((v.ino (v.kern.ftable f).ip).nlink = 0 → v.flag (v.kern.ftable f).ip = true)) :
    Goes (v.Ends p (.sysClose fd)) (Sys.sys_close p fd) a := by
  refine wp_bind (h.kget ?_)
  cases hf : argfd v.kern p fd with
  | none => exact wp_pure ⟨_, .refused hf, h⟩
  | some f =>
    refine wp_bind (h.kset fun a1 h1 => wp_bind (h1.fileclose ?_ ?_ ?_))
    · exact fun hr a' h' => wp_pure ⟨_, .dropped hf hr, h'⟩
    · exact fun hr ht a' h' => wp_pure ⟨_, .closed hf hr ht, h'⟩
    · intro hr ht a2 h2
      have hr' : (v.kern.ftable f).ref = 1 := hr
      obtain ⟨hi, hflag⟩ := hheld f hf (by omega) ht
      refine h2.iput_release hi (by simp [hlocks]) (fun hl => hflag hl.2.1) fun a' h' => ?_
      exact wp_pure ⟨_, .released hf hr ht, h'⟩

end Is

end Stage

def Afs.stage (a : Afs) : Stage := ⟨a.ninodes, a.ref, a.valid, a.ino, a.kern, ∅, a.iu, a.wr⟩

structure Afs.Quiet (a : Afs) : Prop where
  busy : ∀ i, a.busy i = false
  valid : ∀ i, a.valid i = true → (a.ino i).type ≠ 0
  sane : a.stage.Sane
  clean : a.kern.Clean
  cwd : ∀ p < a.kern.nproc, a.ref (a.kern.procs p).cwd ≠ 0
  file : ∀ f, (a.kern.ftable f).ref ≠ 0 → (a.kern.ftable f).type = .inode → a.ref (a.kern.ftable f).ip ≠ 0

namespace Afs.Quiet

variable {a : Afs} (h : a.Quiet)
include h

lemma is : a.stage.Is a where
  ninodes := rfl
  ino := rfl
  kern := rfl
  ref := rfl
  busy i := by simp [h.busy i, Afs.stage]
  valid := h.valid
  loaded i hi := absurd hi (Finset.notMem_empty i)
  kept _ hi := hi
  iu := rfl
  wr := rfl

lemma call_goes {p : ℕ} (hp : p < a.kern.nproc) (c : Call) :
    Stage.Goes (a.stage.Ends p c) (c.prog p) a := by
  have hs := h.sane
  have hw := hs.toWalkable
  have hcwd : a.stage.ref (a.stage.kern.procs p).cwd ≠ 0 := h.cwd p hp
  have hl : a.stage.locks = ∅ := rfl
  cases c with
  | sysOpen path omode => exact Stage.Is.sys_open hw hl hcwd h.is h.clean
  | sysLink old new => exact Stage.Is.sys_link hw hl hcwd h.is
  | sysUnlink path => exact Stage.Is.sys_unlink hw hl hcwd h.is
  | sysMkdir path =>
    exact Stage.Is.createPut hw hl hcwd h.is (by decide) (fun hm a' h' => ⟨_, .failed hm, h'⟩)
      (fun s dp name ip hs' hcr a' h' => ⟨_, .madeDir hs' hcr, h'⟩)
  | sysMknod path major minor =>
    exact Stage.Is.createPut hw hl hcwd h.is (by decide) (fun hm a' h' => ⟨_, .failed hm, h'⟩)
      (fun s dp name ip hs' hcr a' h' => ⟨_, .madeNode hs' hcr, h'⟩)
  | sysChdir path => exact Stage.Is.sys_chdir hw hl hcwd h.is (hs.flag _ hcwd)
  | sysClose fd =>
    exact Stage.Is.sys_close h.is hl (fun f _ hr ht => ⟨h.file f hr ht, hs.flag _ (h.file f hr ht)⟩)

end Afs.Quiet

end Xv6.Fs
