import Xv6.Fs.Rest
import Xv6.Lib.Balance

namespace Xv6.Fs

open Lib Prog

def opsDelta : Op → ℤ
  | .beginOp => 1
  | .endOp => -1
  | _ => 0

abbrev Opens {α : Type} (d : ℤ) (p : FsProg α) : Prop := Nets opsDelta d p

namespace Opens

lemma panic {α : Type} {d : ℤ} (q : Panic) : Opens d (Sys.panic q : FsProg α) := fun r => r.elim

lemma opt {α : Type} {d : ℤ} {c : Prop} [Decidable c] {p q : FsProg α} (hq : Opens d p → Opens d q)
    (hp : Opens d p) : Opens d (if c then q else p) := .ite (hq hp) hp

lemma both {α β : Type} {d : ℤ} {c : Prop} [Decidable c] {p q : FsProg β} {f : β → FsProg α}
    (hp : Opens 0 p)
    (hq : Opens 0 q) (hf : ∀ b, Opens d (f b)) : Opens d (if c then p >>= f else q >>= f) :=
    .ite (hp.seq hf) (hq.seq hf)

lemma beginOp {α : Type} {d : ℤ} {f : PUnit → FsProg α} (h : Opens (d - 1) (f ⟨⟩)) :
    Opens d (Sys.beginOp >>= f) :=
  fun _ => h

lemma endOp {α : Type} {d : ℤ} {f : PUnit → FsProg α} (h : Opens (d + 1) (f ⟨⟩)) :
    Opens d (Sys.endOp >>= f) :=
  fun _ => by rwa [show d - opsDelta .endOp = d + 1 from sub_neg_eq_add d 1]

lemma iunlockput (i : ℕ) : Opens 0 (Sys.iunlockput i) := .op rfl fun _ => .call rfl

lemma readDirent (dp off : ℕ) (q : Panic) : Opens 0 (Sys.readDirent dp off q) := by
  refine .op rfl fun r => ?_
  cases r with
  | none => exact panic q
  | some b => exact .ite (.pure _) (panic q)

lemma dirlookupLoop (dp : ℕ) (name : List UInt8) (size fuel off : ℕ) :
    Opens 0 (Sys.dirlookupLoop dp name size fuel off) := by
  induction fuel generalizing off with
  | zero => exact .pure _
  | succ fuel ih =>
    unfold Sys.dirlookupLoop
    exact .ite ((readDirent _ _ _).seq fun _ => .ite (.op rfl fun _ => .pure _) (ih _)) (.pure _)

lemma dirlookup (dp : ℕ) (name : List UInt8) : Opens 0 (Sys.dirlookup dp name) :=
  .op rfl fun _ => .ite (panic _) (dirlookupLoop _ _ _ _ _)

lemma dirlinkLoop (dp size fuel off : ℕ) : Opens 0 (Sys.dirlinkLoop dp size fuel off) := by
  induction fuel generalizing off with
  | zero => exact .pure _
  | succ fuel ih =>
    unfold Sys.dirlinkLoop
    exact .ite ((readDirent _ _ _).seq fun _ => .ite (.pure _) (ih _)) (.pure _)

lemma dirlink (dp : ℕ) (name : List UInt8) (inum : ℕ) : Opens 0 (Sys.dirlink dp name inum) := by
  refine (dirlookup _ _).seq fun r => ?_
  cases r with
  | none =>
    exact .op rfl fun _ => (dirlinkLoop _ _ _ _).seq fun _ => .op rfl fun (_ : Option ℕ) => .ite
      (.pure _) (panic _)
  | some r => exact .op rfl fun _ => .pure _

lemma namexLoop (parent : Bool) (fuel i : ℕ) (path : List UInt8) :
    Opens 0 (Sys.namexLoop parent fuel i path) := by
  induction fuel generalizing i path with
  | zero => exact .pure _
  | succ fuel ih =>
    unfold Sys.namexLoop
    cases skipelem path with
    | none => exact .ite (.op rfl fun _ => .pure _) (.pure _)
    | some r =>
      refine .op rfl fun _ => .op rfl fun _ => .ite ((iunlockput i).seq fun _ => .pure _) ?_
      refine .ite (.op rfl fun _ => .pure _) ((dirlookup _ _).seq fun r => ?_)
      cases r with
      | none => exact (iunlockput i).seq fun _ => .pure _
      | some r => exact (iunlockput i).seq fun _ => ih _ _

lemma namex (p : ℕ) (path : List UInt8) (parent : Bool) : Opens 0 (Sys.namex p path parent) :=
  .ite (.op rfl fun _ => namexLoop _ _ _ _) (.op rfl fun _ => .op rfl fun _ => namexLoop _ _ _ _)

lemma namei (p : ℕ) (path : List UInt8) : Opens 0 (Sys.namei p path) := (namex _ _ _).seq fun _ => .pure _

lemma filealloc : Opens 0 Sys.filealloc := by
  refine .op rfl fun k => ?_
  cases (List.range NFILE).find? (fun f => (k.ftable f).ref = 0) with
  | none => exact .pure _
  | some f => exact .op rfl fun _ => .pure _

lemma fdalloc (p f : ℕ) : Opens 0 (Sys.fdalloc p f) := by
  refine .op rfl fun k => ?_
  cases (List.range NOFILE).find? (fun fd => (k.procs p).ofile fd = none) with
  | none => exact .pure _
  | some fd => exact .op rfl fun _ => .pure _

lemma fileclose (f : ℕ) : Opens 0 (Sys.fileclose f) := by
  refine .op rfl fun k => .ite (panic _) (.ite (.call rfl) (.op rfl fun _ => .ite ?_ (.pure _)))
  exact beginOp (.op rfl fun _ => .call rfl)

lemma isdiremptyLoop (dp size fuel off : ℕ) : Opens 0 (Sys.isdiremptyLoop dp size fuel off) := by
  induction fuel generalizing off with
  | zero => exact .pure _
  | succ fuel ih =>
    unfold Sys.isdiremptyLoop
    exact .ite ((readDirent _ _ _).seq fun _ => .ite (.pure _) (ih _)) (.pure _)

lemma isdirempty (dp : ℕ) : Opens 0 (Sys.isdirempty dp) := .op rfl fun _ => isdiremptyLoop _ _ _ _

lemma create (p : ℕ) (path : List UInt8) (type major minor : Int16) :
    Opens 0 (Sys.create p path type major minor) := by
  refine (namex _ _ _).seq fun r => ?_
  cases r with
  | none => exact .pure _
  | some r =>
    refine .op rfl fun _ => (dirlookup _ _).seq fun r' => ?_
    cases r' with
    | some r' =>
      refine (iunlockput _).seq fun _ => .op rfl fun _ => .op rfl fun _ => .ite (.pure _) ?_
      exact (iunlockput _).seq fun _ => .pure _
    | none =>
      refine .op rfl fun i => .op rfl fun _ => .op rfl fun _ => opt (fun h => ?_) ?_
      · refine .op rfl fun _ => .op rfl fun _ => (dirlink _ _ _).seq fun _ => opt
          (fun h => (panic _).seq fun _ => h) ?_
        exact (dirlink _ _ _).seq fun _ => opt (fun h => (panic _).seq fun _ => h) h
      · refine (dirlink _ _ _).seq fun _ => opt (fun h => (panic _).seq fun _ => h) ?_
        exact (iunlockput _).seq fun _ => .pure _

lemma openInode (p : ℕ) (path : List UInt8) (omode : UInt32) : Opens 0 (Sys.openInode p path omode) := by
  refine .ite (create _ _ _ _ _) ((namei _ _).seq fun r => ?_)
  cases r with
  | none => exact .pure _
  | some i => exact .op rfl fun _ => .op rfl fun _ => .ite ((iunlockput i).seq fun _ => .pure _) (.pure _)

lemma leave {α : Type} (a : α) : Opens (-1) (do Sys.endOp; return a : FsProg α) := endOp (.pure a)

lemma sys_open (p : ℕ) (path : Option (List UInt8)) (omode : UInt32) :
    Opens 0 (Sys.sys_open p path omode) := by
  unfold Sys.sys_open
  cases argstr path with
  | none => exact .pure _
  | some s =>
    refine beginOp ((openInode _ _ _).seq fun r => ?_)
    cases r with
    | none => exact leave _
    | some i =>
      refine filealloc.seq fun r => ?_
      cases r with
      | none => exact (iunlockput i).seq fun _ => leave _
      | some f =>
        refine (fdalloc _ _).seq fun r => ?_
        cases r with
        | none => exact (fileclose f).seq fun _ => (iunlockput i).seq fun _ => leave _
        | some fd => exact .op rfl fun _ => endOp (.op rfl fun _ => .op rfl fun _ => .pure _)

lemma linkBad (i : ℕ) : Opens (-1) (Sys.linkBad i) :=
  .op rfl fun _ => .op rfl fun _ => .op rfl fun _ => (iunlockput i).seq fun _ => leave _

lemma sys_link (p : ℕ) (old new : Option (List UInt8)) : Opens 0 (Sys.sys_link p old new) := by
  unfold Sys.sys_link
  cases argstr old with
  | none => exact .pure _
  | some s =>
  cases argstr new with
  | none => exact .pure _
  | some t =>
    refine beginOp ((namei _ _).seq fun r => ?_)
    cases r with
    | none => exact leave _
    | some i =>
      refine .op rfl fun _ => .op rfl fun _ => .ite ((iunlockput i).seq fun _ => leave _) ?_
      refine .op rfl fun _ => .op rfl fun _ => (namex _ _ _).seq fun r => ?_
      cases r with
      | none => exact linkBad i
      | some r =>
        refine .op rfl fun _ => (dirlink _ _ _).seq fun _ => .ite ?_
          ((iunlockput _).seq fun _ => linkBad i)
        exact (iunlockput _).seq fun _ => .op rfl fun _ => leave _

lemma unlinkBad (dp : ℕ) : Opens (-1) (Sys.unlinkBad dp) := (iunlockput dp).seq fun _ => leave _

lemma unlinkEntry (dp i off : ℕ) : Opens (-1) (Sys.unlinkEntry dp i off) := by
  refine .op rfl fun _ => .op rfl fun d => opt (fun h => (panic _).seq fun _ => h) ?_
  refine both (isdirempty i) (.pure true) fun b => .ite ((iunlockput i).seq fun _ => unlinkBad dp) ?_
  refine .op rfl fun (_ : Option ℕ) => opt (fun h => (panic _).seq fun _ => h) ?_
  refine opt (fun h => .op rfl fun _ => .op rfl fun _ => h) ?_
  exact (iunlockput dp).seq fun _ => .op rfl fun _ => (iunlockput i).seq fun _ => leave _

lemma sys_unlink (p : ℕ) (path : Option (List UInt8)) : Opens 0 (Sys.sys_unlink p path) := by
  unfold Sys.sys_unlink
  cases argstr path with
  | none => exact .pure _
  | some s =>
    refine beginOp ((namex _ _ _).seq fun r => ?_)
    cases r with
    | none => exact leave _
    | some r =>
      refine .op rfl fun _ => .ite (unlinkBad _) ((dirlookup _ _).seq fun r => ?_)
      cases r with
      | none => exact unlinkBad _
      | some r => exact unlinkEntry _ _ _

lemma createPut (p : ℕ) (path : Option (List UInt8)) (type major minor : Int16) :
    Opens 0 (Sys.createPut p path type major minor) := by
  refine beginOp ?_
  cases argstr path with
  | none => exact leave _
  | some s =>
    refine (create _ _ _ _ _).seq fun r => ?_
    cases r with
    | none => exact leave _
    | some i => exact (iunlockput i).seq fun _ => leave _

lemma sys_chdir (p : ℕ) (path : Option (List UInt8)) : Opens 0 (Sys.sys_chdir p path) := by
  refine beginOp ?_
  cases argstr path with
  | none => exact leave _
  | some s =>
    refine (namei _ _).seq fun r => ?_
    cases r with
    | none => exact leave _
    | some i =>
      refine .op rfl fun _ => .op rfl fun _ => .ite ((iunlockput i).seq fun _ => leave _) ?_
      refine .op rfl fun _ => .op rfl fun _ => .op rfl fun _ => endOp ?_
      exact .op rfl fun _ => .op rfl fun _ => .pure _

lemma sys_close (p fd : ℕ) : Opens 0 (Sys.sys_close p fd) := by
  refine .op rfl fun k => ?_
  cases argfd k p fd with
  | none => exact .pure _
  | some f => exact .op rfl fun _ => (fileclose f).seq fun _ => .pure _

lemma call (p : ℕ) (c : Call) : Opens 0 (c.prog p) := by
  cases c with
  | sysOpen path omode => exact sys_open _ _ _
  | sysLink old new => exact sys_link _ _ _
  | sysUnlink path => exact sys_unlink _ _
  | sysMkdir path => exact createPut _ _ _ _ _
  | sysMknod path major minor => exact createPut _ _ _ _ _
  | sysChdir path => exact sys_chdir _ _
  | sysClose fd => exact sys_close _ _

end Opens

end Xv6.Fs
