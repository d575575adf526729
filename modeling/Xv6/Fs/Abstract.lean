import Xv6.Fs.Footprint
import Xv6.Fs.Path
import Xv6.Fs.Sysfile

namespace Xv6.Fs

open Lib

/-- `iu` and `wr` bound what a transaction has written: the inodes, and the number of data and
indirect blocks. -/
structure Afs where
  ninodes : ℕ
  ino : ℕ → Node
  ref : ℕ → ℕ
  busy : ℕ → Bool
  valid : ℕ → Bool
  kern : Kern
  iu : Finset ℕ
  wr : ℕ

namespace Afs

def get (a : Afs) (i : ℕ) : Afs := { a with ref := assign a.ref i (a.ref i + 1) }

def lock (a : Afs) (i : ℕ) : Afs :=
    { a with busy := assign a.busy i true, valid := assign a.valid i true }

def unlock (a : Afs) (i : ℕ) : Afs := { a with busy := assign a.busy i false }

def Last (a : Afs) (i : ℕ) : Prop := a.ref i = 1 ∧ a.valid i = true ∧ (a.ino i).nlink = 0

instance (a : Afs) (i : ℕ) : Decidable (a.Last i) := by
  unfold Last
  infer_instance

def drop (a : Afs) (i : ℕ) : Afs :=
  if a.ref i = 1 then
    { a with ref := assign a.ref i 0, busy := assign a.busy i false, valid := assign a.valid i false }
  else { a with ref := assign a.ref i (a.ref i - 1) }

def setNode (a : Afs) (i : ℕ) (n : Node) : Afs := { a with ino := assign a.ino i n, iu := insert i a.iu }

def free (a : Afs) (i : ℕ) : Afs := (a.setNode i Node.zero).drop i

abbrev M := StateT Afs (Except Halt)

def onNode {α : Type} (i : ℕ) (f : Node → Afs → Except Halt (α × Afs)) : M α := fun a =>
  if a.ref i = 0 then .error .stale
  else if a.busy i = true ∧ a.valid i = true then f (a.ino i) a
  else .error .unlocked

def readNode (n : Node) (off len : UInt32) : Except Halt (Option (List UInt8)) :=
  if n.type = T_DEV then if devsw n.major then .error .device else .ok none
  else if off.toNat ≤ n.data.length ∧ off.toNat + len.toNat < 2 ^ 32 then
    .ok (some ((n.data.drop off.toNat).take len.toNat))
  else .ok none

def writeNode (i : ℕ) (n : Node) (src : List UInt8) (off : UInt32) (a : Afs) :
    Except Halt (Option ℕ × Afs) :=
  if n.type = T_DEV then .ok (if devsw n.major then some src.length else none, a)
  else if 2 ^ 32 ≤ src.length then .error .wild
  else if off.toNat ≤ n.data.length ∧ off.toNat + src.length < 2 ^ 32 ∧
      off.toNat + src.length ≤ MAXFILE * BSIZE then
    .ok (some src.length, { a.setNode i { n with data := overwrite n.data off.toNat src } with
      wr := a.wr + ((touched off.toNat src.length).card + 1) })
  else .ok (none, a)

def freshInode (a : Afs) : Option ℕ := (List.range a.ninodes).find? (fun i => 0 < i ∧ (a.ino i).type = 0)

def iget (i : ℕ) : M PUnit := fun a => if i < a.ninodes then .ok (⟨⟩, a.get i) else .error .wild

def idup (i : ℕ) : M PUnit := fun a => if a.ref i = 0 then .error .stale else .ok (⟨⟩, a.get i)

def ilock (i : ℕ) : M PUnit := fun a =>
  if a.ref i = 0 then .error (.panic .ilock)
  else if a.busy i = true then .error .sleep
  else if a.valid i = false ∧ (a.ino i).type = 0 then .error (.panic .ilockNoType)
  else .ok (⟨⟩, a.lock i)

def iunlock (i : ℕ) : M PUnit := fun a =>
  if a.ref i = 0 ∨ a.busy i = false then .error (.panic .iunlock) else .ok (⟨⟩, a.unlock i)

def iput (i : ℕ) : M PUnit := fun a =>
  if a.ref i = 0 then .error .stale
  else if a.Last i then if a.busy i = true then .error (.panic .iputBusy) else .ok (⟨⟩, a.free i)
  else .ok (⟨⟩, a.drop i)

def ialloc (type : Int16) : M ℕ := fun a =>
  match a.freshInode with
  | some i => .ok (i, (a.setNode i { Node.zero with type := type }).get i)
  | none => .error (.panic .iallocNoInodes)

def handler : Prog.Handler Op.Res Afs Halt
  | .kget => fun a => .ok (a.kern, a)
  | .kset k => fun a => .ok (⟨⟩, { a with kern := k })
  | .panic p => fun _ => .error (.panic p)
  | .device => fun _ => .error .device
  | .beginOp => fun a => .ok (⟨⟩, { a with iu := ∅, wr := 0 })
  | .endOp => fun a => .ok (⟨⟩, a)
  | .iget i => iget i
  | .idup i => idup i
  | .ilock i => ilock i
  | .iunlock i => iunlock i
  | .iput i => iput i
  | .ialloc type => ialloc type
  | .inode i => onNode i (fun n a => .ok (n.fields, a))
  | .iupdate i major minor nlink => onNode i (fun n a =>
      .ok (⟨⟩, a.setNode i { n with major := major, minor := minor, nlink := nlink }))
  | .readi i off n => onNode i (fun node a => (readNode node off n).map (·, a))
  | .writei i src off => onNode i (fun n a => writeNode i n src off a)

end Afs

end Xv6.Fs
