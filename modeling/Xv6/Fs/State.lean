import Xv6.Fs.Inode
import Xv6.Lib.Prog

namespace Xv6.Fs

open Lib

inductive FileType
  | none
  | pipe
  | inode
  deriving DecidableEq

structure File where
  type : FileType
  ref : ℕ
  readable : Bool
  writable : Bool
  ip : ℕ
  off : UInt32

structure Proc where
  ofile : ℕ → Option ℕ
  cwd : ℕ

structure Kern where
  ftable : ℕ → File
  nproc : ℕ
  procs : ℕ → Proc

structure Entry where
  ref : ℕ
  busy : Bool
  dip : Option Dinode

structure FsState where
  store : Store
  icache : ℕ → Option Entry
  used : ℕ
  kern : Kern

structure Fields where
  type : Int16
  major : Int16
  minor : Int16
  nlink : Int16
  size : UInt32
  deriving DecidableEq

def Dinode.fields (d : Dinode) : Fields := ⟨d.type, d.major, d.minor, d.nlink, d.size⟩

inductive Op
  | kget
  | kset (k : Kern)
  | panic (p : Panic)
  | device
  | beginOp
  | endOp
  | iget (i : ℕ)
  | idup (i : ℕ)
  | ilock (i : ℕ)
  | iunlock (i : ℕ)
  | iput (i : ℕ)
  | ialloc (type : Int16)
  | inode (i : ℕ)
  | iupdate (i : ℕ) (major minor nlink : Int16)
  | readi (i : ℕ) (off n : UInt32)
  | writei (i : ℕ) (src : List UInt8) (off : UInt32)

def Op.Res : Op → Type
  | kget => Kern
  | panic _ => Empty
  | device => Empty
  | ialloc _ => ℕ
  | inode _ => Fields
  | readi _ _ _ => Option (List UInt8)
  | writei _ _ _ => Option ℕ
  | _ => PUnit

abbrev FsM := StateT FsState (Except Halt)

namespace FsState

def setEntry (fs : FsState) (i : ℕ) (e : Entry) : FsState :=
    { fs with icache := assign fs.icache i (some e) }

def dropEntry (fs : FsState) (i : ℕ) : FsState :=
  { fs with icache := assign fs.icache i none, used := fs.used - 1 }

def putEntry (fs : FsState) (i : ℕ) (e : Entry) : FsState :=
  if e.ref = 1 then fs.dropEntry i else fs.setEntry i { e with ref := e.ref - 1 }

end FsState

def iget (i : ℕ) : FsM PUnit := fun fs =>
  match fs.icache i with
  | some e => .ok (⟨⟩, fs.setEntry i { e with ref := e.ref + 1 })
  | none =>
    if fs.used < NINODE then .ok (⟨⟩, { fs.setEntry i ⟨1, false, none⟩ with used := fs.used + 1 })
    else .error (.panic .igetNoInodes)

def idup (i : ℕ) : FsM PUnit := fun fs =>
  match fs.icache i with
  | some e => .ok (⟨⟩, fs.setEntry i { e with ref := e.ref + 1 })
  | none => .error .stale

def ilock (i : ℕ) : FsM PUnit := fun fs =>
  match fs.icache i with
  | none => .error (.panic .ilock)
  | some e =>
    if e.busy then .error .sleep
    else match e.dip with
      | some _ => .ok (⟨⟩, fs.setEntry i { e with busy := true })
      | none =>
        if (fs.store.inode i).type = 0 then .error (.panic .ilockNoType)
        else .ok (⟨⟩, fs.setEntry i { e with busy := true, dip := some (fs.store.inode i) })

def iunlock (i : ℕ) : FsM PUnit := fun fs =>
  match fs.icache i with
  | none => .error (.panic .iunlock)
  | some e =>
    if e.busy then .ok (⟨⟩, fs.setEntry i { e with busy := false }) else .error (.panic .iunlock)

def ifree (i : ℕ) (ip : Dinode) : BlockM PUnit := do
  let ip ← itrunc i ip
  iupdate i { ip with type := 0 }

def iput (i : ℕ) : FsM PUnit := fun fs =>
  match fs.icache i with
  | none => .error .stale
  | some e =>
    match e.dip with
    | none => .ok (⟨⟩, fs.putEntry i e)
    | some ip =>
      if e.ref = 1 ∧ ip.nlink = 0 then
        if e.busy then .error (.panic .iputBusy)
        else match (ifree i ip).run fs.store with
          | .ok (_, st) => .ok (⟨⟩, { fs with store := st }.dropEntry i)
          | .error e => .error e
      else .ok (⟨⟩, fs.putEntry i e)

def ialloc (type : Int16) : FsM ℕ := fun fs =>
  match (List.range fs.store.sb.ninodes).find? (fun i => 0 < i ∧ (fs.store.inode i).type = 0) with
  | none => .error (.panic .iallocNoInodes)
  | some i =>
    match (Fs.iupdate i { Dinode.zero with type := type }).run fs.store with
    | .error e => .error e
    | .ok (_, st) =>
      match iget i { fs with store := st } with
      | .error e => .error e
      | .ok (_, fs) => .ok (i, fs)

def onInode {α : Type} (i : ℕ) (m : Dinode → BlockM (α × Dinode)) : FsM α := fun fs =>
  match fs.icache i with
  | none => .error .stale
  | some e =>
    match e.busy, e.dip with
    | true, some ip =>
      match (m ip).run fs.store with
      | .ok ((a, ip), st) => .ok (a, { fs with store := st }.setEntry i { e with dip := some ip })
      | .error e => .error e
    | _, _ => .error .unlocked

def handler : Prog.Handler Op.Res FsState Halt
  | .kget => fun fs => .ok (fs.kern, fs)
  | .kset k => fun fs => .ok (⟨⟩, { fs with kern := k })
  | .panic p => fun _ => .error (.panic p)
  | .device => fun _ => .error .device
  | .beginOp => fun fs => .ok (⟨⟩, { fs with store := { fs.store with logged := [] } })
  | .endOp => fun fs => .ok (⟨⟩, fs)
  | .iget i => iget i
  | .idup i => idup i
  | .ilock i => ilock i
  | .iunlock i => iunlock i
  | .iput i => iput i
  | .ialloc type => ialloc type
  | .inode i => onInode i (fun ip => return (ip.fields, ip))
  | .iupdate i major minor nlink => onInode i (fun ip => do
      let ip := { ip with major := major, minor := minor, nlink := nlink }
      Fs.iupdate i ip
      return (⟨⟩, ip))
  | .readi i off n => onInode i (fun ip => Fs.readi ip off n)
  | .writei i src off => onInode i (fun ip => Fs.writei i ip src off)

end Xv6.Fs
