import Xv6.Fs.Dir

/-! The system calls of `sysfile.c` that change the file system, with the file layer
below them. A result `none` is the return value `-1`. -/

namespace Xv6.Fs

open Lib

namespace Kern

def setFile (k : Kern) (f : ℕ) (file : File) : Kern := { k with ftable := assign k.ftable f file }

def setProc (k : Kern) (p : ℕ) (proc : Proc) : Kern := { k with procs := assign k.procs p proc }

def setFd (k : Kern) (p fd : ℕ) (f : Option ℕ) : Kern :=
  k.setProc p { k.procs p with ofile := assign (k.procs p).ofile fd f }

end Kern

abbrev MAXWRITE : ℕ := ((LOGSIZE - 1 - 1 - 2) / 2) * 512

def argstr (path : Option (List UInt8)) : Option (List UInt8) := path.map (List.takeWhile (· ≠ 0))

def argfd (k : Kern) (p fd : ℕ) : Option ℕ := if fd < NOFILE then (k.procs p).ofile fd else none

abbrev DOT : List UInt8 := [46]
abbrev DOTDOT : List UInt8 := [46, 46]

abbrev O_WRONLY : UInt32 := 0x001
abbrev O_RDWR : UInt32 := 0x002
abbrev O_CREATE : UInt32 := 0x200

def openFile (file : File) (ip : ℕ) (omode : UInt32) : File where
  type := .inode
  ref := file.ref
  readable := omode &&& O_WRONLY = 0
  writable := omode &&& O_WRONLY ≠ 0 ∨ omode &&& O_RDWR ≠ 0
  ip := ip
  off := 0

namespace Sys

def filealloc : FsProg (Option ℕ) := do
  let k ← kget
  match (List.range NFILE).find? (fun f => (k.ftable f).ref = 0) with
  | some f =>
    kset (k.setFile f { k.ftable f with ref := 1 })
    return some f
  | none => return none

def fdalloc (p f : ℕ) : FsProg (Option ℕ) := do
  let k ← kget
  match (List.range NOFILE).find? (fun fd => (k.procs p).ofile fd = none) with
  | some fd =>
    kset (k.setFd p fd (some f))
    return some fd
  | none => return none

def fileclose (f : ℕ) : FsProg PUnit := do
  let k ← kget
  let file := k.ftable f
  if file.ref < 1 then panic .fileclose
  else if file.ref - 1 > 0 then kset (k.setFile f { file with ref := file.ref - 1 })
  else do
    kset (k.setFile f { file with ref := 0, type := .none })
    if file.type = .inode then do
      beginOp
      iput file.ip
      endOp

def filewriteChunk (f : ℕ) (src : List UInt8) : FsProg (Option ℕ) := do
  beginOp
  ilock ((← kget).ftable f).ip
  let file := (← kget).ftable f
  let r ← writei file.ip src file.off
  if 0 < r.getD 0 then kset ((← kget).setFile f { file with off := file.off + UInt32.ofNat (r.getD 0) })
  iunlock file.ip
  endOp
  return r

def sys_close (p fd : ℕ) : FsProg (Option ℕ) := do
  let k ← kget
  match argfd k p fd with
  | none => return none
  | some f =>
    kset (k.setFd p fd none)
    fileclose f
    return some 0

def linkBad (ip : ℕ) : FsProg (Option ℕ) := do
  ilock ip
  let d ← inode ip
  iupdate ip d.major d.minor (d.nlink - 1)
  iunlockput ip
  endOp
  return none

def sys_link (p : ℕ) (old new : Option (List UInt8)) : FsProg (Option ℕ) := do
  match argstr old, argstr new with
  | some old, some new =>
    beginOp
    match ← namei p old with
    | none =>
      endOp
      return none
    | some ip =>
      ilock ip
      let d ← inode ip
      if d.type = T_DIR then
        iunlockput ip
        endOp
        return none
      else
        iupdate ip d.major d.minor (d.nlink + 1)
        iunlock ip
        match ← nameiparent p new with
        | none => linkBad ip
        | some (dp, name) =>
          ilock dp
          if ← dirlink dp name ip then
            iunlockput dp
            iput ip
            endOp
            return some 0
          else
            iunlockput dp
            linkBad ip
  | _, _ => return none

def isdiremptyLoop (dp size : ℕ) : ℕ → ℕ → FsProg Bool
  | 0, _ => return true
  | fuel + 1, off =>
    if off < size then do
      let de ← readDirent dp off .isdiremptyReadi
      if de.inum ≠ 0 then return false else isdiremptyLoop dp size fuel (off + DIRENT)
    else return true

def isdirempty (dp : ℕ) : FsProg Bool := do
  let d ← inode dp
  isdiremptyLoop dp d.size.toNat (d.size.toNat / DIRENT + 1) (2 * DIRENT)

def unlinkBad (dp : ℕ) : FsProg (Option ℕ) := do
  iunlockput dp
  endOp
  return none

def unlinkEntry (dp ip off : ℕ) : FsProg (Option ℕ) := do
  ilock ip
  let i ← inode ip
  if i.nlink < 1 then panic .unlinkNlink
  let removable ← if i.type = T_DIR then isdirempty ip else pure true
  if !removable then
    iunlockput ip
    unlinkBad dp
  else
    if (← writei dp (List.replicate DIRENT 0) (UInt32.ofNat off)) ≠ some DIRENT then panic .unlinkWritei
    if i.type = T_DIR then
      let d ← inode dp
      iupdate dp d.major d.minor (d.nlink - 1)
    iunlockput dp
    iupdate ip i.major i.minor (i.nlink - 1)
    iunlockput ip
    endOp
    return some 0

def sys_unlink (p : ℕ) (path : Option (List UInt8)) : FsProg (Option ℕ) := do
  match argstr path with
  | none => return none
  | some path =>
    beginOp
    match ← nameiparent p path with
    | none =>
      endOp
      return none
    | some (dp, name) =>
      ilock dp
      if namecmp name DOT = 0 ∨ namecmp name DOTDOT = 0 then unlinkBad dp
      else match ← dirlookup dp name with
        | none => unlinkBad dp
        | some (ip, off) => unlinkEntry dp ip off

def createNew (dp : ℕ) (name : List UInt8) (type major minor : Int16) : FsProg (Option ℕ) := do
  let ip ← ialloc type
  ilock ip
  iupdate ip major minor 1
  if type = T_DIR then
    let d ← inode dp
    iupdate dp d.major d.minor (d.nlink + 1)
    if !(← dirlink ip DOT ip) then panic .createDots
    if !(← dirlink ip DOTDOT dp) then panic .createDots
  if !(← dirlink dp name ip) then panic .createDirlink
  iunlockput dp
  return some ip

def create (p : ℕ) (path : List UInt8) (type major minor : Int16) : FsProg (Option ℕ) := do
  match ← nameiparent p path with
  | none => return none
  | some (dp, name) =>
    ilock dp
    match ← dirlookup dp name with
    | some (ip, _) =>
      iunlockput dp
      ilock ip
      if type = T_FILE ∧ (← inode ip).type = T_FILE then return some ip
      else
        iunlockput ip
        return none
    | none => createNew dp name type major minor

def openInode (p : ℕ) (path : List UInt8) (omode : UInt32) : FsProg (Option ℕ) := do
  if omode &&& O_CREATE ≠ 0 then create p path T_FILE 0 0
  else match ← namei p path with
    | none => return none
    | some ip =>
      ilock ip
      if (← inode ip).type = T_DIR ∧ omode ≠ 0 then
        iunlockput ip
        return none
      else return some ip

def sys_open (p : ℕ) (path : Option (List UInt8)) (omode : UInt32) : FsProg (Option ℕ) := do
  match argstr path with
  | none => return none
  | some path =>
    beginOp
    match ← openInode p path omode with
    | none =>
      endOp
      return none
    | some ip =>
      match ← filealloc with
      | none =>
        iunlockput ip
        endOp
        return none
      | some f =>
        match ← fdalloc p f with
        | none =>
          fileclose f
          iunlockput ip
          endOp
          return none
        | some fd =>
          iunlock ip
          endOp
          let k ← kget
          kset (k.setFile f (openFile (k.ftable f) ip omode))
          return some fd

def createPut (p : ℕ) (path : Option (List UInt8)) (type major minor : Int16) : FsProg (Option ℕ) := do
  beginOp
  match argstr path with
  | none =>
    endOp
    return none
  | some path =>
    match ← create p path type major minor with
    | none =>
      endOp
      return none
    | some ip =>
      iunlockput ip
      endOp
      return some 0

def sys_mkdir (p : ℕ) (path : Option (List UInt8)) : FsProg (Option ℕ) := createPut p path T_DIR 0 0

def sys_mknod (p : ℕ) (path : Option (List UInt8)) (major minor : Int16) : FsProg (Option ℕ) :=
  createPut p path T_DEV major minor

def sys_chdir (p : ℕ) (path : Option (List UInt8)) : FsProg (Option ℕ) := do
  beginOp
  match argstr path with
  | none =>
    endOp
    return none
  | some path =>
    match ← namei p path with
    | none =>
      endOp
      return none
    | some ip =>
      ilock ip
      if (← inode ip).type ≠ T_DIR then
        iunlockput ip
        endOp
        return none
      else
        iunlock ip
        iput ((← kget).procs p).cwd
        endOp
        let k ← kget
        kset (k.setProc p { k.procs p with cwd := ip })
        return some 0

end Sys

end Xv6.Fs
