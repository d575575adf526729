import Xv6.Fs.State

namespace Xv6.Fs

open Lib

abbrev DIRSIZ : ℕ := 14
abbrev DIRENT : ℕ := 16

abbrev FsProg := Prog Op.Res

def strncmp : ℕ → List UInt8 → List UInt8 → ℤ
  | 0, _, _ => 0
  | n + 1, p, q =>
    if p.headD 0 ≠ 0 ∧ p.headD 0 = q.headD 0 then strncmp n p.tail q.tail
    else (p.headD 0).toNat - (q.headD 0).toNat

def strncpy : ℕ → List UInt8 → List UInt8
  | 0, _ => []
  | n + 1, t => if t.headD 0 = 0 then List.replicate (n + 1) 0 else t.headD 0 :: strncpy n t.tail

def namecmp (s t : List UInt8) : ℤ := strncmp DIRSIZ s t

structure Dirent where
  inum : UInt16
  name : List UInt8
  deriving DecidableEq

namespace Dirent

def ofBytes (b : List UInt8) : Dirent :=
  ⟨UInt16.ofNat ((b.getD 0 0).toNat + 256 * (b.getD 1 0).toNat), b.drop 2⟩

def toBytes (de : Dirent) : List UInt8 :=
  UInt8.ofNat (de.inum.toNat % 256) :: UInt8.ofNat (de.inum.toNat / 256) :: de.name

end Dirent

abbrev SLASH : UInt8 := 47

def skipelem (path : List UInt8) : Option (List UInt8 × List UInt8) :=
  let path := path.dropWhile (· = SLASH)
  if path = [] then none
  else some ((path.dropWhile (· ≠ SLASH)).dropWhile (· = SLASH), (path.takeWhile (· ≠ SLASH)).take DIRSIZ)

namespace Sys

def panic {α : Type} (p : Panic) : FsProg α := .op (Op.panic p) (fun r => nomatch r)
def device {α : Type} : FsProg α := .op Op.device (fun r => nomatch r)
def kget : FsProg Kern := Prog.call Op.kget
def kset (k : Kern) : FsProg PUnit := Prog.call (Op.kset k)
def beginOp : FsProg PUnit := Prog.call Op.beginOp
def endOp : FsProg PUnit := Prog.call Op.endOp
def iget (i : ℕ) : FsProg PUnit := Prog.call (Op.iget i)
def idup (i : ℕ) : FsProg PUnit := Prog.call (Op.idup i)
def ilock (i : ℕ) : FsProg PUnit := Prog.call (Op.ilock i)
def iunlock (i : ℕ) : FsProg PUnit := Prog.call (Op.iunlock i)
def iput (i : ℕ) : FsProg PUnit := Prog.call (Op.iput i)
def ialloc (type : Int16) : FsProg ℕ := Prog.call (Op.ialloc type)
def inode (i : ℕ) : FsProg Fields := Prog.call (Op.inode i)
def iupdate (i : ℕ) (major minor nlink : Int16) : FsProg PUnit :=
    Prog.call (Op.iupdate i major minor nlink)
def readi (i : ℕ) (off n : UInt32) : FsProg (Option (List UInt8)) := Prog.call (Op.readi i off n)
def writei (i : ℕ) (src : List UInt8) (off : UInt32) : FsProg (Option ℕ) :=
    Prog.call (Op.writei i src off)

def iunlockput (i : ℕ) : FsProg PUnit := do
  iunlock i
  iput i

def readDirent (dp off : ℕ) (p : Panic) : FsProg Dirent := do
  match ← readi dp (UInt32.ofNat off) 16 with
  | some b => if b.length = DIRENT then return .ofBytes b else panic p
  | none => panic p

def dirlookupLoop (dp : ℕ) (name : List UInt8) (size : ℕ) : ℕ → ℕ → FsProg (Option (ℕ × ℕ))
  | 0, _ => return none
  | fuel + 1, off =>
    if off < size then do
      let de ← readDirent dp off .dirlinkRead
      if de.inum ≠ 0 ∧ namecmp name de.name = 0 then do
        iget de.inum.toNat
        return some (de.inum.toNat, off)
      else dirlookupLoop dp name size fuel (off + DIRENT)
    else return none

def dirlookup (dp : ℕ) (name : List UInt8) : FsProg (Option (ℕ × ℕ)) := do
  let d ← inode dp
  if d.type ≠ T_DIR then panic .dirlookupNotDir
  else dirlookupLoop dp name d.size.toNat (d.size.toNat / DIRENT + 1) 0

def dirlinkLoop (dp size : ℕ) : ℕ → ℕ → FsProg ℕ
  | 0, off => return off
  | fuel + 1, off =>
    if off < size then do
      let de ← readDirent dp off .dirlinkRead
      if de.inum = 0 then return off else dirlinkLoop dp size fuel (off + DIRENT)
    else return off

/-- `false` is the return value `-1`. -/
def dirlink (dp : ℕ) (name : List UInt8) (inum : ℕ) : FsProg Bool := do
  match ← dirlookup dp name with
  | some (ip, _) =>
    iput ip
    return false
  | none =>
    let d ← inode dp
    let off ← dirlinkLoop dp d.size.toNat (d.size.toNat / DIRENT + 1) 0
    let de : Dirent := ⟨UInt16.ofNat inum, strncpy DIRSIZ name⟩
    if (← writei dp de.toBytes (UInt32.ofNat off)) = some DIRENT then return true else panic .dirlink

def namexLoop (nameiparent : Bool) : ℕ → ℕ → List UInt8 → FsProg (Option (ℕ × List UInt8))
  | 0, _, _ => return none
  | fuel + 1, ip, path =>
    match skipelem path with
    | none =>
      if nameiparent then do
        iput ip
        return none
      else return some (ip, [])
    | some (path, name) => do
      ilock ip
      if (← inode ip).type ≠ T_DIR then
        iunlockput ip
        return none
      else if nameiparent ∧ path = [] then
        iunlock ip
        return some (ip, name)
      else
        match ← dirlookup ip name with
        | none =>
          iunlockput ip
          return none
        | some (next, _) =>
          iunlockput ip
          namexLoop nameiparent fuel next path

def namex (p : ℕ) (path : List UInt8) (nameiparent : Bool) : FsProg (Option (ℕ × List UInt8)) := do
  if path.head? = some SLASH then
    iget ROOTINO
    namexLoop nameiparent (path.length + 1) ROOTINO path
  else
    let cwd := ((← kget).procs p).cwd
    idup cwd
    namexLoop nameiparent (path.length + 1) cwd path

def namei (p : ℕ) (path : List UInt8) : FsProg (Option ℕ) := do
  return (← namex p path false).map Prod.fst

def nameiparent (p : ℕ) (path : List UInt8) : FsProg (Option (ℕ × List UInt8)) := namex p path true

end Sys

end Xv6.Fs
