import Xv6.Fs.Image
import Xv6.Fs.Sysfile

namespace Xv6.Mkfs

open Lib Fs

/-- How `mkfs` stops early: at an `assert`, or in `rsect` when `read` comes back short. -/
inductive Exit
  | assertion
  | read
  deriving DecidableEq

structure Image where
  disk : Disk
  len : ℕ
  freeinode : ℕ
  freeblock : ℕ

abbrev MkfsM := StateT Image (Except Exit)

abbrev nbitmap : ℕ := FSSIZE / (BSIZE * 8) + 1
abbrev ninodeblocks : ℕ := NINODES / IPB + 1
abbrev nlog : ℕ := LOGSIZE
abbrev nmeta : ℕ := 2 + nlog + ninodeblocks + nbitmap

/-- A number goes through memory as its bytes, lowest first; the host is little-endian. -/
def xint (x : ℕ) : ℕ := LittleEndian.value (LittleEndian.digit x) 4

def xshort (x : ℕ) : UInt16 := UInt16.ofNat (LittleEndian.value (LittleEndian.digit x) 2)

def assert (p : Prop) [Decidable p] : MkfsM PUnit := if p then return ⟨⟩ else throw .assertion

def sector (sec : ℕ) : ℕ := sec * BSIZE % 2 ^ 32 / BSIZE

def wsect (sec : ℕ) (buf : Block) : MkfsM PUnit :=
  modify (fun m => { m with disk := assign m.disk (sector sec) buf, len := max m.len (sector sec + 1) })

def rsect (sec : ℕ) : MkfsM Block := do
  let m ← get
  if sector sec < m.len then return m.disk (sector sec) else throw .read

def winode (inum : ℕ) (ip : Dinode) : MkfsM PUnit := do
  let buf ← rsect (mkfsSb.iblock inum)
  wsect (mkfsSb.iblock inum) (Dinode.put buf (inum % IPB) ip)

def rinode (inum : ℕ) : MkfsM Dinode := do
  let buf ← rsect (mkfsSb.iblock inum)
  return Dinode.get buf (inum % IPB)

def ialloc (type : Int16) : MkfsM ℕ := do
  let inum := (← get).freeinode
  modify (fun m => { m with freeinode := m.freeinode + 1 })
  winode inum { Dinode.zero with type := type, nlink := 1 }
  return inum

def balloc (used : ℕ) : MkfsM PUnit := do
  assert (used < BSIZE * 8)
  wsect mkfsSb.bmapstart (usedBits used)

def nextBlock : MkfsM ℕ := do
  let b := (← get).freeblock
  modify (fun m => { m with freeblock := m.freeblock + 1 })
  return b

def addrBlock (din : Dinode) (k : ℕ) : MkfsM Dinode :=
  if xint (din.addr k) = 0 then do
    let b ← nextBlock
    return din.setAddr k (xint b)
  else return din

def fileBlock (din : Dinode) (fbn : ℕ) : MkfsM (ℕ × Dinode) :=
  if fbn < NDIRECT then do
    let din ← addrBlock din fbn
    return (xint (din.addr fbn), din)
  else do
    let din ← addrBlock din NDIRECT
    let indirect ← rsect (xint (din.addr NDIRECT))
    if indirect.word (fbn - NDIRECT) = 0 then do
      let b ← nextBlock
      let indirect := indirect.setWord (fbn - NDIRECT) (UInt32.ofNat (xint b))
      wsect (xint (din.addr NDIRECT)) indirect
      return (xint (indirect.word (fbn - NDIRECT)).toNat, din)
    else return (xint (indirect.word (fbn - NDIRECT)).toNat, din)

def iappendLoop : ℕ → Dinode → ℕ → List UInt8 → MkfsM (Dinode × ℕ)
  | 0, din, off, _ => return (din, off)
  | fuel + 1, din, off, p =>
    if p = [] then return (din, off)
    else do
      let fbn := off / BSIZE
      assert (fbn < MAXFILE)
      let (x, din) ← fileBlock din fbn
      let n1 := min p.length ((fbn + 1) * BSIZE - off)
      let buf ← rsect x
      wsect x (buf.splice (off - fbn * BSIZE) (p.take n1))
      iappendLoop fuel din (off + n1) (p.drop n1)

def iappend (inum : ℕ) (p : List UInt8) : MkfsM PUnit := do
  let din ← rinode inum
  let (din, off) ← iappendLoop p.length din (xint din.size.toNat) p
  winode inum { din with size := UInt32.ofNat (xint off) }

structure Chunk where
  bytes : List UInt8
  ne_nil : bytes ≠ []
  le : bytes.length ≤ BSIZE

structure HostFile where
  name : List UInt8
  nul : 0 ∉ name
  chunks : List Chunk

namespace HostFile

def bytes (f : HostFile) : List UInt8 := f.chunks.flatMap Chunk.bytes

abbrev UNDERSCORE : UInt8 := 95

def target (f : HostFile) : List UInt8 := if f.name.headD 0 = UNDERSCORE then f.name.tail else f.name

end HostFile

def dirent (inum : ℕ) (name : List UInt8) : Dirent := ⟨xshort inum, strncpy DIRSIZ name⟩

def copyLoop (inum : ℕ) : List Chunk → MkfsM PUnit
  | [] => return ⟨⟩
  | c :: cs => do
    iappend inum c.bytes
    copyLoop inum cs

def addFile (rootino : ℕ) (f : HostFile) : MkfsM PUnit := do
  assert (SLASH ∉ f.name)
  let inum ← ialloc T_FILE
  iappend rootino (dirent inum f.target).toBytes
  copyLoop inum f.chunks

def addFiles (rootino : ℕ) : List HostFile → MkfsM PUnit
  | [] => return ⟨⟩
  | f :: fs => do
    addFile rootino f
    addFiles rootino fs

def zeroLoop : ℕ → MkfsM PUnit
  | 0 => return ⟨⟩
  | n + 1 => do
    zeroLoop n
    wsect n Block.zero

def makeRoot : MkfsM ℕ := do
  zeroLoop FSSIZE
  wsect 1 mkfsSb.toBlock
  let rootino ← ialloc T_DIR
  assert (rootino = ROOTINO)
  iappend rootino (dirent rootino DOT).toBytes
  iappend rootino (dirent rootino DOTDOT).toBytes
  return rootino

def finish (rootino : ℕ) : MkfsM PUnit := do
  let din ← rinode rootino
  let off := xint din.size.toNat
  let off := (off / BSIZE + 1) * BSIZE
  winode rootino { din with size := UInt32.ofNat (xint off) }
  balloc (← get).freeblock

def main (files : List HostFile) : MkfsM PUnit := do
  let rootino ← makeRoot
  addFiles rootino files
  finish rootino

def start : Image := ⟨fun _ => Block.zero, 0, 1, nmeta⟩

def mkfs (files : List HostFile) : Except Exit Image :=
  match (main files).run start with
  | .ok (_, m) => .ok m
  | .error e => .error e

end Xv6.Mkfs
