import Xv6.Fs.Bitmap
import Xv6.Lib.Assign
import Xv6.Lib.Spec

namespace Xv6.Fs

open Lib

inductive Panic
  | ballocOutOfBlocks
  | freeingFreeBlock
  | iallocNoInodes
  | igetNoInodes
  | ilock
  | ilockNoType
  | iunlock
  | iputBusy
  | bmapOutOfRange
  | dirlookupNotDir
  | dirlinkRead
  | dirlink
  | isdiremptyReadi
  | unlinkNlink
  | unlinkWritei
  | createDots
  | createDirlink
  | fileclose
  | fileread
  deriving DecidableEq

/-- How a call can stop: by a panic, by sleeping on a lock that nobody will release, or at
a point where the C program would use a pointer it no longer owns, read an inode it has not
locked, take a data block for an inode block, or wait for a device. -/
inductive Halt
  | panic (p : Panic)
  | sleep
  | stale
  | unlocked
  | wild
  | device
  deriving DecidableEq

/-- The blocks as seen through the buffer cache, the in-memory superblock, and the block
numbers passed to `log_write` since `begin_op`. -/
structure Store where
  sb : Superblock
  disk : Disk
  logged : List ℕ

abbrev BlockM := StateT Store (Except Halt)

namespace Store

def bit (st : Store) (b : ℕ) : Bool := (st.disk (st.sb.bblock b)).bit (b % BPB)

def inode (st : Store) (i : ℕ) : Dinode := Dinode.get (st.disk (st.sb.iblock i)) (i % IPB)

def write (st : Store) (b : ℕ) (data : Block) : Store :=
  { st with disk := assign st.disk b data, logged := st.logged ++ [b] }

end Store

def bread (b : ℕ) : BlockM Block := return (← get).disk b

def logWrite (b : ℕ) (data : Block) : BlockM PUnit := modify (fun st => st.write b data)

def readsb : BlockM PUnit := modify (fun st => { st with sb := Superblock.ofBlock (st.disk 1) })

def bzero (b : ℕ) : BlockM PUnit := logWrite b Block.zero

def balloc : BlockM ℕ := do
  let st ← get
  match (List.range st.sb.size).find? (fun b => !st.bit b) with
  | some b =>
    logWrite (st.sb.bblock b) ((st.disk (st.sb.bblock b)).setBit (b % BPB))
    bzero b
    return b
  | none => throw (.panic .ballocOutOfBlocks)

def bfree (b : ℕ) : BlockM PUnit := do
  readsb
  let sb := (← get).sb
  let bp ← bread (sb.bblock b)
  if bp.bit (b % BPB) then logWrite (sb.bblock b) (bp.clearBit (b % BPB))
  else throw (.panic .freeingFreeBlock)

namespace Dinode

def addr (ip : Dinode) (k : ℕ) : ℕ := if h : k < NDIRECT + 1 then (ip.addrs ⟨k, h⟩).toNat else 0

def setAddr (ip : Dinode) (k b : ℕ) : Dinode :=
  { ip with addrs := fun j => if j.val = k then UInt32.ofNat b else ip.addrs j }

end Dinode

def iupdate (i : ℕ) (ip : Dinode) : BlockM PUnit := do
  let sb := (← get).sb
  let bp ← bread (sb.iblock i)
  logWrite (sb.iblock i) (Dinode.put bp (i % IPB) ip)

def bmapDirect (ip : Dinode) (k : ℕ) : BlockM (ℕ × Dinode) :=
  if ip.addr k = 0 then do
    let b ← balloc
    return (b, ip.setAddr k b)
  else return (ip.addr k, ip)

def bmap (ip : Dinode) (bn : ℕ) : BlockM (ℕ × Dinode) :=
  if bn < NDIRECT then bmapDirect ip bn
  else if bn - NDIRECT < NINDIRECT then do
    let (ind, ip) ← bmapDirect ip NDIRECT
    let bp ← bread ind
    if bp.word (bn - NDIRECT) = 0 then do
      let b ← balloc
      logWrite ind (bp.setWord (bn - NDIRECT) (UInt32.ofNat b))
      return (b, ip)
    else return ((bp.word (bn - NDIRECT)).toNat, ip)
  else throw (.panic .bmapOutOfRange)

def itruncDirect (ip : Dinode) : List ℕ → BlockM Dinode
  | [] => return ip
  | k :: ks =>
    if ip.addr k = 0 then itruncDirect ip ks
    else do
      bfree (ip.addr k)
      itruncDirect (ip.setAddr k 0) ks

def itruncWords (bp : Block) : List ℕ → BlockM PUnit
  | [] => return ⟨⟩
  | j :: js => do
    if bp.word j = 0 then itruncWords bp js
    else do
      bfree (bp.word j).toNat
      itruncWords bp js

def itruncIndirect (ip : Dinode) : BlockM Dinode :=
  if ip.addr NDIRECT = 0 then return ip
  else do
    let bp ← bread (ip.addr NDIRECT)
    itruncWords bp (List.range NINDIRECT)
    bfree (ip.addr NDIRECT)
    return ip.setAddr NDIRECT 0

def itrunc (i : ℕ) (ip : Dinode) : BlockM Dinode := do
  let ip ← itruncDirect ip (List.range NDIRECT)
  let ip ← itruncIndirect ip
  let ip := { ip with size := 0 }
  iupdate i ip
  return ip

def devsw (major : Int16) : Bool := major = 1

def readLoop (ip : Dinode) (off : ℕ) : ℕ → ℕ → BlockM (List UInt8 × Dinode)
  | 0, _ => return ([], ip)
  | fuel + 1, n =>
    if n = 0 then return ([], ip)
    else do
      let (b, ip) ← bmap ip (off / BSIZE)
      let bp ← bread b
      let m := min n (BSIZE - off % BSIZE)
      let (rest, ip) ← readLoop ip (off + m) fuel (n - m)
      return (bp.slice (off % BSIZE) m ++ rest, ip)

/-- `none` is the return value `-1`; otherwise the bytes delivered to `dst`. -/
def readi (ip : Dinode) (off n : UInt32) : BlockM (Option (List UInt8) × Dinode) :=
  if ip.type = T_DEV then
    if devsw ip.major then throw .device else return (none, ip)
  else if off > ip.size ∨ off + n < off then return (none, ip)
  else do
    let n := if off + n > ip.size then ip.size - off else n
    let (bytes, ip) ← readLoop ip off.toNat n.toNat n.toNat
    return (some bytes, ip)

def writeLoop (ip : Dinode) (off : ℕ) : ℕ → List UInt8 → BlockM Dinode
  | 0, _ => return ip
  | fuel + 1, src =>
    if src = [] then return ip
    else do
      let (b, ip) ← bmap ip (off / BSIZE)
      let bp ← bread b
      let m := min src.length (BSIZE - off % BSIZE)
      logWrite b (bp.splice (off % BSIZE) (src.take m))
      writeLoop ip (off + m) fuel (src.drop m)

/-- `none` is the return value `-1`; otherwise the number of bytes written. -/
def writei (i : ℕ) (ip : Dinode) (src : List UInt8) (off : UInt32) : BlockM (Option ℕ × Dinode) :=
  let n := UInt32.ofNat src.length
  if ip.type = T_DEV then
    if devsw ip.major then return (some src.length, ip) else return (none, ip)
  else if off > ip.size ∨ off + n < off then return (none, ip)
  else if (off + n).toNat > MAXFILE * BSIZE then return (none, ip)
  else do
    let ip ← writeLoop ip off.toNat src.length src
    if 0 < n ∧ off + n > ip.size then do
      let ip := { ip with size := off + n }
      iupdate i ip
      return (some src.length, ip)
    else return (some src.length, ip)

end Xv6.Fs
