import Xv6.Fs.State

/-! `fetchint`, `fetchstr`, `argint`, `argptr` and `argstr` of `syscall.c`, and the memory that
`sys_read` and `sys_write` let `readi` and `writei` touch. -/

namespace Xv6.Syscall

open Fs

abbrev KERNBASE : ℕ := 0x80000000

structure Uproc where
  sz : UInt32
  esp : UInt32
  mem : UInt32 → UInt8

def Uproc.word (p : Uproc) (addr : UInt32) : UInt32 :=
  UInt32.ofNat (Lib.LittleEndian.value (fun k => p.mem (addr + UInt32.ofNat k)) 4)

/-- The addresses read, and the value; `none` is the return value `-1`. -/
def fetchint (p : Uproc) (addr : UInt32) : List UInt32 × Option UInt32 :=
  if addr ≥ p.sz ∨ addr + 4 > p.sz then ([], none)
  else ([addr, addr + 1, addr + 2, addr + 3], some (p.word addr))

def fetchstrLoop (p : Uproc) (pp : UInt32) : ℕ → UInt32 → Option UInt32
  | 0, _ => none
  | fuel + 1, s =>
    if s < p.sz then
      if p.mem s = 0 then some (s - pp) else fetchstrLoop p pp fuel (s + 1)
    else none

def fetchstr (p : Uproc) (addr : UInt32) : Option UInt32 :=
  if addr ≥ p.sz then none else fetchstrLoop p addr p.sz.toNat addr

def argint (p : Uproc) (n : Int32) : Option UInt32 := (fetchint p (p.esp + 4 + 4 * n.toUInt32)).2

def argptr (p : Uproc) (n size : Int32) : Option UInt32 :=
  match argint p n with
  | none => none
  | some i => if i ≥ p.sz ∨ i + size.toUInt32 > p.sz then none else some i

def argstr (p : Uproc) (n : Int32) : Option (UInt32 × UInt32) :=
  match argint p n with
  | none => none
  | some addr => (fetchstr p addr).map (addr, ·)

def argfd {α : Type} (p : Uproc) (ofile : ℕ → Option α) (n : Int32) : Option α :=
  match argint p n with
  | none => none
  | some w => if w.toInt32.toInt < 0 ∨ w.toInt32.toInt ≥ NOFILE then none else ofile w.toInt32.toInt.toNat

def moves (n : UInt32) : ℕ → (tot off addr : UInt32) → List (UInt32 × UInt32)
  | 0, _, _, _ => []
  | fuel + 1, tot, off, addr =>
    if tot < n then
      let m := min (n - tot) (512 - off % 512)
      (addr, m) :: moves n fuel (tot + m) (off + m) (addr + m)
    else []

def consoleread (line : UInt32) (dst n : UInt32) : List (UInt32 × UInt32) :=
  if n.toInt32.toInt > 0 then [(dst, min n line)] else []

def consolewrite (buf n : UInt32) : List (UInt32 × UInt32) :=
  if n.toInt32.toInt > 0 then [(buf, n)] else []

def readi (line : UInt32) (ip : Dinode) (dst off n : UInt32) : List (UInt32 × UInt32) :=
  if ip.type = T_DEV then
    if devsw ip.major then consoleread line dst n else []
  else if off > ip.size ∨ off + n < off then []
  else
    let n := if off + n > ip.size then ip.size - off else n
    moves n n.toNat 0 off dst

def writei (ip : Dinode) (src off n : UInt32) : List (UInt32 × UInt32) × Bool :=
  if ip.type = T_DEV then
    if devsw ip.major then (consolewrite src n, true) else ([], false)
  else if off > ip.size ∨ off + n < off then ([], false)
  else if (off + n).toNat > MAXFILE * BSIZE then ([], false)
  else (moves n n.toNat 0 off src, true)

structure OpenFile where
  file : File
  ip : Dinode

def fileread (line : UInt32) (f : OpenFile) (addr : UInt32) (n : Int32) : List (UInt32 × UInt32) :=
  if f.file.readable = false then []
  else match f.file.type with
    | .inode => readi line f.ip addr f.file.off n.toUInt32
    | _ => []

def filewriteMax : ℤ := ((LOGSIZE - 1 - 1 - 2) / 2 : ℕ) * 512

/-- `chunk k` is the file as the `k`-th pass through the loop finds it; `i` and `n1` stay in the
range of `int`. -/
def filewriteLoop (chunk : ℕ → OpenFile) (addr : UInt32) (n : ℤ) : ℕ → ℕ → ℤ → List (UInt32 × UInt32)
  | 0, _, _ => []
  | fuel + 1, k, i =>
    if i < n then
      let n1 := min (n - i) filewriteMax
      let r := writei (chunk k).ip (addr + UInt32.ofNat i.toNat) (chunk k).file.off
        (UInt32.ofNat n1.toNat)
      r.1 ++ if r.2 then filewriteLoop chunk addr n fuel (k + 1) (i + n1) else []
    else []

def filewrite (f : OpenFile) (chunk : ℕ → OpenFile) (addr : UInt32) (n : Int32) :
    List (UInt32 × UInt32) :=
  if f.file.writable = false then []
  else match f.file.type with
    | .inode => filewriteLoop chunk addr n.toInt n.toInt.toNat 0 0
    | _ => []

def sys_read (p : Uproc) (ofile : ℕ → Option OpenFile) (line : UInt32) :
    Option (UInt32 × Int32 × List (UInt32 × UInt32)) :=
  match argfd p ofile 0, argint p 2 with
  | some f, some n =>
    match argptr p 1 n.toInt32 with
    | some addr => some (addr, n.toInt32, fileread line f addr n.toInt32)
    | none => none
  | _, _ => none

def sys_write (p : Uproc) (ofile : ℕ → Option OpenFile) (chunk : ℕ → OpenFile) :
    Option (UInt32 × Int32 × List (UInt32 × UInt32)) :=
  match argfd p ofile 0, argint p 2 with
  | some f, some n =>
    match argptr p 1 n.toInt32 with
    | some addr => some (addr, n.toInt32, filewrite f chunk addr n.toInt32)
    | none => none
  | _, _ => none

def Touches (l : List (UInt32 × UInt32)) (a : UInt32) : Prop :=
  ∃ r ∈ l, ∃ j < r.2.toNat, a = r.1 + UInt32.ofNat j

def Inside (p : Uproc) (addr : UInt32) (n : ℤ) (l : List (UInt32 × UInt32)) : Prop :=
  ∀ a, Touches l a → addr.toNat ≤ a.toNat ∧ (a.toNat : ℤ) < addr.toNat + n ∧ a < p.sz

end Xv6.Syscall
