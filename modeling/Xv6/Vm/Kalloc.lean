import Xv6.Lib.Assign
import Xv6.Lib.Halting
import Xv6.Vm.Page

/-! The physical page allocator of `kalloc.c`: a list of free pages linked through the pages
themselves. -/

namespace Xv6.Vm

open Lib

/-- What `kernel.ld` and the size of the kernel decide. `main` puts the pages from `end` on into the
allocator while only the first 4 MB are mapped. -/
structure Kernel where
  data : UInt32
  kend : UInt32
  data_aligned : data.toNat % 4096 = 0
  link_lt_data : KERNLINK < data
  data_le_end : data ≤ kend
  end_le : kend ≤ p2v 0x400000

inductive Panic
  | kfree
  | remap
  | phystopTooHigh
  | switchuvmNoPgdir
  | loaduvmAddrMustBePageAligned
  | loaduvmAddressShouldExist
  | freevmNoPgdir
  | copyuvmPteShouldExist
  | copyuvmPageNotPresent
  | userinitOutOfMemory
  | initExiting
  | filedup
  | fileclose
  deriving DecidableEq

/-- `fault` is a kernel access outside the RAM that the kernel part of a page table maps; `spin` a
loop that does not end. -/
inductive Halt
  | panic (p : Panic)
  | fault
  | spin
  deriving DecidableEq

/-- What is observed of `allocuvm`, `loaduvm` and `uva2ka`: the page that was allocated for an
address, an address whose `mappages` failed, a page into which an image is loaded, and an address
that is looked up through a null `pte`. -/
inductive Access
  | alloc (va : UInt32) (f : ℕ)
  | unmapped (va : UInt32)
  | store (va : UInt32) (f : ℕ)
  | null (va : UInt32)
  deriving DecidableEq

/-- Physical memory by page frames, and `kmem`. The `n`-th call of `kalloc` finds no page if `deny
n`. -/
structure Mem where
  mem : ℕ → Page
  freelist : UInt32
  calls : ℕ
  deny : ℕ → Bool
  trace : List Access

abbrev M := Act Mem Halt

def frame (v : UInt32) : ℕ := (v2p v).toNat / 4096

namespace Mem

def page (m : Mem) (v : UInt32) : Page := m.mem (frame v)

def word (m : Mem) (v : UInt32) (i : ℕ) : UInt32 := (m.page v).word i

def setPage (m : Mem) (v : UInt32) (p : Page) : Mem := { m with mem := assign m.mem (frame v) p }

def setWord (m : Mem) (v : UInt32) (i : ℕ) (w : UInt32) : Mem := m.setPage v ((m.page v).setWord i w)

def push (m : Mem) (v : UInt32) : Mem :=
  { (m.setPage v (Page.fill 1)).setWord v 0 m.freelist with freelist := v }

def log (m : Mem) (x : Access) : Mem := { m with trace := x :: m.trace }

end Mem

def kfree (ld : Kernel) (v : UInt32) : M Unit :=
  if v % PGSIZE ≠ 0 ∨ v < ld.kend ∨ v2p v ≥ PHYSTOP then throw (.panic .kfree)
  else modify (fun m => m.push v)

def kalloc : M UInt32 := do
  let m ← get
  if m.deny m.calls = true ∨ m.freelist = 0 then
    set { m with calls := m.calls + 1 }
    return 0
  else
    set { m with calls := m.calls + 1, freelist := m.word m.freelist 0 }
    return m.freelist

end Xv6.Vm
