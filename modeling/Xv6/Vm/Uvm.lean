import Xv6.Vm.Kalloc

namespace Xv6.Vm

open Lib

structure PtePtr where
  pgtab : UInt32
  i : ℕ

def Mem.pte (m : Mem) (p : PtePtr) : UInt32 := m.word p.pgtab p.i

def Mem.setPte (m : Mem) (p : PtePtr) (w : UInt32) : Mem := m.setWord p.pgtab p.i w

def walkpgdir (pgdir va : UInt32) (alloc : Bool) : M (Option PtePtr) := do
  let m ← get
  let pde := m.word pgdir (PDX va)
  if pde &&& PTE_P ≠ 0 then return some ⟨p2v (PTE_ADDR pde), PTX va⟩
  else if alloc = false then return none
  else
    let pgtab ← kalloc
    if pgtab = 0 then return none
    else
      modify (fun m => m.setPage pgtab (Page.fill 0))
      modify (fun m => m.setWord pgdir (PDX va) (v2p pgtab ||| PTE_P ||| PTE_W ||| PTE_U))
      return some ⟨pgtab, PTX va⟩

def mappagesLoop (pgdir last perm : UInt32) : ℕ → UInt32 → UInt32 → M Bool
  | 0, _, _ => throw .spin
  | n + 1, a, pa => do
    match ← walkpgdir pgdir a true with
    | none => return false
    | some pte =>
      let m ← get
      if m.pte pte &&& PTE_P ≠ 0 then throw (.panic .remap)
      else
        modify (fun m => m.setPte pte (pa ||| perm ||| PTE_P))
        if a = last then return true
        else mappagesLoop pgdir last perm n (a + PGSIZE) (pa + PGSIZE)

/-- `false` is the return value `-1`. -/
def mappages (pgdir va size pa perm : UInt32) : M Bool :=
  mappagesLoop pgdir (PGROUNDDOWN (va + size - 1)) perm (2 ^ 20) (PGROUNDDOWN va) pa

structure Kmap where
  virt : UInt32
  phys_start : UInt32
  phys_end : UInt32
  perm : UInt32

def kmap (ld : Kernel) : List Kmap :=
  [⟨KERNBASE, 0, EXTMEM, PTE_W⟩, ⟨KERNLINK, v2p KERNLINK, v2p ld.data, 0⟩,
    ⟨ld.data, v2p ld.data, PHYSTOP, PTE_W⟩, ⟨DEVSPACE, DEVSPACE, 0, PTE_W⟩]

def mapKernel (pgdir : UInt32) : List Kmap → M Bool
  | [] => return true
  | k :: ks => do
    if ← mappages pgdir k.virt (k.phys_end - k.phys_start) k.phys_start k.perm then mapKernel pgdir ks
    else return false

def setupkvm (ld : Kernel) : M UInt32 := do
  let pgdir ← kalloc
  if pgdir = 0 then return 0
  else
    modify (fun m => m.setPage pgdir (Page.fill 0))
    if p2v PHYSTOP > DEVSPACE then throw (.panic .phystopTooHigh)
    else if ← mapKernel pgdir (kmap ld) then return pgdir
    else return 0

def storePage (v : UInt32) (off : ℕ) (src : List UInt8) : M Unit :=
  if v < KERNBASE ∨ v2p v ≥ PHYSTOP then throw .fault
  else modify (fun m => m.setPage v ((m.page v).splice off src))

def deallocuvmLoop (ld : Kernel) (pgdir oldsz newsz : UInt32) : ℕ → UInt32 → M UInt32
  | 0, _ => throw .spin
  | n + 1, a =>
    if a < oldsz then do
      match ← walkpgdir pgdir a false with
      | none => deallocuvmLoop ld pgdir oldsz newsz n (a + (NPTENTRIES - 1).toUInt32 * PGSIZE + PGSIZE)
      | some pte =>
        let m ← get
        if m.pte pte &&& PTE_P ≠ 0 then
          if PTE_ADDR (m.pte pte) = 0 then throw (.panic .kfree)
          else
            kfree ld (p2v (PTE_ADDR (m.pte pte)))
            modify (fun m => m.setPte pte 0)
            deallocuvmLoop ld pgdir oldsz newsz n (a + PGSIZE)
        else deallocuvmLoop ld pgdir oldsz newsz n (a + PGSIZE)
    else return newsz

def deallocuvm (ld : Kernel) (pgdir oldsz newsz : UInt32) : M UInt32 :=
  if newsz ≥ oldsz then return oldsz
  else deallocuvmLoop ld pgdir oldsz newsz (2 ^ 20) (PGROUNDUP newsz)

def allocuvmLoop (ld : Kernel) (pgdir oldsz newsz : UInt32) : ℕ → UInt32 → M UInt32
  | 0, _ => throw .spin
  | n + 1, a =>
    if a < newsz then do
      let mem ← kalloc
      if mem = 0 then
        let _ ← deallocuvm ld pgdir newsz oldsz
        return 0
      else
        modify (fun m => (m.log (.alloc a (frame mem))).setPage mem (Page.fill 0))
        -- the result of mappages is ignored
        if ← mappages pgdir a PGSIZE (v2p mem) (PTE_W ||| PTE_U) then
          allocuvmLoop ld pgdir oldsz newsz n (a + PGSIZE)
        else
          modify (fun m => m.log (.unmapped a))
          allocuvmLoop ld pgdir oldsz newsz n (a + PGSIZE)
    else return newsz

def allocuvm (ld : Kernel) (pgdir oldsz newsz : UInt32) : M UInt32 :=
  if newsz ≥ KERNBASE then return 0
  else if newsz < oldsz then return oldsz
  else allocuvmLoop ld pgdir oldsz newsz (2 ^ 20) (PGROUNDUP oldsz)

def freeTables (ld : Kernel) (pgdir : UInt32) : ℕ → M Unit
  | 0 => return ()
  | n + 1 => do
    let i := NPDENTRIES - (n + 1)
    let m ← get
    if m.word pgdir i &&& PTE_P ≠ 0 then
      kfree ld (p2v (PTE_ADDR (m.word pgdir i)))
      freeTables ld pgdir n
    else freeTables ld pgdir n

def freevm (ld : Kernel) (pgdir : UInt32) : M Unit :=
  if pgdir = 0 then throw (.panic .freevmNoPgdir)
  else do
    let _ ← deallocuvm ld pgdir KERNBASE 0
    freeTables ld pgdir NPDENTRIES
    kfree ld pgdir

def fetchPage (v : UInt32) : M Page := do
  if v < KERNBASE ∨ v2p v ≥ PHYSTOP then throw .fault
  else
    let m ← get
    return m.page v

def copyuvmLoop (ld : Kernel) (pgdir sz d : UInt32) : ℕ → UInt32 → M UInt32
  | 0, _ => throw .spin
  | n + 1, i =>
    if i < sz then do
      match ← walkpgdir pgdir i false with
      | none => throw (.panic .copyuvmPteShouldExist)
      | some pte =>
        let m ← get
        if m.pte pte &&& PTE_P = 0 then throw (.panic .copyuvmPageNotPresent)
        else
          let mem ← kalloc
          if mem = 0 then
            freevm ld d
            return 0
          else
            let p ← fetchPage (p2v (PTE_ADDR (m.pte pte)))
            modify (fun m => m.setPage mem p)
            if ← mappages d i PGSIZE (v2p mem) (PTE_FLAGS (m.pte pte)) then
              copyuvmLoop ld pgdir sz d n (i + PGSIZE)
            else
              freevm ld d
              return 0
    else return d

def copyuvm (ld : Kernel) (pgdir sz : UInt32) : M UInt32 := do
  let d ← setupkvm ld
  if d = 0 then return 0 else copyuvmLoop ld pgdir sz d (2 ^ 20) 0

def nullWord (cr3 : UInt32) : M UInt32 := do
  match ← walkpgdir cr3 0 false with
  | none => throw .fault
  | some pte =>
    let m ← get
    if m.pte pte &&& PTE_P = 0 then throw .fault
    else return m.word (p2v (PTE_ADDR (m.pte pte))) 0

def userPage (w : UInt32) : UInt32 :=
  if w &&& PTE_P = 0 then 0
  else if w &&& PTE_U = 0 then 0
  else p2v (PTE_ADDR w)

/-- `cr3` is the page table of the calling process, under which the kernel runs. -/
def uva2ka (cr3 pgdir uva : UInt32) : M UInt32 := do
  match ← walkpgdir pgdir uva false with
  | some pte =>
    let m ← get
    return userPage (m.pte pte)
  | none =>
    modify (fun m => m.log (.null uva))
    let w ← nullWord cr3
    return userPage w

def copyoutLoop (cr3 pgdir : UInt32) : ℕ → UInt32 → List UInt8 → M Bool
  | 0, _, _ => throw .spin
  | k + 1, va, buf =>
    if buf.length > 0 then do
      let va0 := PGROUNDDOWN va
      let pa0 ← uva2ka cr3 pgdir va0
      if pa0 = 0 then return false
      else
        let n := min (PGSIZE - (va - va0)).toNat buf.length
        storePage pa0 (va - va0).toNat (buf.take n)
        copyoutLoop cr3 pgdir k (va0 + PGSIZE) (buf.drop n)
    else return true

/-- `false` is the return value `-1`. Every pass but the first and the last copies a page. -/
def copyout (cr3 pgdir va : UInt32) (buf : List UInt8) : M Bool :=
  copyoutLoop cr3 pgdir (buf.length / 4096 + 3) va buf

end Xv6.Vm
