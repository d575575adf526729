import Xv6.Fs.Inode
import Xv6.Lib.Run
import Xv6.Lib.Tokens

/-! The inode cache of `fs.c` under interleaved processes: each step is one critical section of
`icache.lock`, or one access to an inode block under its buffer. -/

namespace Xv6.Icache

open Lib
open Xv6.Fs (Dinode Panic)

abbrev Key := UInt32 × UInt32

structure Inode where
  key : Key
  ref : ℕ
  busy : Bool
  valid : Bool
  dip : Dinode
  gen : ℕ

inductive Pc
  | idle
  | scan (dev : UInt32) (type : Int16) (inum : UInt32)
  | got (k : Key)
  | wait (i : ℕ)
  | test (i : ℕ)
  | read (i : ℕ)
  | itrunc (i : ℕ)
  | untype (i : ℕ)
  | freed (i : ℕ) (d : Dinode)

/-- `held` has a token for each reference, `locks` one for each `I_BUSY` that a process believes to
hold; `fresh i` is the process that has allocated the inode of slot `i` and not given it a link. -/
structure State where
  slot : ℕ → Inode
  disk : Key → Dinode
  gen : Key → ℕ
  pc : ℕ → Pc
  held : List (ℕ × ℕ)
  locks : List (ℕ × ℕ)
  fresh : ℕ → Option ℕ

inductive Act
  | ialloc (dev : UInt32) (type : Int16)
  | iget (k : Key)
  | idup (i r : ℕ)
  | ilock (i : ℕ)
  | modify (i : ℕ) (d : Dinode)
  | iupdate (i : ℕ)
  | iunlock (i : ℕ)
  | iput (i : ℕ)
  | next

namespace State

@[simps disk gen pc held locks fresh] def setSlot (s : State) (i : ℕ) (x : Inode) : State :=
    { s with slot := assign s.slot i x }

@[simps slot disk gen held locks fresh] def setPc (s : State) (p : ℕ) (c : Pc) : State :=
    { s with pc := assign s.pc p c }

@[simps slot gen pc held locks fresh] def setDisk (s : State) (k : Key) (d : Dinode) : State :=
    { s with disk := assign s.disk k d }

@[simps slot disk gen pc held locks] def setFresh (s : State) (i : ℕ) (o : Option ℕ) : State :=
    { s with fresh := assign s.fresh i o }

@[simps disk gen pc held locks fresh] def take (s : State) (p i : ℕ) : State :=
  { s with slot := assign s.slot i { s.slot i with ref := (s.slot i).ref + 1 }, held := (p, i) :: s.held }

@[simps disk gen pc held locks fresh] def drop (s : State) (p i : ℕ) : State :=
  { s with
    slot := assign s.slot i { s.slot i with ref := (s.slot i).ref - 1 }, held := s.held.erase (p, i) }

@[simps disk gen pc held locks fresh] def lock (s : State) (p i : ℕ) : State :=
  { s with slot := assign s.slot i { s.slot i with busy := true }, locks := (p, i) :: s.locks }

@[simps disk gen pc held locks fresh] def unlock (s : State) (p i : ℕ) : State :=
  { s with slot := assign s.slot i { s.slot i with busy := false }, locks := s.locks.erase (p, i) }

@[simps slot pc held locks fresh] def mark (s : State) (k : Key) (type : Int16) : State :=
  { s with
    disk := assign s.disk k { Dinode.zero with type := type }, gen := assign s.gen k (s.gen k + 1) }

section fields

variable (s : State) (i j p q : ℕ) (x : Inode) (c : Pc) (k k' : Key) (d : Dinode) (o : Option ℕ)
  (t : Int16)

@[simp, grind =] lemma setSlot_slot : (s.setSlot i x).slot j = if j = i then x else s.slot j := rfl
@[simp, grind =] lemma setPc_pc : (s.setPc p c).pc q = if q = p then c else s.pc q := rfl
@[simp, grind =] lemma setDisk_disk : (s.setDisk k d).disk k' = if k' = k then d else s.disk k' := rfl
@[simp, grind =] lemma setFresh_fresh : (s.setFresh i o).fresh j = if j = i then o else s.fresh j := rfl
@[simp, grind =] lemma take_slot : (s.take p i).slot j =
    if j = i then { s.slot i with ref := (s.slot i).ref + 1 } else s.slot j := rfl
@[simp, grind =] lemma drop_slot : (s.drop p i).slot j =
    if j = i then { s.slot i with ref := (s.slot i).ref - 1 } else s.slot j := rfl
@[simp, grind =] lemma lock_slot : (s.lock p i).slot j =
    if j = i then { s.slot i with busy := true } else s.slot j := rfl
@[simp, grind =] lemma unlock_slot : (s.unlock p i).slot j =
    if j = i then { s.slot i with busy := false } else s.slot j := rfl
@[simp, grind =] lemma mark_disk : (s.mark k t).disk k' =
    if k' = k then { Dinode.zero with type := t } else s.disk k' := rfl
@[simp, grind =] lemma mark_gen : (s.mark k t).gen k' = if k' = k then s.gen k + 1 else s.gen k' := rfl

end fields

attribute [grind =] setSlot_held setPc_slot setPc_held setDisk_slot drop_held lock_held unlock_held

def init (disk : Key → Dinode) : State :=
  ⟨fun _ => ⟨(0, 0), 0, false, false, Dinode.zero, 0⟩, disk, fun _ => 0, fun _ => .idle, [], [],
    fun _ => none⟩

def find (n : ℕ) (s : State) (k : Key) : Option ℕ :=
  (List.range n).find? (fun i => 0 < (s.slot i).ref ∧ (s.slot i).key = k)

def empty (n : ℕ) (s : State) : Option ℕ := (List.range n).find? (fun i => (s.slot i).ref = 0)

def iget (n : ℕ) (s : State) (p : ℕ) (k : Key) : Except Panic (ℕ × State) :=
  match s.find n k with
  | some i => .ok (i, s.take p i)
  | none =>
    match s.empty n with
    | some i => .ok (i, (s.setSlot i ⟨k, 0, false, false, (s.slot i).dip, (s.slot i).gen⟩).take p i)
    | none => .error .igetNoInodes

def truncated (d : Dinode) : Dinode := { d with addrs := fun _ => 0, size := 0 }

def next (n : ℕ) (ninodes : UInt32) (s : State) (p : ℕ) : Option (Except Panic State) :=
  match s.pc p with
  | .idle => none
  | .scan dev type inum =>
    if inum < ninodes then
      if (s.disk (dev, inum)).type = 0 then some
        (.ok ((s.mark (dev, inum) type).setPc p (.got (dev, inum))))
      else some (.ok (s.setPc p (.scan dev type (inum + 1))))
    else some (.error .iallocNoInodes)
  | .got k =>
    match s.iget n p k with
    | .ok (i, s') => some (.ok ((s'.setFresh i (some p)).setPc p .idle))
    | .error e => some (.error e)
  | .wait i => if (s.slot i).busy then none else some (.ok ((s.lock p i).setPc p (.test i)))
  | .test i => if (s.slot i).valid then some (.ok (s.setPc p .idle)) else some (.ok (s.setPc p (.read i)))
  | .read i =>
    let k := (s.slot i).key
    if (s.disk k).type = 0 then some (.error .ilockNoType)
    else some (.ok ((s.setSlot i
      { s.slot i with dip := s.disk k, gen := s.gen k, valid := true }).setPc p .idle))
  | .itrunc i =>
    let d := truncated (s.slot i).dip
    some (.ok (((s.setSlot i { s.slot i with dip := d }).setDisk (s.slot i).key d).setPc p (.untype i)))
  | .untype i =>
    let d := { (s.slot i).dip with type := 0 }
    some (.ok (((s.setSlot i { s.slot i with dip := d }).setDisk (s.slot i).key d).setPc p (.freed i d)))
  | .freed i _ => some (.ok ((((s.unlock p i).setSlot i
      { s.slot i with busy := false, valid := false }).drop p i).setPc p .idle))

/-- A step of `p`. A process gives up only references and locks that it has, keeps a reference for
each lock, changes an inode under its lock, has written `nlink` back when it unlocks, and neither
unlocks nor gives up an inode that it has allocated before it has set `nlink` to 1. -/
def step (n : ℕ) (ninodes : UInt32) (s : State) (e : ℕ × Act) : Option (Except Panic State) :=
  let p := e.1
  match s.pc p, e.2 with
  | _, .next => s.next n ninodes p
  | .idle, .ialloc dev type => if type ≠ 0 then some (.ok (s.setPc p (.scan dev type 1))) else none
  | .idle, .iget k =>
    match s.iget n p k with
    | .ok (_, s') => some (.ok s')
    | .error e => some (.error e)
  | .idle, .idup i r => if (p, i) ∈ s.held then some (.ok (s.take r i)) else none
  | .idle, .ilock i =>
    if (p, i) ∈ s.held then
      if (s.slot i).ref < 1 then some (.error .ilock) else some (.ok (s.setPc p (.wait i)))
    else none
  | .idle, .modify i d =>
    if (p, i) ∈ s.locks ∧ d.type = (s.slot i).dip.type then some
      (.ok (s.setSlot i { s.slot i with dip := d }))
    else none
  | .idle, .iupdate i =>
    if (p, i) ∈ s.locks then
      some (.ok ((s.setDisk (s.slot i).key (s.slot i).dip).setFresh i
        (if s.fresh i = some p ∧ (s.slot i).dip.nlink = 1 then none else s.fresh i)))
    else none
  | .idle, .iunlock i =>
    if (p, i) ∈ s.locks ∧ (s.slot i).dip.nlink = (s.disk (s.slot i).key).nlink ∧ s.fresh i ≠ some p then
      if (s.slot i).busy = false ∨ (s.slot i).ref < 1 then some (.error .iunlock) else some
        (.ok (s.unlock p i))
    else none
  | .idle, .iput i =>
    if (p, i) ∈ s.held ∧ ((p, i) ∈ s.locks ∨ s.fresh i = some p → 2 ≤ s.held.count (p, i)) then
      if (s.slot i).ref = 1 ∧ (s.slot i).valid ∧ (s.slot i).dip.nlink = 0 then
        if (s.slot i).busy then some (.error .iputBusy) else some (.ok ((s.lock p i).setPc p (.itrunc i)))
      else some (.ok (s.drop p i))
    else none
  | _, _ => none

end State

end Xv6.Icache
