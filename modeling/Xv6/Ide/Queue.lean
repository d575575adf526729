import Xv6.Bio.Cache
import Xv6.Lib.Chain

namespace Xv6.Ide

open Lib Bio

inductive Panic
  | notBusy
  | nothingToDo
  | notForDisk1
  | outOfRange
  deriving DecidableEq

def memideRw (disksize : ℕ) (b : Buf) (disk : Disk) : Except Panic (Buf × Disk) :=
  if b.busy = false then .error .notBusy
  else if b.valid = true ∧ b.dirty = false then .error .nothingToDo
  else if b.dev ≠ 1 then .error .notForDisk1
  else if b.blockno.toNat ≥ disksize then .error .outOfRange
  else if b.dirty then .ok ({ b with dirty := false, valid := true }, assign disk b.blockno.toNat b.data)
  else .ok ({ b with data := disk b.blockno.toNat, valid := true }, disk)

structure Request where
  drive : UInt32
  blockno : ℕ
  data : Option Block

structure Start where
  b : ℕ
  head : Option ℕ
  active : Option Request

inductive Proc
  | idle
  | asleep (b : ℕ)
  | awake (b : ℕ)
  deriving DecidableEq

/-- `appended` and `completed` list the requests in the order in which `iderw` appended and
`ideintr` removed them. -/
structure State where
  buf : ℕ → Buf
  holder : ℕ → Option ℕ
  idequeue : Option ℕ
  qnext : ℕ → Option ℕ
  disk : UInt32 → Disk
  active : Option Request
  proc : ℕ → Proc
  appended : List ℕ
  completed : List ℕ
  started : List Start

inductive Event
  | bget (p b : ℕ) (x : Buf)
  | modify (p b : ℕ) (x : Buf)
  | brelse (p b : ℕ)
  | iderw (p b : ℕ)
  | ideintr
  | kill (p : ℕ)
  | recheck (p : ℕ)

namespace State

def init (disk : UInt32 → Disk) : State :=
  ⟨fun _ => ⟨false, false, false, 0, 0, Block.zero⟩, fun _ => none, none, fun _ => none, disk, none,
    fun _ => .idle, [], [], []⟩

def request (b : Buf) : Request := ⟨b.dev &&& 1, b.blockno.toNat, if b.dirty then some b.data else none⟩

def idestart (s : State) (b : ℕ) : Option State :=
  if (s.buf b).blockno.toNat ≥ FSSIZE then none
  else some { s with
    active := some (request (s.buf b)), started := s.started ++ [⟨b, s.idequeue, s.active⟩] }

def synced (b : Buf) : Bool := b.valid ∧ b.dirty = false

def iderw (n : ℕ) (havedisk1 : Bool) (s : State) (p b : ℕ) : Option State :=
  if (s.buf b).busy = false then none
  else if synced (s.buf b) then none
  else if (s.buf b).dev ≠ 0 ∧ havedisk1 = false then none
  else
    let q := enqueue s.idequeue s.qnext n b
    let s := { s with
      idequeue := q.1, qnext := q.2, appended := s.appended ++ [b], proc := assign s.proc p (.asleep b) }
    if s.idequeue = some b then s.idestart b else some s

def finish (disk : UInt32 → Disk) (r : Request) : UInt32 → Disk :=
  match r.data with
  | some data => assign disk r.drive (assign (disk r.drive) r.blockno data)
  | none => disk

def wake (b : ℕ) : Proc → Proc
  | .asleep b' => if b' = b then .awake b else .asleep b'
  | q => q

def ideintr (s : State) (r : Request) : Option State :=
  let s := { s with disk := finish s.disk r, active := none }
  match s.idequeue with
  | none => some s
  | some b =>
    let data := if (s.buf b).dirty then (s.buf b).data else s.disk r.drive r.blockno
    let s := { s with
      idequeue := s.qnext b, completed := s.completed ++ [b], proc := fun p => wake b (s.proc p),
      buf := assign s.buf b { s.buf b with data := data, valid := true, dirty := false } }
    match s.idequeue with
    | none => some s
    | some c => s.idestart c

def step (n : ℕ) (havedisk1 : Bool) (s : State) : Event → Option State
  | .bget p b x =>
    if b < n ∧ s.proc p = .idle ∧ s.holder b = none ∧ x.busy = true then
      some { s with buf := assign s.buf b x, holder := assign s.holder b (some p) }
    else none
  | .modify p b x =>
    if s.proc p = .idle ∧ s.holder b = some p ∧ x.busy = true then some
      { s with buf := assign s.buf b x } else none
  | .brelse p b =>
    if s.proc p = .idle ∧ s.holder b = some p then
      some { s with
        buf := assign s.buf b { s.buf b with busy := false }, holder := assign s.holder b none }
    else none
  | .iderw p b => if s.proc p = .idle ∧ s.holder b = some p then s.iderw n havedisk1 p b else none
  | .ideintr =>
    match s.active with
    | some r => s.ideintr r
    | none => none
  | .kill p =>
    match s.proc p with
    | .asleep b => some { s with proc := assign s.proc p (.awake b) }
    | _ => none
  | .recheck p =>
    match s.proc p with
    | .awake b => some { s with proc := assign s.proc p (if synced (s.buf b) then .idle else .asleep b) }
    | _ => none

end State

end Xv6.Ide
