import Xv6.Block
import Xv6.Lib.Ring
import Xv6.Lib.Run

namespace Xv6.Bio

open Lib

abbrev NBUF : ℕ := MAXOPBLOCKS * 3

structure Buf where
  busy : Bool
  valid : Bool
  dirty : Bool
  dev : UInt32
  blockno : UInt32
  data : Block

structure Bcache where
  buf : ℕ → Buf
  next : Option ℕ → Option ℕ
  prev : Option ℕ → Option ℕ

namespace Bcache

def setBuf (c : Bcache) (b : ℕ) (x : Buf) : Bcache := { c with buf := assign c.buf b x }

def insert (c : Bcache) (b : ℕ) : Bcache :=
  { c with next := (pushFront c.next c.prev b).1, prev := (pushFront c.next c.prev b).2 }

def remove (c : Bcache) (b : ℕ) : Bcache :=
  { c with next := (unlink c.next c.prev b).1, prev := (unlink c.next c.prev b).2 }

def zeroed : Bcache := ⟨fun _ => ⟨false, false, false, 0, 0, Block.zero⟩, fun _ => none, fun _ => none⟩

def binit : Bcache :=
  (List.range NBUF).foldl (fun c b => (c.insert b).setBuf b { c.buf b with dev := -1 }) zeroed

inductive Got
  | hit (b : ℕ)
  | sleep (b : ℕ)
  | recycled (b : ℕ)
  | panic
  deriving DecidableEq

def carries (c : Bcache) (dev blockno : UInt32) (b : ℕ) : Bool :=
  (c.buf b).dev = dev ∧ (c.buf b).blockno = blockno

def idle (c : Bcache) (b : ℕ) : Bool := (c.buf b).busy = false ∧ (c.buf b).dirty = false

def bget (c : Bcache) (dev blockno : UInt32) : Got × Bcache :=
  match scan c.next (c.carries dev blockno) (NBUF + 1) (c.next none) with
  | some b =>
    if (c.buf b).busy then (.sleep b, c) else (.hit b, c.setBuf b { c.buf b with busy := true })
  | none =>
    match scan c.prev c.idle (NBUF + 1) (c.prev none) with
    | some b => (.recycled b, c.setBuf b ⟨true, false, false, dev, blockno, (c.buf b).data⟩)
    | none => (.panic, c)

def brelse (c : Bcache) (b : ℕ) : Bcache :=
  let c := (c.remove b).insert b
  c.setBuf b { c.buf b with busy := false }

end Bcache

inductive Want
  | nothing
  | asleep (dev blockno : UInt32) (b : ℕ)
  | awake (dev blockno : UInt32)
  deriving DecidableEq

/-- `held p` are the buffers that `bget` has returned to `p`; `released b` numbers the last `brelse`
of `b`. -/
structure State where
  cache : Bcache
  held : ℕ → Finset ℕ
  want : ℕ → Want
  time : ℕ
  released : ℕ → ℕ

inductive Event
  | bget (p : ℕ) (dev blockno : UInt32)
  | rescan (p : ℕ)
  | kill (p : ℕ)
  | update (p b : ℕ) (valid dirty : Bool) (data : Block)
  | brelse (p b : ℕ)

namespace State

def init : State := ⟨.binit, fun _ => ∅, fun _ => .nothing, 0, fun _ => 0⟩

def scan (s : State) (p : ℕ) (dev blockno : UInt32) : Option State :=
  match s.cache.bget dev blockno with
  | (.hit b, c) | (.recycled b, c) =>
    some { s with
      cache := c, held := assign s.held p (insert b (s.held p)), want := assign s.want p .nothing }
  | (.sleep b, c) => some { s with cache := c, want := assign s.want p (.asleep dev blockno b) }
  | (.panic, _) => none

def wake (b : ℕ) : Want → Want
  | .asleep dev blockno b' => if b' = b then .awake dev blockno else .asleep dev blockno b'
  | w => w

def step (s : State) : Event → Option State
  | .bget p dev blockno =>
    match s.want p with
    | .nothing => s.scan p dev blockno
    | _ => none
  | .rescan p =>
    match s.want p with
    | .awake dev blockno => s.scan p dev blockno
    | _ => none
  | .kill p =>
    match s.want p with
    | .asleep dev blockno _ => some { s with want := assign s.want p (.awake dev blockno) }
    | _ => none
  | .update p b valid dirty data =>
    if b ∈ s.held p then
      some { s with
        cache := s.cache.setBuf b { s.cache.buf b with valid := valid, dirty := dirty, data := data } }
    else none
  | .brelse p b =>
    if b ∈ s.held p then
      some { s with
        cache := s.cache.brelse b, held := assign s.held p ((s.held p).erase b),
        want := fun q => wake b (s.want q), time := s.time + 1, released :=
          assign s.released b (s.time + 1) }
    else none

end State

end Xv6.Bio
