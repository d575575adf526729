import Xv6.Ide.Queue
import Xv6.Log.Commit
import Xv6.Log.Reservation

/-! The buffer cache under the log: `bread`, `log_write` and `brelse` of any number of processes,
and the single steps of `commit`, which goes through the same cache. -/

namespace Xv6.Logged

open Lib Bio
open Xv6.Log (Sys Stage)

abbrev ROOTDEV : UInt32 := 1

inductive Cont
  | client (k : UInt32)
  | first
  | second (b : ℕ)
  deriving DecidableEq

inductive Io
  | idle
  | getting (c : Cont)
  | loading (b : ℕ) (c : Cont)
  | one (b : ℕ)
  | two (b b' : ℕ)
  | wrote (b b' : ℕ)
  | last (b : ℕ)
  | finished
  deriving DecidableEq

/-- `written k` is the data of the last `log_write` of block `k`; `installed` are the blocks that
`install_trans` has written home in the commit at hand. -/
structure State where
  sys : Sys
  bio : Bio.State
  disk : Disk
  io : ℕ → Io
  written : UInt32 → Option Block
  installed : List ℕ

inductive Event
  | beginOp (p : ℕ)
  | endOp (p : ℕ)
  | bread (p : ℕ) (k : UInt32)
  | logWrite (p b : ℕ) (data : Block)
  | brelse (p b : ℕ)
  | kill (p : ℕ)
  | next (p : ℕ)

def logBlock (start i : ℕ) : UInt32 := UInt32.ofNat (start + i)

def Home (start size : ℕ) (k : UInt32) : Prop := ∀ i < size, k ≠ logBlock start i

instance (start size : ℕ) (k : UInt32) : Decidable (Home start size k) :=
  inferInstanceAs (Decidable (∀ i < size, k ≠ logBlock start i))

def Cont.returned (b : ℕ) : Cont → Io
  | .client _ => .idle
  | .first => .one b
  | .second b' => .two b' b

namespace State

def init (start size : ℕ) (disk : Disk) : State :=
  ⟨.init start size, .init, disk, fun _ => .idle, fun _ => none, []⟩

def buf (s : State) (b : ℕ) : Buf := s.bio.cache.buf b

def setIo (s : State) (p : ℕ) (x : Io) : State := { s with io := assign s.io p x }

def scan (s : State) (e : Bio.Event) (p : ℕ) (k : UInt32) (c : Cont) : Option State :=
  match s.bio.step e with
  | some bio =>
    some ({ s with bio := bio }.setIo p (match (s.bio.cache.bget ROOTDEV k).1 with
      | .hit b | .recycled b => .loading b c
      | _ => .getting c))
  | none => none

def bget (s : State) (p : ℕ) (k : UInt32) (c : Cont) : Option State := s.scan (.bget p ROOTDEV k) p k c

def iderw (disksize : ℕ) (s : State) (p b : ℕ) (x : Buf) : Option State :=
  match Ide.memideRw disksize x s.disk with
  | .ok (x, disk) =>
    match s.bio.step (.update p b x.valid x.dirty x.data) with
    | some bio => some { s with bio := bio, disk := disk }
    | none => none
  | .error _ => none

def load (disksize : ℕ) (s : State) (p b : ℕ) (c : Cont) : Option State :=
  if (s.buf b).valid then some (s.setIo p (c.returned b))
  else (s.iderw disksize p b (s.buf b)).map (fun s => s.setIo p (c.returned b))

def bwrite (disksize : ℕ) (s : State) (p b : ℕ) (data : Block) (x : Io) : Option State :=
  (s.iderw disksize p b { s.buf b with data := data, dirty := true }).map (fun s => s.setIo p x)

def brelse (s : State) (p b : ℕ) (x : Io) : Option State :=
  match s.bio.step (.brelse p b) with
  | some bio => some ({ s with bio := bio }.setIo p x)
  | none => none

def advance (s : State) (p : ℕ) (st : Stage) : Option State :=
  match s.sys.call (.commitStep p) with
  | some sys =>
    some ({ s with sys := sys, installed := if st = Stage.clear then [] else s.installed }.setIo p .idle)
  | none => none

/-- The next step of `commit` in stage `st`. In `.clear`, `lh.n` becomes 0 with the end of
`write_head`. -/
def commit (disksize : ℕ) (s : State) (p : ℕ) (st : Stage) : Option State :=
  match st, s.io p with
  | .writeLog tail, .idle | .installTrans tail, .idle =>
    if tail < s.sys.log.lh.length then s.bget p (logBlock s.sys.log.start (tail + 1)) .first
    else s.advance p st
  | .writeHead, .idle | .clear, .idle => s.bget p (logBlock s.sys.log.start 0) .first
  | .finish, .idle => s.advance p st
  | .writeLog tail, .one b | .installTrans tail, .one b =>
    match s.sys.log.lh[tail]? with
    | some k => s.bget p (UInt32.ofNat k) (.second b)
    | none => none
  | .writeHead, .one b => s.bwrite disksize p b (Log.putHeader (s.buf b).data s.sys.log.lh) (.last b)
  | .clear, .one b => s.bwrite disksize p b (Log.putHeader (s.buf b).data []) (.last b)
  | .writeLog _, .two tbuf fbuf => s.bwrite disksize p tbuf (s.buf fbuf).data (.wrote tbuf fbuf)
  | .installTrans _, .two lbuf dbuf =>
    (s.bwrite disksize p dbuf (s.buf lbuf).data (.wrote lbuf dbuf)).map
      (fun t => { t with installed := s.installed ++ [(s.buf dbuf).blockno.toNat] })
  | .writeLog _, .wrote tbuf fbuf => s.brelse p fbuf (.last tbuf)
  | .installTrans _, .wrote lbuf dbuf => s.brelse p lbuf (.last dbuf)
  | _, .last b => s.brelse p b .finished
  | st, .finished => s.advance p st
  | _, _ => none

def next (disksize : ℕ) (s : State) (p : ℕ) : Option State :=
  match s.io p with
  | .getting c =>
    match s.bio.want p with
    | .awake _ k => s.scan (.rescan p) p k c
    | _ => none
  | .loading b c => s.load disksize p b c
  | _ =>
    match s.sys.proc p with
    | .committing st => s.commit disksize p st
    | _ => none

def ready (s : State) (p : ℕ) : Bool :=
  s.io p = .idle ∧ (s.sys.proc p = .idle ∨ (s.sys.proc p).op? ≠ none)

/-- One step; a panic halts the machine. Clients use blocks outside the log area, and change a
buffer's data only to pass it to `log_write`. -/
def step (disksize : ℕ) (s : State) (e : Event) : Option State :=
  if s.sys.panic.isSome then none
  else match e with
  | .beginOp p =>
    if s.io p = .idle then
      match s.sys.call (.beginOp p) with
      | some sys => some { s with sys := sys }
      | none => none
    else none
  | .endOp p =>
    if s.io p = .idle then
      match s.sys.call (.endOp p) with
      | some sys => some { s with sys := sys }
      | none => none
    else none
  | .bread p k =>
    if s.ready p ∧ Home s.sys.log.start s.sys.log.size k then s.bget p k (.client k) else none
  | .logWrite p b data =>
    if s.ready p then
      match s.sys.call (.logWrite p (s.buf b).blockno.toNat),
        s.bio.step (.update p b (s.buf b).valid true data) with
      | some sys, some bio =>
        if sys.panic.isSome then none
        else some { s with
          sys := sys, bio := bio, written := assign s.written (s.buf b).blockno (some data) }
      | _, _ => none
    else none
  | .brelse p b => if s.ready p then s.brelse p b .idle else none
  | .kill p =>
    match s.bio.step (.kill p) with
    | some bio => some { s with bio := bio }
    | none => none
  | .next p => s.next disksize p

end State

end Xv6.Logged
