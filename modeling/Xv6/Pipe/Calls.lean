import Xv6.Lib.Fifo
import Xv6.Lib.Run

/-! `pipewrite`, `piperead` and `pipeclose` of `pipe.c` on one pipe, by any number of processes. -/

namespace Xv6.Pipe

open Lib

abbrev PIPESIZE : ℕ := 512

/-- The statement that a process executes next. A process in `writeAsleep` sleeps on `&p->nwrite`,
one in `readAsleep` on `&p->nread`; in `writeWoken` and `readWoken` it is about to take the lock
again. -/
inductive Pc
  | idle
  | writeEnter | writeLoop | writeSleep | writeAsleep | writeWoken | writeEnd
  | readEnter | readLoop | readSleep | readAsleep | readWoken | readCopy | readEnd
  | closeEnter (writable : Bool)
  deriving DecidableEq

namespace Pc

def wakeReader : Pc → Pc
  | readAsleep => readWoken
  | pc => pc

def wakeWriter : Pc → Pc
  | writeAsleep => writeWoken
  | pc => pc

def inside : Pc → Bool
  | writeLoop | writeSleep | writeEnd | readLoop | readSleep | readCopy | readEnd => true
  | _ => false

def writing : Pc → Bool
  | writeEnter | writeLoop | writeSleep | writeAsleep | writeWoken | writeEnd => true
  | _ => false

end Pc

structure Proc where
  pc : Pc
  killed : Bool
  id : ℕ
  n : ℤ
  addr : ℕ → UInt8
  i : ℕ

structure State where
  lock : Option ℕ
  proc : ℕ → Proc
  data : ℕ → UInt8
  nread : UInt32
  nwrite : UInt32
  readopen : Bool
  writeopen : Bool
  calls : ℕ
  stored : List (ℕ × UInt8)
  delivered : List (ℕ × UInt8)

inductive Event
  | write (p : ℕ) (n : ℤ) (addr : ℕ → UInt8)
  | read (p : ℕ) (n : ℤ)
  | close (p : ℕ) (writable : Bool)
  | kill (p : ℕ)
  | next (p : ℕ)

namespace State

def init (data : ℕ → UInt8) : State :=
  ⟨none, fun _ => ⟨.idle, false, 0, 0, fun _ => 0, 0⟩, data, 0, 0, true, true, 0, [], []⟩

@[simps lock nread nwrite readopen writeopen] def setPc (s : State) (p : ℕ) (pc : Pc) : State :=
    { s with proc := assign s.proc p { s.proc p with pc := pc } }

@[simps proc nread nwrite readopen writeopen] def acquire (s : State) (p : ℕ) : State :=
    { s with lock := some p }

@[simps proc nread nwrite readopen writeopen] def release (s : State) : State := { s with lock := none }

@[simps lock nread nwrite readopen writeopen] def wakeup (s : State) (f : Pc → Pc) : State :=
  { s with proc := fun q => { s.proc q with pc := f (s.proc q).pc } }

@[simps lock nread readopen writeopen] def store (s : State) (p : ℕ) : State :=
  { s with
    data := assign s.data (s.nwrite.toNat % PIPESIZE) ((s.proc p).addr (s.proc p).i)
    nwrite := s.nwrite + 1
    stored := s.stored ++ [((s.proc p).id, (s.proc p).addr (s.proc p).i)]
    proc := assign s.proc p { s.proc p with i := (s.proc p).i + 1 } }

@[simps lock nwrite readopen writeopen] def fetch (s : State) (p : ℕ) : State :=
  { s with
    nread := s.nread + 1
    delivered := s.delivered ++ [((s.proc p).id, s.data (s.nread.toNat % PIPESIZE))]
    proc := assign s.proc p { s.proc p with i := (s.proc p).i + 1 } }

def close (s : State) (writable : Bool) : State :=
  if writable then { s with writeopen := false }.wakeup .wakeReader
  else { s with readopen := false }.wakeup .wakeWriter

@[simps lock nread nwrite readopen writeopen] def enter (s : State) (p : ℕ) (pc : Pc) (n : ℤ)
    (addr : ℕ → UInt8) : State :=
  { s with calls := s.calls + 1, proc := assign s.proc p ⟨pc, (s.proc p).killed, s.calls, n, addr, 0⟩ }

@[simps lock nread nwrite readopen writeopen] def kill (s : State) (p : ℕ) : State :=
  { s with
    proc := assign s.proc p { s.proc p with killed := true, pc := (s.proc p).pc.wakeReader.wakeWriter } }

def Full (s : State) : Prop := s.nwrite = s.nread + UInt32.ofNat PIPESIZE

instance (s : State) : Decidable s.Full := inferInstanceAs (Decidable (_ = _))

def GivesUp (s : State) (p : ℕ) : Prop :=
  (s.proc p).pc = .writeLoop ∧ ((s.proc p).i : ℤ) < (s.proc p).n ∧ s.Full ∧
    (s.readopen = false ∨ (s.proc p).killed = true)

def next (s : State) (p : ℕ) : Option State :=
  match (s.proc p).pc with
  | .idle | .writeAsleep | .readAsleep => none
  | .writeEnter | .writeWoken => if s.lock = none then some ((s.acquire p).setPc p .writeLoop) else none
  | .readEnter | .readWoken => if s.lock = none then some ((s.acquire p).setPc p .readLoop) else none
  | .closeEnter writable => if s.lock = none then some ((s.close writable).setPc p .idle) else none
  | .writeLoop =>
    if ((s.proc p).i : ℤ) < (s.proc p).n then
      if s.Full then
        if s.readopen = false ∨ (s.proc p).killed = true then some (s.release.setPc p .idle)
        else some ((s.wakeup .wakeReader).setPc p .writeSleep)
      else some (s.store p)
    else some (s.setPc p .writeEnd)
  | .writeSleep => some (s.release.setPc p .writeAsleep)
  | .writeEnd => some ((s.wakeup .wakeReader).release.setPc p .idle)
  | .readLoop =>
    if s.nread = s.nwrite ∧ s.writeopen = true then
      if (s.proc p).killed = true then some (s.release.setPc p .idle)
      else some (s.setPc p .readSleep)
    else some (s.setPc p .readCopy)
  | .readSleep => some (s.release.setPc p .readAsleep)
  | .readCopy =>
    if ((s.proc p).i : ℤ) < (s.proc p).n ∧ s.nread ≠ s.nwrite then some (s.fetch p)
    else some (s.setPc p .readEnd)
  | .readEnd => some ((s.wakeup .wakeWriter).release.setPc p .idle)

def step (s : State) : Event → Option State
  | .write p n addr => if (s.proc p).pc = .idle then some (s.enter p .writeEnter n addr) else none
  | .read p n => if (s.proc p).pc = .idle then some (s.enter p .readEnter n (fun _ => 0)) else none
  | .close p writable => if (s.proc p).pc = .idle then some (s.setPc p (.closeEnter writable)) else none
  | .kill p => some (s.kill p)
  | .next p => s.next p

def Step (s : State) (e : Event) (s' : State) : Prop := s.step e = some s'

section fields

variable (s : State) (p q : ℕ) (pc : Pc) (f : Pc → Pc) (b : Bool) (n : ℤ) (addr : ℕ → UInt8)

attribute [grind =] acquire_proc acquire_nread acquire_nwrite acquire_readopen acquire_writeopen
  release_proc release_nread release_nwrite release_readopen release_writeopen setPc_lock
  setPc_nread setPc_nwrite setPc_readopen setPc_writeopen wakeup_lock wakeup_nread wakeup_nwrite
  wakeup_readopen wakeup_writeopen store_lock store_nread store_readopen store_writeopen fetch_lock
  fetch_nwrite fetch_readopen fetch_writeopen enter_lock enter_nread enter_nwrite enter_readopen
  enter_writeopen kill_lock kill_nread kill_nwrite kill_readopen kill_writeopen

@[simp, grind =] lemma setPc_proc :
    (s.setPc p pc).proc q = if q = p then { s.proc p with pc := pc } else s.proc q := rfl
@[simp, grind =] lemma wakeup_proc : (s.wakeup f).proc q = { s.proc q with pc := f (s.proc q).pc } := rfl
@[simp, grind =] lemma store_proc :
    (s.store p).proc q = if q = p then { s.proc p with i := (s.proc p).i + 1 } else s.proc q := rfl
@[simp, grind =] lemma fetch_proc :
    (s.fetch p).proc q = if q = p then { s.proc p with i := (s.proc p).i + 1 } else s.proc q := rfl
@[simp, grind =] lemma enter_proc : (s.enter p pc n addr).proc q =
    if q = p then ⟨pc, (s.proc p).killed, s.calls, n, addr, 0⟩ else s.proc q := rfl
@[simp, grind =] lemma kill_proc : (s.kill p).proc q =
    if q = p then { s.proc p with killed := true, pc := (s.proc p).pc.wakeReader.wakeWriter }
    else s.proc q := rfl
@[grind =] lemma close_proc : (s.close b).proc q =
    { s.proc q with pc := if b then (s.proc q).pc.wakeReader else (s.proc q).pc.wakeWriter } := by
  cases b <;> rfl

@[simp, grind =] lemma release_lock : s.release.lock = none := rfl
@[simp, grind =] lemma close_lock : (s.close b).lock = s.lock := by cases b <;> rfl

@[simp, grind =] lemma close_nread : (s.close b).nread = s.nread := by cases b <;> rfl
@[simp, grind =] lemma close_nwrite : (s.close b).nwrite = s.nwrite := by cases b <;> rfl

@[grind =] lemma close_writeopen : (s.close b).writeopen = (s.writeopen && !b) := by
  cases b <;> simp [close, wakeup]
@[grind =] lemma close_readopen : (s.close b).readopen = (s.readopen && b) := by
  cases b <;> simp [close, wakeup]

end fields

inductive Move (s : State) (p : ℕ) : State → Prop
  | writeAcquire : (s.proc p).pc = .writeEnter ∨ (s.proc p).pc = .writeWoken → s.lock = none →
      Move s p ((s.acquire p).setPc p .writeLoop)
  | readAcquire : (s.proc p).pc = .readEnter ∨ (s.proc p).pc = .readWoken → s.lock = none →
      Move s p ((s.acquire p).setPc p .readLoop)
  | close {b : Bool} : (s.proc p).pc = .closeEnter b → s.lock = none →
      Move s p ((s.close b).setPc p .idle)
  | giveUp : s.GivesUp p → Move s p (s.release.setPc p .idle)
  | writeFull : (s.proc p).pc = .writeLoop → s.Full → s.readopen = true →
      Move s p ((s.wakeup .wakeReader).setPc p .writeSleep)
  | store : (s.proc p).pc = .writeLoop → ((s.proc p).i : ℤ) < (s.proc p).n → ¬ s.Full →
      Move s p (s.store p)
  | writeDone : (s.proc p).pc = .writeLoop → (s.proc p).n ≤ (s.proc p).i → Move s p (s.setPc p .writeEnd)
  | writeSleep : (s.proc p).pc = .writeSleep → Move s p (s.release.setPc p .writeAsleep)
  | writeEnd : (s.proc p).pc = .writeEnd → Move s p ((s.wakeup .wakeReader).release.setPc p .idle)
  | readKilled : (s.proc p).pc = .readLoop → s.nread = s.nwrite → s.writeopen = true →
      Move s p (s.release.setPc p .idle)
  | readEmpty : (s.proc p).pc = .readLoop → s.nread = s.nwrite → s.writeopen = true →
      Move s p (s.setPc p .readSleep)
  | readGo : (s.proc p).pc = .readLoop → (s.nread = s.nwrite → s.writeopen = false) →
      Move s p (s.setPc p .readCopy)
  | readSleep : (s.proc p).pc = .readSleep → Move s p (s.release.setPc p .readAsleep)
  | fetch : (s.proc p).pc = .readCopy → s.nread ≠ s.nwrite → Move s p (s.fetch p)
  | readStop : (s.proc p).pc = .readCopy → ((s.proc p).i < (s.proc p).n → s.nread = s.nwrite) →
      Move s p (s.setPc p .readEnd)
  | readEnd : (s.proc p).pc = .readEnd → Move s p ((s.wakeup .wakeWriter).release.setPc p .idle)

lemma move_of_next {s s' : State} {p : ℕ} (h : s.next p = some s') : Move s p s' := by
  cases hpc : (s.proc p).pc <;> simp only [next, hpc] at h
  case idle | writeAsleep | readAsleep => cases h
  case writeEnter | writeWoken =>
    split_ifs at h with hl
    cases h
    exact .writeAcquire (by simp [hpc]) hl
  case readEnter | readWoken =>
    split_ifs at h with hl
    cases h
    exact .readAcquire (by simp [hpc]) hl
  case closeEnter b =>
    split_ifs at h with hl
    cases h
    exact .close hpc hl
  case writeLoop =>
    split_ifs at h with hi hfull hg <;> cases h
    · exact .giveUp ⟨hpc, hi, hfull, hg⟩
    · exact .writeFull hpc hfull (by simpa using fun ho => hg (.inl ho))
    · exact .store hpc hi hfull
    · exact .writeDone hpc (not_lt.mp hi)
  case writeSleep => cases h; exact .writeSleep hpc
  case writeEnd => cases h; exact .writeEnd hpc
  case readLoop =>
    split_ifs at h with he hk <;> cases h
    · exact .readKilled hpc he.1 he.2
    · exact .readEmpty hpc he.1 he.2
    · exact .readGo hpc (fun heq => by simpa using fun ho => he ⟨heq, ho⟩)
  case readSleep => cases h; exact .readSleep hpc
  case readCopy =>
    split_ifs at h with hc <;> cases h
    · exact .fetch hpc hc.2
    · exact .readStop hpc (fun hi => by_contra fun hne => hc ⟨hi, hne⟩)
  case readEnd => cases h; exact .readEnd hpc

def returns (s : State) (p : ℕ) : Option ℤ :=
  match (s.proc p).pc with
  | .writeLoop =>
    if ((s.proc p).i : ℤ) < (s.proc p).n ∧ s.Full ∧
      (s.readopen = false ∨ (s.proc p).killed = true) then some (-1)
    else none
  | .writeEnd => some (s.proc p).n
  | .readLoop =>
    if s.nread = s.nwrite ∧ s.writeopen = true ∧ (s.proc p).killed = true then some (-1) else none
  | .readEnd => some (s.proc p).i
  | _ => none

end State

end Xv6.Pipe
