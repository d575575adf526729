import Xv6.Lib.Assign
import Xv6.Lib.Run

/-! The process table of `proc.c`: `scheduler`, `sched`, `yield`, `sleep`, `wakeup` and `kill`, one
statement a step, on any number of processors. -/

namespace Xv6.Proc

open Lib

inductive Lock
  | ptable
  | other (l : ℕ)
  deriving DecidableEq

inductive ProcState
  | unused | embryo | sleeping | runnable | running | zombie
  deriving DecidableEq

inductive Phase
  | acquire | release | chan | state | sched | awake | drop | reacquire | ret
  deriving DecidableEq

def Phase.rank : Phase → ℕ
  | acquire => 0 | release => 1 | chan => 2 | state => 3 | sched => 4
  | awake => 5 | drop => 6 | reacquire => 7 | ret => 8

inductive Pc
  | run
  | sleep (phase : Phase) (chan : ℕ) (lk : Lock)
  | wakeupAcquire (chan : ℕ)
  | wakeupScan (chan j : ℕ) (unlock : Bool)
  | wakeupRelease
  | killAcquire (q : ℕ)
  | killMark (q : ℕ)
  | killRelease
  | yieldAcquire
  | yieldState
  | yieldSched
  | yieldRelease
  deriving DecidableEq

inductive Agent
  | proc (p : ℕ)
  | sched (c : ℕ)
  deriving DecidableEq

inductive Ctl
  | idle
  | scan (j : ℕ)
  | proc (p : ℕ)
  deriving DecidableEq

inductive Call
  | internal
  | acquire (l : Lock)
  | release (l : Lock)
  | sleep (chan : ℕ) (lk : Lock)
  | wakeup (chan : ℕ)
  | wakeup1 (chan : ℕ)
  | kill (q : ℕ)
  deriving DecidableEq

/-- The code that calls `proc.c`: from a local state and the shared data, the calls it may make
next. -/
def Client (L D : Type) : Type := L → D → Call → L → D → Prop

structure Entry (L : Type) where
  state : ProcState
  chan : Option ℕ
  pc : Pc
  loc : L

structure Machine (L D : Type) where
  lock : Lock → Option Agent
  proc : ℕ → Entry L
  cpu : ℕ → Ctl
  ncli : ℕ → ℕ
  data : D

/-- What a step shows of itself: the call of `sleep` and its return, a lock taken by a process, and
the end of a scan of `wakeup1`. -/
inductive Label
  | tau
  | call (p chan : ℕ) (lk : Lock)
  | acquired (p : ℕ) (l : Lock)
  | woke (p chan : ℕ)
  | returned (p : ℕ)
  deriving DecidableEq

namespace Machine

variable {L D : Type}

@[simps lock cpu data] def setProc (s : Machine L D) (p : ℕ) (e : Entry L) : Machine L D :=
    { s with proc := assign s.proc p e }

def setPc (s : Machine L D) (p : ℕ) (pc : Pc) : Machine L D := s.setProc p { s.proc p with pc := pc }

@[simps proc cpu data] def take (s : Machine L D) (c : ℕ) (l : Lock) (a : Agent) : Machine L D :=
  { s with lock := assign s.lock l (some a), ncli := assign s.ncli c (s.ncli c + 1) }

@[simps proc cpu data] def drop (s : Machine L D) (c : ℕ) (l : Lock) : Machine L D :=
  { s with lock := assign s.lock l none, ncli := assign s.ncli c (s.ncli c - 1) }

@[simps proc data] def swtch (s : Machine L D) (c : ℕ) (ctl : Ctl) (a : Agent) : Machine L D :=
  { s with cpu := assign s.cpu c ctl, lock := assign s.lock .ptable (some a) }

@[simps lock proc data] def setCpu (s : Machine L D) (c : ℕ) (ctl : Ctl) : Machine L D :=
    { s with cpu := assign s.cpu c ctl }

@[simps proc lock cpu] def setData (s : Machine L D) (d : D) : Machine L D := { s with data := d }

section fields

variable (s : Machine L D) (c p q : ℕ) (e : Entry L) (pc : Pc) (l m : Lock) (a : Agent) (ctl : Ctl)
  (d : D)

attribute [grind =] setProc_lock setProc_cpu setProc_data take_proc take_cpu
  take_data drop_proc drop_cpu drop_data swtch_proc swtch_data setCpu_lock setCpu_proc setCpu_data
  setData_proc setData_lock setData_cpu

@[simp, grind =] lemma setProc_proc : (s.setProc p e).proc q = if q = p then e else s.proc q := rfl
@[simp, grind =] lemma setPc_lock : (s.setPc p pc).lock l = s.lock l := rfl
@[simp, grind =] lemma setPc_cpu : (s.setPc p pc).cpu c = s.cpu c := rfl
@[simp, grind =] lemma setPc_data : (s.setPc p pc).data = s.data := rfl
@[simp, grind =] lemma setPc_proc :
    (s.setPc p pc).proc q = if q = p then { s.proc p with pc := pc } else s.proc q := rfl
@[simp, grind =] lemma take_lock : (s.take c l a).lock m = if m = l then some a else s.lock m := rfl
@[simp, grind =] lemma drop_lock : (s.drop c l).lock m = if m = l then none else s.lock m := rfl
@[simp, grind =] lemma swtch_lock :
    (s.swtch c ctl a).lock m = if m = .ptable then some a else s.lock m := rfl
@[simp, grind =] lemma swtch_cpu : (s.swtch c ctl a).cpu q = if q = c then ctl else s.cpu q := rfl
@[simp, grind =] lemma setCpu_cpu : (s.setCpu c ctl).cpu q = if q = c then ctl else s.cpu q := rfl
@[simp, grind =] lemma setData_data : (s.setData d).data = d := rfl

end fields

structure Init (s : Machine L D) : Prop where
  lock : ∀ l, s.lock l = none
  proc : ∀ p, (s.proc p).pc = .yieldRelease ∧ (s.proc p).chan = none ∧
    ((s.proc p).state = .unused ∨ (s.proc p).state = .runnable)
  cpu : ∀ c, s.cpu c = .idle
  ncli : ∀ c, s.ncli c = 0

inductive Step (n : ℕ) (K : Client L D) (s : Machine L D) : Agent → Label → Machine L D → Prop
  | schedAcquire {c : ℕ} : s.cpu c = .idle → s.lock .ptable = none →
      Step n K s (.sched c) .tau ((s.take c .ptable (.sched c)).setCpu c (.scan 0))
  | schedSkip {c j : ℕ} : s.cpu c = .scan j → j < n → (s.proc j).state ≠ .runnable →
      Step n K s (.sched c) .tau (s.setCpu c (.scan (j + 1)))
  | schedRun {c j : ℕ} : s.cpu c = .scan j → j < n → (s.proc j).state = .runnable →
      Step n K s (.sched c) (.acquired j .ptable)
        ((s.setProc j { s.proc j with state := .running }).swtch c (.proc j) (.proc j))
  | schedRelease {c j : ℕ} : s.cpu c = .scan j → n ≤ j →
      Step n K s (.sched c) .tau ((s.drop c .ptable).setCpu c .idle)
  | internal {c p : ℕ} {loc : L} {d : D} : s.cpu c = .proc p → (s.proc p).pc = .run →
      K (s.proc p).loc s.data .internal loc d →
      Step n K s (.proc p) .tau ((s.setProc p { s.proc p with loc := loc }).setData d)
  | acquire {c p : ℕ} {l : Lock} {loc : L} {d : D} : s.cpu c = .proc p → (s.proc p).pc = .run →
      K (s.proc p).loc s.data (.acquire l) loc d → s.lock l = none →
      Step n K s (.proc p) (.acquired p l)
      (((s.setProc p { s.proc p with loc := loc }).setData d).take c l (.proc p))
  | release {c p : ℕ} {l : Lock} {loc : L} {d : D} : s.cpu c = .proc p → (s.proc p).pc = .run →
      K (s.proc p).loc s.data (.release l) loc d → s.lock l = some (.proc p) →
      Step n K s (.proc p) .tau (((s.setProc p { s.proc p with loc := loc }).setData d).drop c l)
  | sleepCall {c p chan : ℕ} {lk : Lock} {loc : L} {d : D} : s.cpu c = .proc p → (s.proc p).pc = .run →
      K (s.proc p).loc s.data (.sleep chan lk) loc d → s.lock lk = some (.proc p) →
      Step n K s (.proc p) (.call p chan lk)
        ((s.setProc p { s.proc p with
          loc := loc, pc := .sleep (if lk = .ptable then .chan else .acquire) chan lk }).setData d)
  | sleepAcquire {c p chan : ℕ} {lk : Lock} : s.cpu c = .proc p →
      (s.proc p).pc = .sleep .acquire chan lk → s.lock .ptable = none →
      Step n K s (.proc p) (.acquired p .ptable)
        ((s.setPc p (.sleep .release chan lk)).take c .ptable (.proc p))
  | sleepRelease {c p chan : ℕ} {lk : Lock} : s.cpu c = .proc p →
      (s.proc p).pc = .sleep .release chan lk → s.lock lk = some (.proc p) →
      Step n K s (.proc p) .tau ((s.setPc p (.sleep .chan chan lk)).drop c lk)
  | sleepChan {c p chan : ℕ} {lk : Lock} : s.cpu c = .proc p → (s.proc p).pc = .sleep .chan chan lk →
      Step n K s (.proc p) .tau (s.setProc p
      { s.proc p with chan := some chan, pc := .sleep .state chan lk })
  | sleepState {c p chan : ℕ} {lk : Lock} : s.cpu c = .proc p → (s.proc p).pc = .sleep .state chan lk →
      Step n K s (.proc p) .tau (s.setProc p
      { s.proc p with state := .sleeping, pc := .sleep .sched chan lk })
  | sleepSched {c p chan : ℕ} {lk : Lock} : s.cpu c = .proc p → (s.proc p).pc = .sleep .sched chan lk →
      s.lock .ptable = some (.proc p) → s.ncli c = 1 → (s.proc p).state ≠ .running →
      Step n K s (.proc p) .tau ((s.setPc p (.sleep .awake chan lk)).swtch c (.scan (p + 1)) (.sched c))
  | sleepAwake {c p chan : ℕ} {lk : Lock} : s.cpu c = .proc p → (s.proc p).pc = .sleep .awake chan lk →
      Step n K s (.proc p) .tau (s.setProc p { s.proc p with
        chan := none, pc := .sleep (if lk = .ptable then .ret else .drop) chan lk })
  | sleepDrop {c p chan : ℕ} {lk : Lock} : s.cpu c = .proc p → (s.proc p).pc = .sleep .drop chan lk →
      s.lock .ptable = some (.proc p) →
      Step n K s (.proc p) .tau ((s.setPc p (.sleep .reacquire chan lk)).drop c .ptable)
  | sleepReacquire {c p chan : ℕ} {lk : Lock} : s.cpu c = .proc p →
      (s.proc p).pc = .sleep .reacquire chan lk → s.lock lk = none →
      Step n K s (.proc p) (.acquired p lk) ((s.setPc p (.sleep .ret chan lk)).take c lk (.proc p))
  | sleepRet {c p chan : ℕ} {lk : Lock} : s.cpu c = .proc p → (s.proc p).pc = .sleep .ret chan lk →
      Step n K s (.proc p) (.returned p) (s.setPc p .run)
  | wakeupCall {c p chan : ℕ} {loc : L} {d : D} : s.cpu c = .proc p → (s.proc p).pc = .run →
      K (s.proc p).loc s.data (.wakeup chan) loc d →
      Step n K s (.proc p) .tau ((s.setProc p
      { s.proc p with loc := loc, pc := .wakeupAcquire chan }).setData d)
  | wakeup1Call {c p chan : ℕ} {loc : L} {d : D} : s.cpu c = .proc p → (s.proc p).pc = .run →
      K (s.proc p).loc s.data (.wakeup1 chan) loc d → s.lock .ptable = some (.proc p) →
      Step n K s (.proc p) .tau ((s.setProc p
      { s.proc p with loc := loc, pc := .wakeupScan chan 0 false }).setData d)
  | wakeupAcquire {c p chan : ℕ} : s.cpu c = .proc p → (s.proc p).pc = .wakeupAcquire chan →
      s.lock .ptable = none →
      Step n K s (.proc p) (.acquired p .ptable)
      ((s.setPc p (.wakeupScan chan 0 true)).take c .ptable (.proc p))
  | scanWake {c p chan j : ℕ} {u : Bool} : s.cpu c = .proc p →
      (s.proc p).pc = .wakeupScan chan j u → j < n → (s.proc j).state = .sleeping →
      (s.proc j).chan = some chan →
      Step n K s (.proc p) .tau
        ((s.setProc j { s.proc j with state := .runnable }).setPc p (.wakeupScan chan (j + 1) u))
  | scanSkip {c p chan j : ℕ} {u : Bool} : s.cpu c = .proc p →
      (s.proc p).pc = .wakeupScan chan j u → j < n →
      ¬ ((s.proc j).state = .sleeping ∧ (s.proc j).chan = some chan) →
      Step n K s (.proc p) .tau (s.setPc p (.wakeupScan chan (j + 1) u))
  | scanDone {c p chan j : ℕ} {u : Bool} : s.cpu c = .proc p →
      (s.proc p).pc = .wakeupScan chan j u → n ≤ j →
      Step n K s (.proc p) (.woke p chan) (s.setPc p (if u then .wakeupRelease else .run))
  | wakeupRelease {c p : ℕ} : s.cpu c = .proc p → (s.proc p).pc = .wakeupRelease →
      s.lock .ptable = some (.proc p) → Step n K s (.proc p) .tau ((s.setPc p .run).drop c .ptable)
  | killCall {c p q : ℕ} {loc : L} {d : D} : s.cpu c = .proc p → (s.proc p).pc = .run →
      K (s.proc p).loc s.data (.kill q) loc d →
      Step n K s (.proc p) .tau ((s.setProc p
      { s.proc p with loc := loc, pc := .killAcquire q }).setData d)
  | killAcquire {c p q : ℕ} : s.cpu c = .proc p → (s.proc p).pc = .killAcquire q → s.lock .ptable = none →
      Step n K s (.proc p) (.acquired p .ptable) ((s.setPc p (.killMark q)).take c .ptable (.proc p))
  | killWake {c p q : ℕ} : s.cpu c = .proc p → (s.proc p).pc = .killMark q →
      (s.proc q).state = .sleeping →
      Step n K s (.proc p) .tau
        ((s.setProc q { s.proc q with state := .runnable }).setPc p .killRelease)
  | killSkip {c p q : ℕ} : s.cpu c = .proc p → (s.proc p).pc = .killMark q →
      (s.proc q).state ≠ .sleeping → Step n K s (.proc p) .tau (s.setPc p .killRelease)
  | killRelease {c p : ℕ} : s.cpu c = .proc p → (s.proc p).pc = .killRelease →
      s.lock .ptable = some (.proc p) → Step n K s (.proc p) .tau ((s.setPc p .run).drop c .ptable)
  | yieldCall {c p : ℕ} : s.cpu c = .proc p → (s.proc p).pc = .run → s.ncli c = 0 →
      Step n K s (.proc p) .tau (s.setPc p .yieldAcquire)
  | yieldAcquire {c p : ℕ} : s.cpu c = .proc p → (s.proc p).pc = .yieldAcquire → s.lock .ptable = none →
      Step n K s (.proc p) (.acquired p .ptable) ((s.setPc p .yieldState).take c .ptable (.proc p))
  | yieldState {c p : ℕ} : s.cpu c = .proc p → (s.proc p).pc = .yieldState →
      Step n K s (.proc p) .tau (s.setProc p { s.proc p with state := .runnable, pc := .yieldSched })
  | yieldSched {c p : ℕ} : s.cpu c = .proc p → (s.proc p).pc = .yieldSched →
      s.lock .ptable = some (.proc p) → s.ncli c = 1 → (s.proc p).state ≠ .running →
      Step n K s (.proc p) .tau ((s.setPc p .yieldRelease).swtch c (.scan (p + 1)) (.sched c))
  | yieldRelease {c p : ℕ} : s.cpu c = .proc p → (s.proc p).pc = .yieldRelease →
      s.lock .ptable = some (.proc p) → Step n K s (.proc p) .tau ((s.setPc p .run).drop c .ptable)

end Machine

end Xv6.Proc
