import Xv6.Proc.Table

/-! `proc.c` on any number of processors: who runs which process on which stack. A statement is a
step, and so is a loop over the table that does not switch context. -/

namespace Xv6.Cpus

open Lib Family
open Proc (ProcState)

/-- The statement that a process executes next; `user` is code outside `proc.c`. The flag of `sleep`
says that it was called by `wait`, with `&ptable.lock`; `unlock` is `release(&ptable.lock)` before a
return. -/
inductive Frame
  | user
  | unlock
  | yieldAcquire | yieldState | yieldSched
  | sleepAcquire (chan : Option Chan)
  | sleepChan (chan : Option Chan) (wait : Bool)
  | sleepState (wait : Bool) | sleepSched (wait : Bool) | sleepTidy (wait : Bool)
  | waitAcquire | waitScan | waitKfree (q : Index) | waitFreevm (q : Index) | waitClear (q : Index)
  | exitAcquire | exitWake | exitScan | exitState | exitSched | exitPanic
  | forkAcquire | forkScan | forkRelease (np : Index) | forkStack (np : Index) | forkCopy (np : Index)
  | forkParent (np : Index) | forkLock (np : Index) | forkReady (np : Index)
  | killAcquire (pid : Int32) | killScan (pid : Int32)
  | wakeupAcquire (chan : Option Chan) | wakeupScan (chan : Option Chan)
  deriving DecidableEq

namespace Frame

def entry : Frame → Bool
  | yieldAcquire | sleepAcquire _ | waitAcquire | exitAcquire | forkAcquire | killAcquire _
  | wakeupAcquire _ => true
  | _ => false

def handler : Frame → Bool
  | yieldAcquire | wakeupAcquire _ => true
  | _ => false

def inside : Frame → Bool
  | user | yieldAcquire | sleepAcquire _ | waitAcquire | exitAcquire | forkAcquire | killAcquire _
  | wakeupAcquire _
  | forkStack _ | forkCopy _ | forkParent _ | forkLock _ => false
  | _ => true

end Frame

/-- What a processor executes: `scheduler` at a statement with its variable `p`, an interrupt
handler that interrupted `scheduler`, or a process on its own stack. -/
inductive Ctl
  | idle
  | scan (j : ℕ)
  | switchuvm (p : Index)
  | swtch (p : Index)
  | proc (p : Index)
  | switchkvm (p : Index)
  | intrAcquire (chan : Option Chan)
  | intrScan (chan : Option Chan)
  | intrRelease
  deriving DecidableEq

/-- `base` is the position of the process in its system call, `intr` the position of an interrupt
handler above it. `cur` is the variable `proc` of each processor, and `lock` the processor that
holds `ptable.lock`. -/
structure State (C : Type) where
  lock : Option C
  cur : C → Option Index
  ctl : C → Ctl
  table : Table
  base : Index → Frame
  intr : Index → Option Frame

/-- `call` enters a function of `proc.c`; `next` executes the next statement, `ok` telling whether
memory is found. -/
inductive Event (C : Type)
  | call (c : C) (f : Frame)
  | next (c : C) (ok : Bool)

namespace State

variable {C : Type} [DecidableEq C]

def top (s : State C) (p : Index) : Frame := (s.intr p).getD (s.base p)

@[simps lock cur table base intr] def setCtl (s : State C) (c : C) (k : Ctl) : State C :=
    { s with ctl := assign s.ctl c k }

@[simps lock ctl table base intr] def setCur (s : State C) (c : C) (p : Option Index) : State C :=
    { s with cur := assign s.cur c p }

@[simps cur ctl table base intr] def setLock (s : State C) (l : Option C) : State C :=
    { s with lock := l }

@[simps lock cur ctl base intr] def on (s : State C) (t : Table) : State C := { s with table := t }

def goto (s : State C) (p : Index) (f : Frame) : State C :=
  match s.intr p with
  | some _ => { s with intr := assign s.intr p (some f) }
  | none => { s with base := assign s.base p f }

def leave (s : State C) (p : Index) : State C :=
  match s.intr p with
  | some _ => { s with intr := assign s.intr p none }
  | none => { s with base := assign s.base p .user }

@[simps lock cur ctl table] def fresh (s : State C) (p : Index) : State C :=
  { s with base := assign s.base p .unlock, intr := assign s.intr p none }

def acquire (s : State C) (c : C) : Option (State C) :=
    if s.lock = none then some (s.setLock (some c)) else none

def release (s : State C) (c : C) : Option (State C) :=
    if s.lock = some c then some (s.setLock none) else none

def sched (s : State C) (c : C) (j p : Index) (f : Frame) : Option (State C) :=
  if s.lock = some c ∧ (s.table.slot p).state ≠ .running then some
    ((s.goto j f).setCtl c (.switchkvm j)) else none

def exec (s : State C) (c : C) (j p : Index) (ok : Bool) : Option (State C) :=
  match s.top j with
  | .user => none
  | .unlock => (s.release c).map (·.leave j)
  | .yieldAcquire => (s.acquire c).map (·.goto j .yieldState)
  | .yieldState => some ((s.on (s.table.setState p .runnable)).goto j .yieldSched)
  | .yieldSched => s.sched c j p .unlock
  | .sleepAcquire chan => (s.acquire c).map (·.goto j (.sleepChan chan false))
  | .sleepChan chan w =>
    some ((s.on (s.table.update p (fun x => { x with chan := chan }))).goto j (.sleepState w))
  | .sleepState w => some ((s.on (s.table.setState p .sleeping)).goto j (.sleepSched w))
  | .sleepSched w => s.sched c j p (.sleepTidy w)
  | .sleepTidy w =>
    some ((s.on (s.table.update p (fun x => { x with chan := none }))).goto j
      (if w then .waitScan else .unlock))
  | .waitAcquire => (s.acquire c).map (·.goto j .waitScan)
  | .waitScan =>
    match s.table.find (fun x => x.parent = some p ∧ x.state = .zombie) with
    | some q => some (s.goto j (.waitKfree q))
    | none =>
      if s.table.find (fun x => x.parent = some p) = none ∨ (s.table.slot p).killed = true then
        some (s.goto j .unlock)
      else some (s.goto j (.sleepChan (some (.proc p)) true))
  | .waitKfree q => some (s.goto j (.waitFreevm q))
  | .waitFreevm q => some (s.goto j (.waitClear q))
  | .waitClear q => some ((s.on (s.table.reap q)).goto j .unlock)
  | .exitAcquire => (s.acquire c).map (·.goto j .exitWake)
  | .exitWake => some ((s.on (s.table.wakeup1 ((s.table.slot p).parent.map .proc))).goto j .exitScan)
  | .exitScan => some ((s.on (s.table.abandonAll p)).goto j .exitState)
  | .exitState => some ((s.on (s.table.setState p .zombie)).goto j .exitSched)
  | .exitSched => s.sched c j p .exitPanic
  | .exitPanic => none
  | .forkAcquire => (s.acquire c).map (·.goto j .forkScan)
  | .forkScan =>
    match s.table.find (fun x => x.state = .unused) with
    | some np => some ((s.on (s.table.allocproc np)).goto j (.forkRelease np))
    | none => some (s.goto j .unlock)
  | .forkRelease np => (s.release c).map (·.goto j (.forkStack np))
  | .forkStack np =>
    if ok then some ((s.fresh np).goto j (.forkCopy np)) else some
      ((s.on (s.table.setState np .unused)).leave j)
  | .forkCopy np =>
    if ok then some (s.goto j (.forkParent np)) else some ((s.on (s.table.setState np .unused)).leave j)
  | .forkParent np =>
    some ((s.on (s.table.update np (fun x => { x with parent := some p }))).goto j (.forkLock np))
  | .forkLock np => (s.acquire c).map (·.goto j (.forkReady np))
  | .forkReady np => some ((s.on (s.table.setState np .runnable)).goto j .unlock)
  | .killAcquire pid => (s.acquire c).map (·.goto j (.killScan pid))
  | .killScan pid =>
    match s.table.find (fun x => x.pid = pid) with
    | some q => some ((s.on (s.table.mark q)).goto j .unlock)
    | none => some (s.goto j .unlock)
  | .wakeupAcquire chan => (s.acquire c).map (·.goto j (.wakeupScan chan))
  | .wakeupScan chan => some ((s.on (s.table.wakeup1 chan)).goto j .unlock)

def next (s : State C) (c : C) (ok : Bool) : Option (State C) :=
  match s.ctl c with
  | .idle => (s.acquire c).map (·.setCtl c (.scan 0))
  | .scan j =>
    if h : j < NPROC then
      if (s.table.slot ⟨j, h⟩).state = .runnable then some
        ((s.setCur c (some ⟨j, h⟩)).setCtl c (.switchuvm ⟨j, h⟩))
      else some (s.setCtl c (.scan (j + 1)))
    else (s.release c).map (·.setCtl c .idle)
  | .switchuvm p => some ((s.on (s.table.setState p .running)).setCtl c (.swtch p))
  | .swtch _ => (s.cur c).map fun p => s.setCtl c (.proc p)
  | .proc j => (s.cur c).bind fun p => s.exec c j p ok
  | .switchkvm p => some ((s.setCur c none).setCtl c (.scan (p + 1)))
  | .intrAcquire chan => (s.acquire c).map (·.setCtl c (.intrScan chan))
  | .intrScan chan => some ((s.on (s.table.wakeup1 chan)).setCtl c .intrRelease)
  | .intrRelease => (s.release c).map (·.setCtl c .idle)

def call (s : State C) (c : C) (f : Frame) : Option (State C) :=
  match s.ctl c, f with
  | .proc j, f =>
    if s.intr j = none ∧ s.base j = .user ∧ f.entry = true ∧
      ¬ (f = .exitAcquire ∧ s.cur c = some initproc) then
      some { s with base := assign s.base j f }
    else if s.intr j = none ∧ (s.base j).inside = false ∧ f.handler = true then
      some { s with intr := assign s.intr j (some f) }
    else none
  | .idle, .wakeupAcquire chan => some (s.setCtl c (.intrAcquire chan))
  | _, _ => none

def step (s : State C) : Event C → Option (State C)
  | .call c f => s.call c f
  | .next c ok => s.next c ok

def Step (s : State C) (e : Event C) (s' : State C) : Prop := s.step e = some s'

def init : State C :=
  ⟨none, fun _ => none, fun _ => .idle, Table.userinit,
    fun p => if p = initproc then .unlock else .user, fun _ => none⟩

section fields

variable (s : State C) (c c' : C) (k : Ctl) (p q : Index) (o : Option Index) (l : Option C)
  (t : Table) (f : Frame)

attribute [grind =] setCtl_lock setCtl_cur setCtl_table setCtl_base setCtl_intr setCur_lock setCur_ctl
  setCur_table setCur_base setCur_intr setLock_cur setLock_ctl setLock_table setLock_base
  setLock_intr on_lock on_cur on_ctl on_base on_intr fresh_lock fresh_cur fresh_ctl fresh_table

@[simp, grind =] lemma setCtl_ctl : (s.setCtl c k).ctl c' = if c' = c then k else s.ctl c' := rfl
@[simp, grind =] lemma setCur_cur : (s.setCur c o).cur c' = if c' = c then o else s.cur c' := rfl

omit [DecidableEq C]

@[simp, grind =] lemma setLock_lock : (s.setLock l).lock = l := rfl
@[simp, grind =] lemma on_table : (s.on t).table = t := rfl
@[simp, grind =] lemma goto_lock : (s.goto p f).lock = s.lock := by unfold goto; split <;> rfl
@[simp, grind =] lemma goto_cur : (s.goto p f).cur c = s.cur c := by unfold goto; split <;> rfl
@[simp, grind =] lemma goto_ctl : (s.goto p f).ctl c = s.ctl c := by unfold goto; split <;> rfl
@[simp, grind =] lemma goto_table : (s.goto p f).table = s.table := by unfold goto; split <;> rfl
@[grind =] lemma goto_base : (s.goto p f).base q = if q = p ∧ s.intr p = none then f else s.base q := by
  unfold goto
  split <;> simp_all [assign]
@[grind =] lemma goto_intr :
    (s.goto p f).intr q = if q = p ∧ s.intr p ≠ none then some f else s.intr q := by
  unfold goto
  split <;> simp_all [assign]
@[simp, grind =] lemma leave_lock : (s.leave p).lock = s.lock := by unfold leave; split <;> rfl
@[simp, grind =] lemma leave_cur : (s.leave p).cur c = s.cur c := by unfold leave; split <;> rfl
@[simp, grind =] lemma leave_ctl : (s.leave p).ctl c = s.ctl c := by unfold leave; split <;> rfl
@[simp, grind =] lemma leave_table : (s.leave p).table = s.table := by unfold leave; split <;> rfl
@[grind =] lemma leave_base :
    (s.leave p).base q = if q = p ∧ s.intr p = none then .user else s.base q := by
  unfold leave
  split <;> simp_all [assign]
@[grind =] lemma leave_intr : (s.leave p).intr q = if q = p then none else s.intr q := by
  unfold leave
  split <;> grind [assign]
@[simp, grind =] lemma fresh_base : (s.fresh p).base q = if q = p then .unlock else s.base q := rfl
@[simp, grind =] lemma fresh_intr : (s.fresh p).intr q = if q = p then none else s.intr q := rfl

end fields

section top

variable {s : State C} {c : C} {k : Ctl} {o : Option Index} {l : Option C} {t : Table} {f : Frame}
  {p q : Index}

@[simp, grind =] lemma setCtl_top : (s.setCtl c k).top q = s.top q := rfl
@[simp, grind =] lemma setCur_top : (s.setCur c o).top q = s.top q := rfl

omit [DecidableEq C]

lemma top_eq (s : State C) (p : Index) : s.top p = (s.intr p).getD (s.base p) := rfl
@[simp, grind =] lemma setLock_top : (s.setLock l).top q = s.top q := rfl
@[simp, grind =] lemma on_top : (s.on t).top q = s.top q := rfl
@[grind =] lemma goto_top : (s.goto p f).top q = if q = p then f else s.top q := by
  rw [top_eq, top_eq, goto_base, goto_intr]
  cases hi : s.intr p <;> by_cases hq : q = p <;> simp_all
@[grind =] lemma leave_top : (s.leave p).top q =
    if q = p then (if s.intr p = none then .user else s.base p) else s.top q := by
  rw [top_eq, top_eq, leave_base, leave_intr]
  cases hi : s.intr p <;> by_cases hq : q = p <;> simp_all
@[grind =] lemma fresh_top : (s.fresh p).top q = if q = p then .unlock else s.top q := by
  rw [top_eq, top_eq, fresh_base, fresh_intr]
  by_cases hq : q = p <;> simp_all

end top

end State

end Xv6.Cpus
