import Xv6.Proc.Table

/-! The process table as a family tree: `allocproc`, `fork`, `exit`, `wait`, `kill`, `sleep`,
`wakeup`, `yield` and `scheduler`, each critical section of `ptable.lock` one step. -/

namespace Xv6.Family

open Lib
open Proc (ProcState)

/-- How far `fork` has got with its new process: about to call `kalloc` in `allocproc`, about to
call `copyuvm`, about to set `np->parent`, about to take the lock for `np->state = RUNNABLE`. -/
inductive Phase
  | stack | copy | adopt | ready
  deriving DecidableEq

/-- Where a process is when `ptable.lock` is free: outside `proc.c`, asleep or woken in `sleep` or
in the `sleep` of `wait`, or in `fork` with the slot of its child. -/
inductive Pc
  | run
  | sleep
  | wait
  | fork (phase : Phase) (np : Index)
  deriving DecidableEq

def Pc.np : Pc → Option Index
  | fork _ np => some np
  | _ => none

structure State extends Table where
  pc : Index → Pc

inductive Event
  | fork (p : Index)
  | stack (p : Index) (ok : Bool)
  | copy (p : Index) (ok : Bool)
  | adopt (p : Index)
  | ready (p : Index)
  | exit (p : Index)
  | wait (p : Index)
  | kill (p : Index) (pid : Int32)
  | sleep (p : Index) (chan : Option Chan)
  | wakeup (chan : Option Chan)
  | yield (p : Index)
  | schedule (p : Index)
  deriving DecidableEq

namespace State

def on (s : State) (t : Table) : State := { s with toTable := t }

def goto (s : State) (p : Index) (pc : Pc) : State := { s with pc := assign s.pc p pc }

def At (s : State) (p : Index) (pc : Pc) : Prop := (s.slot p).state = .running ∧ s.pc p = pc

instance (s : State) (p : Index) (pc : Pc) : Decidable (s.At p pc) := inferInstanceAs (Decidable (_ ∧ _))

def child (s : State) (p : Index) (k : Phase) : Option Index :=
  match s.pc p with
  | .fork k' np => if (s.slot p).state = .running ∧ k' = k then some np else none
  | _ => none

def undo (s : State) (p np : Index) : State := (s.on (s.setState np .unused)).goto p .run

def waitLoop (s : State) (p : Index) : State × Option Int32 :=
  match s.find (fun x => x.parent = some p ∧ x.state = .zombie) with
  | some q => ((s.on (s.reap q)).goto p .run, some (s.slot q).pid)
  | none =>
    if s.find (fun x => x.parent = some p) = none ∨
      (s.slot p).killed = true then (s.goto p .run, some (-1))
    else ((s.on (s.update p (fun x => { x with state := .sleeping, chan := some (.proc p) }))).goto
      p .wait, none)

def kill (s : State) (pid : Int32) : State × Option Int32 :=
  match s.find (fun x => x.pid = pid) with
  | some q => (s.on (s.mark q), some 0)
  | none => (s, some (-1))

def step (s : State) : Event → Option (State × Option Int32)
  | .fork p =>
    if s.At p .run then
      match s.find (fun x => x.state = .unused) with
      | some np => some ((s.on (s.allocproc np)).goto p (.fork .stack np), none)
      | none => some (s, some (-1))
    else none
  | .stack p ok =>
    (s.child p .stack).map fun np =>
      if ok then ((s.goto np .run).goto p (.fork .copy np), none) else (s.undo p np, some (-1))
  | .copy p ok =>
    (s.child p .copy).map fun np =>
      if ok then (s.goto p (.fork .adopt np), none) else (s.undo p np, some (-1))
  | .adopt p =>
    (s.child p .adopt).map fun np =>
      ((s.on (s.update np (fun x => { x with parent := some p }))).goto p (.fork .ready np), none)
  | .ready p =>
    (s.child p .ready).map fun np => ((s.on (s.setState np .runnable)).goto p .run, some (s.slot np).pid)
  | .exit p => if s.At p .run ∧ p ≠ initproc then some (s.on (s.exit p), none) else none
  | .wait p => if s.At p .run then some (s.waitLoop p) else none
  | .kill p pid => if s.At p .run then some (s.kill pid) else none
  | .sleep p chan =>
    if s.At p .run then
      some ((s.on (s.update p (fun x => { x with state := .sleeping, chan := chan }))).goto p
        .sleep, none)
    else none
  | .wakeup chan => some (s.on (s.wakeup1 chan), none)
  | .yield p => if (s.slot p).state = .running then some (s.on (s.setState p .runnable), none) else none
  | .schedule p =>
    if (s.slot p).state = .runnable then
      match s.pc p with
      | .wait =>
        some ((s.on (s.update p (fun x => { x with state := .running, chan := none }))).waitLoop p)
      | .sleep =>
        some ((s.on (s.update p (fun x => { x with state := .running, chan := none }))).goto p .run, none)
      | _ => some (s.on (s.setState p .running), none)
    else none

def Step (s : State) (l : Event × Option Int32) (s' : State) : Prop := s.step l.1 = some (s', l.2)

def play (s : State) (l : Event × Option Int32) : Option State :=
  (s.step l.1).bind fun r => if r.2 = l.2 then some r.1 else none

def init : State := ⟨Table.userinit, fun _ => .run⟩

section fields

variable (s : State) (t : Table) (p q np : Index) (pc : Pc)

@[simp, grind =] lemma on_toTable : (s.on t).toTable = t := rfl
@[simp, grind =] lemma on_pc : (s.on t).pc q = s.pc q := rfl
@[simp, grind =] lemma goto_toTable : (s.goto p pc).toTable = s.toTable := rfl
@[simp, grind =] lemma goto_pc : (s.goto p pc).pc q = if q = p then pc else s.pc q := rfl
@[simp, grind =] lemma undo_toTable : (s.undo p np).toTable = s.setState np .unused := rfl
@[simp, grind =] lemma undo_pc : (s.undo p np).pc q = if q = p then .run else s.pc q := rfl
@[simp, grind =] lemma init_toTable : init.toTable = Table.userinit := rfl

end fields

variable {s s' : State} {p q np : Index}

@[grind =] lemma child_eq_some {k : Phase} : s.child p k = some np ↔ s.At p (.fork k np) := by
  unfold child At
  cases s.pc p <;> grind

lemma step_of_play {l : Event × Option Int32} (h : s.play l = some s') : Step s l s' := by
  obtain ⟨⟨t, r⟩, ht, h⟩ := Option.bind_eq_some_iff.mp h
  obtain ⟨hr, h⟩ := Option.ite_none_right_eq_some.mp h
  cases h
  rw [Step, ht, ← hr]

lemma run_of_play {ls : List (Event × Option Int32)} (h : exec play s ls = some s') : Run Step s ls s' :=
  (run_of_exec h).mono fun _ _ _ => step_of_play

def forkChild (pid : Int32) : List (Event × Option Int32) :=
  [(.fork 0, none), (.stack 0 true, none), (.copy 0 true, none), (.adopt 0, none), (.ready 0, some pid)]

def waitChild : List (Event × Option Int32) :=
  [(.wait 0, none), (.schedule 1, none), (.exit 1, none), (.schedule 0, some 2)]

inductive Wait (s : State) (p : Index) : State → Option Int32 → Prop
  | reap {q : Index} : s.DeadChild p q → Wait s p ((s.on (s.reap q)).goto p .run) (some (s.slot q).pid)
  | leave : (∀ q, ¬ s.DeadChild p q) → Wait s p (s.goto p .run) (some (-1))
  | sleep : (∀ q, ¬ s.DeadChild p q) →
      Wait s p ((s.on (s.update p (fun x =>
      { x with state := .sleeping, chan := some (.proc p) }))).goto p .wait) none

lemma wait_of_waitLoop {r : Option Int32} (h : s.waitLoop p = (s', r)) : Wait s p s' r := by
  unfold waitLoop at h
  split at h
  case h_1 q hq =>
    cases h
    exact .reap (by simpa [Table.DeadChild] using Table.find_some hq)
  case h_2 hnone =>
    have hno : ∀ q, ¬ s.DeadChild p q := fun q => by simpa [Table.DeadChild] using Table.find_none hnone q
    split_ifs at h <;> cases h
    · exact .leave hno
    · exact .sleep hno

inductive Move (s : State) : Event → State → Option Int32 → Prop
  | full {p : Index} : s.At p .run → (∀ q, (s.slot q).state ≠ .unused) → Move s (.fork p) s (some (-1))
  | alloc {p np : Index} : s.At p .run → (s.slot np).state = .unused →
      Move s (.fork p) ((s.on (s.allocproc np)).goto p (.fork .stack np)) none
  | stack {p np : Index} : s.At p (.fork .stack np) →
      Move s (.stack p true) ((s.goto np .run).goto p (.fork .copy np)) none
  | noStack {p np : Index} : s.At p (.fork .stack np) → Move s (.stack p false) (s.undo p np) (some (-1))
  | copy {p np : Index} : s.At p (.fork .copy np) →
      Move s (.copy p true) (s.goto p (.fork .adopt np)) none
  | noMemory {p np : Index} : s.At p (.fork .copy np) → Move s (.copy p false) (s.undo p np) (some (-1))
  | adopt {p np : Index} : s.At p (.fork .adopt np) →
      Move s (.adopt p) ((s.on (s.update np (fun x => { x with parent := some p }))).goto p
      (.fork .ready np)) none
  | ready {p np : Index} : s.At p (.fork .ready np) →
      Move s (.ready p) ((s.on (s.setState np .runnable)).goto p .run) (some (s.slot np).pid)
  | exit {p : Index} : s.At p .run → p ≠ initproc → Move s (.exit p) (s.on (s.exit p)) none
  | wait {p : Index} {s' : State} {r : Option Int32} : s.At p .run → Wait s p s' r → Move s (.wait p) s' r
  | kill {p q : Index} {pid : Int32} : s.At p .run → s.find (fun x => x.pid = pid) = some q →
      Move s (.kill p pid) (s.on (s.mark q)) (some 0)
  | noPid {p : Index} {pid : Int32} : s.At p .run → (∀ q, (s.slot q).pid ≠ pid) →
      Move s (.kill p pid) s (some (-1))
  | sleep {p : Index} {c : Option Chan} : s.At p .run →
      Move s (.sleep p c) ((s.on (s.update p
      (fun x => { x with state := .sleeping, chan := c }))).goto p .sleep) none
  | wakeup {c : Option Chan} : Move s (.wakeup c) (s.on (s.wakeup1 c)) none
  | yield {p : Index} : (s.slot p).state = .running →
      Move s (.yield p) (s.on (s.setState p .runnable)) none
  | resume {p : Index} {s' : State} {r : Option Int32} : (s.slot p).state = .runnable → s.pc p = .wait →
      Wait (s.on (s.update p (fun x => { x with state := .running, chan := none }))) p s' r →
      Move s (.schedule p) s' r
  | awake {p : Index} : (s.slot p).state = .runnable → s.pc p = .sleep →
      Move s (.schedule p) ((s.on (s.update p
      (fun x => { x with state := .running, chan := none }))).goto p .run) none
  | schedule {p : Index} : (s.slot p).state = .runnable → s.pc p ≠ .wait → s.pc p ≠ .sleep →
      Move s (.schedule p) (s.on (s.setState p .running)) none

lemma move_of_step {e : Event} {r : Option Int32} (h : s.step e = some (s', r)) : Move s e s' r := by
  cases e with
  | fork p =>
    obtain ⟨hat, h⟩ := Option.ite_none_right_eq_some.mp h
    split at h <;> cases h
    case h_1 np hnp => exact .alloc hat (by simpa using Table.find_some hnp)
    case h_2 hnone => exact .full hat (fun q => by simpa using Table.find_none hnone q)
  | stack p ok =>
    obtain ⟨np, hnp, h⟩ := Option.map_eq_some_iff.mp h
    cases ok <;> cases h
    · exact .noStack (child_eq_some.mp hnp)
    · exact .stack (child_eq_some.mp hnp)
  | copy p ok =>
    obtain ⟨np, hnp, h⟩ := Option.map_eq_some_iff.mp h
    cases ok <;> cases h
    · exact .noMemory (child_eq_some.mp hnp)
    · exact .copy (child_eq_some.mp hnp)
  | adopt p =>
    obtain ⟨np, hnp, h⟩ := Option.map_eq_some_iff.mp h
    cases h
    exact .adopt (child_eq_some.mp hnp)
  | ready p =>
    obtain ⟨np, hnp, h⟩ := Option.map_eq_some_iff.mp h
    cases h
    exact .ready (child_eq_some.mp hnp)
  | exit p =>
    obtain ⟨hat, h⟩ := Option.ite_none_right_eq_some.mp h
    cases h
    exact .exit hat.1 hat.2
  | wait p =>
    obtain ⟨hat, h⟩ := Option.ite_none_right_eq_some.mp h
    exact .wait hat (wait_of_waitLoop (Option.some.inj h))
  | kill p pid =>
    obtain ⟨hat, h⟩ := Option.ite_none_right_eq_some.mp h
    unfold kill at h
    split at h <;> cases h
    case h_1 q hq => exact .kill hat hq
    case h_2 hnone => exact .noPid hat (fun q => by simpa using Table.find_none hnone q)
  | sleep p c =>
    obtain ⟨hat, h⟩ := Option.ite_none_right_eq_some.mp h
    cases h
    exact .sleep hat
  | wakeup c =>
    cases h
    exact .wakeup
  | yield p =>
    obtain ⟨hrun, h⟩ := Option.ite_none_right_eq_some.mp h
    cases h
    exact .yield hrun
  | schedule p =>
    obtain ⟨hrun, h⟩ := Option.ite_none_right_eq_some.mp h
    split at h
    case h_1 hpc => exact .resume hrun hpc (wait_of_waitLoop (Option.some.inj h))
    case h_2 hpc =>
      cases h
      exact .awake hrun hpc
    case h_3 hwait hsleep =>
      cases h
      exact .schedule hrun hwait hsleep

end State

end Xv6.Family
