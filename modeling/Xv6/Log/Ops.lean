import Xv6.Block
import Xv6.Lib.Assign
import Xv6.Lib.Run

/-! `begin_op`, `log_write` and `end_op` of `log.c`, interleaved by any number of processes. -/

namespace Xv6.Log

open Lib

inductive Panic
  | tooBigATransaction
  | logWriteOutsideOfTrans
  | logCommitting
  deriving DecidableEq

structure LogState where
  start : ℕ
  size : ℕ
  lh : List ℕ
  outstanding : ℤ
  committing : Bool
  deriving DecidableEq

namespace LogState

def beginOp (l : LogState) : Option LogState :=
  if l.committing then none
  else if l.lh.length + (l.outstanding + 1) * MAXOPBLOCKS > LOGSIZE then none
  else some { l with outstanding := l.outstanding + 1 }

def logWriteCheck (l : LogState) : Except Panic Unit :=
  if l.lh.length ≥ LOGSIZE ∨ (l.lh.length : ℤ) ≥ l.size - 1 then .error .tooBigATransaction
  else if l.outstanding < 1 then .error .logWriteOutsideOfTrans
  else .ok ()

def logWriteAppend (l : LogState) (b : ℕ) : LogState :=
  if b ∈ l.lh then l else { l with lh := l.lh ++ [b] }

def logWrite (l : LogState) (b : ℕ) : Except Panic LogState :=
  match l.logWriteCheck with
  | .error e => .error e
  | .ok () => .ok (l.logWriteAppend b)

def endOp (l : LogState) : Except Panic (LogState × Bool) :=
  let l := { l with outstanding := l.outstanding - 1 }
  if l.committing then .error .logCommitting
  else if l.outstanding = 0 then .ok ({ l with committing := true }, true)
  else .ok (l, false)

end LogState

inductive Stage
  | writeLog (tail : ℕ)
  | writeHead
  | installTrans (tail : ℕ)
  | clear
  | finish
  deriving DecidableEq

inductive Proc
  | idle
  | asleep
  | trying
  | running (op : ℕ)
  | appending (op b : ℕ)
  | committing (stage : Stage)
  deriving DecidableEq

namespace Proc

def op? : Proc → Option ℕ
  | running op | appending op _ => some op
  | _ => none

def stage? : Proc → Option Stage
  | committing st => some st
  | _ => none

def wake : Proc → Proc
  | asleep => trying
  | q => q

@[simp] lemma op?_wake (q : Proc) : q.wake.op? = q.op? := by cases q <;> rfl

@[simp] lemma stage?_wake (q : Proc) : q.wake.stage? = q.stage? := by cases q <;> rfl

end Proc

structure Sys where
  log : LogState
  proc : ℕ → Proc
  nextOp : ℕ
  panic : Option Panic

inductive Event
  | beginOp (p : ℕ)
  | logWriteCheck (p b : ℕ)
  | logWriteAppend (p : ℕ)
  | endOp (p : ℕ)
  | commitStep (p : ℕ)
  deriving DecidableEq

namespace Sys

def init (start size : ℕ) : Sys := ⟨⟨start, size, [], 0, false⟩, fun _ => .idle, 0, none⟩

def set (s : Sys) (p : ℕ) (q : Proc) : Sys := { s with proc := assign s.proc p q }

def wakeup (s : Sys) : Sys := { s with proc := fun p => (s.proc p).wake }

def beginOp (s : Sys) (p : ℕ) : Sys :=
  match s.log.beginOp with
  | none => s.set p .asleep
  | some l => { s with log := l, nextOp := s.nextOp + 1 }.set p (.running s.nextOp)

def logWriteCheck (s : Sys) (p op b : ℕ) : Sys :=
  match s.log.logWriteCheck with
  | .error e => { s with panic := some e }
  | .ok () => s.set p (.appending op b)

def logWriteAppend (s : Sys) (p op b : ℕ) : Sys :=
  { s with log := s.log.logWriteAppend b }.set p (.running op)

def firstStage (n : ℕ) : Stage := if n > 0 then .writeLog 0 else .finish

def endOp (s : Sys) (p : ℕ) : Sys :=
  match s.log.endOp with
  | .error e => { s with panic := some e }
  | .ok (l, true) => { s with log := l }.set p (.committing (firstStage l.lh.length))
  | .ok (l, false) => ({ s with log := l }.set p .idle).wakeup

def commitStep (s : Sys) (p : ℕ) : Stage → Sys
  | .writeLog tail =>
    s.set p (.committing (if tail < s.log.lh.length then .writeLog (tail + 1) else .writeHead))
  | .writeHead => s.set p (.committing (.installTrans 0))
  | .installTrans tail =>
    s.set p (.committing (if tail < s.log.lh.length then .installTrans (tail + 1) else .clear))
  | .clear => { s with log := { s.log with lh := [] } }.set p (.committing .finish)
  | .finish => ({ s with log := { s.log with committing := false } }.set p .idle).wakeup

def step (s : Sys) (e : Event) : Option Sys :=
  if s.panic.isSome then none
  else match e with
    | .beginOp p =>
      match s.proc p with
      | .idle | .trying => some (s.beginOp p)
      | _ => none
    | .logWriteCheck p b =>
      match s.proc p with
      | .running op => some (s.logWriteCheck p op b)
      | _ => none
    | .logWriteAppend p =>
      match s.proc p with
      | .appending op b => some (s.logWriteAppend p op b)
      | _ => none
    | .endOp p =>
      match s.proc p with
      | .running _ => some (s.endOp p)
      | _ => none
    | .commitStep p =>
      match s.proc p with
      | .committing st => some (s.commitStep p st)
      | _ => none

def Step (s : Sys) (e : Event) (s' : Sys) : Prop := s.step e = some s'

end Sys

end Xv6.Log
