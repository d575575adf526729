import Xv6.Console.Editor
import Xv6.Lib.Fifo

namespace Xv6.Console

open Lib

structure Input where
  buf : ℕ → UInt8
  r : UInt32
  w : UInt32
  e : UInt32

namespace Input

def init : Input := ⟨fun _ => 0, 0, 0, 0⟩

def killLoop (buf : ℕ → UInt8) (w : UInt32) : ℕ → UInt32 → UInt32
  | 0, e => e
  | fuel + 1, e => if e ≠ w ∧ buf ((e - 1).toNat % INPUT_BUF) ≠ NL then killLoop buf w fuel (e - 1) else e

def backspace (i : Input) : Input := if i.e ≠ i.w then { i with e := i.e - 1 } else i

def store (i : Input) (c : UInt8) : Input × Bool :=
  let e := i.e + 1
  let buf := assign i.buf (i.e.toNat % INPUT_BUF) c
  if c = NL ∨ c = CTRL_D ∨ e = i.r + UInt32.ofNat INPUT_BUF then (⟨buf, i.r, e, e⟩, true)
  else (⟨buf, i.r, i.w, e⟩, false)

def intr (i : Input) (c : UInt8) : Input × Bool :=
  if c = CTRL_P then (i, false)
  else if c = CTRL_U then ({ i with e := killLoop i.buf i.w (i.e - i.w).toNat i.e }, false)
  else if c = CTRL_H ∨ c = DEL then (i.backspace, false)
  else if c ≠ 0 ∧ (i.e - i.r).toNat < INPUT_BUF then i.store (if c = CR then NL else c)
  else (i, false)

end Input

/-- The statement of `consoleread` that a process executes next: `loop` is the test of the outer
loop, `wait` that of the inner one. A process that is `woken` is about to take the lock again. -/
inductive Pc
  | idle | enter | loop | wait | asleep | woken
  deriving DecidableEq

def Pc.wake : Pc → Pc
  | asleep => woken
  | pc => pc

structure Reader where
  pc : Pc
  killed : Bool
  n : Int32
  target : UInt32
  dst : List UInt8
  ret : Int32

inductive Holder
  | interrupt
  | reader (p : ℕ)
  deriving DecidableEq

structure State where
  lock : Option Holder
  input : Input
  reader : ℕ → Reader
  acts : List Act

inductive Event
  | read (p : ℕ) (n : Int32)
  | kill (p : ℕ)
  | next (p : ℕ)
  | interrupt
  | getc (c : UInt8)
  | done

namespace State

def init : State := ⟨none, .init, fun _ => ⟨.idle, false, 0, 0, [], 0⟩, []⟩

def set (s : State) (p : ℕ) (x : Reader) : State := { s with reader := assign s.reader p x }

def goto (s : State) (p : ℕ) (pc : Pc) : State := s.set p { s.reader p with pc := pc }

def hold (s : State) (l : Option Holder) : State := { s with lock := l }

def wakeup (s : State) : State :=
    { s with reader := fun q => { s.reader q with pc := (s.reader q).pc.wake } }

def ret (s : State) (p : ℕ) (v : Int32) : State :=
    (s.hold none).set p { s.reader p with pc := .idle, ret := v }

def finish (s : State) (p : ℕ) : State :=
  s.ret p (UInt32.toInt32 ((s.reader p).target - (s.reader p).n.toUInt32))

def take (s : State) (p : ℕ) (c : UInt8) : State :=
  { s with input := { s.input with r := s.input.r + 1 }, acts := s.acts ++ [.take p c] }

def copy (s : State) (p : ℕ) (c : UInt8) : State :=
  s.set p { s.reader p with dst := (s.reader p).dst ++ [c], n := (s.reader p).n - 1 }

def deliver (s : State) (p : ℕ) (c : UInt8) : State :=
  if c = CTRL_D then
    if (s.reader p).n.toUInt32 < (s.reader p).target then
      { s with input := { s.input with r := s.input.r + 1 - 1 } }.finish p
    else (s.take p c).finish p
  else if c = NL then ((s.take p c).copy p c).finish p
  else ((s.take p c).copy p c).goto p .loop

def next (s : State) (p : ℕ) : Option State :=
  match (s.reader p).pc with
  | .idle | .asleep => none
  | .enter => if s.lock = none then some ((s.hold (some (.reader p))).goto p .loop) else none
  | .woken => if s.lock = none then some ((s.hold (some (.reader p))).goto p .wait) else none
  | .loop => if 0 < (s.reader p).n then some (s.goto p .wait) else some (s.finish p)
  | .wait =>
    if s.input.r = s.input.w then
      if (s.reader p).killed = true then some (s.ret p (-1)) else some ((s.hold none).goto p .asleep)
    else some (s.deliver p (s.input.buf (s.input.r.toNat % INPUT_BUF)))

def getc (s : State) (c : UInt8) : State :=
  let s' := { s with input := (s.input.intr c).1, acts := s.acts ++ [.key c] }
  if (s.input.intr c).2 = true then s'.wakeup else s'

def step (s : State) : Event → Option State
  | .read p n =>
    if (s.reader p).pc = .idle then some
      (s.set p ⟨.enter, (s.reader p).killed, n, n.toUInt32, [], (s.reader p).ret⟩)
    else none
  | .kill p => some (s.set p { s.reader p with killed := true, pc := (s.reader p).pc.wake })
  | .next p => s.next p
  | .interrupt => if s.lock = none then some (s.hold (some .interrupt)) else none
  | .getc c => if s.lock = some .interrupt then some (s.getc c) else none
  | .done => if s.lock = some .interrupt then some (s.hold none) else none

def Step (s : State) (e : Event) (s' : State) : Prop := s.step e = some s'

lemma set_reader (s : State) (p q : ℕ) (x : Reader) :
    (s.set p x).reader q = if q = p then x else s.reader q := rfl

end State

end Xv6.Console
