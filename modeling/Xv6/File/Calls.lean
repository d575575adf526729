import Xv6.Param
import Xv6.Proc.Table

/-! `struct file`, the descriptor tables and the pipes under `sys_open`, `sys_dup`, `sys_close`,
`sys_pipe`, `fork` and `exit`, by any processes. A critical section of `ftable.lock`, of a pipe or
of the page allocator is one step, together with the private statements next to it. -/

namespace Xv6.Files

open Lib
open Family (NPROC)

abbrev Proc := Fin NPROC
abbrev Fd := Fin NOFILE
abbrev Ix := Fin NFILE

inductive Kind
  | none | pipe | inode
  deriving DecidableEq

structure File where
  type : Kind
  ref : ℕ
  readable : Bool
  writable : Bool
  pipe : ℕ
  deriving DecidableEq

inductive Cont
  | ret (r : ℤ)
  | close (f : Ix)
  | exit (fd : Fd)
  deriving DecidableEq

inductive Pc
  | unused | embryo | zombie
  | user (r : ℤ)
  | openAlloc (omode : UInt32)
  | openFd (f : Ix) (omode : UInt32)
  | openSet (fd : Fd) (f : Ix) (omode : UInt32)
  | pipe0
  | pipe1 (f0 : Ix)
  | pipeKalloc (f0 f1 : Ix)
  | pipeFd (f0 f1 : Ix)
  | fork (np : Proc) (i : ℕ)
  | exit (fd : ℕ)
  | close (f : Ix) (k : Cont)
  | closePipe (pg : ℕ) (writable : Bool) (k : Cont)
  | freePipe (pg : ℕ) (k : Cont)
  deriving DecidableEq

/-- A pipe is named by its page, of which `ends pg false` and `ends pg true` are `readopen` and
`writeopen`. `free` is the list of free pages and `taken` marks those of the rest of the kernel;
`allocs` and `frees` count how often a page became a pipe and was given back. -/
structure State where
  file : Ix → File
  ofile : Proc → Fd → Option Ix
  pc : Proc → Pc
  ends : ℕ → Bool → Bool
  free : List ℕ
  taken : ℕ → Bool
  allocs : ℕ → ℕ
  frees : ℕ → ℕ

/-- `found` tells whether `sys_open` has an inode, `ok` whether `sys_pipe` has a valid pointer, and
`np` is the slot that `fork` got, if it got one and the memory it needs. -/
inductive Call
  | open (found : Bool) (omode : UInt32)
  | dup (fd : ℤ)
  | close (fd : ℤ)
  | pipe (ok : Bool)
  | fork (np : Option Proc)
  | exit
  deriving DecidableEq

inductive Event
  | call (p : Proc) (c : Call)
  | next (p : Proc)
  | reap (p : Proc)
  | grab
  | give (pg : ℕ)
  deriving DecidableEq

namespace State

@[simps pc ends free taken allocs frees] def setFile (s : State) (f : Ix) (x : File) : State :=
    { s with file := assign s.file f x }

@[simps file pc ends free taken allocs frees] def setFd (s : State) (p : Proc) (fd : Fd)
    (o : Option Ix) : State :=
  { s with ofile := assign s.ofile p (assign (s.ofile p) fd o) }

@[simps file ends free taken allocs frees] def setPc (s : State) (p : Proc) (pc : Pc) : State :=
    { s with pc := assign s.pc p pc }

def argfd (s : State) (p : Proc) (fd : ℤ) : Option (Fd × Ix) :=
  if h : 0 ≤ fd ∧ fd < NOFILE then (s.ofile p ⟨fd.toNat, by omega⟩).map (⟨fd.toNat, by omega⟩, ·)
    else none

def fdalloc (s : State) (p : Proc) : Option Fd :=
    (List.finRange NOFILE).find? (fun fd => s.ofile p fd = none)

def filealloc (s : State) : Option Ix := (List.finRange NFILE).find? (fun f => (s.file f).ref = 0)

def hold (s : State) (f : Ix) : State := s.setFile f { s.file f with ref := 1 }

def share (s : State) (f : Ix) : State := s.setFile f { s.file f with ref := (s.file f).ref + 1 }

def filedup (s : State) (f : Ix) : Option State := if (s.file f).ref < 1 then none else some (s.share f)

def resume (s : State) (p : Proc) : Cont → State
  | .ret r => s.setPc p (.user r)
  | .close f => s.setPc p (.close f (.ret (-1)))
  | .exit fd => (s.setFd p fd none).setPc p (.exit (fd + 1))

def drop (s : State) (f : Ix) : State := s.setFile f { s.file f with ref := (s.file f).ref - 1 }

def clear (s : State) (f : Ix) : State := s.setFile f { s.file f with ref := 0, type := .none }

def fileclose (s : State) (p : Proc) (f : Ix) (k : Cont) : Option State :=
  if (s.file f).ref < 1 then none
  else if 0 < (s.file f).ref - 1 then some ((s.drop f).resume p k)
  else if (s.file f).type = .pipe then
    some ((s.clear f).setPc p (.closePipe (s.file f).pipe (s.file f).writable k))
  else some ((s.clear f).resume p k)

@[simps file pc free taken allocs frees] def shut (s : State) (pg : ℕ) (writable : Bool) : State :=
  { s with ends := assign s.ends pg (assign (s.ends pg) writable false) }

def pipeclose (s : State) (p : Proc) (pg : ℕ) (writable : Bool) (k : Cont) : State :=
  let s := s.shut pg writable
  if s.ends pg false = false ∧ s.ends pg true = false then s.setPc p (.freePipe pg k) else s.resume p k

@[simps file pc ends taken allocs] def kfree (s : State) (pg : ℕ) : State :=
  { s with free := pg :: s.free, frees := assign s.frees pg (s.frees pg + 1) }

def pipeInit (s : State) (f0 f1 : Ix) (pg : ℕ) (rest : List ℕ) : State :=
  let s := s.setFile f0 { s.file f0 with type := .pipe, readable := true, writable := false, pipe := pg }
  let s := s.setFile f1 { s.file f1 with type := .pipe, readable := false, writable := true, pipe := pg }
  { s with
    free := rest, allocs := assign s.allocs pg (s.allocs pg + 1), ends := assign s.ends pg fun _ => true }

abbrev O_WRONLY : UInt32 := 0x001
abbrev O_RDWR : UInt32 := 0x002

def openFile (x : File) (omode : UInt32) : File :=
  { x with type := .inode, readable := omode &&& O_WRONLY = 0,
           writable := omode &&& O_WRONLY ≠ 0 ∨ omode &&& O_RDWR ≠ 0 }

def call (s : State) (p : Proc) : Call → Option State
  | .open false _ => some (s.setPc p (.user (-1)))
  | .open true omode => some (s.setPc p (.openAlloc omode))
  | .dup n =>
    match s.argfd p n with
    | none => some (s.setPc p (.user (-1)))
    | some (_, f) =>
      match s.fdalloc p with
      | none => some (s.setPc p (.user (-1)))
      | some fd => ((s.setFd p fd (some f)).filedup f).map (·.setPc p (.user fd))
  | .close n =>
    match s.argfd p n with
    | none => some (s.setPc p (.user (-1)))
    | some (fd, f) => some ((s.setFd p fd none).setPc p (.close f (.ret 0)))
  | .pipe false => some (s.setPc p (.user (-1)))
  | .pipe true => some (s.setPc p .pipe0)
  | .fork none => some (s.setPc p (.user (-1)))
  | .fork (some np) =>
    if s.pc np = .unused then some ((s.setPc np .embryo).setPc p (.fork np 0)) else none
  | .exit => some (s.setPc p (.exit 0))

def pipeFds (s : State) (p : Proc) (f0 f1 : Ix) : State :=
  match s.fdalloc p with
  | none => s.setPc p (.close f0 (.close f1))
  | some fd0 =>
    match (s.setFd p fd0 (some f0)).fdalloc p with
    | none => ((s.setFd p fd0 (some f0)).setFd p fd0 none).setPc p (.close f0 (.close f1))
    | some fd1 => ((s.setFd p fd0 (some f0)).setFd p fd1 (some f1)).setPc p (.user 0)

def next (s : State) (p : Proc) : Option State :=
  match s.pc p with
  | .unused | .embryo | .zombie | .user _ => none
  | .openAlloc omode =>
    match s.filealloc with
    | some f => some ((s.hold f).setPc p (.openFd f omode))
    | none => some (s.setPc p (.user (-1)))
  | .openFd f omode =>
    match s.fdalloc p with
    | some fd => some ((s.setFd p fd (some f)).setPc p (.openSet fd f omode))
    | none => some (s.setPc p (.close f (.ret (-1))))
  | .openSet fd f omode => some ((s.setFile f (openFile (s.file f) omode)).setPc p (.user fd))
  | .pipe0 =>
    match s.filealloc with
    | some f0 => some ((s.hold f0).setPc p (.pipe1 f0))
    | none => some (s.setPc p (.user (-1)))
  | .pipe1 f0 =>
    match s.filealloc with
    | some f1 => some ((s.hold f1).setPc p (.pipeKalloc f0 f1))
    | none => some (s.setPc p (.close f0 (.ret (-1))))
  | .pipeKalloc f0 f1 =>
    match s.free with
    | pg :: rest => some ((s.pipeInit f0 f1 pg rest).setPc p (.pipeFd f0 f1))
    | [] => some (s.setPc p (.close f0 (.close f1)))
  | .pipeFd f0 f1 => some (s.pipeFds p f0 f1)
  | .fork np i =>
    if h : i < NOFILE then
      match s.ofile p ⟨i, h⟩ with
      | some f => (s.filedup f).map fun s => (s.setFd np ⟨i, h⟩ (some f)).setPc p (.fork np (i + 1))
      | none => some (s.setPc p (.fork np (i + 1)))
    else some ((s.setPc np (.user 0)).setPc p (.user np))
  | .exit fd =>
    if h : fd < NOFILE then
      match s.ofile p ⟨fd, h⟩ with
      | some f => some (s.setPc p (.close f (.exit ⟨fd, h⟩)))
      | none => some (s.setPc p (.exit (fd + 1)))
    else some (s.setPc p .zombie)
  | .close f k => s.fileclose p f k
  | .closePipe pg writable k => some (s.pipeclose p pg writable k)
  | .freePipe pg k => some ((s.kfree pg).resume p k)

@[simps file pc ends allocs frees] def take (s : State) (pg : ℕ) (rest : List ℕ) : State :=
    { s with free := rest, taken := assign s.taken pg true }

@[simps file pc ends allocs frees] def give (s : State) (pg : ℕ) : State :=
    { s with free := pg :: s.free, taken := assign s.taken pg false }

def step (s : State) : Event → Option State
  | .call p c =>
    match s.pc p with
    | .user _ => s.call p c
    | _ => none
  | .next p => s.next p
  | .reap p => if s.pc p = .zombie then some (s.setPc p .unused) else none
  | .grab =>
    match s.free with
    | pg :: rest => some (s.take pg rest)
    | [] => none
  | .give pg => if s.taken pg = true then some (s.give pg) else none

def Step (s : State) (e : Event) (s' : State) : Prop := s.step e = some s'

def init (free : List ℕ) : State where
  file _ := ⟨.none, 0, false, false, 0⟩
  ofile _ _ := none
  pc p := if p = Family.initproc then .user 0 else .unused
  ends _ _ := false
  free := free
  taken _ := false
  allocs _ := 0
  frees _ := 0

attribute [grind =] setFile_pc setFile_ends setFile_free setFile_taken setFile_allocs setFile_frees
  setFd_file setFd_pc setFd_ends setFd_free setFd_taken setFd_allocs setFd_frees setPc_file
  setPc_ends setPc_free setPc_taken setPc_allocs setPc_frees shut_file shut_pc shut_free shut_taken
  shut_allocs shut_frees kfree_file kfree_pc kfree_ends kfree_taken kfree_allocs take_file take_pc
  take_ends take_allocs take_frees give_file give_pc give_ends give_allocs give_frees

section fields

variable (s : State) (p q : Proc) (f g f0 f1 : Ix) (fd : Fd) (o : Option Ix) (pc : Pc) (x : File)
  (k : Cont) (pg pg' : ℕ) (w w' : Bool) (rest : List ℕ)

@[simp, grind =] lemma setFile_file : (s.setFile f x).file g = if g = f then x else s.file g := rfl
@[simp, grind =] lemma setFile_ofile : (s.setFile f x).ofile q = s.ofile q := rfl
@[simp, grind =] lemma setFd_ofile :
    (s.setFd p fd o).ofile q = if q = p then assign (s.ofile p) fd o else s.ofile q := rfl
@[simp, grind =] lemma setPc_ofile : (s.setPc p pc).ofile q = s.ofile q := rfl
@[simp, grind =] lemma setPc_pc : (s.setPc p pc).pc q = if q = p then pc else s.pc q := rfl

@[grind =] lemma pipeInit_file : (s.pipeInit f0 f1 pg rest).file g =
    if g = f1 then { s.file f1 with type := .pipe, readable := false, writable := true, pipe := pg }
    else if g = f0 then { s.file f0 with type := .pipe, readable := true, writable := false, pipe := pg }
    else s.file g := by
  simp only [pipeInit, setFile_file]
  split_ifs <;> simp_all
@[simp, grind =] lemma pipeInit_ofile : (s.pipeInit f0 f1 pg rest).ofile q = s.ofile q := rfl
@[simp, grind =] lemma pipeInit_pc : (s.pipeInit f0 f1 pg rest).pc q = s.pc q := rfl
@[grind =] lemma pipeInit_ends : (s.pipeInit f0 f1 pg rest).ends pg' w' =
    if pg' = pg then true else s.ends pg' w' := by
  simp only [pipeInit, assign]
  split_ifs <;> rfl
@[simp, grind =] lemma pipeInit_free : (s.pipeInit f0 f1 pg rest).free = rest := rfl
@[simp, grind =] lemma pipeInit_taken : (s.pipeInit f0 f1 pg rest).taken pg' = s.taken pg' := rfl
@[simp, grind =] lemma pipeInit_allocs : (s.pipeInit f0 f1 pg rest).allocs pg' =
    if pg' = pg then s.allocs pg + 1 else s.allocs pg' := rfl
@[simp, grind =] lemma pipeInit_frees : (s.pipeInit f0 f1 pg rest).frees pg' = s.frees pg' := rfl
@[simp, grind =] lemma shut_ofile : (s.shut pg w).ofile q = s.ofile q := rfl
@[grind =] lemma shut_ends : (s.shut pg w).ends pg' w' =
    if pg' = pg ∧ w' = w then false else s.ends pg' w' := by
  simp only [shut, assign]
  split_ifs <;> simp_all [assign]
@[simp, grind =] lemma kfree_ofile : (s.kfree pg).ofile q = s.ofile q := rfl
@[simp, grind =] lemma kfree_free : (s.kfree pg).free = pg :: s.free := rfl
@[simp, grind =] lemma kfree_frees :
    (s.kfree pg).frees pg' = if pg' = pg then s.frees pg + 1 else s.frees pg' := rfl
@[simp, grind =] lemma take_free : (s.take pg rest).free = rest := rfl
@[simp, grind =] lemma take_taken :
    (s.take pg rest).taken pg' = if pg' = pg then true else s.taken pg' := rfl
@[simp, grind =] lemma give_free : (s.give pg).free = pg :: s.free := rfl
@[simp, grind =] lemma give_taken : (s.give pg).taken pg' = if pg' = pg then false else s.taken pg' := rfl

end fields

inductive Plain : Pc → Pc → Prop
  | fail {r : ℤ} : Plain (.user r) (.user (-1))
  | open {r : ℤ} {omode : UInt32} : Plain (.user r) (.openAlloc omode)
  | pipe {r : ℤ} : Plain (.user r) .pipe0
  | exit {r : ℤ} : Plain (.user r) (.exit 0)
  | noFile {omode : UInt32} : Plain (.openAlloc omode) (.user (-1))
  | noFd {f : Ix} {omode : UInt32} : Plain (.openFd f omode) (.close f (.ret (-1)))
  | noFile0 : Plain .pipe0 (.user (-1))
  | noFile1 {f0 : Ix} : Plain (.pipe1 f0) (.close f0 (.ret (-1)))
  | noPage {f0 f1 : Ix} : Plain (.pipeKalloc f0 f1) (.close f0 (.close f1))
  | noFds {f0 f1 : Ix} : Plain (.pipeFd f0 f1) (.close f0 (.close f1))

inductive Allocs (f : Ix) : Pc → Pc → Prop
  | open {omode : UInt32} : Allocs f (.openAlloc omode) (.openFd f omode)
  | pipe0 : Allocs f .pipe0 (.pipe1 f)
  | pipe1 {f0 : Ix} : Allocs f (.pipe1 f0) (.pipeKalloc f0 f)

inductive Move (s : State) (p : Proc) : State → Prop
  | goto {pc : Pc} : Plain (s.pc p) pc → Move s p (s.setPc p pc)
  | dup {r : ℤ} {fd fd' : Fd} {f : Ix} : s.pc p = .user r → s.ofile p fd' = some f → s.ofile p fd = none →
      Move s p (((s.setFd p fd (some f)).share f).setPc p (.user fd))
  | close {r : ℤ} {fd : Fd} {f : Ix} : s.pc p = .user r → s.ofile p fd = some f →
      Move s p ((s.setFd p fd none).setPc p (.close f (.ret 0)))
  | fork {r : ℤ} {np : Proc} : s.pc p = .user r → s.pc np = .unused →
      Move s p ((s.setPc np .embryo).setPc p (.fork np 0))
  | hold {f : Ix} {pc : Pc} : Allocs f (s.pc p) pc → (s.file f).ref = 0 → Move s p ((s.hold f).setPc p pc)
  | openFd {f : Ix} {omode : UInt32} {fd : Fd} : s.pc p = .openFd f omode → s.ofile p fd = none →
      Move s p ((s.setFd p fd (some f)).setPc p (.openSet fd f omode))
  | openSet {f : Ix} {omode : UInt32} {fd : Fd} : s.pc p = .openSet fd f omode →
      Move s p ((s.setFile f (openFile (s.file f) omode)).setPc p (.user fd))
  | pipeInit {f0 f1 : Ix} {pg : ℕ} {rest : List ℕ} : s.pc p = .pipeKalloc f0 f1 → s.free = pg :: rest →
      Move s p ((s.pipeInit f0 f1 pg rest).setPc p (.pipeFd f0 f1))
  | pipeFds {f0 f1 : Ix} {fd0 fd1 : Fd} : s.pc p = .pipeFd f0 f1 → s.ofile p fd0 = none →
      s.ofile p fd1 = none → fd0 ≠ fd1 →
      Move s p (((s.setFd p fd0 (some f0)).setFd p fd1 (some f1)).setPc p (.user 0))
  | forkSkip {np : Proc} {i : Fd} : s.pc p = .fork np i → s.ofile p i = none →
      Move s p (s.setPc p (.fork np (i + 1)))
  | forkDup {np : Proc} {i : Fd} {f : Ix} : s.pc p = .fork np i → s.ofile p i = some f →
      Move s p (((s.share f).setFd np i (some f)).setPc p (.fork np (i + 1)))
  | forkDone {np : Proc} {i : ℕ} : s.pc p = .fork np i → NOFILE ≤ i →
      Move s p ((s.setPc np (.user 0)).setPc p (.user np))
  | exitSkip {fd : Fd} : s.pc p = .exit fd → s.ofile p fd = none → Move s p (s.setPc p (.exit (fd + 1)))
  | exitClose {fd : Fd} {f : Ix} : s.pc p = .exit fd → s.ofile p fd = some f →
      Move s p (s.setPc p (.close f (.exit fd)))
  | exitDone {fd : ℕ} : s.pc p = .exit fd → NOFILE ≤ fd → Move s p (s.setPc p .zombie)
  | drop {f : Ix} {k : Cont} : s.pc p = .close f k → 1 < (s.file f).ref → Move s p ((s.drop f).resume p k)
  | clear {f : Ix} {k : Cont} : s.pc p = .close f k → (s.file f).ref = 1 → (s.file f).type ≠ .pipe →
      Move s p ((s.clear f).resume p k)
  | clearPipe {f : Ix} {k : Cont} : s.pc p = .close f k → (s.file f).ref = 1 → (s.file f).type = .pipe →
      Move s p ((s.clear f).setPc p (.closePipe (s.file f).pipe (s.file f).writable k))
  | shut {pg : ℕ} {w : Bool} {k : Cont} : s.pc p = .closePipe pg w k → s.ends pg (!w) = true →
      Move s p ((s.shut pg w).resume p k)
  | shutLast {pg : ℕ} {w : Bool} {k : Cont} : s.pc p = .closePipe pg w k → s.ends pg (!w) = false →
      Move s p ((s.shut pg w).setPc p (.freePipe pg k))
  | kfree {pg : ℕ} {k : Cont} : s.pc p = .freePipe pg k → Move s p ((s.kfree pg).resume p k)
  | reap : s.pc p = .zombie → Move s p (s.setPc p .unused)

variable {s s' : State} {p : Proc}

lemma fdalloc_spec {fd : Fd} (h : s.fdalloc p = some fd) : s.ofile p fd = none := by
  simpa using List.find?_some h

lemma filealloc_spec {f : Ix} (h : s.filealloc = some f) : (s.file f).ref = 0 := by
  simpa using List.find?_some h

lemma argfd_spec {n : ℤ} {fd : Fd} {f : Ix} (h : s.argfd p n = some (fd, f)) : s.ofile p fd = some f := by
  unfold argfd at h
  split_ifs at h
  obtain ⟨f', hf, heq⟩ := Option.map_eq_some_iff.mp h
  cases heq
  exact hf

lemma filedup_spec {f : Ix} (h : s.filedup f = some s') : s' = s.share f := by
  unfold filedup at h
  split_ifs at h
  exact (Option.some.inj h).symm

lemma setFd_setFd (s : State) (p : Proc) (fd : Fd) (o o' : Option Ix) :
    (s.setFd p fd o).setFd p fd o' = s.setFd p fd o' := by
  simp [setFd]

lemma setFd_eq_self {fd : Fd} {o : Option Ix} (h : s.ofile p fd = o) : s.setFd p fd o = s := by
  unfold setFd
  rw [assign_eq_self h, assign_eq_self rfl]

lemma move_of_call {r : ℤ} {c : Call} (hp : s.pc p = .user r) (h : s.call p c = some s') :
    Move s p s' := by
  cases c with
  | «open» found omode =>
    cases found <;> cases h
    · exact .goto (hp ▸ .fail)
    · exact .goto (hp ▸ .open)
  | dup n =>
    simp only [call] at h
    split at h
    case h_1 => cases h; exact .goto (hp ▸ .fail)
    case h_2 fd' f harg =>
      split at h
      case h_1 => cases h; exact .goto (hp ▸ .fail)
      case h_2 fd hfd =>
        obtain ⟨s1, h1, rfl⟩ := Option.map_eq_some_iff.mp h
        rw [filedup_spec h1]
        exact .dup hp (argfd_spec harg) (fdalloc_spec hfd)
  | close n =>
    simp only [call] at h
    split at h <;> cases h
    case h_1 => exact .goto (hp ▸ .fail)
    case h_2 fd f harg => exact .close hp (argfd_spec harg)
  | pipe ok =>
    cases ok <;> cases h
    · exact .goto (hp ▸ .fail)
    · exact .goto (hp ▸ .pipe)
  | fork np =>
    cases np with
    | none => cases h; exact .goto (hp ▸ .fail)
    | some np =>
      obtain ⟨hnp, heq⟩ := Option.ite_none_right_eq_some.mp h
      cases heq
      exact .fork hp hnp
  | exit => cases h; exact .goto (hp ▸ .exit)

lemma move_of_fileclose {f : Ix} {k : Cont} (hp : s.pc p = .close f k) (h : s.fileclose p f k = some s') :
    Move s p s' := by
  unfold fileclose at h
  split_ifs at h with h0 h1 ht <;> cases h
  · exact .drop hp (by omega)
  · exact .clearPipe hp (by omega) ht
  · exact .clear hp (by omega) ht

lemma pipeclose_eq (s : State) (p : Proc) (pg : ℕ) (w : Bool) (k : Cont) : s.pipeclose p pg w k =
    if s.ends pg (!w) = true then (s.shut pg w).resume p k else (s.shut pg w).setPc p
    (.freePipe pg k) := by
  unfold pipeclose
  cases w
  · cases he : s.ends pg true <;> simp [shut_ends, he]
  · cases he : s.ends pg false <;> simp [shut_ends, he]

lemma move_of_pipeclose {pg : ℕ} {w : Bool} {k : Cont} (hp : s.pc p = .closePipe pg w k) :
    Move s p (s.pipeclose p pg w k) := by
  rw [pipeclose_eq]
  split_ifs with he
  · exact .shut hp he
  · exact .shutLast hp (Bool.eq_false_iff.mpr he)

lemma move_of_pipeFds {f0 f1 : Ix} (hp : s.pc p = .pipeFd f0 f1) : Move s p (s.pipeFds p f0 f1) := by
  unfold pipeFds
  split
  case h_1 => exact .goto (hp ▸ .noFds)
  case h_2 fd0 h0 =>
    split
    case h_1 =>
      rw [setFd_setFd, setFd_eq_self (fdalloc_spec h0)]
      exact .goto (hp ▸ .noFds)
    case h_2 fd1 h1 =>
      have hfd1 := fdalloc_spec h1
      rw [setFd_ofile, if_pos rfl] at hfd1
      have hne : fd0 ≠ fd1 := by
        rintro rfl
        rw [assign_self] at hfd1
        cases hfd1
      rw [assign_of_ne hne.symm] at hfd1
      exact .pipeFds hp (fdalloc_spec h0) hfd1 hne

lemma move_of_next (h : s.next p = some s') : Move s p s' := by
  unfold next at h
  cases hp : s.pc p <;> rw [hp] at h <;> dsimp only at h
  case unused | embryo | zombie | user => cases h
  case openAlloc omode =>
    split at h <;> cases h
    case h_1 f hf => exact .hold (hp ▸ .open) (filealloc_spec hf)
    case h_2 => exact .goto (hp ▸ .noFile)
  case openFd f omode =>
    split at h <;> cases h
    case h_1 fd hfd => exact .openFd hp (fdalloc_spec hfd)
    case h_2 => exact .goto (hp ▸ .noFd)
  case openSet fd f omode => cases h; exact .openSet hp
  case pipe0 =>
    split at h <;> cases h
    case h_1 f hf => exact .hold (hp ▸ .pipe0) (filealloc_spec hf)
    case h_2 => exact .goto (hp ▸ .noFile0)
  case pipe1 f0 =>
    split at h <;> cases h
    case h_1 f hf => exact .hold (hp ▸ .pipe1) (filealloc_spec hf)
    case h_2 => exact .goto (hp ▸ .noFile1)
  case pipeKalloc f0 f1 =>
    split at h <;> cases h
    case h_1 pg rest hfree => exact .pipeInit hp hfree
    case h_2 => exact .goto (hp ▸ .noPage)
  case pipeFd f0 f1 => cases h; exact move_of_pipeFds hp
  case fork np i =>
    split_ifs at h with hi
    · split at h
      case h_1 f hf =>
        obtain ⟨s1, h1, rfl⟩ := Option.map_eq_some_iff.mp h
        rw [filedup_spec h1]
        exact .forkDup (i := ⟨i, hi⟩) hp hf
      case h_2 hf =>
        cases h
        exact .forkSkip (i := ⟨i, hi⟩) hp hf
    · cases h
      exact .forkDone hp (not_lt.mp hi)
  case exit fd =>
    split_ifs at h with hi
    · split at h <;> cases h
      case h_1 f hf => exact .exitClose (f := f) hp hf
      case h_2 hf => exact @Move.exitSkip s p ⟨fd, hi⟩ hp hf
    · cases h
      exact .exitDone hp (not_lt.mp hi)
  case close f k => exact move_of_fileclose hp h
  case closePipe pg w k => cases h; exact move_of_pipeclose hp
  case freePipe pg k => cases h; exact .kfree hp

end State

end Xv6.Files
