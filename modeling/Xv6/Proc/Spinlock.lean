import Xv6.Lib.Assign
import Xv6.Lib.Run

/-! `spinlock.c` with the switches of `scheduler`, `sched` and `switchuvm`: how deep interrupts are
disabled on each processor, and what `sched` saves of it for a process that may go on elsewhere. -/

namespace Xv6.Spinlock

open Lib

inductive Panic
  | acquire
  | release
  | popcliInterruptible
  | popcli
  | schedPtableLock
  | schedLocks
  | schedInterruptible
  deriving DecidableEq

/-- What a processor executes: `scheduler` outside its critical section, with the interrupt handlers
above it, its loop over the table, the part of that loop that switches to `p`, or a process. -/
inductive Ctl (P : Type)
  | loop
  | scan
  | switch (p : P)
  | proc (p : P)
  deriving DecidableEq

inductive Frame
  | unused
  | forkret
  | sched (intena : Bool)
  | running
  deriving DecidableEq

def Frame.parked : Frame → Bool
  | forkret | sched _ => true
  | _ => false

/-- `eflags` is the bit `FL_IF`, `lock l` the processor in the field `cpu` of a lock that is locked,
and `uvm` tells that the processor is inside `switchuvm`. -/
structure State (C P L : Type) where
  ncli : C → ℤ
  intena : C → Bool
  eflags : C → Bool
  lock : L → Option C
  ctl : C → Ctl P
  uvm : C → Bool
  frame : P → Frame

/-- `setIf` is `sti`, the entry of an interrupt or the return from it; `swtch` is the switch of
`scheduler` to a process, `sched` and `exit` that of a process to `scheduler`. -/
inductive Event (C P L : Type)
  | setIf (c : C) (on : Bool)
  | acquire (c : C) (l : L)
  | release (c : C) (l : L)
  | switchuvm (c : C)
  | popcli (c : C)
  | enter (c : C)
  | leave (c : C)
  | pick (c : C) (p : P)
  | swtch (c : C)
  | sched (c : C)
  | exit (c : C)
  | allocproc (p : P)

namespace State

variable {C P L : Type}

section step

variable [DecidableEq C] [DecidableEq P] [DecidableEq L] [Fintype L]

def init : State C P L :=
  ⟨fun _ => 0, fun _ => false, fun _ => false, fun _ => none, fun _ => .loop, fun _ => false,
    fun _ => .unused⟩

def held (s : State C P L) (c : C) : Finset L := Finset.univ.filter (fun l => s.lock l = some c)

def pushcli (s : State C P L) (c : C) : State C P L :=
  { s with
    ncli := assign s.ncli c (s.ncli c + 1)
    intena := if s.ncli c = 0 then assign s.intena c (s.eflags c) else s.intena
    eflags := assign s.eflags c false }

def popcli (s : State C P L) (c : C) : Except Panic (State C P L) :=
  if s.eflags c then .error .popcliInterruptible
  else if s.ncli c - 1 < 0 then .error .popcli
  else .ok { s with
    ncli := assign s.ncli c (s.ncli c - 1)
    eflags := if s.ncli c - 1 = 0 ∧ s.intena c = true then assign s.eflags c true else s.eflags }

def acquire (s : State C P L) (c : C) (l : L) : Option (Except Panic (State C P L)) :=
  match s.lock l with
  | some c' => if c' = c then some (.error .acquire) else none
  | none => some (.ok { s.pushcli c with lock := assign s.lock l (some c) })

def release (s : State C P L) (c : C) (l : L) : Except Panic (State C P L) :=
  if s.lock l = some c then { s with lock := assign s.lock l none }.popcli c else .error .release

def sched (ptable : L) (s : State C P L) (c : C) (p : P) (f : Frame) : Except Panic (State C P L) :=
  if s.lock ptable ≠ some c then .error .schedPtableLock
  else if s.ncli c ≠ 1 then .error .schedLocks
  else if s.eflags c then .error .schedInterruptible
  else .ok { s with ctl := assign s.ctl c .scan, frame := assign s.frame p f }

def swtch (s : State C P L) (c : C) (p : P) : Option (State C P L) :=
  match s.frame p with
  | .sched intena =>
    some { s with
      ctl := assign s.ctl c (.proc p), frame := assign s.frame p .running
      intena := assign s.intena c intena }
  | .forkret => some { s with ctl := assign s.ctl c (.proc p), frame := assign s.frame p .running }
  | _ => none

def mayLock (s : State C P L) (c : C) : Bool :=
  match s.ctl c with
  | .loop | .proc _ => !s.uvm c
  | _ => false

/-- One step: `none` where the processor is elsewhere or spins. `sched` is called with `ptable.lock`
as the only lock; interrupts are switched on or off, outside `spinlock.c`, where the processor holds
no lock. -/
def step (ptable : L) (s : State C P L) : Event C P L → Option (Except Panic (State C P L))
  | .setIf c on =>
    if s.mayLock c ∧ s.held c = ∅ then some (.ok { s with eflags := assign s.eflags c on }) else none
  | .acquire c l => if s.mayLock c then s.acquire c l else none
  | .release c l => if s.mayLock c then some (s.release c l) else none
  | .switchuvm c =>
    match s.ctl c with
    | .proc _ => if s.uvm c then none else some (.ok { s.pushcli c with uvm := assign s.uvm c true })
    | _ => none
  | .popcli c => if s.uvm c then some ({ s with uvm := assign s.uvm c false }.popcli c) else none
  | .enter c =>
    if s.ctl c = .loop ∧ s.held c = ∅ then
      (s.acquire c ptable).map (fun r => r.map (fun t => { t with ctl := assign t.ctl c .scan }))
    else none
  | .leave c =>
    if s.ctl c = .scan then some ((s.release c ptable).map
      (fun t => { t with ctl := assign t.ctl c .loop })) else none
  | .pick c p =>
    if s.ctl c = .scan ∧ s.uvm c = false ∧ (s.frame p).parked then
      some (.ok { s.pushcli c with ctl := assign s.ctl c (.switch p), uvm := assign s.uvm c true })
    else none
  | .swtch c =>
    match s.ctl c with
    | .switch p => if s.uvm c then none else (s.swtch c p).map .ok
    | _ => none
  | .sched c =>
    match s.ctl c with
    | .proc p =>
      if s.uvm c = false ∧ s.held c = {ptable} then some (s.sched ptable c p (.sched (s.intena c)))
        else none
    | _ => none
  | .exit c =>
    match s.ctl c with
    | .proc p => if s.uvm c = false ∧ s.held c = {ptable} then some (s.sched ptable c p .unused) else none
    | _ => none
  | .allocproc p =>
    if s.frame p = .unused then some (.ok { s with frame := assign s.frame p .forkret }) else none

def Step (ptable : L) (s : State C P L) (e : Event C P L) (s' : State C P L) : Prop :=
    s.step ptable e = some (.ok s')

def depth (s : State C P L) (c : C) : ℤ := (s.held c).card + if s.uvm c then 1 else 0

structure Counted (s : State C P L) : Prop where
  count : ∀ c, s.ncli c = s.depth c
  off : ∀ c, 0 < s.ncli c → s.eflags c = false

end step

structure Placed (s : State C P L) : Prop where
  running : ∀ c p, s.ctl c = .proc p → s.frame p = .running
  single : ∀ c c' p, s.ctl c = .proc p → s.ctl c' = .proc p → c = c'

variable {ptable l : L} {s s' t : State C P L} {c : C} {p : P} {x : Bool}

lemma uvm_of_mayLock (h : s.mayLock c = true) : s.uvm c = false := by
  unfold mayLock at h
  split at h
  · simpa using h
  · simpa using h
  · cases h

lemma Placed.congr (h : Placed s) (hc : t.ctl = s.ctl) (hf : t.frame = s.frame) : Placed t :=
  ⟨fun c p hp => hf ▸ h.running c p (hc ▸ hp), fun c c' p hp hp' => h.single c c' p (hc ▸ hp) (hc ▸ hp')⟩

def Inside (s : State C P L) (p : P) : Prop := (∃ c, s.ctl c = .proc p ∧ 0 < s.ncli c) ∨ ∃ b,
    s.frame p = .sched b

structure Keeps (s : State C P L) (p : P) (x : Bool) : Prop where
  running : ∀ c, s.ctl c = .proc p → s.intena c = x
  parked : ∀ b, s.frame p = .sched b → b = x

lemma Inside.pos (hin : Inside s p) (h : Placed s) (hctl : s.ctl c = .proc p) : 0 < s.ncli c := by
  rcases hin with ⟨c', hc', hpos⟩ | ⟨b, hf⟩
  · rwa [h.single c c' p hctl hc']
  · rw [h.running c p hctl] at hf
    cases hf

lemma Keeps.congr (h : Keeps s p x) (hi : ∀ c, t.ctl c = .proc p → s.ctl c = .proc p ∧
    t.intena c = s.intena c)
    (hf : ∀ b, t.frame p = .sched b → s.frame p = .sched b) : Keeps t p x :=
  ⟨fun c hc => (hi c hc).2.trans (h.running c (hi c hc).1), fun b hb => h.parked b (hf b hb)⟩

lemma placed_init : Placed (init : State C P L) := ⟨fun _ _ h => (nomatch h), fun _ _ _ h => (nomatch h)⟩

section nesting

variable [DecidableEq C]

lemma popcli_ok (hpos : 0 < s.ncli c) (hoff : s.eflags c = false) :
    s.popcli c = .ok { s with
      ncli := assign s.ncli c (s.ncli c - 1)
      eflags := if s.ncli c - 1 = 0 ∧ s.intena c = true then assign s.eflags c true else s.eflags } := by
  unfold popcli
  rw [if_neg (by simp [hoff]), if_neg (by omega)]

lemma pushcli_intena (hin : Inside s p) (h : Placed s) {c' : C} (hc' : s.ctl c' = .proc p) :
    (s.pushcli c).intena c' = s.intena c' := by
  show (if s.ncli c = 0 then assign s.intena c (s.eflags c) else s.intena) c' = s.intena c'
  split_ifs with h0
  · have hne : c' ≠ c := by
      rintro rfl
      exact absurd h0 (ne_of_gt (hin.pos h hc'))
    exact assign_of_ne hne ..
  · rfl

lemma ctl_of_assign {c' : C} {k : Ctl P} (hk : k ≠ .proc p) (hc' : assign s.ctl c k c' = .proc p) :
    c' ≠ c ∧ s.ctl c' = .proc p := by
  rw [assign_apply] at hc'
  split_ifs at hc' with hcc
  · exact absurd hc' hk
  · exact ⟨hcc, hc'⟩

lemma Placed.away (h : Placed s) (k : Ctl P) (hk : ∀ p, k ≠ .proc p) (hc : t.ctl = assign s.ctl c k)
    (hf : ∀ q, s.ctl c ≠ .proc q → s.frame q = .running → t.frame q = .running) : Placed t := by
  have hold : ∀ c' p, t.ctl c' = .proc p → c' ≠ c ∧ s.ctl c' = .proc p :=
    fun c' p hp => ctl_of_assign (hk p) (hc ▸ hp)
  refine ⟨fun c' p hp => ?_, fun c' c'' p hp hp' => h.single c' c'' p (hold c' p hp).2 (hold c'' p hp').2⟩
  obtain ⟨hne, hp⟩ := hold c' p hp
  exact hf p (fun hq => hne (h.single c' c p hp hq)) (h.running c' p hp)

variable [Fintype L]

lemma mem_held : l ∈ s.held c ↔ s.lock l = some c := by
  simp [held]

lemma depth_nonneg (s : State C P L) (c : C) : 0 ≤ s.depth c := by
  unfold depth
  split_ifs <;> omega

lemma depth_uvm (hu : s.uvm c = false) (ht : t.uvm = assign s.uvm c true) (hl : t.lock = s.lock)
    (c' : C) : t.depth c' = s.depth c' + if c' = c then 1 else 0 := by
  have hset : t.held c' = s.held c' := by
    unfold held
    rw [hl]
  unfold depth
  rw [hset, ht, assign_apply]
  by_cases hc : c' = c
  · simp [hc, hu]
  · simp [hc]

lemma depth_leave_uvm (hu : s.uvm c = true) (ht : t.uvm = assign s.uvm c false)
    (hl : t.lock = s.lock) (c' : C) : t.depth c' = s.depth c' - if c' = c then 1 else 0 := by
  have hback : s.uvm = assign t.uvm c true := by
    rw [ht, assign_assign, assign_eq_self hu]
  have hfree : t.uvm c = false := by rw [ht, assign_self]
  rw [depth_uvm hfree hback hl.symm c']
  ring

lemma counted_init : Counted (init : State C P L) := by
  refine ⟨fun c => ?_, fun c hpos => absurd hpos (lt_irrefl _)⟩
  simp [depth, held, init]

lemma Counted.push (h : Counted s) (hn : t.ncli = (s.pushcli c).ncli)
    (he : t.eflags = (s.pushcli c).eflags)
    (hd : ∀ c', t.depth c' = s.depth c' + if c' = c then 1 else 0) : Counted t := by
  refine ⟨fun c' => ?_, fun c' hpos => ?_⟩
  · rw [hn, hd, ← h.count]
    simp only [pushcli, assign_apply]
    split_ifs with hc
    · rw [hc]
    · rw [add_zero]
  · rw [hn] at hpos
    rw [he]
    simp only [pushcli, assign_apply] at hpos ⊢
    split_ifs at hpos ⊢ with hc
    · rfl
    · exact h.off c' hpos

structure Popped (s : State C P L) (c : C) (s' : State C P L) : Prop where
  counted : Counted s'
  ctl : s'.ctl = s.ctl
  frame : s'.frame = s.frame
  intena : s'.intena = s.intena
  restored : s'.ncli c = 0 → s'.eflags c = s.intena c

lemma Counted.pop (h : Counted s) (t : State C P L) (hn : t.ncli = s.ncli) (he : t.eflags = s.eflags)
    (hctl : t.ctl = s.ctl) (hframe : t.frame = s.frame) (hintena : t.intena = s.intena)
    (hd : ∀ c', t.depth c' = s.depth c' - if c' = c then 1 else 0) : ∃ s', t.popcli c = .ok s' ∧
    Popped s c s' := by
  have hpos : 0 < s.ncli c := by
    have hc := hd c
    have h0 := depth_nonneg t c
    rw [if_pos rfl] at hc
    rw [h.count]
    omega
  have hoff := h.off c hpos
  refine ⟨_, popcli_ok (hn ▸ hpos) (he ▸ hoff), ⟨fun c' => ?_, fun c' hpos' => ?_⟩, hctl, hframe,
    hintena, fun h0 => ?_⟩
  · show assign t.ncli c (t.ncli c - 1) c' = t.depth c'
    rw [hd, hn, ← h.count, assign_apply]
    split_ifs with hc
    · rw [hc]
    · rw [sub_zero]
  · have hpos' : 0 < assign t.ncli c (t.ncli c - 1) c' := hpos'
    show (if t.ncli c - 1 = 0 ∧ t.intena c = true then assign t.eflags c true else t.eflags) c' = false
    rw [hn, he]
    rw [hn, assign_apply] at hpos'
    split_ifs at hpos' with hc
    · rw [if_neg (fun hz => by omega), hc]
      exact hoff
    · split_ifs
      · rw [assign_of_ne hc]
        exact h.off c' hpos'
      · exact h.off c' hpos'
  · have h0 : assign t.ncli c (t.ncli c - 1) c = 0 := h0
    rw [assign_self] at h0
    show (if t.ncli c - 1 = 0 ∧ t.intena c = true then assign t.eflags c true else t.eflags) c =
      s.intena c
    rw [hintena]
    cases hi : s.intena c with
    | true => rw [if_pos ⟨h0, rfl⟩, assign_self]
    | false => rw [if_neg (fun hz => Bool.noConfusion hz.2), he, hoff]

lemma Counted.leave_uvm (h : Counted s) (hu : s.uvm c = true) :
    ∃ s', { s with uvm := assign s.uvm c false }.popcli c = .ok s' ∧ Popped s c s' :=
  h.pop _ rfl rfl rfl rfl rfl (depth_leave_uvm hu rfl rfl)

variable [DecidableEq L]

lemma depth_lock (hl : s.lock l = none) (ht : t.lock = assign s.lock l (some c))
    (hu : t.uvm = s.uvm) (c' : C) : t.depth c' = s.depth c' + if c' = c then 1 else 0 := by
  unfold depth
  rw [hu]
  have hnot : l ∉ s.held c := fun hm => by simp [mem_held, hl] at hm
  by_cases hc : c' = c
  · subst hc
    have hset : t.held c' = insert l (s.held c') := by
      ext m
      simp only [mem_held, ht, assign_apply, Finset.mem_insert]
      split_ifs with hm
      · simp [hm]
      · simp [hm]
    rw [hset, Finset.card_insert_of_notMem hnot, if_pos rfl]
    push_cast
    ring
  · have hset : t.held c' = s.held c' := by
      ext m
      simp only [mem_held, ht, assign_apply]
      split_ifs with hm
      · simp [hm, hl, Ne.symm hc]
      · rfl
    rw [hset, if_neg hc, add_zero]

lemma depth_unlock (hl : s.lock l = some c) (ht : t.lock = assign s.lock l none)
    (hu : t.uvm = s.uvm) (c' : C) : t.depth c' = s.depth c' - if c' = c then 1 else 0 := by
  have hback : s.lock = assign t.lock l (some c) := by
    rw [ht, assign_assign, assign_eq_self hl]
  have hfree : t.lock l = none := by rw [ht, assign_self]
  rw [depth_lock hfree hback hu.symm c']
  ring

lemma Counted.release (h : Counted s) (c : C) (l : L) :
    s.release c l = .error .release ∨ ∃ s', s.release c l = .ok s' ∧ Popped s c s' := by
  unfold State.release
  split_ifs with hl
  · exact .inr (h.pop _ rfl rfl rfl rfl rfl (depth_unlock hl rfl rfl))
  · exact .inl rfl

end nesting

section

variable [DecidableEq C] [DecidableEq L]

lemma acquire_cases {r : Except Panic (State C P L)} (h : s.acquire c l = some r) :
    r = .error .acquire ∨ s.lock l = none ∧
    r = .ok { s.pushcli c with lock := assign s.lock l (some c) } := by
  unfold acquire at h
  split at h
  · split_ifs at h
    cases h
    exact .inl rfl
  · rename_i hl
    cases h
    exact .inr ⟨hl, rfl⟩

end

section

variable [DecidableEq P]

lemma Keeps.parked_assign (h : Keeps s p x) {q : P} {f : Frame}
    (hf : q = p → ∀ b, f = .sched b → b = x) (b : Bool)
    (hb : assign s.frame q f p = .sched b) : b = x := by
  by_cases hq : q = p
  · subst hq
    exact hf rfl b ((assign_self ..).symm.trans hb)
  · exact h.parked b ((assign_of_ne (Ne.symm hq) ..).symm.trans hb)

variable [DecidableEq C]

lemma Placed.arrive (h : Placed s) (hf : s.frame p ≠ .running) (hc : t.ctl = assign s.ctl c (.proc p))
    (ht : t.frame = assign s.frame p .running) : Placed t := by
  have hnot : ∀ c', s.ctl c' ≠ .proc p := fun c' hp => hf (h.running c' p hp)
  refine ⟨fun c' q hq => ?_, fun c' c'' q hq hq' => ?_⟩
  · rw [hc, assign_apply] at hq
    split_ifs at hq with hcc
    · rw [ht, ← Ctl.proc.inj hq, assign_self]
    · have hqp : q ≠ p := fun heq => hnot c' (heq ▸ hq)
      rw [ht, assign_of_ne hqp]
      exact h.running c' q hq
  · rw [hc, assign_apply] at hq hq'
    split_ifs at hq hq' with h1 h2 h2
    · exact h1.trans h2.symm
    · exact absurd (Ctl.proc.inj hq ▸ hq') (hnot c'')
    · exact absurd (Ctl.proc.inj hq' ▸ hq) (hnot c')
    · exact h.single c' c'' q hq hq'

lemma Keeps.resume (h : Keeps s p x) (hp : Placed s) {q : P} {b : Bool} (hf : s.frame q = .sched b) :
    Keeps { s with ctl := assign s.ctl c (.proc q), frame := assign s.frame q .running,
                   intena := assign s.intena c b } p x := by
  by_cases hq : q = p
  · -- `p` goes on in `sched` and restores what it saved
    subst hq
    refine ⟨fun c' hc' => ?_, fun b' hb' => by cases (assign_self ..).symm.trans hb'⟩
    have hcc : c' = c := by
      by_contra hne
      have hold := hp.running c' q ((assign_of_ne hne ..).symm.trans hc')
      cases hold.symm.trans hf
    subst hcc
    exact (assign_self ..).trans (h.parked b hf)
  · refine h.congr (fun c' hc' => ?_) (fun b' hb' => (assign_of_ne (Ne.symm hq) ..).symm.trans hb')
    obtain ⟨hne, hold⟩ := ctl_of_assign (fun heq => hq (Ctl.proc.inj heq)) hc'
    exact ⟨hold, assign_of_ne hne ..⟩

lemma swtch_cases (h : s.swtch c p = some t) :
    (∃ b, s.frame p = .sched b ∧ t = { s with
      ctl := assign s.ctl c (.proc p), frame := assign s.frame p .running, intena :=
        assign s.intena c b }) ∨
    s.frame p = .forkret ∧
      t = { s with ctl := assign s.ctl c (.proc p), frame := assign s.frame p .running } := by
  unfold swtch at h
  split at h
  · rename_i b hf
    cases h
    exact .inl ⟨b, hf, rfl⟩
  · rename_i hf
    cases h
    exact .inr ⟨hf, rfl⟩
  · cases h

lemma Counted.sched_ok [Fintype L] (h : Counted s) (hu : s.uvm c = false)
    (hheld : s.held c = {ptable}) (f : Frame) :
    s.sched ptable c p f = .ok { s with ctl := assign s.ctl c .scan, frame := assign s.frame p f } := by
  have hl : s.lock ptable = some c := mem_held.mp (by rw [hheld]; exact Finset.mem_singleton_self _)
  have hn : s.ncli c = 1 := by
    rw [h.count, depth, hheld, hu]
    rfl
  have hoff := h.off c (by rw [hn]; exact Int.one_pos)
  simp [sched, hl, hn, hoff]

end

variable [DecidableEq C] [DecidableEq P] [DecidableEq L] [Fintype L]

inductive Move (ptable : L) (s : State C P L) : Event C P L → State C P L → Prop
  | setIf {c : C} {on : Bool} (hheld : s.held c = ∅) (huvm : s.uvm c = false) :
      Move ptable s (.setIf c on) { s with eflags := assign s.eflags c on }
  | acquire {c : C} {l : L} (hl : s.lock l = none) :
      Move ptable s (.acquire c l) { s.pushcli c with lock := assign s.lock l (some c) }
  | release {c : C} {l : L} {s' : State C P L} (hp : Popped s c s') : Move ptable s (.release c l) s'
  | switchuvm {c : C} (huvm : s.uvm c = false) :
      Move ptable s (.switchuvm c) { s.pushcli c with uvm := assign s.uvm c true }
  | popcli {c : C} {s' : State C P L} (huvm : s.uvm c = true) (hp : Popped s c s') :
      Move ptable s (.popcli c) s'
  | enter {c : C} (hctl : s.ctl c = .loop) (hl : s.lock ptable = none) :
      Move ptable s (.enter c)
        { s.pushcli c with lock := assign s.lock ptable (some c), ctl := assign s.ctl c .scan }
  | leave {c : C} {s' : State C P L} (hctl : s.ctl c = .scan) (hp : Popped s c s') :
      Move ptable s (.leave c) { s' with ctl := assign s'.ctl c .loop }
  | pick {c : C} {p : P} (hctl : s.ctl c = .scan) (huvm : s.uvm c = false) :
      Move ptable s (.pick c p)
        { s.pushcli c with ctl := assign s.ctl c (.switch p), uvm := assign s.uvm c true }
  | resume {c : C} {p : P} {b : Bool} (hctl : s.ctl c = .switch p) (hf : s.frame p = .sched b) :
      Move ptable s (.swtch c)
        { s with
          ctl := assign s.ctl c (.proc p), frame := assign s.frame p .running
          intena := assign s.intena c b }
  | forkret {c : C} {p : P} (hctl : s.ctl c = .switch p) (hf : s.frame p = .forkret) :
      Move ptable s (.swtch c)
        { s with ctl := assign s.ctl c (.proc p), frame := assign s.frame p .running }
  | sched {c : C} {p : P} (hctl : s.ctl c = .proc p) :
      Move ptable s (.sched c)
        { s with ctl := assign s.ctl c .scan, frame := assign s.frame p (.sched (s.intena c)) }
  | exit {c : C} {p : P} (hctl : s.ctl c = .proc p) :
      Move ptable s (.exit c) { s with ctl := assign s.ctl c .scan, frame := assign s.frame p .unused }
  | allocproc {p : P} (hf : s.frame p = .unused) :
      Move ptable s (.allocproc p) { s with frame := assign s.frame p .forkret }

lemma Counted.cases (h : Counted s) {e : Event C P L} {r : Except Panic (State C P L)}
    (hs : s.step ptable e = some r) :
    r = .error .acquire ∨ r = .error .release ∨ ∃ s', r = .ok s' ∧ Move ptable s e s' := by
  cases e with
  | setIf c on =>
    obtain ⟨hg, ⟨⟩⟩ := Option.ite_none_right_eq_some.mp hs
    exact .inr (.inr ⟨_, rfl, .setIf hg.2 (uvm_of_mayLock hg.1)⟩)
  | acquire c l =>
    obtain ⟨-, hs⟩ := Option.ite_none_right_eq_some.mp hs
    rcases acquire_cases hs with rfl | ⟨hl, rfl⟩
    · exact .inl rfl
    · exact .inr (.inr ⟨_, rfl, .acquire hl⟩)
  | release c l =>
    obtain ⟨-, hs⟩ := Option.ite_none_right_eq_some.mp hs
    rcases h.release c l with hr | ⟨t, hr, hp⟩ <;> rw [hr] at hs <;> cases hs
    · exact .inr (.inl rfl)
    · exact .inr (.inr ⟨t, rfl, .release hp⟩)
  | switchuvm c =>
    simp only [State.step] at hs
    split at hs
    · split_ifs at hs with hu
      cases hs
      exact .inr (.inr ⟨_, rfl, .switchuvm (by simpa using hu)⟩)
    · cases hs
  | popcli c =>
    obtain ⟨hu, hs⟩ := Option.ite_none_right_eq_some.mp hs
    obtain ⟨t, ht, hp⟩ := h.leave_uvm hu
    rw [ht] at hs
    cases hs
    exact .inr (.inr ⟨t, rfl, .popcli hu hp⟩)
  | enter c =>
    obtain ⟨hg, hs⟩ := Option.ite_none_right_eq_some.mp hs
    obtain ⟨r, hr, rfl⟩ := Option.map_eq_some_iff.mp hs
    rcases acquire_cases hr with rfl | ⟨hl, rfl⟩
    · exact .inl rfl
    · exact .inr (.inr ⟨_, rfl, .enter hg.1 hl⟩)
  | leave c =>
    obtain ⟨hg, hs⟩ := Option.ite_none_right_eq_some.mp hs
    rcases h.release c ptable with hr | ⟨t, hr, hp⟩ <;> rw [hr] at hs <;> cases hs
    · exact .inr (.inl rfl)
    · exact .inr (.inr ⟨_, rfl, .leave hg hp⟩)
  | pick c p =>
    obtain ⟨hg, ⟨⟩⟩ := Option.ite_none_right_eq_some.mp hs
    exact .inr (.inr ⟨_, rfl, .pick hg.1 hg.2.1⟩)
  | swtch c =>
    simp only [State.step] at hs
    split at hs
    · rename_i p hctl
      split_ifs at hs
      obtain ⟨t, ht, rfl⟩ := Option.map_eq_some_iff.mp hs
      rcases swtch_cases ht with ⟨b, hf, rfl⟩ | ⟨hf, rfl⟩
      · exact .inr (.inr ⟨_, rfl, .resume hctl hf⟩)
      · exact .inr (.inr ⟨_, rfl, .forkret hctl hf⟩)
    · cases hs
  | sched c =>
    simp only [State.step] at hs
    split at hs
    · rename_i p hctl
      split_ifs at hs with hg
      rw [h.sched_ok hg.1 hg.2] at hs
      cases hs
      exact .inr (.inr ⟨_, rfl, .sched hctl⟩)
    · cases hs
  | exit c =>
    simp only [State.step] at hs
    split at hs
    · rename_i p hctl
      split_ifs at hs with hg
      rw [h.sched_ok hg.1 hg.2] at hs
      cases hs
      exact .inr (.inr ⟨_, rfl, .exit hctl⟩)
    · cases hs
  | allocproc p =>
    obtain ⟨hf, ⟨⟩⟩ := Option.ite_none_right_eq_some.mp hs
    exact .inr (.inr ⟨_, rfl, .allocproc hf⟩)

lemma Counted.moves (h : Counted s) {e : Event C P L} (hs : Step ptable s e s') : Move ptable s e s' := by
  rcases h.cases hs with he | he | ⟨t, he, hm⟩ <;> cases he
  exact hm

lemma Counted.move {e : Event C P L} (h : Counted s) (hm : Move ptable s e s') : Counted s' := by
  cases hm with
  | @setIf c on hheld huvm =>
    refine ⟨h.count, fun c' hpos => ?_⟩
    have hne : c' ≠ c := by
      rintro rfl
      have h0 : s.ncli c' = 0 := by
        rw [h.count, depth, hheld, huvm]
        rfl
      exact absurd (h0 ▸ hpos) (lt_irrefl _)
    exact (assign_of_ne hne ..).trans (h.off c' hpos)
  | acquire hl => exact h.push rfl rfl (depth_lock hl rfl rfl)
  | release hp => exact hp.counted
  | switchuvm huvm => exact h.push rfl rfl (depth_uvm huvm rfl rfl)
  | popcli huvm hp => exact hp.counted
  | enter hctl hl => exact h.push rfl rfl (depth_lock hl rfl rfl)
  | leave hctl hp => exact ⟨hp.counted.count, hp.counted.off⟩
  | pick hctl huvm => exact h.push rfl rfl (depth_uvm huvm rfl rfl)
  | resume hctl hf => exact ⟨h.count, h.off⟩
  | forkret hctl hf => exact ⟨h.count, h.off⟩
  | sched hctl => exact ⟨h.count, h.off⟩
  | exit hctl => exact ⟨h.count, h.off⟩
  | allocproc hf => exact ⟨h.count, h.off⟩

lemma Placed.move {e : Event C P L} (h : Placed s) (hm : Move ptable s e s') : Placed s' := by
  cases hm with
  | setIf hheld huvm => exact h.congr rfl rfl
  | acquire hl => exact h.congr rfl rfl
  | release hp => exact h.congr hp.ctl hp.frame
  | switchuvm huvm => exact h.congr rfl rfl
  | popcli huvm hp => exact h.congr hp.ctl hp.frame
  | enter hctl hl => exact h.away .scan (fun _ => nofun) rfl (fun _ _ => id)
  | leave hctl hp => exact (h.congr hp.ctl hp.frame).away .loop (fun _ => nofun) rfl (fun _ _ => id)
  | @pick c p hctl huvm => exact h.away (.switch p) (fun _ => nofun) rfl (fun _ _ => id)
  | resume hctl hf => exact h.arrive (by rw [hf]; exact nofun) rfl rfl
  | forkret hctl hf => exact h.arrive (by rw [hf]; exact nofun) rfl rfl
  | @sched c p hctl =>
    refine h.away .scan (fun _ => nofun) rfl (fun q hq hr => ?_)
    have hqp : q ≠ p := fun heq => hq (heq ▸ hctl)
    exact (assign_of_ne hqp ..).trans hr
  | @exit c p hctl =>
    refine h.away .scan (fun _ => nofun) rfl (fun q hq hr => ?_)
    have hqp : q ≠ p := fun heq => hq (heq ▸ hctl)
    exact (assign_of_ne hqp ..).trans hr
  | @allocproc p hf =>
    refine ⟨fun c q hq => ?_, h.single⟩
    have hr := h.running c q hq
    have hqp : q ≠ p := by
      rintro rfl
      rw [hf] at hr
      cases hr
    exact (assign_of_ne hqp ..).trans hr

lemma Keeps.move {e : Event C P L} (h : Keeps s p x) (hp : Placed s) (hin : Inside s p)
    (hm : Move ptable s e s') : Keeps s' p x := by
  cases hm with
  | setIf hheld huvm => exact ⟨h.running, h.parked⟩
  | acquire hl => exact h.congr (fun c' hc' => ⟨hc', pushcli_intena hin hp hc'⟩) (fun _ => id)
  | release hpop =>
    exact h.congr (fun c' hc' => ⟨hpop.ctl ▸ hc', by rw [hpop.intena]⟩) (fun b hb => hpop.frame ▸ hb)
  | switchuvm huvm => exact h.congr (fun c' hc' => ⟨hc', pushcli_intena hin hp hc'⟩) (fun _ => id)
  | popcli huvm hpop =>
    exact h.congr (fun c' hc' => ⟨hpop.ctl ▸ hc', by rw [hpop.intena]⟩) (fun b hb => hpop.frame ▸ hb)
  | enter hctl hl =>
    refine h.congr (fun c' hc' => ?_) (fun _ => id)
    have hold := (ctl_of_assign (s := s) (k := .scan) nofun hc').2
    exact ⟨hold, pushcli_intena hin hp hold⟩
  | @leave c t hctl hpop =>
    refine h.congr (fun c' hc' => ?_) (fun b hb => hpop.frame ▸ hb)
    have hc' : assign t.ctl c .loop c' = .proc p := hc'
    rw [hpop.ctl] at hc'
    exact ⟨(ctl_of_assign (k := .loop) nofun hc').2, by rw [hpop.intena]⟩
  | @pick c q hctl huvm =>
    refine h.congr (fun c' hc' => ?_) (fun _ => id)
    have hold := (ctl_of_assign (s := s) (k := .switch q) nofun hc').2
    exact ⟨hold, pushcli_intena hin hp hold⟩
  | resume hctl hf => exact h.resume hp hf
  | @forkret c q hctl hf =>
    have hq : q ≠ p := by
      rintro rfl
      rcases hin with ⟨c', hc', -⟩ | ⟨b, hb⟩
      · rw [hp.running c' q hc'] at hf
        cases hf
      · rw [hb] at hf
        cases hf
    refine h.congr (fun c' hc' => ?_) (fun b' hb' => (assign_of_ne (Ne.symm hq) ..).symm.trans hb')
    exact ⟨(ctl_of_assign (fun heq => hq (Ctl.proc.inj heq)) hc').2, rfl⟩
  | @sched c q hctl =>
    refine ⟨fun c' hc' => h.running c' (ctl_of_assign (k := .scan) nofun hc').2,
      h.parked_assign fun hq b hb => ?_⟩
    rw [← Frame.sched.inj hb]
    exact h.running c (hq ▸ hctl)
  | exit hctl =>
    exact ⟨fun c' hc' => h.running c' (ctl_of_assign (k := .scan) nofun hc').2,
      h.parked_assign fun _ _ hb => by cases hb⟩
  | allocproc hf => exact ⟨h.running, h.parked_assign fun _ _ hb => by cases hb⟩

lemma run_invariant {es : List (Event C P L)} (hrun : Run (Step ptable) init es s) :
    Counted s ∧ Placed s :=
  hrun.state_invariant (P := fun s => Counted s ∧ Placed s) ⟨counted_init, placed_init⟩
    (fun _ _ _ h hs => ⟨h.1.move (h.1.moves hs), h.2.move (h.1.moves hs)⟩)

def InsideStep (ptable : L) (p : P) (s : State C P L) (e : Event C P L) (s' : State C P L) : Prop :=
  Step ptable s e s' ∧ Inside s' p

lemma Keeps.run {es : List (Event C P L)} (h : Keeps s p x) (hs : Counted s) (hp : Placed s)
    (hin : Inside s p) (hrun : Run (InsideStep ptable p) s es s') : Counted s' ∧ Keeps s' p x := by
  have hall := hrun.state_invariant (P := fun t => (Counted t ∧ Placed t) ∧ Inside t p ∧ Keeps t p x)
    ⟨⟨hs, hp⟩, hin, h⟩ (fun t e t' ht he => ?_)
  · exact ⟨hall.1.1, hall.2.2⟩
  · obtain ⟨⟨h1, h2⟩, h3, h4⟩ := ht
    have hm := h1.moves he.1
    exact ⟨⟨h1.move hm, h2.move hm⟩, he.2, h4.move h2 h3 hm⟩

lemma restores (hs : Counted s) (hp : Placed s) (hctl : s.ctl c = .proc p) (h0 : s.ncli c = 0)
    {s1 s2 s3 : State C P L} (hacq : Step ptable s (.acquire c l) s1) {fs : List (Event C P L)}
    (hrun : Run (InsideStep ptable p) s1 fs s2)
    {c' : C} {l' : L} (hctl' : s2.ctl c' = .proc p) (hrel : Step ptable s2 (.release c' l') s3)
    (hlast : s3.ncli c' = 0) : s3.eflags c' = s.eflags c := by
  replace hacq := hs.moves hacq
  have hs1 := hs.move hacq
  have hp1 := hp.move hacq
  generalize he : Event.acquire c l = e at hacq
  obtain ⟨hin, hkeep⟩ : Inside s1 p ∧ Keeps s1 p (s.eflags c) := by
    cases hacq <;> cases he
    refine ⟨.inl ⟨c, hctl, ?_⟩, fun d hd => ?_, fun b hb => ?_⟩
    · show 0 < assign s.ncli c (s.ncli c + 1) c
      rw [assign_self, h0]
      exact Int.one_pos
    · have hdc : d = c := hp.single d c p hd hctl
      subst hdc
      show (if s.ncli d = 0 then assign s.intena d (s.eflags d) else s.intena) d = s.eflags d
      rw [if_pos h0, assign_self]
    · have hb : s.frame p = .sched b := hb
      rw [hp.running c p hctl] at hb
      cases hb
  obtain ⟨hs2, hkeep2⟩ := hkeep.run hs1 hp1 hin hrun
  rw [← hkeep2.running c' hctl']
  generalize he' : Event.release c' l' = e' at hrel
  cases hs2.moves hrel <;> cases he'
  rename_i hpop
  exact hpop.restored hlast

theorem interrupt_nesting_exact (ptable : L) (es : List (Event C P L)) (s : State C P L)
    (hrun : Run (Step ptable) init es s) :
    (∀ c, s.ncli c = (s.held c).card + if s.uvm c then 1 else 0) ∧
    (∀ c, 0 < s.ncli c → s.eflags c = false) ∧
    (∀ e x, s.step ptable e = some (.error x) → x = .acquire ∨ x = .release) ∧
    ∀ p c l s₁ fs s₂ c' l' s₃, s.ctl c = .proc p → s.ncli c = 0 → Step ptable s (.acquire c l) s₁ →
      Run (InsideStep ptable p) s₁ fs s₂ → s₂.ctl c' = .proc p → Step ptable s₂ (.release c' l') s₃ →
      s₃.ncli c' = 0 → s₃.eflags c' = s.eflags c := by
  obtain ⟨hs, hp⟩ := run_invariant hrun
  refine ⟨hs.count, hs.off, fun e x he => ?_, ?_⟩
  · rcases hs.cases he with hx | hx | ⟨s', hx, -⟩ <;> cases hx
    · exact .inl rfl
    · exact .inr rfl
  intro p c l s₁ fs s₂ c' l' s₃ hctl h0 hacq hfs hctl' hrel hlast
  exact restores hs hp hctl h0 hacq hfs hctl' hrel hlast

def stepOk (ptable : L) (s : State C P L) (e : Event C P L) : Option (State C P L) :=
  match s.step ptable e with
  | some (.ok s') => some s'
  | _ => none

lemma step_of_stepOk {e : Event C P L} (h : s.stepOk ptable e = some s') : Step ptable s e s' := by
  unfold stepOk at h
  unfold Step
  split at h
  · rename_i t ht
    cases h
    exact ht
  · cases h

def started : List (Event ℕ ℕ Bool) :=
  [.allocproc 0, .enter 0, .pick 0 0, .popcli 0, .swtch 0, .release 0 true, .setIf 0 true]

def migrated : List (Event ℕ ℕ Bool) := [.sched 0, .leave 0, .enter 1, .pick 1 0, .popcli 1, .swtch 1]

theorem interrupt_nesting_exact_yield : ∃ s s₁ s₂ s₃ : State ℕ ℕ Bool,
    Run (Step true) init started s ∧ Step true s (.acquire 0 true) s₁ ∧
    Run (InsideStep true 0) s₁ migrated s₂ ∧
      Step true s₂ (.release 1 true) s₃ ∧ s₃.eflags 1 = s.eflags 0 ∧ s.eflags 0 = true := by
  -- process 0 waits in `sched`, or runs on processor 1 inside its critical section
  let inside (s : State ℕ ℕ Bool) : Bool := (s.frame 0).parked && s.frame 0 ≠ .forkret ||
    (s.ctl 1 = .proc 0 ∧ 0 < s.ncli 1)
  let stay (s : State ℕ ℕ Bool) (e : Event ℕ ℕ Bool) : Option (State ℕ ℕ Bool) :=
    (s.stepOk true e).filter inside
  obtain ⟨s, hs, hctl, h0, hflag, s₁, hs₁, s₂, hs₂, hctl₂, s₃, hs₃, hlast⟩ :
    ∃ s ∈ exec (stepOk true) (init : State ℕ ℕ Bool) started, s.ctl 0 = .proc 0 ∧ s.ncli 0 = 0 ∧
    s.eflags 0 = true ∧
      ∃ s₁ ∈ s.stepOk true (.acquire 0 true), ∃ s₂ ∈ exec stay s₁ migrated, s₂.ctl 1 = .proc 0 ∧
        ∃ s₃ ∈ s₂.stepOk true (.release 1 true), s₃.ncli 1 = 0 := by decide +kernel
  have hrun : Run (Step true) init started s := (run_of_exec hs).mono (fun _ _ _ h => step_of_stepOk h)
  have hstay : Run (InsideStep true 0) s₁ migrated s₂ := by
    refine (run_of_exec hs₂).mono (fun t e t' ht => ?_)
    obtain ⟨hstep, hin⟩ := Option.filter_eq_some_iff.mp ht
    refine ⟨step_of_stepOk hstep, ?_⟩
    rcases Bool.or_eq_true _ _ ▸ hin with hin | hin
    · right
      cases hf : t'.frame 0 <;> simp_all [Frame.parked]
    · exact .inl ⟨1, of_decide_eq_true hin⟩
  have hacq := step_of_stepOk hs₁
  have hrel := step_of_stepOk hs₃
  have hrestore := (interrupt_nesting_exact true started s hrun).2.2.2 0 0 true s₁ migrated s₂ 1
    true s₃ hctl h0 hacq hstay hctl₂ hrel hlast
  exact ⟨s, s₁, s₂, s₃, hrun, hacq, hstay, hrel, hrestore, hflag⟩

end State

end Xv6.Spinlock
