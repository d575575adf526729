import Xv6.Proc.Family

namespace Xv6.Family.State

open Lib
open Proc (ProcState)
open Table (DeadChild exited userinit_slot)

variable {s s' : State} {p q np : Index} {e : Event} {r : Option Int32}

def Alive (s : State) (p : Index) : Prop :=
  (s.slot p).state = .sleeping ∨ (s.slot p).state = .runnable ∨ (s.slot p).state = .running

def Busy (s : State) (p : Index) : Prop := (s.slot p).state = .running ∨ (s.slot p).state = .runnable

structure Forks (s : State) : Prop where
  fork : ∀ p k q, s.pc p = .fork k q → s.Busy p ∧ (s.slot q).state = .embryo ∧
    (s.slot q).parent = if k = .ready then some p else none
  unique : ∀ p p' q, (s.pc p).np = some q → (s.pc p').np = some q → p = p'
  embryo : ∀ q, (s.slot q).state = .embryo → ∃ p, (s.pc p).np = some q

structure Tree (s : State) : Prop where
  init : s.Alive initproc
  init_parent : (s.slot initproc).parent = none
  orphan : ∀ q, q ≠ initproc → s.Alive q ∨ (s.slot q).state = .zombie → (s.slot q).parent ≠ none
  parent : ∀ q r, (s.slot q).parent = some r → s.Alive r ∧ r ≠ q
  unused : ∀ q, (s.slot q).state = .unused → (s.slot q).parent = none
  waiter : ∀ p, s.pc p = .wait → (s.slot p).state = .sleeping → (s.slot p).chan = some (.proc p)
  waits : ∀ p q, s.pc p = .wait → (s.slot p).state = .sleeping →
    (s.slot q).parent = some p → (s.slot q).state ≠ .zombie

attribute [local grind =] Pc.np
attribute [local grind] At Busy Alive DeadChild

lemma np_eq_some {c : Pc} : c.np = some q ↔ ∃ k, c = .fork k q := by
  cases c <;> simp [Pc.np]

namespace Forks

variable (h : Forks s)

include h

lemma forked (hp : (s.pc p).np = some q) : s.Busy p ∧ (s.slot q).state = .embryo := by
  obtain ⟨k, hk⟩ := np_eq_some.mp hp
  exact ⟨(h.fork p k q hk).1, (h.fork p k q hk).2.1⟩

lemma np_of_embryo (hq : (s.slot q).state = .embryo) : (s.pc q).np = none := by
  by_contra hne
  obtain ⟨q', hq'⟩ := Option.ne_none_iff_exists'.mp hne
  have := (h.forked hq').1
  grind

lemma child {k : Phase} (hat : s.At p (.fork k np)) :
    (s.slot np).state = .embryo ∧ (s.slot np).parent = if k = .ready then some p else none :=
    (h.fork p k np hat.2).2

lemma frame (hpc : ∀ q, s'.pc q = s.pc q ∨ (s'.pc q).np = none ∧ (s.pc q).np = none)
    (hbusy : ∀ q, (s.pc q).np ≠ none → s.Busy q → s'.Busy q)
    (hemb : ∀ q, (s'.slot q).state = .embryo ↔ (s.slot q).state = .embryo)
    (hpar : ∀ q, (s.slot q).state = .embryo → (s'.slot q).parent = (s.slot q).parent) : Forks s' := by
  have hnp : ∀ q, (s'.pc q).np = (s.pc q).np := fun q => (hpc q).elim (congrArg Pc.np) fun hq =>
    hq.1.trans hq.2.symm
  refine ⟨fun p k q hp => ?_, fun p p' q => ?_, fun q hq => ?_⟩
  · have hp' : s.pc p = .fork k q := by grind
    obtain ⟨h1, h2, h3⟩ := h.fork p k q hp'
    exact ⟨hbusy p (by simp [hp', Pc.np]) h1, (hemb q).mpr h2, (hpar q h2).trans h3⟩
  · rw [hnp, hnp]
    exact h.unique p p' q
  · obtain ⟨p, hp⟩ := h.embryo q ((hemb q).mp hq)
    exact ⟨p, (hnp p).trans hp⟩

lemma turn (hrun : (s.slot p).state = .running)
    (hold : (s.pc p).np = none ∧ (s.slot np).state = .unused ∨ (s.pc p).np = some np)
    (hpc : ∀ q, q ≠ p → s'.pc q = s.pc q ∨ (s'.pc q).np = none ∧ (s.pc q).np = none)
    (hslot : ∀ q, q ≠ np → s'.slot q = s.slot q)
    (hnew : (s'.pc p).np = none ∧ (s'.slot np).state ≠ .embryo ∨ ∃ k, s'.pc p = .fork k np ∧
      (s'.slot np).state = .embryo ∧ (s'.slot np).parent = if k = .ready then some p else none) :
      Forks s' := by
  have hforked := fun p q => h.forked (p := p) (q := q)
  obtain ⟨hfork, hunique, hembryo⟩ := h
  -- `np` is the child of no other process, and does not run
  have hfree : ∀ q, q ≠ p → (s.pc q).np ≠ some np := by grind
  have hidle : ∀ q, s.Busy q → q ≠ np := by grind
  have hchild : ∀ q, (s'.pc p).np = some q → q = np := by grind
  refine ⟨fun a k q ha => ?_, fun a b q ha hb => ?_, fun q hq => ?_⟩
  · by_cases hap : a = p
    · grind
    · have hqn : q ≠ np := by grind
      grind
  · by_cases hap : a = p <;> by_cases hbp : b = p <;> grind
  · by_cases hqn : q = np
    · exact ⟨p, by grind⟩
    · obtain ⟨a, ha⟩ := hembryo q (by grind)
      exact ⟨a, by grind⟩

lemma exit (hat : s.At p .run) (hp : p ≠ initproc) : Forks (s.on (s.exit p)) := by
  obtain ⟨hdead, hw, -, hpar, -⟩ := exited hp s.toTable
  have hstate := fun q hq => (hw q hq).state
  refine h.frame (fun _ => .inl rfl) (fun q hq hb => ?_) (fun q => ?_) (fun q hq => ?_)
  · have hqp : q ≠ p := by grind
    grind
  · by_cases hqp : q = p <;> grind
  · -- the parent of an embryo is a process in `fork`
    obtain ⟨a, ha⟩ := h.embryo q hq
    obtain ⟨k, hk⟩ := np_eq_some.mp ha
    have hqa := (h.fork a k q hk).2.2
    rw [on_toTable, hpar, if_neg]
    grind

lemma wait (hat : (s.slot p).state = .running) (hp : (s.pc p).np = none) (hw : Wait s p s' r) :
    Forks s' := by
  cases hw <;> apply h.frame <;> grind -linarith

lemma step (ht : Tree s) (hm : Move s e s' r) : Forks s' := by
  cases hm with
  | alloc hat hu =>
    have hpar := ht.unused _ hu
    apply h.turn hat.1 (.inl ⟨by rw [hat.2]; rfl, hu⟩) <;> grind -linarith
  | stack hat | copy hat | adopt hat | noStack hat | noMemory hat | ready hat =>
    have hchild := h.child hat
    have hnp := h.np_of_embryo hchild.1
    apply h.turn hat.1 (.inr (by rw [hat.2]; rfl)) <;> grind -linarith
  | exit hat hp => exact h.exit hat hp
  | wait hat hw => exact h.wait hat.1 (by rw [hat.2]; rfl) hw
  | resume hat hpc hw =>
    refine Forks.wait ?_ (by simp) (by simp [hpc, Pc.np]) hw
    apply h.frame <;> grind -linarith
  | _ => apply h.frame <;> grind -linarith

end Forks

namespace Tree

variable (h : Tree s)

include h

lemma frame (hpar : ∀ q, (s'.slot q).parent = (s.slot q).parent) (hlive : ∀ q, s'.Alive q ↔ s.Alive q)
    (hz : ∀ q, (s'.slot q).state = .zombie ↔ (s.slot q).state = .zombie)
    (hu : ∀ q, (s'.slot q).state = .unused → (s.slot q).state = .unused)
    (hw : ∀ p, s'.pc p = .wait → (s'.slot p).state = .sleeping →
      s.pc p = .wait ∧ (s.slot p).state = .sleeping ∧ (s'.slot p).chan = (s.slot p).chan ∨
        (s'.slot p).chan = some (.proc p) ∧ ∀ q, ¬ s.DeadChild p q) : Tree s' := by
  refine ⟨(hlive _).mpr h.init, (hpar _).trans h.init_parent, fun q hq hs => ?_, fun q r hr => ?_,
    fun q hq => ?_, fun p hp hs => ?_, fun p q hp hs hq => ?_⟩
  · rw [hpar]
    exact h.orphan q hq (hs.imp (hlive q).mp (hz q).mp)
  · have := h.parent q r (hpar q ▸ hr)
    exact ⟨(hlive r).mpr this.1, this.2⟩
  · rw [hpar]
    exact h.unused q (hu q hq)
  · rcases hw p hp hs with ⟨h1, h2, h3⟩ | ⟨h3, -⟩
    · exact h3.trans (h.waiter p h1 h2)
    · exact h3
  · rw [hpar] at hq
    rw [ne_eq, hz]
    rcases hw p hp hs with ⟨h1, h2, -⟩ | ⟨-, hno⟩
    · exact h.waits p q h1 h2 hq
    · exact fun hd => hno q ⟨hq, hd⟩

lemma slot (hdead : ¬ s.Alive np) (hother : ∀ q, q ≠ np → s'.slot q = s.slot q)
    (hpc : ∀ q, s'.pc q = .wait → s.pc q = .wait)
    (hnew : (s'.slot np).parent = none ∧ ((s'.slot np).state = .embryo ∨ (s'.slot np).state = .unused) ∨
      ∃ r, (s'.slot np).parent = some r ∧ s.Alive r ∧
        ((s'.slot np).state = .embryo ∨ (s'.slot np).state = .runnable)) : Tree s' := by
  have hne : ∀ q, s.Alive q → q ≠ np := by
    rintro q hq rfl
    exact hdead hq
  have hlive : ∀ q, s.Alive q → s'.Alive q := fun q hq => by
    rw [Alive, hother q (hne q hq)]
    exact hq
  have hnp : (s'.slot np).state ≠ .sleeping ∧ (s'.slot np).state ≠ .zombie := by
    rcases hnew with ⟨-, hst | hst⟩ | ⟨r, -, -, hst | hst⟩ <;> simp [hst]
  have ⟨_, _, horphan, hparent, hunused, hwaiter, hwaits⟩ := h
  refine ⟨hlive _ h.init, ?_, fun q hq hs => ?_, fun q r hr => ?_, fun q hq => ?_, fun p hp hs => ?_,
    fun p q hp hs hr => ?_⟩
  · rw [hother _ (hne _ h.init)]
    exact h.init_parent
  all_goals grind
lemma exit (hat : s.At p .run) (hp : p ≠ initproc) : Tree (s.on (s.exit p)) := by
  obtain ⟨hdead, hw, -, hpar, hawake, hinit, -⟩ := exited hp s.toTable
  rw [← on_toTable s (s.exit p)] at hdead hpar hawake hinit
  generalize ht : s.on (s.exit p) = t at hdead hpar hawake hinit ⊢
  replace hw : ∀ q, q ≠ p → Table.Woken s.toTable t.toTable q := ht ▸ hw
  have hpc : t.pc = s.pc := ht ▸ rfl
  have hstate := fun q hq => (hw q hq).state
  have hlive : ∀ q, q ≠ p → s.Alive q → t.Alive q := by grind
  have hsleep : ∀ q, (t.slot q).state = .sleeping → q ≠ p ∧ (s.slot q).state = .sleeping := by grind
  have ⟨halive, hnone, horphan, hparent, hunused, hwaiter, hwaits⟩ := h
  refine ⟨hlive _ hp.symm halive, by simp [hpar, hnone], fun q hq hs => ?_, fun q r hr => ?_,
    fun q hq => ?_, fun q hq hs => ?_, fun a q ha hs hr hz => ?_⟩
  · have hold : (s.slot q).parent ≠ none := horphan q hq (by by_cases hqp : q = p <;> grind)
    grind
  · rw [hpar] at hr
    split_ifs at hr with hq <;> grind
  · have hqp : q ≠ p := by grind
    grind
  · obtain ⟨hqp, hs⟩ := hsleep q hs
    rw [(hw q hqp).chan]
    exact hwaiter q (hpc ▸ hq) hs
  · -- a sleeping process in `wait` has been woken if one of its children is dead now
    obtain ⟨hap, hold⟩ := hsleep a hs
    have hchan := hwaiter a (hpc ▸ ha) hold
    rw [hpar] at hr
    split_ifs at hr with hq
    · cases hr
      have hqp : q ≠ p := by
        rintro rfl
        exact (hparent q q hq).2 rfl
      exact hinit ⟨q, hq, by grind⟩ initproc hap hchan hs
    · by_cases hqp : q = p
      · exact hawake a hap (by rw [hchan, ← hqp, hr]; rfl) hs
      · exact hwaits a q (hpc ▸ ha) hold hr (by grind)

lemma wait (hat : (s.slot p).state = .running) (hw : Wait s p s' r) : Tree s' := by
  cases hw with
  | @reap q hq =>
    have hdead : ¬ s.Alive q := by simp [Alive, hq.2]
    apply h.slot hdead <;> grind -linarith
  | leave => apply h.frame <;> grind -linarith
  | sleep hno => apply h.frame <;> grind -linarith

lemma step (hf : Forks s) (hm : Move s e s' r) : Tree s' := by
  have hembryo : ∀ {q}, (s.slot q).state = .embryo → ¬ s.Alive q := fun hq => by simp [Alive, hq]
  cases hm with
  | @alloc p np hat hu =>
    have hpar := h.unused np hu
    have hdead : ¬ s.Alive np := by simp [Alive, hu]
    apply h.slot hdead <;> grind -linarith
  | stack hat =>
    have hchild := hf.child hat
    apply h.frame <;> grind -linarith
  | noStack hat | noMemory hat | adopt hat | ready hat =>
    have hchild := hf.child hat
    apply h.slot (hembryo hchild.1) <;> grind -linarith
  | exit hat hp => exact h.exit hat hp
  | wait hat hw => exact h.wait hat.1 hw
  | resume hat hpc hw =>
    refine Tree.wait ?_ (by simp) hw
    apply h.frame <;> grind -linarith
  | _ => apply h.frame <;> grind -linarith

end Tree

def allocates : Event × Option Int32 → Bool
  | (.fork _, none) => true
  | _ => false

def allocated (ls : List (Event × Option Int32)) : ℕ := 1 + ls.countP allocates

def waited : Event × Option Int32 → Option Int32
  | (.wait _, some pid) | (.schedule _, some pid) => if pid = -1 then none else some pid
  | _ => none

structure Keeps (s s' : State) : Prop where
  nextpid : s'.nextpid = s.nextpid
  pid : ∀ q, (s'.slot q).state ≠ .unused → (s.slot q).state ≠ .unused ∧ (s'.slot q).pid = (s.slot q).pid

lemma Wait.keeps (hw : Wait s p s' r) (hp : (s.slot p).state = .running) : Keeps s s' := by
  cases hw with
  | reap hq => exact ⟨rfl, fun q hq => by grind⟩
  | leave => exact ⟨rfl, fun q hq => ⟨hq, rfl⟩⟩
  | sleep hno => exact ⟨rfl, fun q hq => by grind⟩

lemma Keeps.exit (hat : s.At p .run) (hp : p ≠ initproc) : Keeps s (s.on (s.exit p)) := by
  obtain ⟨-, hw, hself, -, -, -, hn⟩ := exited hp s.toTable
  refine ⟨hn, fun q hq => ?_⟩
  by_cases hqp : q = p
  · rw [hqp]
    exact ⟨by grind, hself.1⟩
  · have := (hw q hqp).state
    exact ⟨by grind, (hw q hqp).pid⟩

lemma Move.keeps (hm : Move s e s' r) (hf : Forks s) (h : allocates (e, r) = false) : Keeps s s' := by
  cases hm with
  | alloc => cases h
  | exit hat hp => exact .exit hat hp
  | wait hat hw => exact hw.keeps hat.1
  | resume hat hpc hw =>
    obtain ⟨hn, hpid⟩ := hw.keeps (by simp)
    refine ⟨hn, fun q hq => ?_⟩
    have := hpid q hq
    grind
  | ready hat =>
    have hchild := hf.child hat
    exact ⟨rfl, fun q hq => by grind⟩
  | _ => exact ⟨rfl, fun q hq => by grind⟩

lemma Move.alloc_inv (hm : Move s e s' r) (h : allocates (e, r) = true) :
    ∃ p np, s' = (s.on (s.allocproc np)).goto p (.fork .stack np) := by
  cases hm with
  | alloc hat hnp => exact ⟨_, _, rfl⟩
  | _ => cases h

lemma Wait.reaps {x : Int32} (hw : Wait s p s' (some x)) (hx : x ≠ -1) :
    ∃ q, s.DeadChild p q ∧ (s.slot q).pid = x ∧ (s'.slot q).state = .unused := by
  generalize hr : some x = r at hw
  cases hw with
  | @reap q hq => exact ⟨q, hq, (Option.some.inj hr).symm, by grind⟩
  | leave => exact absurd (Option.some.inj hr) hx
  | sleep => cases hr

lemma Move.reaps {x : Int32} (hm : Move s e s' (some x)) (he : e = .wait p ∨ e = .schedule p)
    (hx : x ≠ -1) : ∃ q, s.DeadChild p q ∧ (s.slot q).pid = x ∧ (s'.slot q).state = .unused := by
  generalize hr : some x = r at hm
  cases hm with
  | wait hat hw =>
    obtain rfl : _ = p := by simpa using he
    subst hr
    exact hw.reaps hx
  | resume hat hpc hw =>
    obtain rfl : _ = p := by simpa using he
    subst hr
    obtain ⟨q, hq⟩ := hw.reaps hx
    exact ⟨q, by grind⟩
  | _ => simp_all

lemma waited_eq_some {l : Event × Option Int32} {x : Int32} (h : waited l = some x) :
    l.2 = some x ∧ x ≠ -1 ∧ ∃ p, l.1 = .wait p ∨ l.1 = .schedule p := by
  obtain ⟨e, r⟩ := l
  unfold waited at h
  split at h <;> grind -linarith

structure Pids (n : ℕ) (xs : List Int32) (s : State) : Prop where
  nextpid : s.nextpid.toInt = n + 1
  range : ∀ q, (s.slot q).state ≠ .unused → 0 < (s.slot q).pid.toInt ∧
    (s.slot q).pid.toInt < s.nextpid.toInt
  distinct : ∀ q q', (s.slot q).state ≠ .unused → (s.slot q').state ≠ .unused →
    (s.slot q).pid = (s.slot q').pid → q = q'
  past : ∀ x ∈ xs, 0 < x.toInt ∧ x.toInt < s.nextpid.toInt
  gone : ∀ x ∈ xs, ∀ q, (s.slot q).state ≠ .unused → (s.slot q).pid ≠ x
  once : xs.Nodup

lemma toInt_succ {n : Int32} (h0 : 0 ≤ n.toInt) (h : n.toInt + 1 < 2 ^ 31) :
    (n + 1).toInt = n.toInt + 1 := by
  have h1 : (1 : Int32).toInt = 1 := rfl
  rw [Int32.toInt_add, h1]
  exact Int.bmod_eq_of_le (by omega) (by omega)

lemma allocated_append (ls : List (Event × Option Int32)) (l : Event × Option Int32) :
    allocated (ls ++ [l]) = allocated ls + if allocates l then 1 else 0 := by
  simp [allocated, List.countP_append, List.countP_singleton, Nat.add_assoc]

lemma Pids.alloc {n : ℕ} {xs : List Int32} (h : Pids n xs s) (hb : n + 1 < 2 ^ 31 - 1)
    (pc : Pc) : Pids (n + 1) xs ((s.on (s.allocproc np)).goto p pc) := by
  have hn := h.nextpid
  have hnext := toInt_succ (n := s.nextpid) (by omega) (by omega)
  generalize ht : (s.on (s.allocproc np)).goto p pc = t
  have htn : t.nextpid.toInt = s.nextpid.toInt + 1 := by rw [← ht]; exact hnext
  have hpid : (t.slot np).pid = s.nextpid := by simp [← ht]
  have hother : ∀ q, q ≠ np → t.slot q = s.slot q := fun q hq => by simp [← ht, hq]
  -- the new pid is larger than all others
  have hfresh : ∀ q, q ≠ np → (t.slot q).state ≠ .unused → (t.slot q).pid ≠ s.nextpid :=
    fun q hq hu he => by
    rw [hother q hq] at hu he
    have := (h.range q hu).2
    rw [he] at this
    exact lt_irrefl _ this
  refine ⟨by omega, fun q hq => ?_, fun q q' hq hq' he => ?_, fun x hx => ?_, fun x hx q hq => ?_, h.once⟩
  · by_cases hqn : q = np
    · rw [hqn, hpid]
      omega
    · rw [hother q hqn] at hq ⊢
      have := h.range q hq
      omega
  · by_cases hqn : q = np <;> by_cases hqn' : q' = np
    · rw [hqn, hqn']
    · rw [hqn, hpid] at he
      exact absurd he.symm (hfresh q' hqn' hq')
    · rw [hqn', hpid] at he
      exact absurd he (hfresh q hqn hq)
    · rw [hother q hqn, hother q' hqn'] at *
      exact h.distinct q q' hq hq' he
  · have := h.past x hx
    omega
  · by_cases hqn : q = np
    · rw [hqn, hpid]
      rintro rfl
      exact lt_irrefl _ (h.past _ hx).2
    · rw [hother q hqn] at hq ⊢
      exact h.gone x hx q hq

lemma Pids.keep {n : ℕ} {xs : List Int32} (h : Pids n xs s) (hk : Keeps s s') : Pids n xs s' := by
  obtain ⟨hn, hpid⟩ := hk
  refine ⟨hn ▸ h.nextpid, fun q hq => ?_, fun q q' hq hq' he => ?_, hn ▸ h.past,
    fun x hx q hq => ?_, h.once⟩
  · rw [(hpid q hq).2, hn]
    exact h.range q (hpid q hq).1
  · rw [(hpid q hq).2, (hpid q' hq').2] at he
    exact h.distinct q q' (hpid q hq).1 (hpid q' hq').1 he
  · rw [(hpid q hq).2]
    exact h.gone x hx q (hpid q hq).1

lemma Pids.reap {n : ℕ} {xs : List Int32} (h : Pids n xs s) (hk : Keeps s s')
    (hq : (s.slot q).state ≠ .unused)
    (hu : (s'.slot q).state = .unused) : Pids n (xs ++ [(s.slot q).pid]) s' := by
  obtain ⟨h1, h2, h3, h4, h5, h6⟩ := h.keep hk
  have hr := h.range q hq
  have hd := h.distinct q
  refine ⟨h1, h2, h3, fun x hx => ?_, fun x hx => ?_, ?_⟩
  · rcases List.mem_append.mp hx with hx | hx
    · exact h4 x hx
    · rw [List.mem_singleton.mp hx, hk.nextpid]
      exact hr
  · rcases List.mem_append.mp hx with hx | hx
    · exact h5 x hx
    · intro q' hq' he
      obtain ⟨hu', hp'⟩ := hk.pid q' hq'
      rw [List.mem_singleton.mp hx, hp'] at he
      exact hq' (hd q' hq hu' he.symm ▸ hu)
  · exact List.Nodup.append h6 (List.nodup_singleton _)
      (List.disjoint_singleton.mpr fun hx => h.gone _ hx q hq rfl)

lemma Pids.step {ls : List (Event × Option Int32)} (h : Pids (allocated ls) (ls.filterMap waited) s)
    (hf : Forks s) (hm : Move s e s' r) (hb : allocated (ls ++ [(e, r)]) < 2 ^ 31 - 1) :
    Pids (allocated (ls ++ [(e, r)])) ((ls ++ [(e, r)]).filterMap waited) s' := by
  rw [allocated_append, List.filterMap_append] at *
  cases ha : allocates (e, r) with
  | true =>
    obtain ⟨p, np, rfl⟩ := hm.alloc_inv ha
    have hw : waited (e, r) = none := by
      unfold allocates at ha
      split at ha <;> simp_all [waited]
    simp only [List.filterMap_cons, hw, List.filterMap_nil, List.append_nil, if_true]
    rw [ha] at hb
    exact h.alloc hb _
  | false =>
    have hk := hm.keeps hf ha
    cases hw : waited (e, r) with
    | none => simpa [hw] using h.keep hk
    | some x =>
      obtain ⟨hr, hne, p, hp⟩ := waited_eq_some hw
      dsimp only at hr hp
      subst hr
      obtain ⟨q, hq, rfl, hu⟩ := hm.reaps hp hne
      simpa [hw] using h.reap hk (by rw [hq.2]; decide) hu

lemma forks_init : Forks init := by
  refine ⟨fun p k q hp => (by cases hp), fun p p' q hp => (by cases hp), fun q hq => ?_⟩
  rw [init_toTable, userinit_slot] at hq
  split_ifs at hq

lemma tree_init : Tree init := by
  have hpar : ∀ q, (init.slot q).parent = none := fun q => by
    rw [init_toTable, userinit_slot]
    split_ifs <;> rfl
  refine ⟨.inr (.inl rfl), hpar _, fun q hq hs => ?_, fun q r hr => ?_, fun q _ => hpar q,
    fun p hp => (by cases hp), fun p q hp => (by cases hp)⟩
  · simp [Alive, userinit_slot, hq] at hs
  · rw [hpar] at hr
    cases hr

lemma pids_init : Pids (allocated []) ([].filterMap waited) init := by
  refine ⟨rfl, fun q hq => ?_, ?_, by simp, by simp, by simp⟩
  · obtain rfl : q = initproc := by grind -linarith [userinit_slot]
    exact ⟨by decide, by decide⟩
  · grind -linarith [userinit_slot]

lemma run_forks_tree {ls : List (Event × Option Int32)} (h : Run Step init ls s) : Forks s ∧ Tree s := by
  refine h.state_invariant (P := fun s => Forks s ∧ Tree s) ⟨forks_init, tree_init⟩ ?_
  rintro s l s' ⟨hf, ht⟩ hl
  have hm := move_of_step hl
  exact ⟨hf.step ht hm, ht.step hf hm⟩

lemma run_pids {ls : List (Event × Option Int32)} (h : Run Step init ls s)
    (hb : allocated ls < 2 ^ 31 - 1) : Pids (allocated ls) (ls.filterMap waited) s := by
  induction h with
  | nil => exact pids_init
  | snoc hr hl ih =>
    have hle := hb
    rw [allocated_append] at hle
    exact (ih (by omega)).step (run_forks_tree hr).1 (move_of_step hl) hb

theorem process_family {ls : List (Event × Option Int32)} (h : Run Step init ls s)
    (hb : allocated ls < 2 ^ 31 - 1) :
    (∀ q, q ≠ initproc → (s.slot q).state ∈ [ProcState.sleeping, .runnable, .running, .zombie] →
      ∃ r, (s.slot q).parent = some r ∧ (s.slot r).state ≠ .unused ∧ (s.slot r).state ≠ .zombie) ∧
    (∀ q, (s.slot q).state = .unused → (s.slot q).parent = none) ∧
    (∀ q q', (s.slot q).state ≠ .unused → (s.slot q').state ≠ .unused →
      (s.slot q).pid = (s.slot q').pid → q = q') ∧
    (∀ p q, s.pc p = .wait → (s.slot p).state = .sleeping → (s.slot q).parent = some p →
      (s.slot q).state ≠ .zombie) ∧
    (ls.filterMap waited).Nodup ∧
    (∀ p e s' x, e = .wait p ∨ e = .schedule p → Step s (e, some x) s' → x ≠ -1 →
      ∃ q, (s.slot q).state = .zombie ∧ (s.slot q).pid = x ∧ (s.slot q).parent = some p ∧
        (s'.slot q).state = .unused) := by
  obtain ⟨hf, ht⟩ := run_forks_tree h
  have hp := run_pids h hb
  refine ⟨fun q hq hs => ?_, ht.unused, hp.distinct, ht.waits, hp.once, fun p e s' x he hl hx => ?_⟩
  · obtain ⟨r, hr⟩ := Option.ne_none_iff_exists'.mp (ht.orphan q hq (by unfold Alive; grind -linarith))
    have hlive := (ht.parent q r hr).1
    exact ⟨r, hr, by grind, by grind⟩
  · obtain ⟨q, hq, hqx, hu⟩ := (move_of_step hl).reaps he hx
    exact ⟨q, hq.2, hqx, hq.1, hu⟩

theorem process_family_one_child :
    ∃ s, Run Step init ((.schedule 0, none) :: forkChild 2 ++ waitChild) s ∧
    (s.slot 1).parent = none ∧ (s.slot 1).pid = 0 := by
  obtain ⟨s, hs, hu, hpid⟩ : ∃ s ∈ exec play init ((.schedule 0, none) :: forkChild 2 ++ waitChild),
    (s.slot 1).state = .unused ∧ (s.slot 1).pid = 0 := by decide +kernel
  exact ⟨s, run_of_play hs, (process_family (run_of_play hs) (by decide)).2.1 1 hu, hpid⟩

end Xv6.Family.State
