import Xv6.Proc.Family

namespace Xv6.Family.State

open Lib
open Proc (ProcState)
open Table (exited find_some userinit_slot)

variable {s s' : State} {p q np : Index} {e : Event} {r : Option Int32}

def Fresh (s : State) : Prop := ∀ q, (s.slot q).state = .unused → (s.slot q).killed = false

def Careful (s : State) : Event → Prop
  | .kill _ pid => ∀ q, s.find (fun x => x.pid = pid) = some q → (s.slot q).state ≠ .unused
  | .stack p false => ∀ np, s.child p .stack = some np → (s.slot np).killed = false
  | .copy p false => ∀ np, s.child p .copy = some np → (s.slot np).killed = false
  | _ => True

instance (s : State) : (e : Event) → Decidable (s.Careful e)
  | .kill _ pid =>
    inferInstanceAs (Decidable (∀ q, s.find (fun x => x.pid = pid) = some q → (s.slot q).state ≠ .unused))
  | .stack p false =>
    inferInstanceAs (Decidable (∀ np, s.child p .stack = some np → (s.slot np).killed = false))
  | .copy p false =>
    inferInstanceAs (Decidable (∀ np, s.child p .copy = some np → (s.slot np).killed = false))
  | .stack _ true | .copy _ true | .fork _ | .adopt _ | .ready _ | .exit _ | .wait _ | .sleep _ _
    | .wakeup _
  | .yield _ | .schedule _ => isTrue trivial

def CarefulStep (s : State) (l : Event × Option Int32) (s' : State) : Prop := Step s l s' ∧ s.Careful l.1

def playCareful (s : State) (l : Event × Option Int32) : Option State :=
    if s.Careful l.1 then s.play l else none

lemma run_of_playCareful {ls : List (Event × Option Int32)} (h : exec playCareful s ls = some s') :
    Run CarefulStep s ls s' := by
  refine (run_of_exec h).mono fun _ _ _ hl => ?_
  obtain ⟨hc, hl⟩ := Option.ite_none_right_eq_some.mp hl
  exact ⟨step_of_play hl, hc⟩

attribute [local grind] At Fresh

lemma Fresh.exit (h : Fresh s) (hat : s.At p .run) (hp : p ≠ initproc) : Fresh (s.on (s.exit p)) := by
  obtain ⟨hdead, hw, -⟩ := exited hp s.toTable
  intro q hq
  have hqp : q ≠ p := by
    rintro rfl
    rw [on_toTable, hdead] at hq
    cases hq
  rw [on_toTable, (hw q hqp).killed]
  exact h q (by have := (hw q hqp).state; grind)

lemma Wait.fresh (hw : Wait s p s' r) (h : Fresh s) : Fresh s' := by
  cases hw <;> grind

lemma fresh_undo (h : Fresh s) :
    Fresh (s.undo p np) ↔ (s.slot np).killed = false := by
  constructor
  · intro hu
    have := hu np
    grind
  · grind

lemma Move.fresh_iff (hm : Move s e s' r) (h : Fresh s) : Fresh s' ↔ s.Careful e := by
  cases hm with
  | @kill p q pid hat hq =>
    constructor
    · intro hu q' hq'
      obtain rfl := Option.some.inj (hq.symm.trans hq')
      have := hu q
      grind
    · intro hc
      have := hc q hq
      grind
  | noPid hat hno =>
    refine iff_of_true h fun q hq => absurd (find_some hq) ?_
    simpa using hno q
  | noStack hat =>
    rw [fresh_undo h]
    simp [Careful, child_eq_some.mpr hat]
  | noMemory hat =>
    rw [fresh_undo h]
    simp [Careful, child_eq_some.mpr hat]
  | exit hat hp => exact iff_of_true (h.exit hat hp) trivial
  | wait hat hw => exact iff_of_true (hw.fresh h) trivial
  | resume hat hpc hw => exact iff_of_true (hw.fresh (by grind)) trivial
  | _ => exact iff_of_true (by grind) trivial

lemma fresh_init : Fresh init := by
  grind [userinit_slot]

lemma run_fresh {ls : List (Event × Option Int32)} (h : Run CarefulStep init ls s) : Fresh s :=
  h.state_invariant (P := Fresh) fresh_init fun _ _ _ hs hl => ((move_of_step hl.1).fresh_iff hs).mpr hl.2

lemma Wait.unharmed {x : Int32} (hw : Wait s p s' r)
    (h : (s.slot q).pid = x → (s.slot q).killed = false) :
    (s'.slot q).pid = x → (s'.slot q).killed = false := by
  cases hw <;> grind

lemma Move.unharmed {x : Int32} (hm : Move s e s' r) (hs : Fresh s) (hk : ∀ p, e ≠ .kill p x)
    (h : (s.slot q).pid = x → (s.slot q).killed = false) :
    (s'.slot q).pid = x → (s'.slot q).killed = false := by
  cases hm with
  | @kill p q' pid hat hq' =>
    have hpid : (s.slot q').pid = pid := by simpa using find_some hq'
    have hne : pid ≠ x := fun he => hk p (he ▸ rfl)
    grind
  | @exit p hat hp =>
    obtain ⟨-, hw, hself, -⟩ := exited hp s.toTable
    by_cases hq : q = p
    · rw [hq] at h ⊢
      rw [on_toTable, hself.1, hself.2]
      exact h
    · rw [on_toTable, (hw q hq).pid, (hw q hq).killed]
      exact h
  | wait hat hw => exact hw.unharmed h
  | resume hat hpc hw => exact hw.unharmed (by grind)
  | _ => grind

lemma run_unharmed {ls : List (Event × Option Int32)} {s1 s2 : State} {x : Int32} (hs : Fresh s1)
    (h : Run CarefulStep s1 ls s2) (hk : ∀ l ∈ ls, ∀ p, l.1 ≠ .kill p x)
    (hq : (s1.slot q).pid = x → (s1.slot q).killed = false) :
    (s2.slot q).pid = x → (s2.slot q).killed = false := by
  suffices Fresh s2 ∧ ((s2.slot q).pid = x → (s2.slot q).killed = false) from this.2
  induction h with
  | nil => exact ⟨hs, hq⟩
  | snoc hr hl ih =>
    obtain ⟨hf, ih⟩ := ih fun l hm => hk l (List.mem_append_left _ hm)
    have hm := move_of_step hl.1
    exact ⟨(hm.fresh_iff hf).mpr hl.2, hm.unharmed hf (hk _ (by simp)) ih⟩

lemma Move.kill_result {pid : Int32} (hm : Move s (.kill p pid) s' r) (hc : s.Careful (.kill p pid)) :
    r = some 0 ↔ ∃ q, (s.slot q).state ≠ .unused ∧ (s.slot q).pid = pid := by
  cases hm with
  | kill hat hq => exact iff_of_true rfl ⟨_, hc _ hq, by simpa using find_some hq⟩
  | noPid hat hno => exact iff_of_false (by decide) fun ⟨q, _, hq⟩ => hno q hq

theorem kill_touches_live {ls : List (Event × Option Int32)} (h : Run CarefulStep init ls s) :
    (∀ q, (s.slot q).state = .unused → (s.slot q).killed = false) ∧
    (∀ l s', Step s l s' → ((∀ q, (s'.slot q).state = .unused → (s'.slot q).killed = false) ↔
    s.Careful l.1)) ∧ (∀ p s₁ np, Step s (.fork p, none) s₁ → s₁.pc p = .fork .stack np →
      ∀ ls' s₂, Run CarefulStep s₁ ls' s₂ → (∀ l ∈ ls', ∀ p', l.1 ≠ .kill p' (s₁.slot np).pid) →
        (s₂.slot np).pid = (s₁.slot np).pid → (s₂.slot np).killed = false) ∧
    (∀ p pid r s', CarefulStep s (.kill p pid, r) s' →
      (r = some 0 ↔ ∃ q, (s.slot q).state ≠ .unused ∧ (s.slot q).pid = pid)) := by
  have hf := run_fresh h
  refine ⟨hf, fun l s' hl => (move_of_step hl).fresh_iff hf, fun p s₁ np hl hnp ls' s₂ hr hk => ?_,
    fun p pid r s' hl => (move_of_step hl.1).kill_result hl.2⟩
  have hm := move_of_step hl
  refine run_unharmed ((hm.fresh_iff hf).mpr trivial) hr hk fun _ => ?_
  cases hm with
  | alloc hat hu => grind

theorem kill_touches_live_child : ∃ s,
    Run CarefulStep init ((.schedule 0, none) :: forkChild 2 ++ [(.kill 0 2, some 0)]) s ∧
    (s.slot 1).killed = true ∧ ∀ q, (s.slot q).state = .unused → (s.slot q).killed = false := by
  obtain ⟨s, hs, hk⟩ : ∃ s ∈ exec playCareful init
    ((.schedule 0, none) :: forkChild 2 ++ [(.kill 0 2, some 0)]),
    (s.slot 1).killed = true := by decide +kernel
  exact ⟨s, run_of_playCareful hs, hk, (kill_touches_live (run_of_playCareful hs)).1⟩

theorem kill_zero_marks_next_child : ∃ s₁ s₂,
    Run Step init [(.schedule 0, none), (.kill 0 0, some 0)] s₁ ∧
    (∀ q, (s₁.slot q).state ≠ .unused → (s₁.slot q).pid ≠ 0) ∧
    (s₁.slot 1).state = .unused ∧ (s₁.slot 1).killed = true ∧
    Run Step s₁ (forkChild 2) s₂ ∧
    (s₂.slot 1).state = .runnable ∧ (s₂.slot 1).pid = 2 ∧ (s₂.slot 1).killed = true := by
  obtain ⟨s₁, hs₁, hno, hu, hk, s₂, hs₂, hchild⟩ :
    ∃ s₁ ∈ exec play init [(.schedule 0, none), (.kill 0 0, some 0)],
    (∀ q, (s₁.slot q).state ≠ .unused → (s₁.slot q).pid ≠ 0) ∧ (s₁.slot 1).state = .unused ∧
      (s₁.slot 1).killed = true ∧ ∃ s₂ ∈ exec play s₁ (forkChild 2),
        (s₂.slot 1).state = .runnable ∧ (s₂.slot 1).pid = 2 ∧
        (s₂.slot 1).killed = true := by decide +kernel
  exact ⟨s₁, s₂, run_of_play hs₁, hno, hu, hk, run_of_play hs₂, hchild⟩

end Xv6.Family.State
