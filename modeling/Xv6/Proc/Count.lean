import Xv6.Proc.Parents

namespace Xv6.Family

open Lib
open Proc (ProcState)

def Table.sys_getpcount (t : Table) : ℕ :=
  (List.finRange NPROC).foldl (fun count p =>
    if (t.slot p).state = .embryo then count + 1
    else if (t.slot p).state = .sleeping then count + 1
    else if (t.slot p).state = .runnable then count + 1
    else if (t.slot p).state = .running then count + 1
    else if (t.slot p).state = .zombie then count + 1
    else count) 0

namespace State

variable {s s' : State} {p q np : Index} {e : Event} {r : Option Int32} {ls : List (Event × Option Int32)}

def forked : Event × Option Int32 → Option Int32
  | (.fork _, some pid) | (.stack _ _, some pid) | (.copy _ _, some pid) | (.ready _, some pid) =>
    if 0 < pid.toInt then some pid else none
  | _ => none

def Settled (s : State) (q : Index) : Prop := (s.slot q).state ≠ .unused ∧ (s.slot q).state ≠ .embryo

instance (s : State) : DecidablePred s.Settled := fun _ => inferInstanceAs (Decidable (_ ∧ _))

def settled (s : State) : Finset Index := Finset.univ.filter s.Settled

lemma mem_settled : q ∈ s.settled ↔ s.Settled q := by
  rw [settled, Finset.mem_filter]
  exact and_iff_right (Finset.mem_univ q)

lemma settled_congr (h : ∀ q, s'.Settled q ↔ s.Settled q) : s'.settled = s.settled := by
  ext q
  rw [mem_settled, mem_settled, h q]

inductive Turnover (s s' : State) (l : Event × Option Int32) : Prop
  | none (h : s'.settled = s.settled) (hf : forked l = .none) (hw : waited l = .none)
  | join (q : Index) (hq : q ∉ s.settled) (h : s'.settled = insert q s.settled)
      (hf : forked l ≠ .none) (hw : waited l = .none)
  | leave (q : Index) (hq : q ∈ s.settled) (h : s'.settled = s.settled.erase q)
      (hf : forked l = .none) (hw : waited l ≠ .none)

attribute [local grind] At Settled Table.DeadChild

lemma Wait.turnover (hw : Wait s p s' r) (hpid : ∀ q, (s.slot q).state ≠ .unused →
    0 < (s.slot q).pid.toInt)
    (hp : (s.slot p).state = .running) (he : e = .wait p ∨ e = .schedule p) : Turnover s s' (e, r) := by
  have hf : ∀ r, forked (e, r) = .none := fun r => by rcases he with rfl | rfl <;> rfl
  have hnone : waited (e, .none) = .none := by rcases he with rfl | rfl <;> rfl
  cases hw with
  | @reap q hq =>
    have hpos := hpid q (by grind)
    have hne : (s.slot q).pid ≠ -1 := by
      intro h
      rw [h] at hpos
      exact absurd hpos (by decide)
    refine .leave q (mem_settled.mpr (by grind)) ?_ (hf _) ?_
    · ext x
      rw [Finset.mem_erase, mem_settled, mem_settled]
      grind
    · rcases he with rfl | rfl <;> simp [waited, hne]
  | leave hno =>
    refine .none (settled_congr fun x => ?_) (hf _) ?_
    · grind
    · rcases he with rfl | rfl <;> simp [waited]
  | sleep hno =>
    refine .none (settled_congr fun x => ?_) (hf _) hnone
    grind

lemma Turnover.same (h : ∀ q, s'.Settled q ↔ s.Settled q) (hf : forked (e, r) = .none)
    (hw : waited (e, r) = .none) : Turnover s s' (e, r) := .none (settled_congr h) hf hw

lemma Turnover.exit (hat : s.At p .run) (hp : p ≠ initproc) :
    Turnover s (s.on (s.exit p)) (.exit p, .none) := by
  obtain ⟨hdead, hw, -⟩ := Table.exited hp s.toTable
  refine .same (fun q => ?_) rfl rfl
  by_cases hq : q = p
  · grind
  · have := (hw q hq).state
    grind

lemma Turnover.ready (he : (s.slot np).state = .embryo)
    (hpos : 0 < (s.slot np).pid.toInt) :
    Turnover s ((s.on (s.setState np .runnable)).goto p .run) (.ready p, some (s.slot np).pid) := by
  refine .join np (fun h => (mem_settled.mp h).2 he) ?_ (by simp [forked, hpos]) rfl
  ext q
  rw [Finset.mem_insert, mem_settled, mem_settled]
  grind

lemma Move.turnover (hm : Move s e s' r) (hF : Forks s)
    (hpid : ∀ q, (s.slot q).state ≠ .unused → 0 < (s.slot q).pid.toInt) : Turnover s s' (e, r) := by
  have hnp : ∀ {p np k}, s.At p (.fork k np) → (s.slot np).state = .embryo := fun hat => (hF.child hat).1
  cases hm with
  | exit hat hp => exact .exit hat hp
  | ready hat => exact .ready (hnp hat) (hpid _ (by rw [hnp hat]; decide))
  | wait hat hw => exact hw.turnover hpid hat.1 (.inl rfl)
  | @resume p _ _ hat hpc hw =>
    have ht := hw.turnover (by grind) (by simp) (.inr rfl)
    have hs : (s.on (s.update p (fun x =>
      { x with state := .running, chan := none }))).settled = s.settled :=
      settled_congr fun q => by grind
    cases ht with
    | none h hf hw => exact .none (h.trans hs) hf hw
    | join q hq h hf hw => exact .join q (hs ▸ hq) (hs ▸ h) hf hw
    | leave q hq h hf hw => exact .leave q (hs ▸ hq) (hs ▸ h) hf hw
  | noStack hat =>
    have := hnp hat
    exact .same (fun q => by grind) rfl rfl
  | noMemory hat =>
    have := hnp hat
    exact .same (fun q => by grind) rfl rfl
  | adopt hat =>
    have := hnp hat
    exact .same (fun q => by grind) rfl rfl
  | kill hat hq =>
    exact .same (fun q => by grind) rfl rfl
  | _ => exact .same (fun q => by grind) rfl rfl

lemma length_filterMap_snoc (f : Event × Option Int32 → Option Int32) (l : Event × Option Int32) :
    ((ls ++ [l]).filterMap f).length = (ls.filterMap f).length + if f l = none then 0 else 1 := by
  rw [List.filterMap_append, List.length_append]
  cases h : f l <;> simp [h]

lemma Turnover.count {l : Event × Option Int32} (h : Turnover s s' l)
    (hn : s.settled.card + (ls.filterMap waited).length = 1 + (ls.filterMap forked).length) :
    s'.settled.card + ((ls ++ [l]).filterMap waited).length =
      1 + ((ls ++ [l]).filterMap forked).length := by
  rw [length_filterMap_snoc, length_filterMap_snoc]
  cases h with
  | none h hf hw =>
    rw [h, if_pos hf, if_pos hw]
    exact hn
  | join q hq h hf hw =>
    rw [h, Finset.card_insert_of_notMem hq, if_neg hf, if_pos hw]
    omega
  | leave q hq h hf hw =>
    have := Finset.card_erase_add_one hq
    rw [h, if_pos hf, if_neg hw]
    omega

lemma settled_init : init.settled.card = 1 := by
  have h : init.settled = {initproc} := by
    ext q
    rw [mem_settled, Finset.mem_singleton]
    grind [Table.userinit_slot]
  rw [h, Finset.card_singleton]

lemma run_settled (h : Run Step init ls s) (hb : allocated ls < 2 ^ 31 - 1) :
    s.settled.card + (ls.filterMap waited).length = 1 + (ls.filterMap forked).length := by
  induction h with
  | nil => exact congrArg (· + 0) settled_init
  | @snoc es _ _ _ hr hl ih =>
    rw [allocated_append] at hb
    have hle : allocated es < 2 ^ 31 - 1 := by omega
    have hpid := fun q hq => ((run_pids hr hle).range q hq).1
    exact ((move_of_step hl).turnover (run_forks_tree hr).1 hpid).count (ih hle)

end State

lemma Table.sys_getpcount_eq (t : Table) :
    t.sys_getpcount = (Finset.univ.filter fun p => (t.slot p).state ≠ .unused).card := by
  -- The five tests leave out one state of the six.
  have hone : ∀ p n, (if (t.slot p).state = .embryo then n + 1
    else if (t.slot p).state = .sleeping then n + 1
      else if (t.slot p).state = .runnable then n + 1 else if (t.slot p).state = .running then n + 1
      else if (t.slot p).state = .zombie then n + 1 else n) =
        n + if (t.slot p).state ≠ .unused then 1 else 0 := by
    intro p n
    cases (t.slot p).state <;> rfl
  simp only [sys_getpcount, hone]
  rw [Finset.card_filter, Fin.sum_univ_def, List.sum_eq_foldl, List.foldl_map]

namespace State

variable {s : State} {ls : List (Event × Option Int32)}

lemma Forks.settled_eq (h : Forks s) (hno : ∀ p, (s.pc p).np = none) :
    s.settled = Finset.univ.filter fun p => (s.slot p).state ≠ .unused := by
  refine Finset.filter_congr fun q _ => and_iff_left_of_imp fun _ he => ?_
  obtain ⟨p, hp⟩ := h.embryo q he
  rw [hno p] at hp
  cases hp

theorem getpcount_exact (h : Run Step init ls s) (hb : allocated ls < 2 ^ 31 - 1)
    (hno : ∀ p, (s.pc p).np = none) :
    (s.sys_getpcount : ℤ) = 1 + (ls.filterMap forked).length - (ls.filterMap waited).length := by
  have hn := run_settled h hb
  rw [(run_forks_tree h).1.settled_eq hno, ← Table.sys_getpcount_eq] at hn
  omega

def twoForks : List (Event × Option Int32) :=
  (.schedule 0, none) :: forkChild 2 ++ forkChild 3 ++
    [(.fork 0, none), (.stack 0 false, some (-1))] ++ waitChild

theorem getpcount_exact_two_left : ∃ s, Run Step init twoForks s ∧ s.sys_getpcount = 2 := by
  obtain ⟨s, hs, hno⟩ : ∃ s ∈ exec play init twoForks, ∀ p, (s.pc p).np = none := by decide +kernel
  have hn := getpcount_exact (run_of_play hs) (by decide) hno
  have hf : (1 : ℤ) + 2 - 1 = 2 := rfl
  exact ⟨s, run_of_play hs, by exact_mod_cast hn.trans hf⟩

end State

end Xv6.Family
