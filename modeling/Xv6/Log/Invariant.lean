import Xv6.Log.Ops

namespace Xv6.Log

open Lib

namespace Sys

lemma set_proc (s : Sys) (p : ℕ) (q : Proc) (r : ℕ) :
    (s.set p q).proc r = if r = p then q else s.proc r :=
  rfl

@[simp] lemma set_log (s : Sys) (p : ℕ) (q : Proc) : (s.set p q).log = s.log := rfl
@[simp] lemma wakeup_log (s : Sys) : s.wakeup.log = s.log := rfl
@[simp] lemma wakeup_proc (s : Sys) (p : ℕ) : s.wakeup.proc p = (s.proc p).wake := rfl

inductive Move (s : Sys) : Event → Sys → Prop
  | sleep {p : ℕ} : s.proc p = .idle ∨ s.proc p = .trying → s.log.beginOp = none →
      Move s (.beginOp p) (s.set p .asleep)
  | start {p : ℕ} : s.proc p = .idle ∨ s.proc p = .trying → s.log.committing = false →
      s.log.lh.length + (s.log.outstanding + 1) * MAXOPBLOCKS ≤ LOGSIZE →
      Move s (.beginOp p)
        ({ s with
          log := { s.log with outstanding := s.log.outstanding + 1 }, nextOp := s.nextOp + 1 }.set p
          (.running s.nextOp))
  | check {p op b : ℕ} : s.proc p = .running op → s.log.lh.length < LOGSIZE →
      (s.log.lh.length : ℤ) < s.log.size - 1 → Move s (.logWriteCheck p b) (s.set p (.appending op b))
  | checkPanic {p op b : ℕ} {e : Panic} : s.proc p = .running op → s.log.logWriteCheck = .error e →
      e ≠ .logCommitting → Move s (.logWriteCheck p b) { s with panic := some e }
  | append {p op b : ℕ} : s.proc p = .appending op b →
      Move s (.logWriteAppend p) ({ s with log := s.log.logWriteAppend b }.set p (.running op))
  | endPanic {p op : ℕ} : s.proc p = .running op → s.log.committing = true →
      Move s (.endOp p) { s with panic := some .logCommitting }
  | endLast {p op : ℕ} : s.proc p = .running op → s.log.committing = false → s.log.outstanding = 1 →
      Move s (.endOp p)
        ({ s with log := { s.log with outstanding := 0, committing := true } }.set p
          (.committing (firstStage s.log.lh.length)))
  | endMore {p op : ℕ} : s.proc p = .running op → s.log.committing = false → s.log.outstanding ≠ 1 →
      Move s (.endOp p)
        ({ s with log := { s.log with outstanding := s.log.outstanding - 1 } }.set p .idle).wakeup
  | commit {p : ℕ} {st : Stage} : s.proc p = .committing st → Move s (.commitStep p) (s.commitStep p st)

lemma beginOp_move {s : Sys} {p : ℕ} (h : s.proc p = .idle ∨ s.proc p = .trying) :
    Move s (.beginOp p) (s.beginOp p) := by
  unfold beginOp
  cases hb : s.log.beginOp with
  | none => exact .sleep h hb
  | some l =>
    simp only [LogState.beginOp] at hb
    split_ifs at hb with hc hf
    cases hb
    exact .start h (by simpa using hc) (by omega)

lemma logWriteCheck_move {s : Sys} {p op : ℕ} (b : ℕ) (h : s.proc p = .running op) :
    Move s (.logWriteCheck p b) (s.logWriteCheck p op b) := by
  unfold logWriteCheck
  cases hc : s.log.logWriteCheck with
  | error e =>
    refine .checkPanic h hc ?_
    simp only [LogState.logWriteCheck] at hc
    split_ifs at hc <;> cases hc <;> decide
  | ok u =>
    simp only [LogState.logWriteCheck] at hc
    split_ifs at hc with hb
    push Not at hb
    exact .check h hb.1 hb.2

lemma endOp_move {s : Sys} {p op : ℕ} (h : s.proc p = .running op) : Move s (.endOp p) (s.endOp p) := by
  by_cases hc : s.log.committing = true
  · simpa [endOp, LogState.endOp, hc] using Move.endPanic h hc
  · have hc' : s.log.committing = false := by simpa using hc
    by_cases ho : s.log.outstanding = 1
    · simpa [endOp, LogState.endOp, hc', ho] using Move.endLast h hc' ho
    · have ho' : s.log.outstanding - 1 ≠ 0 := by omega
      simpa [endOp, LogState.endOp, hc', ho'] using Move.endMore h hc' ho

lemma Step.move {s s' : Sys} {e : Event} (h : Step s e s') : s.panic = none ∧ Move s e s' := by
  unfold Step step at h
  split_ifs at h with hp
  refine ⟨by simpa using hp, ?_⟩
  cases e with
  | beginOp p =>
    cases hq : s.proc p <;> simp only [hq, reduceCtorEq, Option.some.injEq] at h <;> subst h
    · exact beginOp_move (.inl hq)
    · exact beginOp_move (.inr hq)
  | logWriteCheck p b =>
    cases hq : s.proc p <;> simp only [hq, reduceCtorEq, Option.some.injEq] at h
    exact h ▸ logWriteCheck_move b hq
  | logWriteAppend p =>
    cases hq : s.proc p <;> simp only [hq, reduceCtorEq, Option.some.injEq] at h
    exact h ▸ .append hq
  | endOp p =>
    cases hq : s.proc p <;> simp only [hq, reduceCtorEq, Option.some.injEq] at h
    exact h ▸ endOp_move hq
  | commitStep p =>
    cases hq : s.proc p <;> simp only [hq, reduceCtorEq, Option.some.injEq] at h
    exact h ▸ .commit hq

structure Inv (s : Sys) : Prop where
  counted : ∃ A : Finset ℕ, (∀ p, p ∈ A ↔ (s.proc p).op? ≠ none) ∧ s.log.outstanding = A.card
  quiet : s.log.committing = true → s.log.outstanding = 0
  committer : ∀ p, (s.proc p).stage? ≠ none → s.log.committing = true
  unique : ∀ p q, (s.proc p).stage? ≠ none → (s.proc q).stage? ≠ none → p = q
  no_panic : s.panic ≠ some .logCommitting

lemma Inv.outstanding_nonneg {s : Sys} (h : Inv s) : 0 ≤ s.log.outstanding := by
  obtain ⟨A, _, hA⟩ := h.counted
  omega

lemma Inv.outstanding_pos {s : Sys} (h : Inv s) {p : ℕ} (hp : (s.proc p).op? ≠ none) :
    0 < s.log.outstanding := by
  obtain ⟨A, hm, hA⟩ := h.counted
  have := Finset.card_pos.mpr ⟨p, (hm p).mpr hp⟩
  omega

lemma Inv.not_committing {s : Sys} (h : Inv s) {p : ℕ} (hp : (s.proc p).op? ≠ none) :
    s.log.committing = false := by
  by_contra hc
  have h1 := h.quiet (by simpa using hc)
  have h2 := h.outstanding_pos hp
  omega

lemma Inv.set {s : Sys} (h : Inv s) {l : LogState} {p : ℕ} {q : Proc}
    (ho : l.outstanding = s.log.outstanding) (hc : l.committing = s.log.committing)
    (hop : q.op? = none ↔ (s.proc p).op? = none) (hst : q.stage? = none ↔ (s.proc p).stage? = none) :
    Inv ({ s with log := l }.set p q) where
  counted := by
    obtain ⟨A, hm, hA⟩ := h.counted
    refine ⟨A, fun r => ?_, by simpa [ho] using hA⟩
    rw [hm r, set_proc]
    split_ifs with hr
    · subst hr
      exact not_congr hop.symm
    · rfl
  quiet := by simpa [ho, hc] using h.quiet
  committer r hr := by
    rw [set_proc] at hr
    rw [set_log, hc]
    split_ifs at hr with hrp
    · exact h.committer p (by rwa [ne_eq, ← hst])
    · exact h.committer r hr
  unique r r' hr hr' := by
    rw [set_proc] at hr hr'
    apply h.unique
    · split_ifs at hr with hrp
      · subst hrp
        rwa [ne_eq, ← hst]
      · exact hr
    · split_ifs at hr' with hrp
      · subst hrp
        rwa [ne_eq, ← hst]
      · exact hr'
  no_panic := h.no_panic

lemma Inv.wakeup {s : Sys} (h : Inv s) : Inv s.wakeup where
  __ := h
  counted := by simpa using h.counted
  committer p hp := h.committer p (by simpa using hp)
  unique p q hp hq := h.unique p q (by simpa using hp) (by simpa using hq)

lemma Inv.init (start size : ℕ) : Inv (init start size) where
  counted := ⟨∅, by simp [Sys.init, Proc.op?], by simp [Sys.init]⟩
  quiet := by simp [Sys.init]
  committer := by simp [Sys.init, Proc.stage?]
  unique := by simp [Sys.init, Proc.stage?]
  no_panic := by simp [Sys.init]

lemma Inv.start {s : Sys} (h : Inv s) {p : ℕ} (hp : s.proc p = .idle ∨ s.proc p = .trying)
    (hc : s.log.committing = false) :
    Inv ({ s with
      log := { s.log with outstanding := s.log.outstanding + 1 }, nextOp := s.nextOp + 1 }.set p
      (.running s.nextOp)) where
  counted := by
    obtain ⟨A, hm, hA⟩ := h.counted
    have hpA : p ∉ A := by
      rw [hm p]
      rcases hp with hp | hp <;> simp [hp, Proc.op?]
    refine ⟨insert p A, fun r => ?_, by simp [Finset.card_insert_of_notMem hpA, hA]⟩
    rw [set_proc, Finset.mem_insert]
    split_ifs with hr
    · simp [hr, Proc.op?]
    · simpa [hr] using hm r
  quiet := by simp [hc]
  committer r hr := by
    rw [set_proc] at hr
    split_ifs at hr with hrp
    · simp [Proc.stage?] at hr
    · exact h.committer r hr
  unique r r' hr hr' := by
    rw [set_proc] at hr hr'
    split_ifs at hr hr' with h1 h2 h2
    · exact absurd rfl hr
    · exact absurd rfl hr
    · exact absurd rfl hr'
    · exact h.unique r r' hr hr'
  no_panic := h.no_panic

lemma Inv.leave {s : Sys} (h : Inv s) {l : LogState} {p op : ℕ} {q : Proc} (hp : s.proc p = .running op)
    (ho : l.outstanding = s.log.outstanding - 1) (hc : l.committing = true → l.outstanding = 0)
    (hop : q.op? = none) (hst : q.stage? ≠ none → l.committing = true) :
    Inv ({ s with log := l }.set p q) where
  counted := by
    obtain ⟨A, hm, hA⟩ := h.counted
    have hpA : p ∈ A := by simp [hm p, hp, Proc.op?]
    have hcard := Finset.card_pos.mpr ⟨p, hpA⟩
    refine ⟨A.erase p, fun r => ?_, ?_⟩
    · rw [set_proc, Finset.mem_erase]
      split_ifs with hr
      · simp [hr, hop]
      · simpa [hr] using hm r
    · rw [set_log, ho, hA, Finset.card_erase_of_mem hpA]
      omega
  quiet := hc
  committer r hr := by
    rw [set_proc] at hr
    split_ifs at hr with hrp
    · exact hst hr
    · have := h.committer r hr
      rw [h.not_committing (p := p) (by simp [hp, Proc.op?])] at this
      exact absurd this (by decide)
  unique r r' hr hr' := by
    have hn : ∀ r, (s.proc r).stage? = none := by
      intro r
      by_contra hr
      have := h.committer r hr
      rw [h.not_committing (p := p) (by simp [hp, Proc.op?])] at this
      exact absurd this (by decide)
    rw [set_proc] at hr hr'
    split_ifs at hr hr' with h1 h2 h2
    · rw [h1, h2]
    · exact absurd (hn r') hr'
    · exact absurd (hn r) hr
    · exact absurd (hn r) hr
  no_panic := h.no_panic

lemma Inv.finish {s : Sys} (h : Inv s) {p : ℕ} {st : Stage} (hp : s.proc p = .committing st) :
    Inv ({ s with log := { s.log with committing := false } }.set p .idle) where
  counted := by
    obtain ⟨A, hm, hA⟩ := h.counted
    refine ⟨A, fun r => ?_, hA⟩
    rw [hm r, set_proc]
    split_ifs with hr
    · subst hr
      simp [hp, Proc.op?]
    · rfl
  quiet := by simp
  committer r hr := by
    rw [set_proc] at hr
    split_ifs at hr with hrp
    · simp [Proc.stage?] at hr
    · exact absurd (h.unique r p hr (by simp [hp, Proc.stage?])) hrp
  unique r r' hr hr' := by
    rw [set_proc] at hr hr'
    split_ifs at hr hr' with h1 h2 h2
    · exact absurd rfl hr
    · exact absurd rfl hr
    · exact absurd rfl hr'
    · exact h.unique r r' hr hr'
  no_panic := h.no_panic

lemma Inv.commitStep {s : Sys} (h : Inv s) {p : ℕ} {st : Stage} (hp : s.proc p = .committing st) :
    Inv (s.commitStep p st) := by
  cases st with
  | writeLog tail => exact h.set (l := s.log) rfl rfl (by simp [hp, Proc.op?]) (by simp [hp, Proc.stage?])
  | writeHead => exact h.set (l := s.log) rfl rfl (by simp [hp, Proc.op?]) (by simp [hp, Proc.stage?])
  | installTrans tail =>
    exact h.set (l := s.log) rfl rfl (by simp [hp, Proc.op?]) (by simp [hp, Proc.stage?])
  | clear =>
    exact h.set (l := { s.log with lh := [] }) rfl rfl (by simp [hp, Proc.op?])
      (by simp [hp, Proc.stage?])
  | finish => exact (h.finish hp).wakeup

section

variable (l : LogState) (b : ℕ)
include l b

lemma logWriteAppend_outstanding : (l.logWriteAppend b).outstanding = l.outstanding := by
  unfold LogState.logWriteAppend
  split_ifs <;> rfl

lemma logWriteAppend_committing : (l.logWriteAppend b).committing = l.committing := by
  unfold LogState.logWriteAppend
  split_ifs <;> rfl

lemma logWriteAppend_size : (l.logWriteAppend b).size = l.size := by
  unfold LogState.logWriteAppend
  split_ifs <;> rfl

lemma logWriteAppend_start : (l.logWriteAppend b).start = l.start := by
  unfold LogState.logWriteAppend
  split_ifs <;> rfl

lemma logWriteAppend_length : (l.logWriteAppend b).lh.length ≤ l.lh.length + 1 := by
  unfold LogState.logWriteAppend
  split_ifs <;> simp

end

lemma mem_logWriteAppend (l : LogState) (b c : ℕ) : c ∈ (l.logWriteAppend b).lh ↔ c = b ∨ c ∈ l.lh := by
  unfold LogState.logWriteAppend
  split_ifs with hb
  · constructor
    · exact .inr
    · rintro (rfl | hc)
      · exact hb
      · exact hc
  · simp [or_comm]

lemma nodup_logWriteAppend {l : LogState} (h : l.lh.Nodup) (b : ℕ) : (l.logWriteAppend b).lh.Nodup := by
  unfold LogState.logWriteAppend
  split_ifs with hb
  · exact h
  · refine List.nodup_append.mpr ⟨h, List.nodup_singleton b, ?_⟩
    rintro x hx y hy rfl
    exact hb (List.mem_singleton.mp hy ▸ hx)

lemma Step.size {s s' : Sys} {e : Event} (h : Step s e s') : s'.log.size = s.log.size := by
  obtain ⟨_, hm⟩ := h.move
  cases hm with
  | append hq => exact logWriteAppend_size _ _
  | @commit p st hq => cases st <;> rfl
  | _ => rfl

lemma Inv.step {s s' : Sys} {e : Event} (h : Inv s) (hs : Step s e s') : Inv s' := by
  obtain ⟨hp, hm⟩ := hs.move
  cases hm with
  | sleep hq _ =>
    refine h.set (l := s.log) rfl rfl ?_ ?_ <;> rcases hq with hq | hq <;>
      simp [hq, Proc.op?, Proc.stage?]
  | start hq hc _ => exact h.start hq hc
  | check hq _ _ => exact h.set (l := s.log) rfl rfl (by simp [hq, Proc.op?]) (by simp [hq, Proc.stage?])
  | checkPanic hq _ he =>
    exact { h with no_panic := by simpa using he }
  | append hq =>
    exact h.set (logWriteAppend_outstanding _ _) (logWriteAppend_committing _ _) (by simp [hq, Proc.op?])
      (by simp [hq, Proc.stage?])
  | @endPanic p op hq hc =>
    rw [h.not_committing (p := p) (by simp [hq, Proc.op?])] at hc
    exact absurd hc (by decide)
  | endLast hq hc ho =>
    exact h.leave (l := { s.log with outstanding := 0, committing := true }) hq (by simp [ho])
      (by simp) (by simp [Proc.op?]) (by simp)
  | endMore hq hc ho =>
    exact (h.leave (l := { s.log with outstanding := s.log.outstanding - 1 }) hq rfl (by simp [hc])
      (by simp [Proc.op?]) (by simp [Proc.stage?])).wakeup
  | commit hq => exact h.commitStep hq

end Sys

end Xv6.Log
