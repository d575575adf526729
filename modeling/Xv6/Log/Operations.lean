import Xv6.Log.Commit
import Xv6.Log.Reservation

namespace Xv6.Log

open Lib Sys

inductive Use
  | clean
  | modified
  deriving DecidableEq

structure Cached where
  sys : Sys
  cache : Disk
  buf : ℕ → Option (ℕ × Use)

inductive Act
  | sleep (p : ℕ)
  | beginOp (p op : ℕ)
  | bread (p b : ℕ)
  | modify (p b : ℕ) (v : Block)
  | logWrite (p op b : ℕ) (v : Block)
  | logPanic (p b : ℕ)
  | brelse (p b : ℕ)
  | endOp (p op : ℕ)
  | copy (p b : ℕ) (v : Block)
  | commitStep (p : ℕ)
  | finish (p : ℕ)

namespace Cached

def init (start size : ℕ) (d : Disk) : Cached := ⟨Sys.init start size, d, fun _ => none⟩

def setBuf (s : Cached) (b : ℕ) (u : Option (ℕ × Use)) : Cached := { s with buf := assign s.buf b u }

def write (s : Cached) (b : ℕ) (v : Block) : Cached := { s with cache := assign s.cache b v }

inductive Acts (s : Cached) : Act → Cached → Prop
  | sleep {p : ℕ} {t : Sys} : Step s.sys (.beginOp p) t → (t.proc p).op? = none →
      Acts s (.sleep p) { s with sys := t }
  | beginOp {p op : ℕ} {t : Sys} : Step s.sys (.beginOp p) t → (t.proc p).op? = some op →
      Acts s (.beginOp p op) { s with sys := t }
  | bread {p b : ℕ} : s.buf b = none → Acts s (.bread p b) (s.setBuf b (some (p, .clean)))
  | modify {p b : ℕ} {u : Use} {v : Block} : s.buf b = some (p, u) →
      Acts s (.modify p b v) ((s.write b v).setBuf b (some (p, .modified)))
  | logWrite {p op b : ℕ} {u : Use} {t : Sys} : s.buf b = some (p, u) → (s.sys.proc p).op? = some op →
      CallStep s.sys (.logWrite p b) t → t.panic = none →
      Acts s (.logWrite p op b (s.cache b)) ({ s with sys := t }.setBuf b (some (p, .clean)))
  | logPanic {p b : ℕ} {u : Use} {t : Sys} : s.buf b = some (p, u) → CallStep s.sys (.logWrite p b) t →
      t.panic ≠ none → Acts s (.logPanic p b) { s with sys := t }
  | brelse {p b : ℕ} : s.buf b = some (p, .clean) → Acts s (.brelse p b) (s.setBuf b none)
  | endOp {p op : ℕ} {t : Sys} : (s.sys.proc p).op? = some op → Step s.sys (.endOp p) t →
      Acts s (.endOp p op) { s with sys := t }
  | copy {p tail b : ℕ} {t : Sys} : s.sys.proc p = .committing (.writeLog tail) →
      s.sys.log.lh[tail]? = some b → s.buf b = none → s.buf (s.sys.log.start + tail + 1) = none →
      Step s.sys (.commitStep p) t →
      Acts s (.copy p b (s.cache b)) ({ s with sys := t }.write (s.sys.log.start + tail + 1) (s.cache b))
  | install {p tail b : ℕ} {t : Sys} : s.sys.proc p = .committing (.installTrans tail) →
      s.sys.log.lh[tail]? = some b → s.buf b = none → s.buf (s.sys.log.start + tail + 1) = none →
      Step s.sys (.commitStep p) t →
      Acts s (.commitStep p) ({ s with sys := t }.write b (s.cache (s.sys.log.start + tail + 1)))
  | copied {p tail : ℕ} {st : Stage} {t : Sys} : s.sys.proc p = .committing st →
      st = .writeLog tail ∨ st = .installTrans tail → s.sys.log.lh.length ≤ tail →
      Step s.sys (.commitStep p) t → Acts s (.commitStep p) { s with sys := t }
  | writeHead {p : ℕ} {st : Stage} {t : Sys} : s.sys.proc p = .committing st →
      st = .writeHead ∨ st = .clear → s.buf s.sys.log.start = none → Step s.sys (.commitStep p) t →
      Acts s (.commitStep p)
        ({ s with sys := t }.write s.sys.log.start (putHeader (s.cache s.sys.log.start) t.log.lh))
  | finish {p : ℕ} {t : Sys} : s.sys.proc p = .committing .finish → Step s.sys (.commitStep p) t →
      Acts s (.finish p) { s with sys := t }

end Cached

def sinceCommit (tr : List Act) : List Act :=
  tr.foldl (fun t a => match a with
    | .finish _ => []
    | a => t ++ [a]) []

def lastWrite (tr : List Act) (b : ℕ) : Option Block :=
  tr.foldl (fun o a => match a with
    | .logWrite _ _ c v => if c = b then some v else o
    | _ => o) none

def copies (tr : List Act) : List (ℕ × Block) :=
  tr.filterMap (fun a => match a with
    | .copy _ b v => some (b, v)
    | _ => none)

def WritesIn (op : ℕ) (tr : List Act) : Prop := ∃ p b v, Act.logWrite p op b v ∈ tr

def Home (start size : ℕ) (tr : List Act) : Prop :=
  ∀ p op b v, Act.logWrite p op b v ∈ tr → ¬ (Area.mk start size).Mem b

lemma sinceCommit_snoc (tr : List Act) (a : Act) :
    sinceCommit (tr ++ [a]) = match a with
      | .finish _ => []
      | a => sinceCommit tr ++ [a] := by
  simp only [sinceCommit, List.foldl_append, List.foldl_cons, List.foldl_nil]

lemma lastWrite_snoc (tr : List Act) (a : Act) (b : ℕ) :
    lastWrite (tr ++ [a]) b = match a with
      | .logWrite _ _ c v => if c = b then some v else lastWrite tr b
      | _ => lastWrite tr b := by
  simp only [lastWrite, List.foldl_append, List.foldl_cons, List.foldl_nil]

lemma copies_snoc (tr : List Act) (a : Act) : copies (tr ++ [a]) = copies tr ++ copies [a] := by
  simp only [copies, List.filterMap_append]

lemma sinceCommit_subset (tr : List Act) : sinceCommit tr ⊆ tr := by
  induction tr using List.reverseRecOn with
  | nil => exact List.Subset.refl _
  | append_singleton tr a ih =>
    have hsub : sinceCommit tr ++ [a] ⊆ tr ++ [a] := List.append_subset.mpr
      ⟨fun x hx => List.mem_append_left _ (ih hx), List.subset_append_right _ _⟩
    rw [sinceCommit_snoc]
    cases a with
    | finish p => exact List.nil_subset _
    | _ => exact hsub

inductive Shift (f : ℕ → Option ℕ) (n : ℕ) : Act → (ℕ → Option ℕ) → ℕ → Prop
  | beginOp {p : ℕ} : f p = none → Shift f n (.beginOp p n) (assign f p (some n)) (n + 1)
  | logWrite {p op b : ℕ} {v : Block} : f p = some op → Shift f n (.logWrite p op b v) f n
  | endOp {p op : ℕ} : f p = some op → Shift f n (.endOp p op) (assign f p none) n
  | finish {p : ℕ} : (∀ q, f q = none) → Shift f n (.finish p) f n
  | other {a : Act} : (∀ p op, a ≠ .beginOp p op) → (∀ p op b v, a ≠ .logWrite p op b v) →
      (∀ p op, a ≠ .endOp p op) → (∀ p, a ≠ .finish p) → Shift f n a f n

structure Whole (tr : List Act) (f : ℕ → Option ℕ) (n : ℕ) : Prop where
  numbered : ∀ p op, Act.beginOp p op ∈ tr → op < n
  begun : ∀ p op, f p = some op → Act.beginOp p op ∈ sinceCommit tr
  ended : ∀ p op, Act.beginOp p op ∈ tr → Act.endOp p op ∈ tr ∨ f p = some op
  writes : ∀ p op b v, Act.logWrite p op b v ∈ sinceCommit tr → Act.beginOp p op ∈ sinceCommit tr
  written : ∀ op, WritesIn op tr → op < n
  divided : ∀ t₁ p t₂, tr = t₁ ++ .finish p :: t₂ → ∀ op, WritesIn op t₁ →
    ¬ WritesIn op t₂ ∧ ∀ q, f q ≠ some op

lemma WritesIn.mono {op : ℕ} {t t' : List Act} (h : WritesIn op t) (hs : t ⊆ t') : WritesIn op t' := by
  obtain ⟨p, b, v, hm⟩ := h
  exact ⟨p, b, v, hs hm⟩

lemma writesIn_snoc {op : ℕ} {t : List Act} {a : Act} (h : WritesIn op (t ++ [a])) :
    WritesIn op t ∨ ∃ p b v, a = .logWrite p op b v := by
  obtain ⟨p, b, v, hm⟩ := h
  rcases List.mem_append.mp hm with hm | hm
  · exact .inl ⟨p, b, v, hm⟩
  · exact .inr ⟨p, b, v, (List.mem_singleton.mp hm).symm⟩

lemma snoc_eq_append_cons {tr t1 t2 : List Act} {a c : Act} (h : tr ++ [a] = t1 ++ c :: t2) :
    (tr = t1 ∧ a = c ∧ t2 = []) ∨ ∃ t, t2 = t ++ [a] ∧ tr = t1 ++ c :: t := by
  rcases List.eq_nil_or_concat t2 with rfl | ⟨t, d, rfl⟩
  · obtain ⟨h1, h2⟩ := List.append_inj' h rfl
    exact .inl ⟨h1, List.singleton_inj.mp h2, rfl⟩
  · rw [List.concat_eq_append, ← List.cons_append, ← List.append_assoc] at h
    obtain ⟨h1, h2⟩ := List.append_inj' h rfl
    obtain rfl := List.singleton_inj.mp h2
    exact .inr ⟨t, List.concat_eq_append, h1⟩

section

variable {tr : List Act} {f f' : ℕ → Option ℕ} {n n' : ℕ} {a : Act}

lemma Whole.init : Whole [] (fun _ => none) 0 where
  numbered := by simp
  begun := by simp
  ended := by simp
  writes := by simp [sinceCommit]
  written := by simp [WritesIn]
  divided := by simp

lemma sinceCommit_keep (ha : ∀ p, a ≠ .finish p) : sinceCommit (tr ++ [a]) = sinceCommit tr ++ [a] := by
  rw [sinceCommit_snoc]
  cases a with
  | finish p => exact absurd rfl (ha p)
  | _ => rfl

lemma Whole.snoc (h : Whole tr f n) (hn : n ≤ n') (ha : ∀ p, a ≠ .finish p)
    (hb : ∀ p op, a = .beginOp p op → op < n' ∧ f' p = some op)
    (hw : ∀ p op b v, a = .logWrite p op b v → f p = some op)
    (hkeep : ∀ p op, f p = some op → f' p = some op ∨ a = .endOp p op)
    (hnew : ∀ p op, f' p = some op → f p = some op ∨ (a = .beginOp p op ∧ op = n)) :
    Whole (tr ++ [a]) f' n' where
  numbered p op hm := by
    rcases List.mem_append.mp hm with hm | hm
    · exact (h.numbered p op hm).trans_le hn
    · exact (hb p op (List.mem_singleton.mp hm).symm).1
  begun p op hp := by
    rw [sinceCommit_keep ha]
    rcases hnew p op hp with hp | ⟨rfl, _⟩
    · exact List.mem_append_left _ (h.begun p op hp)
    · simp
  ended p op hm := by
    rcases List.mem_append.mp hm with hm | hm
    · rcases h.ended p op hm with he | hf
      · exact .inl (List.mem_append_left _ he)
      · rcases hkeep p op hf with hf | rfl
        · exact .inr hf
        · simp
    · exact .inr (hb p op (List.mem_singleton.mp hm).symm).2
  writes p op b v hm := by
    rw [sinceCommit_keep ha] at hm ⊢
    refine List.mem_append_left _ ?_
    rcases List.mem_append.mp hm with hm | hm
    · exact h.writes p op b v hm
    · exact h.begun p op (hw p op b v (List.mem_singleton.mp hm).symm)
  written op hm := by
    rcases writesIn_snoc hm with hm | ⟨p, b, v, ha⟩
    · exact (h.written op hm).trans_le hn
    · have hp := h.begun p op (hw p op b v ha)
      exact (h.numbered p op (sinceCommit_subset tr hp)).trans_le hn
  divided t1 p t2 ht op hop := by
    rcases snoc_eq_append_cons ht with ⟨_, hfin, _⟩ | ⟨t, rfl, htr⟩
    · exact absurd hfin (ha p)
    obtain ⟨h1, h2⟩ := h.divided t1 p t htr op hop
    refine ⟨fun hwr => ?_, fun q hq => ?_⟩
    · rcases writesIn_snoc hwr with hwr | ⟨q, b, v, hq⟩
      · exact h1 hwr
      · exact h2 q (hw q op b v hq)
    · rcases hnew q op hq with hq | ⟨_, hlt⟩
      · exact h2 q hq
      · have := h.written op (hop.mono (by rw [htr]; exact List.subset_append_left _ _))
        omega

lemma Whole.finish (h : Whole tr f n) (hf : ∀ q, f q = none) (p : ℕ) : Whole (tr ++ [.finish p]) f n where
  numbered q op hm := h.numbered q op (by simpa using hm)
  begun q op hq := by simp [hf q] at hq
  ended q op hm := by
    rcases h.ended q op (by simpa using hm) with he | he
    · exact .inl (List.mem_append_left _ he)
    · exact .inr he
  writes := by simp [sinceCommit_snoc]
  written op hm := by
    rcases writesIn_snoc hm with hm | ⟨_, _, _, hm⟩
    · exact h.written op hm
    · cases hm
  divided t1 q t2 ht op hop := by
    refine ⟨?_, by simp [hf]⟩
    rcases snoc_eq_append_cons ht with ⟨_, _, rfl⟩ | ⟨t, rfl, htr⟩
    · simp [WritesIn]
    · intro hw
      rcases writesIn_snoc hw with hw | ⟨_, _, _, hw⟩
      · exact (h.divided t1 q t htr op hop).1 hw
      · cases hw

lemma Whole.step (h : Whole tr f n) (hs : Shift f n a f' n') : Whole (tr ++ [a]) f' n' := by
  cases hs with
  | @beginOp p hp =>
    refine h.snoc (Nat.le_succ n) (by simp) ?_ (by simp) ?_ ?_
    · rintro q op ⟨⟩
      exact ⟨Nat.lt_succ_self n, assign_self ..⟩
    · intro q op hq
      have hqp : q ≠ p := by
        rintro rfl
        simp [hp] at hq
      exact .inl (by rw [assign_of_ne hqp, hq])
    · intro q op hq
      by_cases hqp : q = p
      · subst hqp
        rw [assign_self] at hq
        cases hq
        exact .inr ⟨rfl, rfl⟩
      · rw [assign_of_ne hqp] at hq
        exact .inl hq
  | logWrite hp =>
    refine h.snoc (le_refl n) (by simp) (by simp) ?_ (fun q op hq => .inl hq) (fun q op hq => .inl hq)
    rintro q op b v ⟨⟩
    exact hp
  | @endOp p op hp =>
    refine h.snoc (le_refl n) (by simp) (by simp) (by simp) (fun q o hq => ?_) (fun q o hq => ?_)
    · by_cases hqp : q = p
      · subst hqp
        rw [hp] at hq
        cases hq
        exact .inr rfl
      · exact .inl (by rw [assign_of_ne hqp, hq])
    · by_cases hqp : q = p
      · simp [hqp] at hq
      · rw [assign_of_ne hqp] at hq
        exact .inl hq
  | finish hf => exact h.finish hf _
  | other hb hw _ hfin =>
    exact h.snoc (le_refl n) hfin (fun p op e => absurd e (hb p op))
      (fun p op b v e => absurd e (hw p op b v)) (fun q op hq => .inl hq) (fun q op hq => .inl hq)

end

namespace Sys

def ops (s : Sys) (p : ℕ) : Option ℕ := (s.proc p).op?

lemma ops_set (s : Sys) (p : ℕ) (q : Proc) : (s.set p q).ops = assign s.ops p q.op? := by
  funext r
  simp only [ops, set_proc, assign_apply]
  split_ifs <;> rfl

lemma ops_wakeup (s : Sys) : s.wakeup.ops = s.ops := by
  funext r
  simp [ops]

lemma ops_set_none {s : Sys} {p : ℕ} {q : Proc} (h : s.ops p = none) (hq : q.op? = none) :
    (s.set p q).ops = s.ops := by
  rw [ops_set, hq, ← h, assign_eq_self rfl]

lemma ops_of_ready {s : Sys} {p : ℕ} (h : s.proc p = .idle ∨ s.proc p = .trying) : s.ops p = none := by
  rcases h with h | h <;> simp [ops, h, Proc.op?]

lemma ops_sleep {s t : Sys} {p : ℕ} (h : Step s (.beginOp p) t) (ho : t.ops p = none) :
    t.ops = s.ops ∧ t.nextOp = s.nextOp := by
  cases h.move.2 with
  | sleep hq _ => exact ⟨ops_set_none (ops_of_ready hq) rfl, rfl⟩
  | start hq _ _ => simp [ops_set, Proc.op?] at ho

lemma ops_beginOp {s t : Sys} {p op : ℕ} (h : Step s (.beginOp p) t) (ho : t.ops p = some op) :
    op = s.nextOp ∧ s.ops p = none ∧ t.ops = assign s.ops p (some op) ∧ t.nextOp = s.nextOp + 1 := by
  cases h.move.2 with
  | sleep hq _ => simp [ops_set, Proc.op?] at ho
  | start hq _ _ =>
    rw [ops_set, assign_self] at ho
    cases ho
    exact ⟨rfl, ops_of_ready hq, ops_set _ _ _, rfl⟩

lemma ops_endOp {s t : Sys} {p : ℕ} (hi : Inv s) (h : Step s (.endOp p) t) :
    t.ops = assign s.ops p none ∧ t.nextOp = s.nextOp := by
  cases h.move.2 with
  | endPanic hq hc =>
    rw [hi.not_committing (p := p) (by simp [hq, Proc.op?])] at hc
    exact absurd hc (by decide)
  | endLast hq _ _ => exact ⟨ops_set _ _ _, rfl⟩
  | endMore hq _ _ => exact ⟨(ops_wakeup _).trans (ops_set _ _ _), rfl⟩

lemma step_commit {s t : Sys} {p : ℕ} {st : Stage} (hp : s.proc p = .committing st)
    (h : Step s (.commitStep p) t) : t = s.commitStep p st := by
  cases h.move.2 with
  | commit hq =>
    rw [hp] at hq
    cases hq
    rfl

lemma ops_commitStep {s t : Sys} {p : ℕ} {st : Stage} (hp : s.proc p = .committing st)
    (h : Step s (.commitStep p) t) : t.ops = s.ops ∧ t.nextOp = s.nextOp := by
  have ho : s.ops p = none := by simp [ops, hp, Proc.op?]
  rw [step_commit hp h]
  cases st with
  | finish => exact ⟨(ops_wakeup _).trans (ops_set_none ho rfl), rfl⟩
  | clear => exact ⟨ops_set_none (s := { s with log := { s.log with lh := [] } }) ho rfl, rfl⟩
  | _ => exact ⟨ops_set_none ho rfl, rfl⟩

lemma logWrite_eq {s t : Sys} {p b : ℕ} (h : CallStep s (.logWrite p b) t) :
    s.panic = none ∧ (∃ op, s.proc p = .running op) ∧ t = s.logWrite b := by
  simp only [CallStep, Sys.call] at h
  split_ifs at h with hn
  cases hp : s.proc p <;> simp only [hp, reduceCtorEq, Option.some.injEq] at h
  exact ⟨by simpa using hn, ⟨_, rfl⟩, h.symm⟩

lemma logWrite_proc (s : Sys) (b : ℕ) : (s.logWrite b).proc = s.proc ∧
    (s.logWrite b).nextOp = s.nextOp := by
  unfold Sys.logWrite
  cases s.log.logWrite b <;> exact ⟨rfl, rfl⟩

lemma logWrite_ok {s : Sys} {b : ℕ} (hn : (s.logWrite b).panic = none) :
    (s.log.lh.length : ℤ) < s.log.size - 1 ∧ (s.logWrite b).log = s.log.logWriteAppend b := by
  unfold Sys.logWrite LogState.logWrite at hn ⊢
  cases hc : s.log.logWriteCheck with
  | error e => simp [hc] at hn
  | ok u =>
    refine ⟨?_, rfl⟩
    simp only [LogState.logWriteCheck] at hc
    split_ifs at hc with hfull
    push Not at hfull
    exact hfull.2

lemma logWrite_log_of_panic {s : Sys} {b : ℕ} (h : s.panic = none) (hn : (s.logWrite b).panic ≠ none) :
    (s.logWrite b).log = s.log := by
  unfold Sys.logWrite at hn ⊢
  cases hw : s.log.logWrite b with
  | error e => rfl
  | ok l => simp [hw, h] at hn

lemma ops_logWrite {s t : Sys} {p b : ℕ} (h : CallStep s (.logWrite p b) t) :
    t.ops = s.ops ∧ t.nextOp = s.nextOp := by
  obtain ⟨_, _, rfl⟩ := logWrite_eq h
  obtain ⟨h1, h2⟩ := logWrite_proc s b
  exact ⟨by funext q; rw [ops, h1, ops], h2⟩

lemma Inv.ops_none {s : Sys} (h : Inv s) (hc : s.log.committing = true) (p : ℕ) : s.ops p = none := by
  by_contra hp
  have := h.not_committing hp
  simp [hc] at this

lemma set_committing {t : Sys} {p r : ℕ} {q : Proc} {st : Stage} (hs : (t.proc p).stage? = none)
    (hq : q.stage? = none) : (t.set p q).proc r = .committing st ↔ t.proc r = .committing st := by
  rw [set_proc]
  split_ifs with hr
  · subst hr
    constructor
    · rintro rfl
      cases hq
    · intro h
      rw [h] at hs
      cases hs
  · rfl

lemma wakeup_committing {t : Sys} {r : ℕ} {st : Stage} :
    t.wakeup.proc r = .committing st ↔ t.proc r = .committing st := by
  rw [wakeup_proc]
  cases t.proc r <;> simp [Proc.wake]

lemma stage?_of_ready {t : Sys} {p : ℕ} (h : t.proc p = .idle ∨ t.proc p = .trying) :
    (t.proc p).stage? = none := by
  rcases h with h | h <;> rw [h] <;> rfl

lemma Inv.not_stage {t : Sys} (hi : Inv t) (hc : t.log.committing = false) (p : ℕ) (st : Stage) :
    t.proc p ≠ .committing st := by
  intro h
  have := hi.committer p (by simp [h, Proc.stage?])
  simp [hc] at this

lemma Inv.not_finish {t : Sys} (hi : Inv t) {p : ℕ} {st : Stage} (hp : t.proc p = .committing st)
    (hst : st ≠ .finish) (q : ℕ) : t.proc q ≠ .committing .finish := by
  intro hq
  have hqp := hi.unique q p (by simp [hq, Proc.stage?]) (by simp [hp, Proc.stage?])
  rw [hqp, hp] at hq
  cases hq
  exact hst rfl

end Sys

namespace Cached

lemma Acts.shift {s s' : Cached} {a : Act} (hi : Inv s.sys) (h : Acts s a s') :
    Shift s.sys.ops s.sys.nextOp a s'.sys.ops s'.sys.nextOp := by
  have still : ∀ {a : Act} {t : Sys}, t.ops = s.sys.ops ∧ t.nextOp = s.sys.nextOp →
      Shift s.sys.ops s.sys.nextOp a s.sys.ops s.sys.nextOp →
      Shift s.sys.ops s.sys.nextOp a t.ops t.nextOp := by
    rintro a t ⟨h1, h2⟩ hs
    rwa [h1, h2]
  cases h with
  | sleep hs ho => exact still (ops_sleep hs ho) (.other (by simp) (by simp) (by simp) (by simp))
  | beginOp hs ho =>
    obtain ⟨rfl, hp, h1, h2⟩ := ops_beginOp hs ho
    rw [h1, h2]
    exact .beginOp hp
  | logWrite _ ho hs _ => exact still (ops_logWrite hs) (.logWrite ho)
  | logPanic _ hs _ => exact still (ops_logWrite hs) (.other (by simp) (by simp) (by simp) (by simp))
  | endOp ho hs =>
    obtain ⟨h1, h2⟩ := ops_endOp hi hs
    rw [h1, h2]
    exact .endOp ho
  | copy hp _ _ _ hs =>
    exact still (ops_commitStep hp hs) (.other (by simp) (by simp) (by simp) (by simp))
  | install hp _ _ _ hs =>
    exact still (ops_commitStep hp hs) (.other (by simp) (by simp) (by simp) (by simp))
  | copied hp _ _ hs =>
    exact still (ops_commitStep hp hs) (.other (by simp) (by simp) (by simp) (by simp))
  | writeHead hp _ _ hs =>
    exact still (ops_commitStep hp hs) (.other (by simp) (by simp) (by simp) (by simp))
  | @finish p _ hp hs =>
    have hc := hi.committer p (by simp [hp, Proc.stage?])
    exact still (ops_commitStep hp hs) (.finish (hi.ops_none hc))
  | _ => exact .other (by simp) (by simp) (by simp) (by simp)

lemma Acts.inv {s s' : Cached} {a : Act} (hi : Inv s.sys) (h : Acts s a s') : Inv s'.sys := by
  cases h with
  | sleep hs _ => exact hi.step hs
  | beginOp hs _ => exact hi.step hs
  | logWrite _ _ hs _ => exact hi.call hs
  | logPanic _ hs _ => exact hi.call hs
  | endOp _ hs => exact hi.step hs
  | copy _ _ _ _ hs => exact hi.step hs
  | install _ _ _ _ hs => exact hi.step hs
  | copied _ _ _ hs => exact hi.step hs
  | writeHead _ _ _ hs => exact hi.step hs
  | finish _ hs => exact hi.step hs
  | _ => exact hi

end Cached

end Xv6.Log
