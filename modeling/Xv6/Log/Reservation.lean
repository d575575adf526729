import Xv6.Log.Invariant
import Mathlib.Data.List.Infix

namespace Xv6.Log

open Lib

inductive Call
  | beginOp (p : ℕ)
  | logWrite (p b : ℕ)
  | endOp (p : ℕ)
  | commitStep (p : ℕ)
  deriving DecidableEq

namespace Sys

def logWrite (s : Sys) (b : ℕ) : Sys :=
  match s.log.logWrite b with
  | .error e => { s with panic := some e }
  | .ok l => { s with log := l }

def call (s : Sys) : Call → Option Sys
  | .beginOp p => s.step (.beginOp p)
  | .logWrite p b =>
    if s.panic.isSome then none
    else match s.proc p with
      | .running _ => some (s.logWrite b)
      | _ => none
  | .endOp p => s.step (.endOp p)
  | .commitStep p => s.step (.commitStep p)

def CallStep (s : Sys) (c : Call) (s' : Sys) : Prop := s.call c = some s'

end Sys

def passed (cs : List Call) : List ℕ :=
  cs.foldl (fun bs c => match c with
    | .logWrite _ b => b :: bs
    | .commitStep _ => []
    | _ => bs) []

def opBlocks (p : ℕ) (cs : List Call) : List ℕ :=
  cs.foldl (fun bs c => match c with
    | .logWrite q b => if q = p then b :: bs else bs
    | .beginOp q => if q = p then [] else bs
    | _ => bs) []

def Disciplined (cs : List Call) : Prop :=
  ∀ t ∈ cs.inits, ∀ p, (opBlocks p t).toFinset.card ≤ MAXOPBLOCKS

def SlotFree (cs : List Call) : Prop :=
  ∀ t p b t', cs = t ++ .logWrite p b :: t' → (passed t).toFinset.card < LOGSIZE - 1

lemma passed_snoc (cs : List Call) (c : Call) :
    passed (cs ++ [c]) = match c with
      | .logWrite _ b => b :: passed cs
      | .commitStep _ => []
      | _ => passed cs := by
  simp only [passed, List.foldl_append, List.foldl_cons, List.foldl_nil]

lemma slotFree_nil : SlotFree [] := by
  intro t p b t' h
  simp at h

lemma slotFree_snoc (cs : List Call) (c : Call) : SlotFree (cs ++ [c]) ↔
      SlotFree cs ∧ ∀ p b, c = .logWrite p b → (passed cs).toFinset.card < LOGSIZE - 1 := by
  constructor
  · intro h
    refine ⟨fun t p b t' ht => h t p b (t' ++ [c]) (by simp [ht]), fun p b hc => ?_⟩
    exact h cs p b [] (by rw [hc])
  · rintro ⟨h, hc⟩ t p b t' ht
    rcases List.eq_nil_or_concat t' with rfl | ⟨u, d, rfl⟩
    · obtain ⟨rfl, hd⟩ := List.append_inj' ht rfl
      exact hc p b (List.singleton_inj.mp hd)
    · rw [List.concat_eq_append, ← List.cons_append, ← List.append_assoc] at ht
      exact h t p b u (List.append_inj_left' ht rfl)

namespace Sys

structure Tracks (cs : List Call) (s : Sys) : Prop where
  nodup : s.log.lh.Nodup
  same : s.log.committing = false → s.log.lh.toFinset = (passed cs).toFinset
  cleared : ∀ p, s.proc p = .committing .finish → s.log.lh = []

lemma Tracks.length {cs : List Call} {s : Sys} (h : Tracks cs s) (hc : s.log.committing = false) :
    s.log.lh.length = (passed cs).toFinset.card := by
  rw [← h.same hc, List.toFinset_card_of_nodup h.nodup]

lemma Inv.logWrite {s : Sys} (h : Inv s) {p op b : ℕ} (hn : s.panic = none)
    (hp : s.proc p = .running op) : Inv (s.logWrite b) := by
  unfold Sys.logWrite LogState.logWrite
  cases hc : s.log.logWriteCheck with
  | error e =>
    have hs : Step s (.logWriteCheck p b) { s with panic := some e } := by
      simp only [Step, Sys.step, hn, hp, Sys.logWriteCheck, hc]
      rfl
    exact h.step hs
  | ok u =>
    have := h.set (l := s.log.logWriteAppend b) (p := p) (q := .running op)
      (logWriteAppend_outstanding _ _)
      (logWriteAppend_committing _ _) (by simp [hp, Proc.op?]) (by simp [hp, Proc.stage?])
    rwa [Sys.set, ← hp, assign_eq_self rfl] at this

lemma Inv.call {s s' : Sys} {c : Call} (h : Inv s) (hs : CallStep s c s') : Inv s' := by
  cases c with
  | beginOp p => exact h.step (e := .beginOp p) hs
  | logWrite p b =>
    simp only [CallStep, Sys.call] at hs
    split_ifs at hs with hn
    cases hp : s.proc p <;> simp only [hp, reduceCtorEq, Option.some.injEq] at hs
    exact hs ▸ h.logWrite (by simpa using hn) hp
  | endOp p => exact h.step (e := .endOp p) hs
  | commitStep p => exact h.step (e := .commitStep p) hs

lemma Tracks.init (start size : ℕ) : Tracks [] (Sys.init start size) where
  nodup := by simp [Sys.init]
  same := by simp [Sys.init, passed]
  cleared := by simp [Sys.init]

lemma Tracks.append {cs : List Call} {s : Sys} (h : Tracks cs s) {p op b : ℕ} (hi : Inv s)
    (hp : s.proc p = .running op) :
    Tracks (cs ++ [.logWrite p b]) { s with log := s.log.logWriteAppend b } := by
  have hc := hi.not_committing (p := p) (by simp [hp, Proc.op?])
  have hs := h.same hc
  have hno : ∀ q, s.proc q = .committing .finish → False := by
    intro q hq
    have := hi.committer q (by simp [hq, Proc.stage?])
    simp [hc] at this
  refine ⟨nodup_logWriteAppend h.nodup b, fun _ => ?_, fun q hq => (hno q hq).elim⟩
  ext c
  rw [passed_snoc, List.toFinset_cons, Finset.mem_insert, ← hs, List.mem_toFinset, List.mem_toFinset,
    mem_logWriteAppend]

lemma Tracks.beginOp {cs : List Call} {s s' : Sys} {p : ℕ} (h : Tracks cs s)
    (hm : Move s (.beginOp p) s') : Tracks (cs ++ [.beginOp p]) s' ∧ s'.panic = s.panic := by
  cases hm with
  | sleep hq _ =>
    refine ⟨⟨h.nodup, by rw [passed_snoc]; exact h.same, fun q hq' => ?_⟩, rfl⟩
    rw [set_proc] at hq'
    split_ifs at hq'
    exact h.cleared q hq'
  | start hq hc _ =>
    refine ⟨⟨h.nodup, by rw [passed_snoc]; exact h.same, fun q hq' => ?_⟩, rfl⟩
    rw [set_proc] at hq'
    split_ifs at hq'
    exact h.cleared q hq'

lemma Tracks.endOp {cs : List Call} {s s' : Sys} {p : ℕ} (h : Tracks cs s) (hi : Inv s)
    (hm : Move s (.endOp p) s') : Tracks (cs ++ [.endOp p]) s' ∧ s'.panic = s.panic := by
  cases hm with
  | endPanic hq hc =>
    rw [hi.not_committing (p := p) (by simp [hq, Proc.op?])] at hc
    exact absurd hc (by decide)
  | endLast hq hc ho =>
    refine ⟨⟨h.nodup, by simp, fun q hq' => ?_⟩, rfl⟩
    rw [set_proc] at hq'
    split_ifs at hq' with hqp
    · simp only [firstStage, Proc.committing.injEq] at hq'
      split_ifs at hq' with hlen
      simpa using hlen
    · exact h.cleared q hq'
  | endMore hq hc ho =>
    refine ⟨⟨h.nodup, by rw [passed_snoc]; exact h.same, fun q hq' => ?_⟩, rfl⟩
    rw [wakeup_proc, set_proc] at hq'
    split_ifs at hq' with hqp
    · simp [Proc.wake] at hq'
    · exact h.cleared q (by cases hsq : s.proc q <;> simp_all [Proc.wake])

lemma Tracks.commitStep {cs : List Call} {s : Sys} {p : ℕ} {st : Stage} (h : Tracks cs s) (hi : Inv s)
    (hq : s.proc p = .committing st) :
    Tracks (cs ++ [.commitStep p]) (s.commitStep p st) ∧ (s.commitStep p st).panic = s.panic := by
  have hc := hi.committer p (by simp [hq, Proc.stage?])
  cases st with
  | finish =>
    have hlh := h.cleared p hq
    refine ⟨⟨by simpa [Sys.commitStep] using h.nodup, fun _ => ?_, fun q hq' => ?_⟩, rfl⟩
    · simp [Sys.commitStep, hlh, passed_snoc]
    · simpa [Sys.commitStep] using hlh
  | clear =>
    exact ⟨⟨by simp [Sys.commitStep], by simp [Sys.commitStep, hc], by simp [Sys.commitStep]⟩, rfl⟩
  | _ =>
    refine ⟨⟨by simpa [Sys.commitStep] using h.nodup, by simp [Sys.commitStep, hc], fun q hq' => ?_⟩, rfl⟩
    simp only [Sys.commitStep, set_proc, set_log] at hq' ⊢
    split_ifs at hq' <;> first | cases hq' | exact h.cleared q hq'

lemma logWrite_full {s : Sys} {b : ℕ} (hs : s.log.size = LOGSIZE) (hn : LOGSIZE - 1 ≤ s.log.lh.length) :
    s.logWrite b = { s with panic := some .tooBigATransaction } := by
  have hc : s.log.logWriteCheck = .error .tooBigATransaction := by
    rw [LogState.logWriteCheck, if_pos (.inr (by rw [hs]; omega))]
  simp [Sys.logWrite, LogState.logWrite, hc]

lemma logWrite_free {s : Sys} {b : ℕ} (hs : s.log.size = LOGSIZE) (ho : 0 < s.log.outstanding)
    (hn : s.log.lh.length < LOGSIZE - 1) : s.logWrite b = { s with log := s.log.logWriteAppend b } := by
  have hc : s.log.logWriteCheck = .ok () := by
    rw [LogState.logWriteCheck, if_neg (by rw [hs]; omega), if_neg (by omega)]
  simp [Sys.logWrite, LogState.logWrite, hc]

def Outcome (cs : List Call) (s : Sys) : Prop :=
  Inv s ∧ s.log.size = LOGSIZE ∧
    ((s.panic = none ∧ Tracks cs s ∧ SlotFree cs) ∨ (s.panic = some .tooBigATransaction ∧ ¬ SlotFree cs))

lemma Outcome.of_tracks {cs : List Call} {s s' : Sys} {c : Call} (hi : Inv s')
    (hs : s'.log.size = LOGSIZE)
    (hc : ∀ p b, c ≠ .logWrite p b) (hf : SlotFree cs) (hn : s.panic = none)
    (ht : Tracks (cs ++ [c]) s' ∧ s'.panic = s.panic) : Outcome (cs ++ [c]) s' :=
  ⟨hi, hs, .inl ⟨ht.2.trans hn, ht.1, (slotFree_snoc cs c).mpr ⟨hf, fun p b h => absurd h (hc p b)⟩⟩⟩

lemma Outcome.step {cs : List Call} {s s' : Sys} {c : Call} (h : Outcome cs s) (hs : CallStep s c s') :
    Outcome (cs ++ [c]) s' := by
  obtain ⟨hi, hsz, ⟨hn, ht, hf⟩ | ⟨hp, _⟩⟩ := h
  swap
  · cases c <;> simp [CallStep, Sys.call, Sys.step, hp] at hs
  have hi' := hi.call hs
  cases c with
  | beginOp p =>
    have hstep : Step s (.beginOp p) s' := hs
    exact .of_tracks hi' (hstep.size.trans hsz) (by simp) hf hn (ht.beginOp hstep.move.2)
  | endOp p =>
    have hstep : Step s (.endOp p) s' := hs
    exact .of_tracks hi' (hstep.size.trans hsz) (by simp) hf hn (ht.endOp hi hstep.move.2)
  | commitStep p =>
    have hstep : Step s (.commitStep p) s' := hs
    obtain ⟨_, hm⟩ := hstep.move
    cases hm with
    | commit hq => exact .of_tracks hi' (hstep.size.trans hsz) (by simp) hf hn (ht.commitStep hi hq)
  | logWrite p b =>
    simp only [CallStep, Sys.call, hn, Option.isSome_none, Bool.false_eq_true, if_false] at hs
    cases hp : s.proc p <;> simp only [hp, reduceCtorEq, Option.some.injEq] at hs
    subst hs
    have hop : (s.proc p).op? ≠ none := by simp [hp, Proc.op?]
    have hlen := ht.length (hi.not_committing hop)
    refine ⟨hi', ?_⟩
    by_cases hfull : LOGSIZE - 1 ≤ s.log.lh.length
    · rw [logWrite_full hsz hfull]
      refine ⟨hsz, .inr ⟨rfl, fun hfree => ?_⟩⟩
      have := ((slotFree_snoc cs _).mp hfree).2 p b rfl
      omega
    · rw [logWrite_free hsz (hi.outstanding_pos hop) (by omega)]
      refine ⟨?_, .inl ⟨hn, ht.append hi hp, (slotFree_snoc cs _).mpr ⟨hf, fun _ _ _ => by omega⟩⟩⟩
      unfold LogState.logWriteAppend
      split_ifs <;> exact hsz

theorem log_write_panics_iff (start : ℕ) (cs : List Call) (s : Sys)
    (h : Run CallStep (Sys.init start LOGSIZE) cs s) :
    s.panic ≠ some .tooBigATransaction ↔ SlotFree cs := by
  have ho : Outcome cs s := by
    refine h.invariant (P := Outcome) ?_ (fun _ _ _ _ _ hi hs => hi.step hs)
    exact ⟨Inv.init _ _, rfl, .inl ⟨rfl, Tracks.init _ _, slotFree_nil⟩⟩
  obtain ⟨_, _, ⟨hn, _, hf⟩ | ⟨hp, hf⟩⟩ := ho
  · simp [hn, hf]
  · simp [hp, hf]

theorem log_write_panics_iff_one_write :
    ∃ s, Run CallStep (Sys.init 2 LOGSIZE) [.beginOp 0, .logWrite 0 60, .endOp 0] s ∧
      s.panic ≠ some .tooBigATransaction ∧ SlotFree [.beginOp 0, .logWrite 0 60, .endOp 0] := by
  obtain ⟨s, hs, hne⟩ : ∃ s ∈ exec Sys.call (Sys.init 2 LOGSIZE) [.beginOp 0, .logWrite 0 60, .endOp 0],
    s.panic ≠ some .tooBigATransaction := by decide
  exact ⟨s, run_of_exec hs, hne, (log_write_panics_iff 2 _ s (run_of_exec hs)).mp hne⟩

def threeFullOps : List Call :=
  [.beginOp 0, .beginOp 1, .beginOp 2] ++ (List.range' 100 10).map (.logWrite 0) ++
    (List.range' 200 10).map (.logWrite 1) ++ (List.range' 300 10).map (.logWrite 2)

lemma opBlocks_eq_nil {p : ℕ} {cs : List Call} (h : ∀ b, .logWrite p b ∉ cs) : opBlocks p cs = [] := by
  induction cs using List.reverseRecOn with
  | nil => rfl
  | append_singleton cs c ih =>
    have ih := ih (fun b hb => h b (List.mem_append_left _ hb))
    simp only [opBlocks, List.foldl_append, List.foldl_cons, List.foldl_nil] at ih ⊢
    rw [ih]
    cases c with
    | logWrite q b =>
      have hq : q ≠ p := by
        rintro rfl
        exact h b (by simp)
      simp [hq]
    | beginOp q => simp
    | _ => rfl

lemma disciplined_threeFullOps : Disciplined threeFullOps := by
  have hsmall : ∀ t ∈ threeFullOps.inits, ∀ p ∈ [0, 1, 2],
    (opBlocks p t).toFinset.card ≤ MAXOPBLOCKS := by
    decide +kernel
  intro t ht p
  by_cases hp : p ∈ [0, 1, 2]
  · exact hsmall t ht p hp
  · have hnone : ∀ b, Call.logWrite p b ∉ t := by
      intro b hb
      have hm := ((List.mem_inits _ _).mp ht).subset hb
      simp [threeFullOps] at hm
      simp at hp
      omega
    simp [opBlocks_eq_nil hnone]

theorem full_log_panics :
    Disciplined threeFullOps ∧
      ∃ s, Run CallStep (Sys.init 2 LOGSIZE) threeFullOps s ∧ s.panic = some .tooBigATransaction := by
  refine ⟨disciplined_threeFullOps, ?_⟩
  obtain ⟨s, hs, hp⟩ : ∃ s ∈ exec Sys.call (Sys.init 2 LOGSIZE) threeFullOps,
    s.panic = some .tooBigATransaction := by
    decide +kernel
  exact ⟨s, run_of_exec hs, hp⟩

end Sys

end Xv6.Log
