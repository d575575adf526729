import Xv6.Log.Ops
import Xv6.Proc.Wakeup

/-! The processes asleep in `begin_op`: `log.c` as a client of the process table, one statement a
step, with `log.lock` and the hand-over inside `sleep` and `wakeup`. -/

namespace Xv6.Waiters

open Lib Xv6.Proc
open Xv6.Log (LogState Stage)

abbrev logLock : Lock := .other 0
abbrev logChan : ℕ := 1

inductive Pos
  | idle
  | testing
  | admitted
  | inOp
  | appending (b : ℕ)
  | locked (b : ℕ)
  | appended
  | ending
  | waking
  | ended (doCommit : Bool)
  | committing (stage : Stage)
  | finishing
  | finishWake
  | finishRelease
  deriving DecidableEq

def nextStage (n : ℕ) : Stage → Stage
  | .writeLog tail => if tail < n then .writeLog (tail + 1) else .writeHead
  | .writeHead => .installTrans 0
  | .installTrans tail => if tail < n then .installTrans (tail + 1) else .clear
  | .clear => .finish
  | .finish => .finish

inductive LogClient : Pos → LogState → Call → Pos → LogState → Prop
  | beginAcquire {l : LogState} : LogClient .idle l (.acquire logLock) .testing l
  | beginSleep {l : LogState} : l.beginOp = none →
      LogClient .testing l (.sleep logChan logLock) .testing l
  | beginAdmit {l l' : LogState} : l.beginOp = some l' → LogClient .testing l .internal .admitted l'
  | beginRelease {l : LogState} : LogClient .admitted l (.release logLock) .inOp l
  | writeCheck {l : LogState} {b : ℕ} : l.logWriteCheck = .ok () →
      LogClient .inOp l .internal (.appending b) l
  | writeAcquire {l : LogState} {b : ℕ} : LogClient (.appending b) l (.acquire logLock) (.locked b) l
  | writeAppend {l : LogState} {b : ℕ} : LogClient (.locked b) l .internal .appended (l.logWriteAppend b)
  | writeRelease {l : LogState} : LogClient .appended l (.release logLock) .inOp l
  | endAcquire {l : LogState} : LogClient .inOp l (.acquire logLock) .ending l
  | endLast {l l' : LogState} : l.endOp = .ok (l', true) → LogClient .ending l .internal (.ended true) l'
  | endMore {l l' : LogState} : l.endOp = .ok (l', false) → LogClient .ending l .internal .waking l'
  | endWakeup {l : LogState} : LogClient .waking l (.wakeup logChan) (.ended false) l
  | endRelease {l : LogState} : LogClient (.ended false) l (.release logLock) .idle l
  | commitRelease {l : LogState} :
      LogClient (.ended true) l (.release logLock) (.committing (Log.Sys.firstStage l.lh.length)) l
  | commitStep {l : LogState} {st : Stage} : st ≠ .clear → st ≠ .finish →
      LogClient (.committing st) l .internal (.committing (nextStage l.lh.length st)) l
  | commitClear {l : LogState} :
      LogClient (.committing .clear) l .internal (.committing .finish) { l with lh := [] }
  | finishAcquire {l : LogState} : LogClient (.committing .finish) l (.acquire logLock) .finishing l
  | finishFlag {l : LogState} :
      LogClient .finishing l .internal .finishWake { l with committing := false }
  | finishWakeup {l : LogState} : LogClient .finishWake l (.wakeup logChan) .finishRelease l
  | finishDrop {l : LogState} : LogClient .finishRelease l (.release logLock) .idle l
  | killIdle {l : LogState} {q : ℕ} : LogClient .idle l (.kill q) .idle l
  | killInOp {l : LogState} {q : ℕ} : LogClient .inOp l (.kill q) .inOp l

def Blocked (l : LogState) : Prop :=
  l.committing = true ∨ l.lh.length + (l.outstanding + 1) * MAXOPBLOCKS > LOGSIZE

lemma beginOp_eq_none_iff {l : LogState} : l.beginOp = none ↔ Blocked l := by
  unfold LogState.beginOp Blocked
  split_ifs with h1 h2 <;> simp_all

namespace Pos

def holds : Pos → Bool
  | testing | admitted | locked _ | appended | ending | waking | ended _ | finishing | finishWake
  | finishRelease => true
  | _ => false

def inside : Pos → Bool
  | admitted | inOp | appending _ | locked _ | appended | ending => true
  | _ => false

def commits : Pos → Bool
  | ended doCommit => doCommit
  | committing _ | finishing => true
  | _ => false

def uncleared : Pos → Bool
  | ended doCommit => doCommit
  | committing st => st ≠ .finish
  | _ => false

end Pos

abbrev State := Machine Pos LogState

variable {n : ℕ} {s s' : State} {a : Agent} {e : Label} {p q : ℕ}

def Holds (s : State) (p : ℕ) : Prop :=
  (s.proc p).loc.holds = true ∧
    ∀ ph c lk, (s.proc p).pc = .sleep ph c lk → ph = .acquire ∨ ph = .release ∨ ph = .ret

def Pending (s : State) (p : ℕ) : Prop :=
  ∃ ph, (s.proc p).pc = .sleep ph logChan logLock ∧
    (ph.rank ≤ 4 ∨ ph = .awake ∧ (s.proc p).state = .sleeping)

def Waker (s : State) (q p : ℕ) : Prop :=
  Holds s q ∧ ((s.proc q).loc = .waking ∨ (s.proc q).loc = .finishWake ∨
    (s.proc q).pc = .wakeupAcquire logChan ∨ ∃ j u, (s.proc q).pc = .wakeupScan logChan j u ∧ j ≤ p)

structure Inv (n : ℕ) (s : State) : Prop where
  table : Machine.Inv n s
  lock : ∀ p, Holds s p → s.lock logLock = some (.proc p)
  sleep : ∀ p ph c lk, (s.proc p).pc = .sleep ph c lk →
    p < n ∧ c = logChan ∧ lk = logLock ∧ (s.proc p).loc = .testing
  wakes : ∀ p c j u, (s.proc p).pc = .wakeupAcquire c ∨ (s.proc p).pc = .wakeupScan c j u →
    c = logChan ∧ ((s.proc p).loc = .ended false ∨ (s.proc p).loc = .finishRelease)
  committer : ∀ p, (s.proc p).loc.commits = true → s.data.committing = true ∧
    ∀ q, (s.proc q).loc.commits = true → q = p
  count : ∃ S : Finset ℕ, (∀ p, p ∈ S ↔ (s.proc p).loc.inside = true) ∧ s.data.outstanding = S.card
  logged : s.data.lh ≠ [] → 1 ≤ s.data.outstanding ∨ ∃ p, (s.proc p).loc.uncleared = true
  pending : ∀ p, Pending s p → Blocked s.data ∨ ∃ q, Waker s q p

section

variable (h : Inv n s) (hs : Machine.Step n LogClient s a e s')
include h hs

lemma lock_step (p : ℕ) (hp : Holds s' p) : s'.lock logLock = some (.proc p) := by
  by_cases ha : a = .proc p
  swap
  · have hf := hs.frame h.table ha
    refine hf.lock _ (h.lock p ?_)
    unfold Holds at *
    rwa [hf.loc, hf.pc] at hp
  subst ha
  have hlock := h.lock p
  have hsleep := h.sleep p
  unfold Holds at *
  rcases hs.acts with hs | ⟨call, ℓ, d, hℓ, hd, hpc, hc, hk, heff⟩
  · cases hs <;> grind -linarith [Machine.noClient]
  · generalize (s'.proc p).loc = ℓ' at *
    generalize s'.data = d' at *
    cases hk <;> grind -linarith [Pos.holds, Machine.Effect]

lemma sleep_step (p : ℕ) (ph : Phase) (c : ℕ) (lk : Lock) (hp : (s'.proc p).pc = .sleep ph c lk) :
    p < n ∧ c = logChan ∧ lk = logLock ∧ (s'.proc p).loc = .testing := by
  by_cases ha : a = .proc p
  swap
  · have hf := hs.frame h.table ha
    rw [hf.loc]
    exact h.sleep p ph c lk (by rw [← hf.pc, hp])
  subst ha
  have hsleep := h.sleep p
  have hlt := h.table.lt
  rcases hs.acts with hs | ⟨call, ℓ, d, hℓ, hd, hpc, ⟨cpu, hc⟩, hk, heff⟩
  · cases hs <;> grind -linarith [Machine.noClient]
  · generalize (s'.proc p).loc = ℓ' at *
    generalize s'.data = d' at *
    cases hk <;> grind -linarith [Machine.Effect]

lemma wakes_step (p c j : ℕ) (u : Bool) (hp : (s'.proc p).pc = .wakeupAcquire c ∨
    (s'.proc p).pc = .wakeupScan c j u) :
    c = logChan ∧ ((s'.proc p).loc = .ended false ∨ (s'.proc p).loc = .finishRelease) := by
  by_cases ha : a = .proc p
  swap
  · have hf := hs.frame h.table ha
    rw [hf.loc]
    exact h.wakes p c j u (by rwa [← hf.pc])
  subst ha
  have hwakes := h.wakes p
  rcases hs.acts with hs | ⟨call, ℓ, d, hℓ, hd, hpc, -, hk, heff⟩
  · cases hs <;> grind -linarith [Machine.noClient]
  · generalize (s'.proc p).loc = ℓ' at *
    generalize s'.data = d' at *
    cases hk <;> grind -linarith [Machine.Effect]

end

lemma endOp_eq_true {l l' : LogState} (h : l.endOp = .ok (l', true)) :
    l.committing = false ∧ l.outstanding = 1 ∧ l' = { l with outstanding := 0, committing := true } := by
  simp only [LogState.endOp] at h
  split_ifs at h with h1 h2 <;> cases h
  have hone : l.outstanding - 1 = 0 := h2
  exact ⟨by simpa using h1, by omega, by rw [hone]⟩

lemma endOp_eq_false {l l' : LogState} (h : l.endOp = .ok (l', false)) :
    l.committing = false ∧ l.outstanding ≠ 1 ∧ l' = { l with outstanding := l.outstanding - 1 } := by
  simp only [LogState.endOp] at h
  split_ifs at h with h1 h2 <;> cases h
  have hne : l.outstanding - 1 ≠ 0 := h2
  exact ⟨by simpa using h1, by omega, rfl⟩

lemma beginOp_eq_some {l l' : LogState} (h : l.beginOp = some l') :
    ¬ Blocked l ∧ l' = { l with outstanding := l.outstanding + 1 } := by
  have hb : ¬ Blocked l := by
    rw [← beginOp_eq_none_iff, h]
    simp
  unfold LogState.beginOp at h
  split_ifs at h
  cases h
  exact ⟨hb, rfl⟩

lemma append_data (l : LogState) (b : ℕ) : (l.logWriteAppend b).committing = l.committing ∧
    (l.logWriteAppend b).outstanding = l.outstanding ∧ l.lh.length ≤ (l.logWriteAppend b).lh.length := by
  unfold LogState.logWriteAppend
  split_ifs <;> simp

lemma committer_step (h : Inv n s) (hs : Machine.Step n LogClient s a e s') (p : ℕ)
    (hp : (s'.proc p).loc.commits = true) :
    s'.data.committing = true ∧ ∀ q, (s'.proc q).loc.commits = true → q = p := by
  rcases hs.client h.table with ⟨hd, hl⟩ | ⟨r, call, ℓ, d, hℓ, hd, -, -, hk, -, hne⟩
  · simp only [hd, hl] at *
    exact h.committer p hp
  have hcom := h.committer
  generalize hℓ' : (s'.proc r).loc = ℓ' at hk
  generalize hd' : s'.data = d' at hk ⊢
  cases hk with
  | endLast he =>
    obtain ⟨hc, -, rfl⟩ := endOp_eq_true he
    grind -linarith [Pos.commits]
  | endMore he =>
    obtain ⟨hc, -, rfl⟩ := endOp_eq_false he
    grind -linarith [Pos.commits]
  | beginAdmit he =>
    obtain ⟨-, rfl⟩ := beginOp_eq_some he
    grind -linarith [Pos.commits]
  | @writeAppend _ b =>
    have hap := append_data d b
    grind -linarith [Pos.commits]
  | _ => grind -linarith [Pos.commits]

lemma count_step (h : Inv n s) (hs : Machine.Step n LogClient s a e s') :
    ∃ S : Finset ℕ, (∀ p, p ∈ S ↔ (s'.proc p).loc.inside = true) ∧ s'.data.outstanding = S.card := by
  obtain ⟨S, hS, hcard⟩ := h.count
  rcases hs.client h.table with ⟨hd, hl⟩ | ⟨r, call, ℓ, d, hℓ, hd, -, -, hk, -, hne⟩
  · exact ⟨S, fun p => by rw [hl, hS], by rw [hd, hcard]⟩
  generalize hℓ' : (s'.proc r).loc = ℓ' at hk
  generalize hd' : s'.data = d' at hk ⊢
  have hr := hS r
  rw [hℓ] at hr
  -- the set changes only where an operation is admitted or ends
  have keep : ℓ'.inside = ℓ.inside → ∀ p, p ∈ S ↔ (s'.proc p).loc.inside = true := by
    intro heq p
    by_cases hp : p = r
    · rw [hp, hr, hℓ', heq]
    · rw [hne p hp, hS]
  have leave : ℓ'.inside = false → ∀ p, p ∈ S.erase r ↔ (s'.proc p).loc.inside = true := by
    intro hout p
    rw [Finset.mem_erase]
    by_cases hp : p = r
    · simp [hp, hℓ', hout]
    · simp [hp, hne p hp, hS]
  cases hk with
  | beginAdmit he =>
    obtain ⟨-, rfl⟩ := beginOp_eq_some he
    have hnot : r ∉ S := by simp [hr, Pos.inside]
    refine ⟨insert r S, fun p => ?_, ?_⟩
    · rw [Finset.mem_insert]
      by_cases hp : p = r
      · simp [hp, hℓ', Pos.inside]
      · simp [hp, hne p hp, hS]
    · rw [Finset.card_insert_of_notMem hnot]
      simp [← hd, hcard]
  | endLast he =>
    obtain ⟨-, hone, rfl⟩ := endOp_eq_true he
    refine ⟨S.erase r, leave rfl, ?_⟩
    rw [Finset.card_erase_of_mem (hr.mpr rfl)]
    rw [hd] at hcard
    simp only
    omega
  | endMore he =>
    obtain ⟨-, hone, rfl⟩ := endOp_eq_false he
    refine ⟨S.erase r, leave rfl, ?_⟩
    have hpos := Finset.card_pos.mpr ⟨r, hr.mpr rfl⟩
    rw [Finset.card_erase_of_mem (hr.mpr rfl)]
    rw [hd] at hcard
    simp only
    omega
  | @writeAppend _ b => exact ⟨S, keep rfl, by rw [(append_data d b).2.1, ← hd, hcard]⟩
  | _ => exact ⟨S, keep rfl, by rw [← hcard, hd]⟩

lemma firstStage_uncleared {l : LogState} (h : l.lh ≠ []) :
    (Pos.committing (Log.Sys.firstStage l.lh.length)).uncleared = true := by
  have hpos : 0 < l.lh.length := List.length_pos_iff.mpr h
  simp [Pos.uncleared, Log.Sys.firstStage, hpos]

lemma nextStage_uncleared {m : ℕ} {st : Stage} (h1 : st ≠ .clear) (h2 : st ≠ .finish) :
    (Pos.committing (nextStage m st)).uncleared = true := by
  cases st with
  | writeLog | installTrans =>
    simp only [nextStage]
    split_ifs <;> rfl
  | writeHead => rfl
  | clear => exact absurd rfl h1
  | finish => exact absurd rfl h2

lemma logged_step (h : Inv n s) (hs : Machine.Step n LogClient s a e s') (hlh : s'.data.lh ≠ []) :
    1 ≤ s'.data.outstanding ∨ ∃ p, (s'.proc p).loc.uncleared = true := by
  obtain ⟨S, hS, hcard⟩ := h.count
  rcases hs.client h.table with ⟨hd, hl⟩ | ⟨r, call, ℓ, d, hℓ, hd, -, -, hk, -, hne⟩
  · simp only [hd, hl] at *
    exact h.logged hlh
  generalize hℓ' : (s'.proc r).loc = ℓ' at hk
  generalize hd' : s'.data = d' at hk hlh ⊢
  have hr := hS r
  rw [hℓ] at hr
  rw [hd] at hcard
  have hlog := h.logged
  rw [hd] at hlog
  -- an uncleared committer stays where it is unless it is the one that steps
  have keep : (ℓ.uncleared = true → ℓ'.uncleared = true) → d.lh ≠ [] →
      1 ≤ d.outstanding ∨ ∃ p, (s'.proc p).loc.uncleared = true := by
    intro himp hold
    refine (hlog hold).imp id ?_
    rintro ⟨p, hp⟩
    refine ⟨p, ?_⟩
    by_cases hpr : p = r
    · subst hpr
      rw [hℓ']
      exact himp (hℓ ▸ hp)
    · rwa [hne p hpr]
  cases hk with
  | beginAdmit he =>
    obtain ⟨-, rfl⟩ := beginOp_eq_some he
    left
    simp only
    omega
  | endLast he => exact .inr ⟨r, by rw [hℓ']; rfl⟩
  | endMore he =>
    obtain ⟨-, hone, rfl⟩ := endOp_eq_false he
    have hpos := Finset.card_pos.mpr ⟨r, hr.mpr rfl⟩
    left
    simp only
    omega
  | @writeAppend _ b =>
    have hpos := Finset.card_pos.mpr ⟨r, hr.mpr rfl⟩
    left
    rw [(append_data d b).2.1]
    omega
  | commitRelease => exact .inr ⟨r, by rw [hℓ']; exact firstStage_uncleared hlh⟩
  | commitStep h1 h2 => exact .inr ⟨r, by rw [hℓ']; exact nextStage_uncleared h1 h2⟩
  | commitClear => exact absurd rfl hlh
  | _ => exact keep (by simp [Pos.uncleared]) hlh

lemma Pending.asleep (h : Inv n s) (hp : Pending s p) (hq : Holds s q)
    (hscan : s.lock .ptable = some (.proc q)) (hne : p ≠ q) : s.SleepingOn p logChan := by
  obtain ⟨ph, hpc, hph⟩ := hp
  have ho := h.table.owns p
  rw [Machine.Owns, hpc] at ho
  rcases hph with hrank | ⟨rfl, hsl⟩
  · exfalso
    have hl := h.lock q hq
    cases ph with
    | acquire => exact hne (Agent.proc.inj (Option.some.inj (ho.2.symm.trans hl)))
    | release => exact hne (Agent.proc.inj (Option.some.inj (ho.2.1.symm.trans hl)))
    | chan => exact hne (Agent.proc.inj (Option.some.inj (ho.symm.trans hscan)))
    | state | sched => exact hne (Agent.proc.inj (Option.some.inj (ho.1.symm.trans hscan)))
    | _ => exact absurd hrank (by decide)
  · obtain ⟨-, c, lk, hch, hpc'⟩ := h.table.parked p hsl
    rw [hpc] at hpc'
    rcases hpc' with hpc' | hpc' <;> cases hpc'
    exact ⟨hsl, hch⟩

section

variable (h : Inv n s) (hs : Machine.Step n LogClient s a e s')
include h hs

lemma Pending.before (hp : Pending s' p) : Pending s p ∨ Blocked s'.data := by
  obtain ⟨ph, hpc, hph⟩ := hp
  by_cases ha : a = .proc p
  swap
  · have hf := hs.frame h.table ha
    exact .inl ⟨ph, by rw [← hf.pc, hpc], hph.imp id (fun hsl => ⟨hsl.1, hf.sleeping hsl.2⟩)⟩
  subst ha
  rcases hs.acts with hs | ⟨call, ℓ, d, hℓ, hd, hrun, -, hk, heff⟩
  · left
    unfold Pending
    cases hs <;> grind -linarith [Machine.noClient, Phase.rank]
  · right
    generalize (s'.proc p).loc = ℓ' at hk
    generalize s'.data = d' at *
    cases hk with
    | beginSleep hb => exact beginOp_eq_none_iff.mp hb
    | _ => simp_all [Machine.Effect]

lemma unblocked (hb : Blocked s.data) (hb' : ¬ Blocked s'.data) (p : ℕ) : ∃ q, Waker s' q p := by
  rcases hs.client h.table with ⟨hd, -⟩ | ⟨r, call, ℓ, d, hℓ, hd, rfl, hrun, hk, heff, -⟩
  · rw [hd] at hb'
    exact absurd hb hb'
  have hcom := h.committer r
  generalize hℓ' : (s'.proc r).loc = ℓ' at hk
  generalize hd' : s'.data = d' at hk hb'
  rw [hd] at hb
  have waker : (ℓ' = .waking ∨ ℓ' = .finishWake) → (s'.proc r).pc = .run → ∃ q, Waker s' q p := by
    intro hloc hpc
    refine ⟨r, ⟨?_, fun ph c lk hp => ?_⟩, ?_⟩
    · rcases hloc with rfl | rfl <;> rw [hℓ'] <;> rfl
    · rw [hpc] at hp
      cases hp
    · rw [hℓ']
      exact hloc.imp id .inl
  cases hk with
  | endMore he => exact waker (.inl rfl) heff.1
  | finishFlag => exact waker (.inr rfl) heff.1
  | endLast he =>
    obtain ⟨-, -, rfl⟩ := endOp_eq_true he
    exact absurd (.inl rfl) hb'
  | beginAdmit he => exact absurd hb (beginOp_eq_some he).1
  | @writeAppend _ b =>
    obtain ⟨h1, h2, h3⟩ := append_data d b
    refine absurd ?_ hb'
    unfold Blocked at *
    rw [h1, h2]
    refine hb.imp id (fun hfull => ?_)
    have : (d.lh.length : ℤ) ≤ (d.logWriteAppend b).lh.length := by exact_mod_cast h3
    omega
  | commitClear =>
    rw [hℓ, hd] at hcom
    exact absurd (.inl (hcom rfl).1) hb'
  | _ => exact absurd hb hb'

lemma Waker.step (hw : Waker s q p) (hp : Pending s p) (hp' : Pending s' p) : Waker s' q p := by
  obtain ⟨hholds, hkind⟩ := hw
  have hlt : p < n := by
    obtain ⟨ph, hpc, -⟩ := hp
    exact (h.sleep p ph _ _ hpc).1
  by_cases ha : a = .proc q
  swap
  · have hf := hs.frame h.table ha
    unfold Waker Holds at *
    rw [hf.loc, hf.pc]
    exact ⟨hholds, hkind⟩
  subst ha
  have hsleep' := sleep_step h hs q
  rcases hs.acts with hq | ⟨call, ℓ, d, hℓ, hd, hrun, -, hk, heff⟩
  swap
  · -- a call of the waker is the call of `wakeup`
    have hsleep := h.sleep q
    generalize hℓ' : (s'.proc q).loc = ℓ' at hk
    generalize s'.data = d' at hk
    have hcalls : (s'.proc q).pc = .wakeupAcquire logChan ∧ ℓ'.holds = true := by
      cases hk <;> simp_all [Machine.Effect, Pos.holds]
    refine ⟨⟨by rw [hℓ', hcalls.2], fun ph c lk hp => ?_⟩, .inr (.inr (.inl hcalls.1))⟩
    rw [hcalls.1] at hp
    cases hp
  have hloc := hq.quiet.2 q
  have hnot : ∀ {ℓ : Pos}, (s.proc q).loc = ℓ → ℓ ≠ .testing → Holds s' q := by
    intro ℓ hl hne
    refine ⟨by rw [hloc, hholds.1], fun ph c lk hp => ?_⟩
    have := (hsleep' ph c lk hp).2.2.2
    rw [hloc, hl] at this
    exact absurd this hne
  rcases hkind with hl | hl | hpc | ⟨j, u, hpc, hj⟩
  · exact ⟨hnot hl (by simp), .inl (by rw [hloc, hl])⟩
  · exact ⟨hnot hl (by simp), .inr (.inl (by rw [hloc, hl]))⟩
  · have hl := (h.wakes q _ 0 true (.inl hpc)).2
    have hh : Holds s' q := by rcases hl with hl | hl <;> exact hnot hl (by simp)
    refine ⟨hh, .inr (.inr (.inr ⟨0, true, ?_, Nat.zero_le p⟩))⟩
    cases hq <;> simp_all
  · have hl := (h.wakes q _ j u (.inr hpc)).2
    have hh : Holds s' q := by rcases hl with hl | hl <;> exact hnot hl (by simp)
    have hown := h.table.owns q
    rw [Machine.Owns, hpc] at hown
    have hne : p ≠ q := by
      rintro rfl
      obtain ⟨ph, hpc', -⟩ := hp
      rw [hpc] at hpc'
      cases hpc'
    obtain ⟨hsl, hch⟩ := hp.asleep h hholds hown hne
    refine ⟨hh, .inr (.inr (.inr ⟨j + 1, u, ?_⟩))⟩
    cases hq with
    | scanWake _ hpc' =>
      rw [hpc] at hpc'
      cases hpc'
      refine ⟨by simp, ?_⟩
      by_contra hlt'
      obtain rfl : p = j := by omega
      -- the scan has just woken `p`
      obtain ⟨ph, hpc1, hph⟩ := hp'
      have hpc2 : (s.proc p).pc = .sleep ph logChan logLock := by simpa [hne] using hpc1
      have hst : ¬ ph.rank ≤ 4 := by
        intro hrank
        have hsch := h.table.parked p hsl
        obtain ⟨-, c, lk, -, hph' | hph'⟩ := hsch
        · have := (h.table.owns p).sched hph'
          rw [hown] at this
          exact hne (Agent.proc.inj (Option.some.inj this.1)).symm
        · rw [hpc2] at hph'
          cases hph'
          exact absurd hrank (by decide)
      rcases hph with hrank | ⟨-, hsl'⟩
      · exact hst hrank
      · simp [hne] at hsl'
    | scanSkip _ hpc' _ hno =>
      rw [hpc] at hpc'
      cases hpc'
      refine ⟨by simp, ?_⟩
      by_contra hlt'
      obtain rfl : p = j := by omega
      exact hno ⟨hsl, hch⟩
    | scanDone _ hpc' hn =>
      rw [hpc] at hpc'
      cases hpc'
      omega
    | _ => simp_all

lemma pending_step (p : ℕ) (hp : Pending s' p) : Blocked s'.data ∨ ∃ q, Waker s' q p := by
  rcases hp.before h hs with hold | hb
  swap
  · exact .inl hb
  rcases h.pending p hold with hb | ⟨q, hq⟩
  · by_cases hb' : Blocked s'.data
    · exact .inl hb'
    · exact .inr (unblocked h hs hb hb' p)
  · exact .inr ⟨q, hq.step h hs hold hp⟩

lemma Inv.step : Inv n s' where
  table := h.table.step hs
  lock := lock_step h hs
  sleep := sleep_step h hs
  wakes := wakes_step h hs
  committer := committer_step h hs
  count := count_step h hs
  logged := logged_step h hs
  pending := pending_step h hs

end

structure Boot (s : State) : Prop where
  table : s.Init
  idle : ∀ p, (s.proc p).loc = .idle
  empty : s.data.lh = []
  none : s.data.outstanding = 0
  free : s.data.committing = false

lemma Inv.boot (h : Boot s) : Inv n s where
  table := .init h.table
  lock p hp := by
    have := hp.1
    rw [h.idle] at this
    cases this
  sleep p ph c lk hp := by
    rw [(h.table.proc p).1] at hp
    cases hp
  wakes p c j u hp := by
    rw [(h.table.proc p).1] at hp
    rcases hp with hp | hp <;> cases hp
  committer p hp := by
    rw [h.idle] at hp
    cases hp
  count := ⟨∅, fun p => by simp [h.idle, Pos.inside], by simp [h.none]⟩
  logged hlh := absurd h.empty hlh
  pending p hp := by
    obtain ⟨ph, hpc, -⟩ := hp
    rw [(h.table.proc p).1] at hpc
    cases hpc

lemma Inv.run {es : List Label} (h : Inv n s) (hr : Run (Machine.Steps n LogClient) s es s') : Inv n s' :=
  hr.state_invariant h (fun _ _ _ hi ⟨_, hs⟩ => hi.step hs)

theorem begin_op_waiters_not_stranded (n : ℕ) (s₀ s : State) (es : List Label) (hboot : Boot s₀)
    (hrun : Run (Machine.Steps n LogClient) s₀ es s) (hfree : s.lock logLock = none) (p : ℕ)
    (hp : s.SleepingOn p logChan) :
    (s.data.committing = true ∨
      s.data.lh.length + (s.data.outstanding + 1) * MAXOPBLOCKS > LOGSIZE) ∧
    ¬ (s.data.committing = false ∧ s.data.outstanding = 0) := by
  have h := (Inv.boot (n := n) hboot).run hrun
  obtain ⟨-, c, lk, hch, hpc⟩ := h.table.parked p hp.1
  have hpend : Pending s p := by
    rcases hpc with hpc | hpc
    · obtain ⟨-, rfl, rfl, -⟩ := h.sleep p _ _ _ hpc
      exact ⟨_, hpc, .inl (by decide)⟩
    · obtain ⟨-, rfl, rfl, -⟩ := h.sleep p _ _ _ hpc
      exact ⟨_, hpc, .inr ⟨rfl, hp.1⟩⟩
  have hb : Blocked s.data := by
    rcases h.pending p hpend with hb | ⟨q, hq⟩
    · exact hb
    · have hl := h.lock q hq.1
      rw [hfree] at hl
      cases hl
  refine ⟨hb, fun ⟨hc, ho⟩ => ?_⟩
  have hempty : s.data.lh = [] := by
    by_contra hlh
    rcases h.logged hlh with hpos | ⟨q, hq⟩
    · omega
    · have hcom : (s.proc q).loc.commits = true := by
        generalize (s.proc q).loc = ℓ at hq
        cases ℓ <;> simp_all [Pos.uncleared, Pos.commits]
      rw [(h.committer q hcom).1] at hc
      cases hc
  rcases hb with hb | hb
  · rw [hc] at hb
    cases hb
  · rw [hempty, ho] at hb
    exact absurd hb (by decide)

def booted : State where
  lock _ := none
  proc _ := ⟨.runnable, none, .yieldRelease, .idle⟩
  cpu _ := .idle
  ncli _ := 0
  data := ⟨2, LOGSIZE, [], 0, false⟩

theorem begin_op_waiters_not_stranded_commit :
    ∃ s : State, s.lock logLock = none ∧ s.SleepingOn 1 logChan ∧
      ¬ (s.data.committing = false ∧ s.data.outstanding = 0) := by
  have hboot : Boot booted :=
    ⟨⟨fun _ => rfl, fun _ => ⟨rfl, rfl, .inr rfl⟩, fun _ => rfl, fun _ => rfl⟩, fun _ => rfl, rfl,
      rfl, rfl⟩
  have r : Run (Machine.Steps 2 LogClient) booted [] booted := .nil
  have r := r.snoc ⟨_, .schedAcquire (c := 0) rfl rfl⟩
  have r := r.snoc ⟨_, .schedRun (c := 0) (j := 0) rfl (by decide) rfl⟩
  have r := r.snoc ⟨_, .yieldRelease (c := 0) (p := 0) rfl rfl rfl⟩
  have r := r.snoc ⟨_, .acquire (c := 0) (p := 0) rfl rfl .beginAcquire rfl⟩
  have r := r.snoc ⟨_, .internal (c := 0) (p := 0) rfl rfl (.beginAdmit rfl)⟩
  have r := r.snoc ⟨_, .release (c := 0) (p := 0) rfl rfl .beginRelease rfl⟩
  have r := r.snoc ⟨_, .acquire (c := 0) (p := 0) rfl rfl .endAcquire rfl⟩
  have r := r.snoc ⟨_, .internal (c := 0) (p := 0) rfl rfl (.endLast rfl)⟩
  have r := r.snoc ⟨_, .release (c := 0) (p := 0) rfl rfl .commitRelease rfl⟩
  have r := r.snoc ⟨_, .schedAcquire (c := 1) rfl rfl⟩
  have r := r.snoc ⟨_, .schedSkip (c := 1) (j := 0) rfl (by decide) (by decide)⟩
  have r := r.snoc ⟨_, .schedRun (c := 1) (j := 1) rfl (by decide) rfl⟩
  have r := r.snoc ⟨_, .yieldRelease (c := 1) (p := 1) rfl rfl rfl⟩
  have r := r.snoc ⟨_, .acquire (c := 1) (p := 1) rfl rfl .beginAcquire rfl⟩
  have r := r.snoc ⟨_, .sleepCall (c := 1) (p := 1) rfl rfl (.beginSleep rfl) rfl⟩
  have r := r.snoc ⟨_, .sleepAcquire (c := 1) (p := 1) rfl rfl rfl⟩
  have r := r.snoc ⟨_, .sleepRelease (c := 1) (p := 1) rfl rfl rfl⟩
  have r := r.snoc ⟨_, .sleepChan (c := 1) (p := 1) rfl rfl⟩
  have r := r.snoc ⟨_, .sleepState (c := 1) (p := 1) rfl rfl⟩
  have r := r.snoc ⟨_, .sleepSched (c := 1) (p := 1) rfl rfl rfl rfl (by decide)⟩
  exact ⟨_, rfl, ⟨rfl, rfl⟩, (begin_op_waiters_not_stranded 2 booted _ _ hboot r rfl 1 ⟨rfl, rfl⟩).2⟩

end Xv6.Waiters
