import Xv6.Proc.Machine

namespace Xv6.Proc.Machine

open Lib

variable {L D : Type} {n : ℕ} {K : Client L D} {s s' : Machine L D} {a : Agent} {e : Label} {p q : ℕ}

def SleepingOn (s : Machine L D) (p chan : ℕ) : Prop :=
  (s.proc p).state = .sleeping ∧ (s.proc p).chan = some chan

structure Frame (s s' : Machine L D) (q : ℕ) : Prop where
  pc : (s'.proc q).pc = (s.proc q).pc
  chan : (s'.proc q).chan = (s.proc q).chan
  loc : (s'.proc q).loc = (s.proc q).loc
  sleeping : (s'.proc q).state = .sleeping → (s.proc q).state = .sleeping
  running : (s.proc q).state = .running → (s'.proc q).state = .running
  lock : ∀ l, s.lock l = some (.proc q) → s'.lock l = some (.proc q)

def Owns (s : Machine L D) (p : ℕ) : Prop :=
  match (s.proc p).pc with
  | .sleep .acquire _ lk => lk ≠ .ptable ∧ s.lock lk = some (.proc p)
  | .sleep .release _ lk => lk ≠ .ptable ∧ s.lock lk = some (.proc p) ∧ s.lock .ptable = some (.proc p)
  | .sleep .chan _ _ | .wakeupScan _ _ _ | .yieldState | .yieldSched => s.lock .ptable = some (.proc p)
  | .sleep .state c _ | .sleep .sched c _ => s.lock .ptable = some (.proc p) ∧ (s.proc p).chan = some c
  | _ => True

structure Inv (n : ℕ) (s : Machine L D) : Prop where
  lt : ∀ c p, s.cpu c = .proc p → p < n
  owns : ∀ p, Owns s p
  scan : ∀ c j, s.cpu c = .scan j → s.lock .ptable = some (.sched c)
  alone : ∀ c d p, s.cpu c = .proc p → s.cpu d = .proc p → c = d
  oncpu : ∀ c p, s.cpu c = .proc p → (s.proc p).state = .running ∨
    (∃ chan lk, (s.proc p).pc = .sleep .sched chan lk) ∨ (s.proc p).pc = .yieldSched
  parked : ∀ p, (s.proc p).state = .sleeping → p < n ∧ ∃ chan lk, (s.proc p).chan = some chan ∧
    ((s.proc p).pc = .sleep .sched chan lk ∨ (s.proc p).pc = .sleep .awake chan lk)
  swept : ∀ q chan j u, (s.proc q).pc = .wakeupScan chan j u → ∀ p < j, ¬ s.SleepingOn p chan

lemma Step.frame (h : Inv n s) (hs : Step n K s a e s') (hq : a ≠ .proc q) : Frame s s' q := by
  have hscan := h.scan
  cases hs <;> constructor <;> grind -linarith

def Effect (s s' : Machine L D) (p : ℕ) : Call → Prop
  | .internal => (s'.proc p).pc = .run ∧ ∀ m, s'.lock m = s.lock m
  | .acquire l => (s'.proc p).pc = .run ∧ s.lock l = none ∧
      ∀ m, s'.lock m = if m = l then some (.proc p) else s.lock m
  | .release l => (s'.proc p).pc = .run ∧ s.lock l = some (.proc p) ∧
      ∀ m, s'.lock m = if m = l then none else s.lock m
  | .sleep chan lk => (s'.proc p).pc = .sleep (if lk = .ptable then .chan else .acquire) chan lk ∧
      s.lock lk = some (.proc p) ∧ ∀ m, s'.lock m = s.lock m
  | .wakeup chan => (s'.proc p).pc = .wakeupAcquire chan ∧ ∀ m, s'.lock m = s.lock m
  | .wakeup1 chan => (s'.proc p).pc = .wakeupScan chan 0 false ∧ ∀ m, s'.lock m = s.lock m
  | .kill q => (s'.proc p).pc = .killAcquire q ∧ ∀ m, s'.lock m = s.lock m

def noClient : Client L D := fun _ _ _ _ _ => False

lemma Step.acts (hs : Step n K s (.proc p) e s') : Step n noClient s (.proc p) e s' ∨
      ∃ call loc d, (s.proc p).loc = loc ∧ s.data = d ∧ (s.proc p).pc = .run ∧
        (∃ c, s.cpu c = .proc p) ∧ K loc d call (s'.proc p).loc s'.data ∧ Effect s s' p call := by
  cases hs with
  | internal hc hp hk =>
    exact .inr ⟨_, _, _, rfl, rfl, hp, ⟨_, hc⟩, by simpa using hk, by simp [Effect, hp]⟩
  | acquire hc hp hk hl =>
    exact .inr ⟨_, _, _, rfl, rfl, hp, ⟨_, hc⟩, by simpa using hk, by simp [Effect, hp, hl]⟩
  | release hc hp hk hl =>
    exact .inr ⟨_, _, _, rfl, rfl, hp, ⟨_, hc⟩, by simpa using hk, by simp [Effect, hp, hl]⟩
  | sleepCall hc hp hk hl =>
    exact .inr ⟨_, _, _, rfl, rfl, hp, ⟨_, hc⟩, by simpa using hk, by simp [Effect, hl]⟩
  | wakeupCall hc hp hk =>
    exact .inr ⟨_, _, _, rfl, rfl, hp, ⟨_, hc⟩, by simpa using hk, by simp [Effect]⟩
  | wakeup1Call hc hp hk =>
    exact .inr ⟨_, _, _, rfl, rfl, hp, ⟨_, hc⟩, by simpa using hk, by simp [Effect]⟩
  | killCall hc hp hk => exact .inr ⟨_, _, _, rfl, rfl, hp, ⟨_, hc⟩, by simpa using hk, by simp [Effect]⟩
  | killRelease hc hp hl => exact .inl (.killRelease hc hp hl)
  | yieldRelease hc hp hl => exact .inl (.yieldRelease hc hp hl)
  | _ => left; constructor <;> assumption

lemma Step.quiet (hs : Step n noClient s a e s') : s'.data = s.data ∧ ∀ q,
    (s'.proc q).loc = (s.proc q).loc := by
  unfold noClient at hs
  cases hs <;> refine ⟨by grind, fun q => ?_⟩ <;> grind -linarith

lemma Step.client (h : Inv n s) (hs : Step n K s a e s') :
    (s'.data = s.data ∧ ∀ q, (s'.proc q).loc = (s.proc q).loc) ∨
      ∃ p call loc d, (s.proc p).loc = loc ∧ s.data = d ∧ a = .proc p ∧ (s.proc p).pc = .run ∧
        K loc d call (s'.proc p).loc s'.data ∧ Effect s s' p call ∧ ∀ q, q ≠ p →
        (s'.proc q).loc = (s.proc q).loc := by
  cases a with
  | sched c =>
    left
    cases hs <;> refine ⟨by grind, fun q => ?_⟩ <;> grind -linarith
  | proc p =>
    rcases hs.acts with hq | ⟨call, loc, d, hl, hd, hpc, -, hk, heff⟩
    · exact .inl hq.quiet
    · exact .inr ⟨p, call, loc, d, hl, hd, rfl, hpc, hk, heff,
        fun q hne => (hs.frame h (fun he => hne (Agent.proc.inj he).symm)).loc⟩

lemma Frame.owns (hf : Frame s s' q) (h : Owns s q) : Owns s' q := by
  unfold Owns at *
  rw [hf.pc, hf.chan]
  split <;> simp_all [hf.lock]

lemma Inv.owns_self (h : Inv n s) (hs : Step n K s (.proc p) e s') : Owns s' p := by
  have ho := h.owns p
  cases hs with
  | @sleepCall _ _ _ lk _ _ _ hp _ hl =>
    by_cases hlk : lk = .ptable
    · subst hlk
      simpa [Owns] using hl
    · simpa [Owns, hlk] using hl
  | sleepRelease _ hp =>
    rw [Owns, hp] at ho
    simpa [Owns, ho.1.symm] using ho.2.2
  | @sleepAwake _ _ _ lk _ hp => by_cases hlk : lk = .ptable <;> simp [Owns, hlk]
  | @scanDone _ _ _ _ u => cases u <;> simp [Owns]
  | _ => simp_all [Owns]

lemma Inv.owns_step (h : Inv n s) (hs : Step n K s a e s') (p : ℕ) : Owns s' p := by
  by_cases hp : a = .proc p
  · subst hp
    exact h.owns_self hs
  · exact (hs.frame h hp).owns (h.owns p)

lemma Inv.lt_step (h : Inv n s) (hs : Step n K s a e s') (c p : ℕ) (hc : s'.cpu c = .proc p) : p < n := by
  have hlt := h.lt
  cases hs <;> grind -linarith

lemma Inv.scan_step (h : Inv n s) (hs : Step n K s a e s') (c j : ℕ) (hc : s'.cpu c = .scan j) :
    s'.lock .ptable = some (.sched c) := by
  have hscan := h.scan
  cases hs <;> grind -linarith

lemma Owns.sched (h : Owns s p) {chan : ℕ} {lk : Lock} (hp : (s.proc p).pc = .sleep .sched chan lk) :
    s.lock .ptable = some (.proc p) ∧ (s.proc p).chan = some chan := by
  rw [Owns, hp] at h
  exact h

lemma Owns.yieldSched (h : Owns s p) (hp : (s.proc p).pc = .yieldSched) :
    s.lock .ptable = some (.proc p) := by
  rw [Owns, hp] at h
  exact h

section

variable (h : Inv n s)
include h

lemma Inv.not_oncpu {c d j : ℕ} (hc : s.cpu c = .scan j) (hr : (s.proc j).state = .runnable) :
    s.cpu d ≠ .proc j := by
  intro hd
  have hlock := h.scan c j hc
  rcases h.oncpu d j hd with hrun | ⟨chan, lk, hp⟩ | hp
  · rw [hr] at hrun
    cases hrun
  · rw [((h.owns j).sched hp).1] at hlock
    cases hlock
  · rw [(h.owns j).yieldSched hp] at hlock
    cases hlock

lemma Inv.alone_step (hs : Step n K s a e s') (c d p : ℕ) (hc : s'.cpu c = .proc p)
    (hd : s'.cpu d = .proc p) : c = d := by
  have halone := h.alone
  cases hs with
  | schedRun hc' _ hr =>
    have hnot := fun d => h.not_oncpu (d := d) hc' hr
    grind -linarith
  | _ => grind -linarith

lemma Inv.oncpu_step (hs : Step n K s a e s') (c p : ℕ) (hc : s'.cpu c = .proc p) :
    (s'.proc p).state = .running ∨ (∃ chan lk, (s'.proc p).pc = .sleep .sched chan lk) ∨
      (s'.proc p).pc = .yieldSched := by
  have halone := h.alone
  have honcpu := h.oncpu
  cases hs <;> grind -linarith

lemma Inv.parked_self (hs : Step n K s (.proc p) e s') (hsl : (s'.proc p).state = .sleeping) :
    p < n ∧ ∃ chan lk, (s'.proc p).chan = some chan ∧
      ((s'.proc p).pc = .sleep .sched chan lk ∨ (s'.proc p).pc = .sleep .awake chan lk) := by
  have honcpu := h.oncpu
  have hparked := h.parked p
  have hlt := h.lt
  have ho := h.owns p
  unfold Owns at ho
  cases hs <;> grind -linarith

lemma Inv.parked_step (hs : Step n K s a e s') (p : ℕ) (hsl : (s'.proc p).state = .sleeping) :
    p < n ∧ ∃ chan lk, (s'.proc p).chan = some chan ∧
      ((s'.proc p).pc = .sleep .sched chan lk ∨ (s'.proc p).pc = .sleep .awake chan lk) := by
  by_cases hp : a = .proc p
  · subst hp
    exact h.parked_self hs hsl
  · have hf := hs.frame h hp
    rw [hf.chan, hf.pc]
    exact h.parked p (hf.sleeping hsl)

lemma Inv.falls_asleep (hs : Step n K s a e s') {chan : ℕ} (hsl : s'.SleepingOn p chan) :
    s.SleepingOn p chan ∨ s.lock .ptable = some (.proc p) := by
  by_cases hp : a = .proc p
  · subst hp
    have honcpu := h.oncpu
    have ho := h.owns p
    unfold Owns at ho
    unfold SleepingOn at *
    cases hs <;> grind -linarith
  · have hf := hs.frame h hp
    exact .inl ⟨hf.sleeping hsl.1, by rw [← hf.chan, hsl.2]⟩

lemma Inv.swept_self (hs : Step n K s (.proc q) e s') {chan j : ℕ} {u : Bool}
    (hq : (s'.proc q).pc = .wakeupScan chan j u) {p : ℕ} (hp : p < j) : ¬ s'.SleepingOn p chan := by
  cases hs with
  | wakeup1Call | wakeupAcquire =>
    simp only [setData_proc, take_proc, setProc_proc, setPc_proc, if_true, Pc.wakeupScan.injEq] at hq
    omega
  | @scanWake _ _ ch i v _ hpc =>
    simp only [setPc_proc, if_true, Pc.wakeupScan.injEq] at hq
    obtain ⟨rfl, rfl, rfl⟩ := hq
    rintro ⟨hst, hch⟩
    have hold := h.swept q ch i v hpc p
    unfold SleepingOn at hold
    grind -linarith
  | @scanSkip _ _ ch i v _ hpc =>
    simp only [setPc_proc, if_true, Pc.wakeupScan.injEq] at hq
    obtain ⟨rfl, rfl, rfl⟩ := hq
    rintro ⟨hst, hch⟩
    have hold := h.swept q ch i v hpc p
    unfold SleepingOn at hold
    grind -linarith
  | _ => grind -linarith

lemma Inv.swept_step (hs : Step n K s a e s') (q chan j : ℕ) (u : Bool)
    (hq : (s'.proc q).pc = .wakeupScan chan j u) (p : ℕ) (hp : p < j) : ¬ s'.SleepingOn p chan := by
  intro hsl
  by_cases ha : a = .proc q
  · subst ha
    exact h.swept_self hs hq hp hsl
  · have hf := hs.frame h ha
    have hq' : (s.proc q).pc = .wakeupScan chan j u := by rw [← hf.pc, hq]
    have hown := h.owns q
    rw [Owns, hq'] at hown
    rcases h.falls_asleep hs hsl with hold | hnew
    · exact h.swept q chan j u hq' p hp hold
    · rw [hown] at hnew
      cases hnew
      -- the scanning process itself is awake
      obtain ⟨-, c, lk, -, hpc⟩ := h.parked_step hs q hsl.1
      rw [hq] at hpc
      rcases hpc with hpc | hpc <;> cases hpc

lemma Inv.step (hs : Step n K s a e s') : Inv n s' where
  lt := h.lt_step hs
  owns := h.owns_step hs
  scan := h.scan_step hs
  alone := h.alone_step hs
  oncpu := h.oncpu_step hs
  parked := h.parked_step hs
  swept := h.swept_step hs

end

lemma Inv.init (h : Init s) : Inv n s where
  lt c p hc := by rw [h.cpu c] at hc; cases hc
  owns p := by rw [Owns, (h.proc p).1]; trivial
  scan c j hc := by rw [h.cpu c] at hc; cases hc
  alone c d p hc := by rw [h.cpu c] at hc; cases hc
  oncpu c p hc := by rw [h.cpu c] at hc; cases hc
  parked p hp := by rcases (h.proc p).2.2 with hu | hu <;> · rw [hu] at hp; cases hp
  swept q chan j u hq := by rw [(h.proc q).1] at hq; cases hq

def InSleep (s : Machine L D) (p chan : ℕ) (lk : Lock) (k : ℕ) : Prop :=
  ∃ ph, (s.proc p).pc = .sleep ph chan lk ∧ k ≤ ph.rank

lemma Step.inSleep (h : Inv n s) (hs : Step n K s a e s') {chan k : ℕ} {lk : Lock}
    (hin : s.InSleep p chan lk k) (he : e ≠ .returned p) : s'.InSleep p chan lk k := by
  obtain ⟨ph, hpc, hk⟩ := hin
  by_cases hp : a = .proc p
  swap
  · exact ⟨ph, by rw [(hs.frame h hp).pc, hpc], hk⟩
  subst hp
  unfold InSleep
  cases hs with
  | sleepRet => exact absurd rfl he
  | @sleepAwake _ _ _ lk' _ hp =>
    rw [hpc] at hp
    cases hp
    refine ⟨if lk = .ptable then .ret else .drop, by simp, hk.trans ?_⟩
    split_ifs <;> decide
  | sleepAcquire _ hp
  | sleepRelease _ hp
  | sleepChan _ hp
  | sleepState _ hp
  | sleepSched _ hp
  | sleepDrop _ hp
  | sleepReacquire _ hp =>
    rw [hpc] at hp
    cases hp
    exact ⟨_, by simp; rfl, hk.trans (by decide)⟩
  | _ => simp_all

lemma Step.call_inSleep (hs : Step n K s a (.call p chan lk) s') : s'.InSleep p chan lk 0 := by
  cases hs
  exact ⟨_, by simp; rfl, Nat.zero_le _⟩

lemma Inv.acquired_free (h : Inv n s) {l : Lock} (hs : Step n K s a (.acquired q l) s') (p : ℕ) :
    s.lock l ≠ some (.proc p) := by
  have hscan := h.scan
  cases hs <;> grind -linarith

lemma Inv.acquired_inSleep (h : Inv n s) {chan : ℕ} {lk : Lock} (hs : Step n K s a (.acquired q lk) s')
    (hin : s.InSleep p chan lk 0) : s'.InSleep p chan lk 2 := by
  refine hs.inSleep h ?_ (by simp)
  obtain ⟨ph, hpc, -⟩ := hin
  have hfree := h.acquired_free hs p
  have ho := h.owns p
  rw [Owns, hpc] at ho
  refine ⟨ph, hpc, ?_⟩
  cases ph with
  | acquire => exact absurd ho.2 hfree
  | release => exact absurd ho.2.1 hfree
  | _ => decide

lemma Inv.woke_inSleep (h : Inv n s) {chan : ℕ} {lk : Lock} (hs : Step n K s a (.woke q chan) s')
    (hin : s.InSleep p chan lk 2) : s'.InSleep p chan lk 5 ∧ (s'.proc p).state ≠ .sleeping := by
  have h' := h.step hs
  have hin' : s.InSleep p chan lk 5 := by
    obtain ⟨ph, hpc, hk⟩ := hin
    have ho := h.owns p
    rw [Owns, hpc] at ho
    refine ⟨ph, hpc, ?_⟩
    cases hs with
    | scanDone hc hq hn =>
      have hlock := h.owns q
      rw [Owns, hq] at hlock
      cases ph with
      | acquire | release => exact absurd hk (by decide)
      | chan =>
        rw [hlock] at ho
        cases ho
        rw [hpc] at hq
        cases hq
      | state | sched =>
        rw [hlock] at ho
        cases ho.1
        rw [hpc] at hq
        cases hq
      | _ => decide
  refine ⟨hs.inSleep h hin' (by simp), fun hsl => ?_⟩
  obtain ⟨hlt, c, lk', hch, hpc⟩ := h'.parked p hsl
  obtain ⟨ph, hpc', -⟩ := hs.inSleep h hin' (by simp)
  have hcc : c = chan := by
    rw [hpc'] at hpc
    rcases hpc with hpc | hpc <;> · cases hpc; rfl
  subst hcc
  cases hs with
  | scanDone hc hq hn =>
    refine h.swept q _ _ _ hq p (by omega) ⟨?_, ?_⟩
    · by_cases hpq : p = q <;> simp_all
    · by_cases hpq : p = q <;> simp_all

lemma Inv.awake_step (h : Inv n s) {chan : ℕ} {lk : Lock} (hs : Step n K s a e s') (he : e ≠ .returned p)
    (hin : s.InSleep p chan lk 5) (hst : (s.proc p).state ≠ .sleeping) :
    (s'.proc p).state ≠ .sleeping := by
  by_cases hp : a = .proc p
  swap
  · exact fun hsl => hst ((hs.frame h hp).sleeping hsl)
  subst hp
  obtain ⟨ph, hpc, hk⟩ := hin
  have hrank : ph ≠ .state := by
    rintro rfl
    exact absurd hk (by decide)
  cases hs <;> grind -linarith

def Steps (n : ℕ) (K : Client L D) (s : Machine L D) (e : Label) (s' : Machine L D) : Prop :=
    ∃ a, Step n K s a e s'

lemma Inv.run {es : List Label} (h : Inv n s) (hr : Run (Steps n K) s es s') : Inv n s' :=
  hr.state_invariant h (fun _ _ _ hi ⟨_, hs⟩ => hi.step hs)

lemma Inv.run_inSleep {es : List Label} (h : Inv n s) (hr : Run (Steps n K) s es s') {chan k : ℕ}
    {lk : Lock} (he : .returned p ∉ es) (hin : s.InSleep p chan lk k) : s'.InSleep p chan lk k := by
  induction hr with
  | nil => exact hin
  | snoc hr hs ih =>
    obtain ⟨a, hs⟩ := hs
    rw [List.mem_append, not_or, List.mem_singleton] at he
    exact hs.inSleep (h.run hr) (ih he.1) (Ne.symm he.2)

lemma Inv.run_awake {es : List Label} (h : Inv n s) (hr : Run (Steps n K) s es s') {chan : ℕ} {lk : Lock}
    (he : .returned p ∉ es) (hin : s.InSleep p chan lk 5) (hst : (s.proc p).state ≠ .sleeping) :
    (s'.proc p).state ≠ .sleeping := by
  induction hr with
  | nil => exact hst
  | snoc hr hs ih =>
    obtain ⟨a, hs⟩ := hs
    rw [List.mem_append, not_or, List.mem_singleton] at he
    exact (h.run hr).awake_step hs (Ne.symm he.2) (h.run_inSleep hr he.1 hin) (ih he.1)

theorem sleep_loses_no_wakeup {L D : Type} (n : ℕ) (K : Client L D) (s₀ s : Machine L D) (hinit : Init s₀)
    (p q chan : ℕ) (lk : Lock) (es₁ es₂ es₃ es₄ : List Label)
    (hrun : Run (Steps n K) s₀
      (es₁ ++ ([.call p chan lk] ++ (es₂ ++ ([.acquired q lk] ++ (es₃ ++ ([.woke q chan] ++ es₄)))))) s)
    (hret : .returned p ∉ es₂ ++ es₃ ++ es₄) : ¬ s.SleepingOn p chan := by
  simp only [List.mem_append, not_or] at hret
  obtain ⟨⟨h₂, h₃⟩, h₄⟩ := hret
  obtain ⟨s₁, hr₁, hrun⟩ := hrun.split
  obtain ⟨s₂, hcall, hrun⟩ := hrun.split
  obtain ⟨s₃, hr₂, hrun⟩ := hrun.split
  obtain ⟨s₄, hacq, hrun⟩ := hrun.split
  obtain ⟨s₅, hr₃, hrun⟩ := hrun.split
  obtain ⟨s₆, hwoke, hr₄⟩ := hrun.split
  have i₁ := (Inv.init (n := n) hinit).run hr₁
  have i₂ := i₁.run hcall
  have i₃ := i₂.run hr₂
  have i₄ := i₃.run hacq
  have i₅ := i₄.run hr₃
  have i₆ := i₅.run hwoke
  obtain ⟨a, hcall⟩ := hcall.one
  obtain ⟨b, hacq⟩ := hacq.one
  obtain ⟨c, hwoke⟩ := hwoke.one
  have past := i₄.run_inSleep hr₃ h₃ (i₃.acquired_inSleep hacq (i₂.run_inSleep hr₂ h₂ hcall.call_inSleep))
  obtain ⟨late, awake⟩ := i₅.woke_inSleep hwoke past
  exact fun hsl => i₆.run_awake hr₄ h₄ late awake hsl.1

inductive AnyClient : Unit → Unit → Call → Unit → Unit → Prop
  | any (call : Call) : AnyClient () () call () ()

def forked : Machine Unit Unit where
  lock _ := none
  proc _ := ⟨.runnable, none, .yieldRelease, ()⟩
  cpu _ := .idle
  ncli _ := 0
  data := ()

lemma forked_init : Init forked :=
  ⟨fun _ => rfl, fun _ => ⟨rfl, rfl, .inr rfl⟩, fun _ => rfl, fun _ => rfl⟩

theorem sleep_loses_no_wakeup_two :
    ∃ s : Machine Unit Unit, (s.proc 0).pc = .sleep .awake 5 (.other 0) ∧ ¬ s.SleepingOn 0 5 := by
  have r : Run (Steps 2 AnyClient) forked [] forked := .nil
  have r := r.snoc ⟨_, .schedAcquire (c := 0) rfl rfl⟩
  have r := r.snoc ⟨_, .schedRun (c := 0) (j := 0) rfl (by decide) rfl⟩
  have r := r.snoc ⟨_, .yieldRelease (c := 0) (p := 0) rfl rfl rfl⟩
  have r := r.snoc ⟨_, .acquire (c := 0) (p := 0) rfl rfl (.any (.acquire (.other 0))) rfl⟩
  have r := r.snoc ⟨_, .sleepCall (c := 0) (p := 0) rfl rfl (.any (.sleep 5 (.other 0))) rfl⟩
  have r := r.snoc ⟨_, .sleepAcquire (c := 0) (p := 0) rfl rfl rfl⟩
  have r := r.snoc ⟨_, .sleepRelease (c := 0) (p := 0) rfl rfl rfl⟩
  have r := r.snoc ⟨_, .sleepChan (c := 0) (p := 0) rfl rfl⟩
  have r := r.snoc ⟨_, .sleepState (c := 0) (p := 0) rfl rfl⟩
  have r := r.snoc ⟨_, .sleepSched (c := 0) (p := 0) rfl rfl rfl rfl (by decide)⟩
  have r := r.snoc ⟨_, .schedRun (c := 0) (j := 1) rfl (by decide) rfl⟩
  have r := r.snoc ⟨_, .yieldRelease (c := 0) (p := 1) rfl rfl rfl⟩
  have r := r.snoc ⟨_, .acquire (c := 0) (p := 1) rfl rfl (.any (.acquire (.other 0))) rfl⟩
  have r := r.snoc ⟨_, .wakeupCall (c := 0) (p := 1) rfl rfl (.any (.wakeup 5))⟩
  have r := r.snoc ⟨_, .wakeupAcquire (c := 0) (p := 1) rfl rfl rfl⟩
  have r := r.snoc ⟨_, .scanWake (c := 0) (p := 1) rfl rfl (by decide) rfl rfl⟩
  have r := r.snoc ⟨_, .scanSkip (c := 0) (p := 1) rfl rfl (by decide) (by decide)⟩
  have r := r.snoc ⟨_, .scanDone (c := 0) (p := 1) rfl rfl (by decide)⟩
  exact ⟨_, rfl, sleep_loses_no_wakeup 2 AnyClient forked _ forked_init 0 1 5 (.other 0)
    [.tau, .acquired 0 .ptable, .tau, .acquired 0 (.other 0)]
    [.acquired 0 .ptable, .tau, .tau, .tau, .tau, .acquired 1 .ptable, .tau]
    [.tau, .acquired 1 .ptable, .tau, .tau] [] r (by decide)⟩

end Xv6.Proc.Machine
