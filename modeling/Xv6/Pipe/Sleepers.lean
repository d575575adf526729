import Xv6.Pipe.Queue

namespace Xv6.Pipe.State

open Lib

variable {s s' : State} {p q : ℕ} {e : Event}

def Justified (s : State) : Prop :=
  (∀ p, (s.proc p).pc = .readAsleep → s.nread = s.nwrite ∧ s.writeopen = true) ∧
    ∀ p, (s.proc p).pc = .writeAsleep → s.Full ∧ s.readopen = true

def WillWakeReaders (s : State) : Prop := ∃ q, s.lock = some q ∧
    ((s.proc q).pc = .writeLoop ∨ (s.proc q).pc = .writeEnd)

def WillWakeWriters (s : State) : Prop := ∃ q, s.lock = some q ∧
    ((s.proc q).pc = .readCopy ∨ (s.proc q).pc = .readEnd)

lemma willWakeReaders_iff (h : s.lock = some q) :
    s.WillWakeReaders ↔ (s.proc q).pc = .writeLoop ∨ (s.proc q).pc = .writeEnd := by
  simp [WillWakeReaders, h]

lemma willWakeWriters_iff (h : s.lock = some q) :
    s.WillWakeWriters ↔ (s.proc q).pc = .readCopy ∨ (s.proc q).pc = .readEnd := by
  simp [WillWakeWriters, h]

lemma not_willWakeReaders (h : s.lock = none) : ¬ s.WillWakeReaders := by
  simp [WillWakeReaders, h]

lemma not_willWakeWriters (h : s.lock = none) : ¬ s.WillWakeWriters := by
  simp [WillWakeWriters, h]

structure Reasons (s : State) : Prop where
  reader : ∀ p, (s.proc p).pc = .readAsleep → s.writeopen = true ∧
    (s.nread = s.nwrite ∨ s.WillWakeReaders)
  writer : ∀ p, (s.proc p).pc = .writeAsleep → s.readopen = true ∧ (s.Full ∨ s.WillWakeWriters)
  readSleep : ∀ p, (s.proc p).pc = .readSleep → s.nread = s.nwrite ∧ s.writeopen = true
  writeSleep : ∀ p, (s.proc p).pc = .writeSleep → s.Full ∧ s.readopen = true

lemma Reasons.justified (h : Reasons s) (hl : s.lock = none) : s.Justified := by
  refine ⟨fun p hp => ?_, fun p hp => ?_⟩
  · obtain ⟨ho, he | ⟨q, hq, -⟩⟩ := h.reader p hp
    · exact ⟨he, ho⟩
    · rw [hl] at hq
      cases hq
  · obtain ⟨ho, he | ⟨q, hq, -⟩⟩ := h.writer p hp
    · exact ⟨he, ho⟩
    · rw [hl] at hq
      cases hq

def Heedful (s : State) (e : Event) : Prop := ∀ p, e = .next p → s.GivesUp p → ∀ q,
    (s.proc q).pc ≠ .readAsleep

lemma wakeReader_ne (pc : Pc) : pc.wakeReader ≠ .readAsleep := by cases pc <;> simp [Pc.wakeReader]

lemma wakeWriter_ne (pc : Pc) : pc.wakeWriter ≠ .writeAsleep := by cases pc <;> simp [Pc.wakeWriter]

lemma wakeReader_eq_or (pc : Pc) : pc.wakeReader = pc ∨ pc.wakeReader = .readWoken := by
  cases pc <;> simp [Pc.wakeReader]

lemma wakeWriter_eq_or (pc : Pc) : pc.wakeWriter = pc ∨ pc.wakeWriter = .writeWoken := by
  cases pc <;> simp [Pc.wakeWriter]

lemma Reasons.next (hi : Inv s) (h : Reasons s) (hm : Move s p s')
    (hg : s.GivesUp p → ∀ q, (s.proc q).pc ≠ .readAsleep) : Reasons s' := by
  have hlock := (hi.own p).lock
  have halone : ∀ q, q ≠ p → (s.proc q).pc.inside = false := fun q hq => hm.alone hi hq
  obtain ⟨h1, h2, h3, h4⟩ := h
  cases hm with
  | store hpc =>
    have hw := willWakeReaders_iff (s := s.store p) (hlock (by rw [hpc]; rfl))
    constructor <;> grind -linarith [willWakeWriters_iff, Pc.inside]
  | writeDone hpc =>
    have hw := willWakeReaders_iff (s := s.setPc p .writeEnd) (hlock (by rw [hpc]; rfl))
    constructor <;> grind -linarith [willWakeWriters_iff, Full, Pc.inside]
  | fetch hpc =>
    have hw := willWakeWriters_iff (s := s.fetch p) (hlock (by rw [hpc]; rfl))
    constructor <;> grind -linarith [willWakeReaders_iff, Pc.inside]
  | readStop hpc =>
    have hw := willWakeWriters_iff (s := s.setPc p .readEnd) (hlock (by rw [hpc]; rfl))
    constructor <;> grind -linarith [willWakeReaders_iff, Full, Pc.inside]
  | _ =>
    constructor <;>
      grind -linarith [willWakeReaders_iff, willWakeWriters_iff, not_willWakeReaders,
      not_willWakeWriters, Full, GivesUp,
        wakeReader_ne, wakeWriter_ne, wakeReader_eq_or, wakeWriter_eq_or, Pc.inside]

lemma Reasons.local (h : Reasons s) (hlock : s'.lock = s.lock)
    (hpipe : s'.nread = s.nread ∧ s'.nwrite = s.nwrite ∧
      s'.readopen = s.readopen ∧ s'.writeopen = s.writeopen) (hpc : ∀ q, (s'.proc q).pc = (s.proc q).pc ∨
      ((s.proc q).pc.inside = false ∧ (s'.proc q).pc.inside = false ∧ (s'.proc q).pc ≠ .readAsleep ∧
        (s'.proc q).pc ≠ .writeAsleep)) : Reasons s' := by
  obtain ⟨hr, hw, hro, hwo⟩ := hpipe
  have hfull : s'.Full ↔ s.Full := by rw [Full, hr, hw, Full]
  have hrd : s.WillWakeReaders → s'.WillWakeReaders := by
    rintro ⟨q, hq, hpq⟩
    refine ⟨q, hlock.trans hq, ?_⟩
    rcases hpc q with he | ⟨hin, -⟩
    · rwa [he]
    · rcases hpq with hpq | hpq <;> rw [hpq] at hin <;> cases hin
  have hwr : s.WillWakeWriters → s'.WillWakeWriters := by
    rintro ⟨q, hq, hpq⟩
    refine ⟨q, hlock.trans hq, ?_⟩
    rcases hpc q with he | ⟨hin, -⟩
    · rwa [he]
    · rcases hpq with hpq | hpq <;> rw [hpq] at hin <;> cases hin
  constructor
  · intro q hq
    rw [hr, hw, hwo]
    rcases hpc q with he | ⟨-, -, hne, -⟩
    · exact (h.reader q (he ▸ hq)).imp_right (Or.imp_right hrd)
    · exact absurd hq hne
  · intro q hq
    rw [hro, hfull]
    rcases hpc q with he | ⟨-, -, -, hne⟩
    · exact (h.writer q (he ▸ hq)).imp_right (Or.imp_right hwr)
    · exact absurd hq hne
  · intro q hq
    rw [hr, hw, hwo]
    rcases hpc q with he | ⟨-, hin, -⟩
    · exact h.readSleep q (he ▸ hq)
    · rw [hq] at hin
      cases hin
  · intro q hq
    rw [hro, hfull]
    rcases hpc q with he | ⟨-, hin, -⟩
    · exact h.writeSleep q (he ▸ hq)
    · rw [hq] at hin
      cases hin

lemma Reasons.step (hi : Inv s) (h : Reasons s) (hs : Step s e s') (hg : s.Heedful e) : Reasons s' := by
  cases e with
  | next p => exact h.next hi (move_of_next hs) (hg p rfl)
  | write p n addr =>
    obtain ⟨hidle, heq⟩ := Option.ite_none_right_eq_some.mp hs
    cases heq
    refine h.local rfl ⟨rfl, rfl, rfl, rfl⟩ (fun q => ?_)
    by_cases hq : q = p
    · simp [hq, hidle, Pc.inside]
    · simp [hq]
  | read p n =>
    obtain ⟨hidle, heq⟩ := Option.ite_none_right_eq_some.mp hs
    cases heq
    refine h.local rfl ⟨rfl, rfl, rfl, rfl⟩ (fun q => ?_)
    by_cases hq : q = p
    · simp [hq, hidle, Pc.inside]
    · simp [hq]
  | close p b =>
    obtain ⟨hidle, heq⟩ := Option.ite_none_right_eq_some.mp hs
    cases heq
    refine h.local rfl ⟨rfl, rfl, rfl, rfl⟩ (fun q => ?_)
    by_cases hq : q = p
    · simp [hq, hidle, Pc.inside]
    · simp [hq]
  | kill p =>
    cases hs
    refine h.local rfl ⟨rfl, rfl, rfl, rfl⟩ (fun q => ?_)
    by_cases hq : q = p
    · subst hq
      cases hpc : (s.proc q).pc <;> simp [hpc, Pc.wakeReader, Pc.wakeWriter, Pc.inside]
    · simp [hq]

lemma Reasons.init (data : ℕ → UInt8) : Reasons (init data) := by
  constructor <;> simp [State.init]

def HeedfulStep (s : State) (e : Event) (s' : State) : Prop := Step s e s' ∧ s.Heedful e

lemma inv_of_heedful {data : ℕ → UInt8} {es : List Event}
    (hrun : Run HeedfulStep (State.init data) es s) : Inv s ∧ Reasons s :=
  hrun.state_invariant (P := fun s => Inv s ∧ Reasons s) ⟨.init data, .init data⟩
    (fun _ _ _ h hs => ⟨h.1.step hs.1, h.2.step h.1 hs.1 hs.2⟩)

lemma not_empty_of_full (h : s.Full) : s.nread ≠ s.nwrite := by
  intro he
  rw [Full, ← he, UInt32.left_eq_add] at h
  exact absurd h (by decide)

lemma justified_after_giveUp (h : Reasons s) (hi : Inv s) (hg : s.GivesUp p) (hs : Step s (.next p) s') :
    s'.Justified ↔ ∀ q, (s.proc q).pc ≠ .readAsleep := by
  have heq : s' = s.release.setPc p .idle := by
    have hnext : s.next p = some (s.release.setPc p .idle) := by
      simp only [next, hg.1, if_pos hg.2.1, if_pos hg.2.2.1, if_pos hg.2.2.2]
    exact Option.some.inj (hs.symm.trans hnext)
  constructor
  · rintro ⟨hread, -⟩ q hq
    have hqp : q ≠ p := by
      rintro rfl
      rw [hg.1] at hq
      cases hq
    have := (hread q (by rw [heq]; simpa [hqp] using hq)).1
    rw [heq] at this
    exact not_empty_of_full hg.2.2.1 this
  · intro hno
    exact (h.next hi (heq ▸ Move.giveUp hg) (fun _ => hno)).justified (by rw [heq]; rfl)

theorem pipe_sleepers_justified (data : ℕ → UInt8) (es : List Event) (s : State)
    (hrun : Run HeedfulStep (init data) es s) :
    (s.lock = none → s.Justified) ∧
    ∀ p s', s.GivesUp p → Step s (.next p) s' → (s'.Justified ↔ s.Heedful (.next p)) := by
  obtain ⟨hi, h⟩ := inv_of_heedful hrun
  refine ⟨h.justified, fun p s' hg hs => ?_⟩
  rw [justified_after_giveUp h hi hg hs]
  constructor
  · rintro hno _ - -
    exact hno
  · intro hh
    exact hh p rfl hg

def sleepingReader : List Event := [.read 1 1, .next 1, .next 1, .next 1]

def stepOutside (s : State) : Event → Option State
  | .next p => if (s.proc p).pc = .writeLoop then none else s.next p
  | e => s.step e

lemma heedful_of_outside (h : s.stepOutside e = some s') : HeedfulStep s e s' := by
  cases e with
  | next p =>
    obtain ⟨hpc, hnext⟩ := Option.ite_none_left_eq_some.mp h
    refine ⟨hnext, ?_⟩
    rintro _ ⟨⟩ hg
    exact absurd hg.1 hpc
  | _ => exact ⟨h, fun _ he => by cases he⟩

theorem pipe_sleepers_justified_reader : ∃ s, Run HeedfulStep (init fun _ => 0) sleepingReader s ∧
    (s.proc 1).pc = .readAsleep ∧ s.Justified := by
  obtain ⟨s, hs, hlock, hpc⟩ : ∃ s ∈ exec stepOutside (init fun _ => 0) sleepingReader,
    s.lock = none ∧ (s.proc 1).pc = .readAsleep := by decide +kernel
  have hrun : Run HeedfulStep (init fun _ => 0) sleepingReader s :=
    (run_of_exec hs).mono (fun _ _ _ => heedful_of_outside)
  exact ⟨s, hrun, hpc, (pipe_sleepers_justified _ sleepingReader s hrun).1 hlock⟩

def killedWriter : List Event :=
  sleepingReader ++ [.write 0 513 (fun _ => 65), .next 0] ++ List.replicate 512 (.next 0) ++
    [.kill 0, .next 0]

theorem killed_writer_leaves_reader_asleep : ∃ s, Run Step (init fun _ => 0) killedWriter s ∧
    s.lock = none ∧ (s.proc 1).pc = .readAsleep ∧ s.nread ≠ s.nwrite := by
  obtain ⟨s, hs, hasleep⟩ : ∃ s ∈ exec State.step (init fun _ => 0) killedWriter,
    s.lock = none ∧ (s.proc 1).pc = .readAsleep ∧ s.nread ≠ s.nwrite := by decide +kernel
  exact ⟨s, run_of_exec hs, hasleep⟩

end Xv6.Pipe.State
