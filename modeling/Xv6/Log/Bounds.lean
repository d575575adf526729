import Xv6.Log.Invariant

namespace Xv6.Log

open Lib

namespace Sys

def Booked (s : Sys) (c : ℕ) : Prop := c ∈ s.log.lh ∨ ∃ q op, s.proc q = .appending op c

def Room (s : Sys) (b : ℕ) : Prop :=
  ∀ B : Finset ℕ, (∀ c ∈ B, c = b ∨ s.Booked c) → B.card ≤ LOGSIZE ∧ (B.card : ℤ) ≤ s.log.size - 1

def RoomyStep (s : Sys) (e : Event) (s' : Sys) : Prop :=
  Step s e s' ∧ ∀ p b, e = .logWriteCheck p b → s.log.lh.length < LOGSIZE →
    (s.log.lh.length : ℤ) < s.log.size - 1 → s.Room b

structure Fits (s : Sys) : Prop where
  nodup : s.log.lh.Nodup
  booked : ∀ B : Finset ℕ, (∀ c ∈ B, s.Booked c) → B.card ≤ LOGSIZE ∧ (B.card : ℤ) ≤ s.log.size - 1

lemma Fits.of_booked {s s' : Sys} (h : Fits s) (hn : s'.log.lh.Nodup) (hsz : s'.log.size = s.log.size)
    (hb : ∀ c, s'.Booked c → s.Booked c) : Fits s' := by
  refine ⟨hn, fun B hB => ?_⟩
  rw [hsz]
  exact h.booked B (fun c hc => hb c (hB c hc))

lemma Booked.of_set {s : Sys} {l : LogState} {n p : ℕ} {r : Option Panic} {q : Proc} {c : ℕ}
    (h : (Sys.set ⟨l, s.proc, n, r⟩ p q).Booked c) (hl : c ∈ l.lh → s.Booked c)
    (hq : ∀ op b, q ≠ .appending op b) : s.Booked c := by
  rcases h with h | ⟨t, op, h⟩
  · exact hl h
  · rw [set_proc] at h
    split_ifs at h
    · exact absurd h (hq op c)
    · exact .inr ⟨t, op, h⟩

lemma Fits.set {s : Sys} (h : Fits s) {l : LogState} {n p : ℕ} {r : Option Panic} {q : Proc}
    (hn : l.lh = s.log.lh ∨ l.lh = []) (hsz : l.size = s.log.size) (hq : ∀ op b, q ≠ .appending op b) :
    Fits (Sys.set ⟨l, s.proc, n, r⟩ p q) := by
  refine h.of_booked ?_ hsz (fun c hc => hc.of_set (fun hm => ?_) hq)
  · rcases hn with hn | hn <;> simp [hn, h.nodup]
  · rcases hn with hn | hn
    · exact .inl (hn ▸ hm)
    · simp [hn] at hm

lemma Fits.wakeup {s : Sys} (h : Fits s) : Fits s.wakeup := by
  refine h.of_booked h.nodup rfl (fun c hc => ?_)
  rcases hc with hc | ⟨q, op, hc⟩
  · exact .inl hc
  · refine .inr ⟨q, op, ?_⟩
    rw [wakeup_proc] at hc
    cases hq : s.proc q <;> simp_all [Proc.wake]

lemma Fits.check {s : Sys} {b : ℕ} (h : Fits s) (hr : Room s b) (p op : ℕ) :
    Fits (s.set p (.appending op b)) := by
  refine ⟨h.nodup, fun B hB => hr B (fun c hc => ?_)⟩
  rcases hB c hc with hl | ⟨q, o, hq⟩
  · exact .inr (.inl hl)
  · rw [set_proc] at hq
    split_ifs at hq
    · cases hq
      exact .inl rfl
    · exact .inr (.inr ⟨q, o, hq⟩)

lemma Fits.append {s : Sys} (h : Fits s) {p op b : ℕ} (hp : s.proc p = .appending op b) :
    Fits ({ s with log := s.log.logWriteAppend b }.set p (.running op)) := by
  refine h.of_booked (nodup_logWriteAppend h.nodup b) (logWriteAppend_size s.log b)
    (fun c hc => hc.of_set (fun hm => ?_) (by simp))
  rcases (mem_logWriteAppend s.log b c).mp hm with rfl | hm
  · exact .inr ⟨p, op, hp⟩
  · exact .inl hm

lemma Fits.step {s s' : Sys} {e : Event} (h : Fits s) (hs : RoomyStep s e s') : Fits s' := by
  obtain ⟨hs, hroom⟩ := hs
  obtain ⟨_, hm⟩ := hs.move
  cases hm with
  | sleep hq _ => exact h.set (.inl rfl) rfl (by simp)
  | start hq hc _ => exact h.set (.inl rfl) rfl (by simp)
  | check hq h1 h2 => exact h.check (hroom _ _ rfl h1 h2) _ _
  | checkPanic hq _ _ => exact h.of_booked h.nodup rfl (fun _ hc => hc)
  | append hq => exact h.append hq
  | endPanic hq hc => exact h.of_booked h.nodup rfl (fun _ hc => hc)
  | endLast hq hc ho => exact h.set (.inl rfl) rfl (by simp)
  | endMore hq hc ho =>
    apply Fits.wakeup
    exact h.set (.inl rfl) rfl (by simp)
  | @commit p st hq =>
    cases st with
    | writeLog tail => exact h.set (.inl rfl) rfl (by simp)
    | writeHead => exact h.set (.inl rfl) rfl (by simp)
    | installTrans tail => exact h.set (.inl rfl) rfl (by simp)
    | clear => exact h.set (.inr rfl) rfl (by simp)
    | finish =>
      apply Fits.wakeup
      exact h.set (.inl rfl) rfl (by simp)

lemma Fits.init (start : ℕ) {size : ℕ} (hs : 1 ≤ size) : Fits (Sys.init start size) := by
  refine ⟨by simp [Sys.init], fun B hB => ?_⟩
  have hB' : B = ∅ := Finset.eq_empty_of_forall_notMem
    (fun c hc => by simpa [Booked, Sys.init] using hB c hc)
  subst hB'
  simp [Sys.init]
  omega

def appendIndex (l : LogState) (b : ℕ) : ℕ := l.lh.idxOf b

lemma Fits.appendIndex_lt {s : Sys} (h : Fits s) {p op b : ℕ} (hp : s.proc p = .appending op b) :
    appendIndex s.log b < LOGSIZE := by
  have hcard := h.booked (insert b s.log.lh.toFinset) (fun c hc => by
    rcases Finset.mem_insert.mp hc with rfl | hc
    · exact .inr ⟨p, op, hp⟩
    · exact .inl (List.mem_toFinset.mp hc))
  by_cases hb : b ∈ s.log.lh
  · have hlt : appendIndex s.log b < s.log.lh.length := List.idxOf_lt_length_of_mem hb
    rw [Finset.insert_eq_of_mem (List.mem_toFinset.mpr hb), List.toFinset_card_of_nodup h.nodup] at hcard
    omega
  · have hle : appendIndex s.log b ≤ s.log.lh.length := List.idxOf_le_length
    rw [Finset.card_insert_of_notMem (by simpa using hb), List.toFinset_card_of_nodup h.nodup] at hcard
    omega

theorem log_stays_in_area (start size : ℕ) (hsize : 1 ≤ size) (es : List Event) (s : Sys)
    (h : Run RoomyStep (Sys.init start size) es s) :
    s.log.lh.length ≤ LOGSIZE ∧ (s.log.lh.length : ℤ) ≤ size - 1 ∧
      (∀ tail < s.log.lh.length,
        s.log.start + 1 ≤ s.log.start + tail + 1 ∧ s.log.start + tail + 1 ≤ s.log.start + size - 1) ∧
      ∀ p op b, s.proc p = .appending op b → appendIndex s.log b < LOGSIZE := by
  have hfits : Fits s := h.state_invariant (Fits.init start hsize) (fun _ _ _ hi hs => hi.step hs)
  have hsz : s.log.size = size :=
    h.state_invariant (P := fun s => s.log.size = size) rfl (fun s e s' hi hs => hs.1.size.trans hi)
  have hlen := hfits.booked s.log.lh.toFinset (fun c hc => .inl (List.mem_toFinset.mp hc))
  rw [List.toFinset_card_of_nodup hfits.nodup, hsz] at hlen
  exact ⟨hlen.1, hlen.2, fun tail ht => by omega, fun p op b hp => hfits.appendIndex_lt hp⟩

theorem log_stays_in_area_one_write :
    Run RoomyStep (Sys.init 2 LOGSIZE) [.beginOp 0, .logWriteCheck 0 60, .logWriteAppend 0]
      ⟨⟨2, LOGSIZE, [60], 1, false⟩, assign (fun _ => .idle) 0 (.running 0), 1, none⟩ ∧
    [60].length ≤ LOGSIZE := by
  have h₁ : Run RoomyStep (Sys.init 2 LOGSIZE) ([] ++ [.beginOp 0])
      ⟨⟨2, LOGSIZE, [], 1, false⟩, assign (fun _ => .idle) 0 (.running 0), 1, none⟩ :=
    .snoc .nil ⟨rfl, by simp⟩
  have h₂ : Run RoomyStep (Sys.init 2 LOGSIZE) ([] ++ [.beginOp 0] ++ [.logWriteCheck 0 60])
      ⟨⟨2, LOGSIZE, [], 1, false⟩, assign (fun _ => .idle) 0 (.appending 0 60), 1, none⟩ := by
    refine .snoc h₁ ⟨?_, fun p b he _ _ B hB => ?_⟩
    · simp [Step, step, Sys.logWriteCheck, LogState.logWriteCheck, Sys.set]
    · cases he
      have hsub : B ⊆ {60} := by
        intro c hc
        rcases hB c hc with rfl | hc | ⟨q, op, hq⟩
        · simp
        · simp at hc
        · by_cases h0 : q = 0 <;> simp [assign_apply, h0] at hq
      have hcard := Finset.card_le_card hsub
      simp only [Finset.card_singleton] at hcard
      exact ⟨hcard.trans (by decide), by norm_num; omega⟩
  have h₃ : Run RoomyStep (Sys.init 2 LOGSIZE)
    ([] ++ [.beginOp 0] ++ [.logWriteCheck 0 60] ++ [.logWriteAppend 0])
      ⟨⟨2, LOGSIZE, [60], 1, false⟩, assign (fun _ => .idle) 0 (.running 0), 1, none⟩ := by
    refine .snoc h₂ ⟨?_, by simp⟩
    simp [Step, step, Sys.logWriteAppend, LogState.logWriteAppend, Sys.set]
  exact ⟨h₃, (log_stays_in_area 2 LOGSIZE (by decide) _ _ h₃).1⟩

def logWrites (p : ℕ) (bs : List ℕ) : List Event :=
  bs.flatMap (fun b => [.logWriteCheck p b, .logWriteAppend p])

def crossedChecks : List Event :=
  [.beginOp 0, .beginOp 1, .beginOp 2] ++ logWrites 0 (List.range' 100 9) ++ logWrites 1
    (List.range' 200 9) ++ logWrites 2 (List.range' 300 10) ++
    [.logWriteCheck 0 109, .logWriteCheck 1 209, .logWriteAppend 0, .logWriteAppend 1]

theorem log_outgrows_area :
    ∃ s, Run Step (Sys.init 2 LOGSIZE) crossedChecks s ∧ ¬ (s.log.lh.length : ℤ) ≤ LOGSIZE - 1 := by
  obtain ⟨s, hs, hn⟩ : ∃ s ∈ exec step (Sys.init 2 LOGSIZE) crossedChecks,
    ¬ (s.log.lh.length : ℤ) ≤ LOGSIZE - 1 := by
    decide +kernel
  exact ⟨s, run_of_exec hs, hn⟩

end Sys

end Xv6.Log
