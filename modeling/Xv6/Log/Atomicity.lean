import Xv6.Log.Commit

namespace Xv6.Log

open Lib Writes Machine

lemma word_putBlocks_le (hb : Block) {i j : ℕ} {bs : List ℕ} (hj : j ≤ i) (hi : i + bs.length < 128) :
    (putBlocks hb i bs).word j = hb.word j := by
  induction bs generalizing hb i with
  | nil => rfl
  | cons b bs ih =>
    simp only [List.length_cons] at hi
    rw [putBlocks, ih _ (by omega) (by omega), Block.word_setWord_ne _ _ (by omega) (by omega)]

lemma word_putBlocks (hb : Block) {i : ℕ} {bs : List ℕ} (hi : i + bs.length < 128) {t : ℕ}
    (ht : t < bs.length) :
    (putBlocks hb i bs).word (i + t + 1) = UInt32.ofNat (bs.get ⟨t, ht⟩) := by
  induction bs generalizing hb i t with
  | nil => simp at ht
  | cons b bs ih =>
    simp only [List.length_cons] at hi ht
    cases t with
    | zero =>
      rw [putBlocks, word_putBlocks_le _ (by omega) (by omega), Block.word_setWord_self _ _ (by omega)]
      rfl
    | succ t =>
      rw [putBlocks, show i + (t + 1) + 1 = i + 1 + t + 1 by omega, ih _ (by omega) (by omega)]
      rfl

lemma toInt_small {n : ℕ} (h : n ≤ LOGSIZE) : (UInt32.ofNat n).toInt32.toInt = n := by
  have hall : ∀ n : Fin (LOGSIZE + 1), (UInt32.ofNat n.val).toInt32.toInt = (n.val : ℤ) := by decide
  exact hall ⟨n, by omega⟩

lemma headerCount_putHeader (hb : Block) {lh : List ℕ} (h : lh.length ≤ LOGSIZE) :
    headerCount (putHeader hb lh) = lh.length := by
  have hs : LOGSIZE = 30 := rfl
  rw [headerCount, putHeader, word_putBlocks_le _ (le_refl 0) (by omega),
    Block.word_setWord_self _ _ (by omega), toInt_small h]

lemma headerBlocks_putHeader (hb : Block) {lh : List ℕ} (h : lh.length ≤ LOGSIZE)
    (hu : ∀ b ∈ lh, b < 2 ^ 32) : headerBlocks (putHeader hb lh) = lh := by
  have hs : LOGSIZE = 30 := rfl
  rw [headerBlocks, headerCount_putHeader hb h, Int.toNat_natCast]
  apply List.ext_getElem
  · simp
  · intro t h1 h2
    have hw := word_putBlocks (hb.setWord 0 (UInt32.ofNat lh.length)) (i := 0) (by omega) h2
    rw [Nat.zero_add] at hw
    simp only [List.getElem_map, List.getElem_range, putHeader, hw]
    exact UInt32.toNat_ofNat_of_lt (hu _ (List.getElem_mem h2))

lemma headerCount_clear (hb : Block) : headerCount (putHeader hb []) = 0 :=
  headerCount_putHeader hb (Nat.zero_le _)

lemma headerBlocks_of_count_zero {hb : Block} (h : headerCount hb = 0) : headerBlocks hb = [] := by
  simp [headerBlocks, h]

lemma logCopies_mem {log : Area} {f : ℕ → Block} {bs : List ℕ} {tail : ℕ} {w : ℕ × Block}
    (h : w ∈ logCopies log f bs tail) : log.start + tail + 1 ≤ w.1 ∧
    w.1 < log.start + tail + 1 + bs.length := by
  induction bs generalizing tail with
  | nil => simp [logCopies] at h
  | cons b bs ih =>
    rcases List.mem_cons.mp h with rfl | h
    · simp
    · have := ih h
      simp only [List.length_cons]
      omega

lemma logCopies_length (log : Area) (f : ℕ → Block) (bs : List ℕ) (tail : ℕ) :
    (logCopies log f bs tail).length = bs.length := by
  induction bs generalizing tail with
  | nil => rfl
  | cons b bs ih => simp [logCopies, ih]

lemma applyWrites_logCopies (log : Area) (d f : ℕ → Block) {bs : List ℕ} (tail : ℕ) {i : ℕ}
    (hi : i < bs.length) :
    applyWrites d (logCopies log f bs tail) (log.start + (tail + i) + 1) = f (bs.get ⟨i, hi⟩) := by
  induction bs generalizing d tail i with
  | nil => simp at hi
  | cons b bs ih =>
    cases i with
    | zero =>
      rw [logCopies, applyWrites_cons, applyWrites_of_notMem]
      · simp
      · intro w hw
        have := logCopies_mem hw
        omega
    | succ i =>
      simp only [List.length_cons] at hi
      have := ih (assign d (log.start + tail + 1) (f b)) (tail + 1) (i := i) (by omega)
      rw [logCopies, applyWrites_cons, show tail + (i + 1) = tail + 1 + i by omega, this]
      rfl

lemma homeCopies_eq {log : Area} {f g : ℕ → Block} {bs : List ℕ} {tail : ℕ}
    (h : ∀ i (hi : i < bs.length), f (log.start + (tail + i) + 1) = g (bs.get ⟨i, hi⟩)) :
    homeCopies log f bs tail = bs.map (fun b => (b, g b)) := by
  induction bs generalizing tail with
  | nil => rfl
  | cons b bs ih =>
    rw [homeCopies, List.map_cons, ih]
    · exact congrArg (fun v => (b, v) :: bs.map (fun b => (b, g b))) (h 0 (by simp))
    · intro i hi
      have := h (i + 1) (by simpa using hi)
      rw [show tail + 1 + i = tail + (i + 1) by omega, this]
      rfl

structure Loggable (log : Area) (lh : List ℕ) : Prop where
  fits : lh.length + 1 ≤ log.size
  le_logsize : lh.length ≤ LOGSIZE
  uint : ∀ b ∈ lh, b < 2 ^ 32
  nodup : lh.Nodup
  outside : ∀ b ∈ lh, ¬ log.Mem b

structure Clean (log : Area) (val : ℕ → Block) (d : Disk) : Prop where
  count : headerCount (d log.start) = 0
  home : ∀ b, ¬ log.Mem b → d b = val b

structure Pending (log : Area) (lh : List ℕ) (old new : ℕ → Block) (d : Disk) : Prop where
  head : headerBlocks (d log.start) = lh
  copies : ∀ i (hi : i < lh.length), d (log.start + i + 1) = new (lh.get ⟨i, hi⟩)
  rest : ∀ b, ¬ log.Mem b → b ∉ lh → d b = old b

def installed (lh : List ℕ) (old new : ℕ → Block) (b : ℕ) : Block := if b ∈ lh then new b else old b

section

variable {log : Area} {lh : List ℕ} {old new : ℕ → Block} {d : Disk}

lemma Loggable.start_mem (h : Loggable log lh) : log.Mem log.start :=
  ⟨le_refl _, by have := h.fits; omega⟩

lemma Clean.write_head {val : ℕ → Block} (hd : Clean log val d) (hs : log.Mem log.start) (hb : Block) :
    Clean log val (applyWrites d [(log.start, putHeader hb [])]) where
  count := by rw [applyWrites_cons, applyWrites_nil, assign_self, headerCount_clear]
  home b hb' := by
    rw [applyWrites_of_notMem, hd.home b hb']
    simp only [List.mem_singleton, forall_eq]
    rintro rfl
    exact hb' hs

section

variable (hl : Loggable log lh) (hd : Pending log lh old new d)
include hl hd

lemma Pending.install_prefix (k : ℕ) :
    Pending log lh old new (applyWrites d ((lh.map (fun b => (b, new b))).take k)) := by
  have hkeep : ∀ x, log.Mem x → applyWrites d ((lh.map (fun b => (b, new b))).take k) x = d x := by
    intro x hx
    apply applyWrites_of_notMem
    rintro w hw rfl
    obtain ⟨b, hb, rfl⟩ := List.mem_map.mp (List.mem_of_mem_take hw)
    exact hl.outside b hb hx
  refine ⟨?_, ?_, ?_⟩
  · rw [hkeep _ hl.start_mem, hd.head]
  · intro i hi
    rw [hkeep _ ⟨by omega, by have := hl.fits; omega⟩, hd.copies i hi]
  · intro x hx hn
    rw [applyWrites_of_notMem, hd.rest x hx hn]
    rintro w hw rfl
    obtain ⟨b, hb, rfl⟩ := List.mem_map.mp (List.mem_of_mem_take hw)
    exact hn hb

lemma Pending.install_all {b : ℕ} (hb : ¬ log.Mem b) :
    applyWrites d (lh.map (fun b => (b, new b))) b = installed lh old new b := by
  unfold installed
  split_ifs with hm
  · apply applyWrites_of_mem
    · simpa [List.map_map, Function.comp_def] using hl.nodup
    · exact List.mem_map.mpr ⟨b, hm, rfl⟩
  · rw [applyWrites_of_notMem, hd.rest b hb hm]
    rintro w hw rfl
    obtain ⟨x, hx, rfl⟩ := List.mem_map.mp hw
    exact hm hx

lemma Pending.install_clear (hb : Block) : Clean log (installed lh old new)
      (applyWrites d (lh.map (fun b => (b, new b)) ++ [(log.start, putHeader hb [])])) where
  count := by
    rw [applyWrites_append, applyWrites_cons, applyWrites_nil, assign_self, headerCount_clear]
  home b hb' := by
    rw [applyWrites_append, applyWrites_of_notMem, hd.install_all hl hb']
    simp only [List.mem_singleton, forall_eq]
    rintro rfl
    exact hb' hl.start_mem

end

end

lemma recover_wrote (log : Area) (p : Policy) {d : Disk} (hout : ∀ b ∈ headerBlocks (d log.start),
    ¬ log.Mem b) (hfit : (headerBlocks (d log.start)).length + 1 ≤ log.size) :
    ∃ hb, Wrote (boot d) (homeCopies log d (headerBlocks (d log.start)) 0 ++
    [(log.start, putHeader hb [])])
      (recoverFromLog log p (boot d)) := by
  have h1 := bread_wrote p log.start (coherent_boot d)
  have hr : (bread p log.start (boot d)).1 = d log.start := by
    rw [bread_fst p log.start (coherent_boot d), content_boot]
  have hc : (bread p log.start (boot d)).2.content = d := by
    rw [h1.content, applyWrites_nil, content_boot]
  have h2 := installTrans_wrote log p (headerBlocks (d log.start)) 0 h1.coherent hout (by omega)
  rw [hc] at h2
  have h3 := (h1.trans h2).trans (writeHead_wrote log p [] h2.coherent)
  rw [List.nil_append] at h3
  simp only [recoverFromLog, readHead, hr]
  exact ⟨_, h3⟩

lemma Clean.recover_wrote {log : Area} {val : ℕ → Block} {d : Disk} (hd : Clean log val d)
    (hs : log.Mem log.start) (p : Policy) :
    ∃ hb, Wrote (boot d) [(log.start, putHeader hb [])] (recoverFromLog log p (boot d)) := by
  have hb := headerBlocks_of_count_zero hd.count
  have := Log.recover_wrote log p (d := d) (by simp [hb]) (by rw [hb]; have := hs.2; simp; omega)
  simpa [hb, homeCopies] using this

lemma Pending.recover_wrote {log : Area} {lh : List ℕ} {old new : ℕ → Block} {d : Disk}
    (hl : Loggable log lh) (hd : Pending log lh old new d) (p : Policy) :
    ∃ hb, Wrote (boot d) (lh.map (fun b => (b, new b)) ++ [(log.start, putHeader hb [])])
      (recoverFromLog log p (boot d)) := by
  have := Log.recover_wrote log p (d := d) (by rw [hd.head]; exact hl.outside)
    (by rw [hd.head]; exact hl.fits)
  rw [hd.head, homeCopies_eq (g := new)] at this
  · exact this
  · intro i hi
    rw [Nat.zero_add]
    exact hd.copies i hi

def Phase (log : Area) (lh : List ℕ) (old new : ℕ → Block) (done : Bool) (d : Disk) : Prop :=
  if done then Pending log lh old new d ∨ Clean log (installed lh old new) d else Clean log old d

def recoverCrashed (log : Area) (d : Disk) (c : Policy × ℕ) : Disk :=
  crashed d (recoverFromLog log c.1 (boot d)) c.2

lemma Clean.recover_crashed {log : Area} {val : ℕ → Block} {d : Disk} (hd : Clean log val d)
    (hs : log.Mem log.start) (c : Policy × ℕ) : Clean log val (recoverCrashed log d c) := by
  obtain ⟨hb, hw⟩ := hd.recover_wrote hs c.1
  rw [recoverCrashed, crashed, hw.writes]
  rcases c.2 with _ | k
  · simpa [boot] using hd
  · simpa [boot] using hd.write_head hs hb

lemma Phase.recover_crashed {log : Area} {lh : List ℕ} {old new : ℕ → Block} {done : Bool} {d : Disk}
    (hl : Loggable log lh) (hd : Phase log lh old new done d) (c : Policy × ℕ) :
    Phase log lh old new done (recoverCrashed log d c) := by
  cases done with
  | false => exact Clean.recover_crashed hd hl.start_mem c
  | true =>
    rcases hd with hp | hc
    · obtain ⟨hb, hw⟩ := hp.recover_wrote hl c.1
      rw [Phase, if_pos rfl, recoverCrashed, crashed, hw.writes]
      simp only [boot, List.nil_append]
      by_cases hk : c.2 ≤ (lh.map (fun b => (b, new b))).length
      · rw [List.take_append_of_le_length hk]
        exact .inl (hp.install_prefix hl c.2)
      · rw [List.take_of_length_le (by simp at hk ⊢; omega)]
        exact .inr (hp.install_clear hl hb)
    · exact .inr (hc.recover_crashed hl.start_mem c)

lemma Phase.recover_crashes {log : Area} {lh : List ℕ} {old new : ℕ → Block} {done : Bool} {d : Disk}
    (hl : Loggable log lh) (hd : Phase log lh old new done d) (cs : List (Policy × ℕ)) :
    Phase log lh old new done (cs.foldl (recoverCrashed log) d) := by
  induction cs generalizing d with
  | nil => exact hd
  | cons c cs ih => exact ih (hd.recover_crashed hl c)

lemma Phase.recovered {log : Area} {lh : List ℕ} {old new : ℕ → Block} {done : Bool} {d : Disk}
    (hl : Loggable log lh) (hd : Phase log lh old new done d) (p : Policy) :
    Clean log (if done then installed lh old new else old) (recoverFromLog log p (boot d)).disk := by
  cases done with
  | false =>
    obtain ⟨hb, hw⟩ := Clean.recover_wrote hd hl.start_mem p
    rw [hw.disk]
    exact Clean.write_head hd hl.start_mem hb
  | true =>
    rcases hd with hp | hc
    · obtain ⟨hb, hw⟩ := hp.recover_wrote hl p
      rw [hw.disk]
      exact hp.install_clear hl hb
    · obtain ⟨hb, hw⟩ := hc.recover_wrote hl.start_mem p
      rw [hw.disk]
      exact hc.write_head hl.start_mem hb

lemma commit_wrote {log : Area} {lh : List ℕ} (hl : Loggable log lh) (hn : 0 < lh.length) (p : Policy)
    {m : Machine} (hm : m.Coherent) :
    ∃ hb hb', Wrote m (logCopies log m.content lh 0 ++ ([(log.start, putHeader hb lh)] ++
      (lh.map (fun b => (b, m.content b)) ++ [(log.start, putHeader hb' [])]))) (commit log p lh m) := by
  have hfit := hl.fits
  have h1 := writeLog_wrote log p lh 0 hm hl.outside (by omega)
  have h2 := h1.trans (writeHead_wrote log p lh h1.coherent)
  have h3 := installTrans_wrote log p lh 0 h2.coherent hl.outside (by omega)
  rw [homeCopies_eq (g := m.content)] at h3
  · have h4 := (h2.trans h3).trans (writeHead_wrote log p [] h3.coherent)
    simp only [List.append_assoc] at h4
    simp only [commit, gt_iff_lt, hn, if_true]
    exact ⟨_, _, h4⟩
  · intro i hi
    rw [h2.content, applyWrites_append, applyWrites_of_notMem]
    · exact applyWrites_logCopies log m.content m.content 0 hi
    · simp only [List.mem_singleton, forall_eq]
      omega

lemma commit_crashed {log : Area} {lh : List ℕ} (hl : Loggable log lh) (p : Policy) {m : Machine}
    (hm : m.Coherent) (hw : m.writes = []) (h0 : headerCount (m.disk log.start) = 0) (k : ℕ) :
    Phase log lh m.disk m.content (decide (0 < lh.length ∧ lh.length < k))
    (crashed m.disk (commit log p lh m) k) := by
  have hclean : Clean log m.disk m.disk := ⟨h0, fun _ _ => rfl⟩
  by_cases hn : 0 < lh.length
  swap
  · simpa [Phase, commit, hn, crashed, hw] using hclean
  obtain ⟨hb, hb', h⟩ := commit_wrote hl hn p hm
  have hL := logCopies_length log m.content lh 0
  have hfit := hl.fits
  rw [crashed, h.writes, hw, List.nil_append]
  by_cases hk : k ≤ lh.length
  · -- the header has not been written: only log blocks have changed
    rw [Phase, if_neg (by simp; omega), List.take_append_of_le_length (by omega)]
    have hkeep : ∀ x, (¬ log.Mem x ∨ x = log.start) →
        applyWrites m.disk ((logCopies log m.content lh 0).take k) x = m.disk x := by
      intro x hx
      apply applyWrites_of_notMem
      rintro w hw' rfl
      have hr := logCopies_mem (List.mem_of_mem_take hw')
      rcases hx with hx | hx
      · exact hx ⟨by omega, by omega⟩
      · omega
    exact ⟨by rw [hkeep _ (.inr rfl)]; exact h0, fun x hx => hkeep x (.inl hx)⟩
  · have hpend : Pending log lh m.disk m.content
        (applyWrites m.disk (logCopies log m.content lh 0 ++ [(log.start, putHeader hb lh)])) := by
      refine ⟨?_, ?_, ?_⟩
      · rw [applyWrites_append]
        simp [headerBlocks_putHeader hb hl.le_logsize hl.uint]
      · intro i hi
        rw [applyWrites_append, applyWrites_of_notMem]
        · have := applyWrites_logCopies log m.disk m.content 0 hi
          rwa [Nat.zero_add] at this
        · simp only [List.mem_singleton, forall_eq]
          omega
      · intro x hx _
        apply applyWrites_of_notMem
        rintro w hw' rfl
        rcases List.mem_append.mp hw' with hw' | hw'
        · have hr := logCopies_mem hw'
          exact hx ⟨by omega, by omega⟩
        · rw [List.mem_singleton.mp hw'] at hx
          exact hx hl.start_mem
    obtain ⟨j, rfl⟩ : ∃ j, k = lh.length + 1 + j := ⟨k - (lh.length + 1), by omega⟩
    rw [Phase, if_pos (by simp; omega), ← List.append_assoc, List.take_append, applyWrites_append,
      List.take_of_length_le (by simp [hL])]
    simp only [List.length_append, hL, List.length_singleton, Nat.add_sub_cancel_left]
    by_cases hj : j ≤ (lh.map (fun b => (b, m.content b))).length
    · rw [List.take_append_of_le_length hj]
      exact .inl (hpend.install_prefix hl j)
    · rw [List.take_of_length_le (by simp at hj ⊢; omega)]
      exact .inr (hpend.install_clear hl hb')

def HeadWritten (log : Area) (ws : List (ℕ × Block)) : Prop := ∃ w ∈ ws, w.1 = log.start

lemma headWritten_commit {log : Area} {lh : List ℕ} (hl : Loggable log lh) (p : Policy) {m : Machine}
    (hm : m.Coherent) (hw : m.writes = []) (k : ℕ) :
    HeadWritten log ((commit log p lh m).writes.take k) ↔ 0 < lh.length ∧ lh.length < k := by
  by_cases hn : 0 < lh.length
  swap
  · simp [HeadWritten, commit, hn, hw]
  obtain ⟨hb, hb', h⟩ := commit_wrote hl hn p hm
  have hL := logCopies_length log m.content lh 0
  rw [h.writes, hw, List.nil_append]
  constructor
  · rintro ⟨w, hmem, hstart⟩
    refine ⟨hn, ?_⟩
    by_contra hk
    rw [List.take_append_of_le_length (by omega)] at hmem
    have := logCopies_mem (List.mem_of_mem_take hmem)
    omega
  · rintro ⟨_, hk⟩
    refine ⟨(log.start, putHeader hb lh), ?_, rfl⟩
    rw [List.take_append, hL]
    refine List.mem_append_right _ ?_
    obtain ⟨j, hj⟩ : ∃ j, k - lh.length = j + 1 := ⟨k - lh.length - 1, by omega⟩
    simp [hj]

theorem commit_crash_atomic (log : Area) (p : Policy) (lh : List ℕ) (m : Machine)
    (hl : Loggable log lh) (hm : m.Coherent) (hw : m.writes = [])
    (h0 : headerCount (m.disk log.start) = 0) (k : ℕ) (crashes : List (Policy × ℕ)) (q : Policy) :
    let d := crashes.foldl (recoverCrashed log) (crashed m.disk (commit log p lh m) k)
    let d' := (recoverFromLog log q (boot d)).disk
    headerCount (d' log.start) = 0 ∧
      (HeadWritten log ((commit log p lh m).writes.take k) →
        ∀ b, ¬ log.Mem b → d' b = if b ∈ lh then m.content b else m.disk b) ∧
      (¬ HeadWritten log ((commit log p lh m).writes.take k) → ∀ b, ¬ log.Mem b → d' b = m.disk b) := by
  intro d d'
  rw [headWritten_commit hl p hm hw k]
  have hphase : Phase log lh m.disk m.content (decide (0 < lh.length ∧ lh.length < k)) d :=
    (commit_crashed hl p hm hw h0 k).recover_crashes hl crashes
  have hfin := hphase.recovered hl q
  refine ⟨hfin.count, fun hk b hb => (hfin.home b hb).trans ?_, fun hk b hb => (hfin.home b hb).trans ?_⟩
  · rw [decide_eq_true hk]
    rfl
  · rw [decide_eq_false hk]
    rfl

def dirtyMachine : Machine :=
  ⟨fun _ => Block.zero, assign (fun _ => none) 100 (some ⟨fun _ => 1, true⟩), [], 0⟩

theorem commit_crash_atomic_one_block :
    (recoverFromLog ⟨2, LOGSIZE⟩ (fun _ _ => true) (boot
      ([((fun _ _ => false), 0)].foldl (recoverCrashed ⟨2, LOGSIZE⟩)
        (crashed dirtyMachine.disk
        (commit ⟨2, LOGSIZE⟩ (fun _ _ => true) [100] dirtyMachine) 2)))).disk 100 =
      fun _ => 1 := by
  have hl : Loggable ⟨2, LOGSIZE⟩ [100] := by
    exact ⟨by decide, by decide, by decide, by decide, by decide⟩
  have hm : dirtyMachine.Coherent := by
    intro b buf h hd
    by_cases hb : b = 100
    · subst hb
      simp only [dirtyMachine, assign_self, Option.some.injEq] at h
      subst h
      exact absurd hd (by decide)
    · simp [dirtyMachine, assign_of_ne hb] at h
  have h0 : headerCount (dirtyMachine.disk 2) = 0 := by decide
  have hk := (headWritten_commit hl (fun _ _ => true) hm rfl 2).mpr ⟨by decide, by decide⟩
  have h := (commit_crash_atomic ⟨2, LOGSIZE⟩ (fun _ _ => true) [100] dirtyMachine hl hm rfl h0 2
    [((fun _ _ => false), 0)] (fun _ _ => true)).2.1 hk 100 (by decide)
  rw [if_pos (by simp)] at h
  exact h

end Xv6.Log
