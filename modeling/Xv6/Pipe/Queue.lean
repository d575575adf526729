import Xv6.Pipe.Calls

namespace Xv6.Pipe.State

open Lib

variable {s s' : State} {p q : ℕ} {e : Event}

def storedBy (s : State) (id : ℕ) : List UInt8 := (s.stored.filter (fun x => x.1 = id)).map Prod.snd

structure Own (s : State) (p : ℕ) : Prop where
  lock : (s.proc p).pc.inside = true → s.lock = some p
  bound : (s.proc p).pc.writing = true → (s.proc p).id < s.calls ∧ (s.proc p).i ≤ (s.proc p).n.toNat
  written : (s.proc p).pc.writing = true → s.storedBy (s.proc p).id = (List.range (s.proc p).i).map
    (s.proc p).addr
  writeEnd : (s.proc p).pc = .writeEnd → (s.proc p).i = (s.proc p).n.toNat
  readCopy : (s.proc p).pc = .readCopy → (s.proc p).i = 0 → s.nread = s.nwrite → s.writeopen = false
  readEnd : (s.proc p).pc = .readEnd → (s.proc p).i = 0 → 0 < (s.proc p).n →
    s.nread = s.nwrite ∧ s.writeopen = false

structure Inv (s : State) : Prop where
  fifo : Fifo PIPESIZE s.data s.nread s.nwrite (s.stored.map Prod.snd) (s.delivered.map Prod.snd)
  own : ∀ p, s.Own p
  old : ∀ x ∈ s.stored, x.1 < s.calls
  apart : ∀ p q, p ≠ q → (s.proc p).pc.writing = true → (s.proc q).pc.writing = true →
    (s.proc p).id ≠ (s.proc q).id

structure Same (s s' : State) (q : ℕ) : Prop where
  call : (s'.proc q).id = (s.proc q).id ∧ (s'.proc q).n = (s.proc q).n ∧
    (s'.proc q).addr = (s.proc q).addr ∧ (s'.proc q).i = (s.proc q).i
  writing : (s'.proc q).pc.writing = (s.proc q).pc.writing
  pc : (s'.proc q).pc.inside = true → (s'.proc q).pc = (s.proc q).pc

lemma inside_wakeReader (pc : Pc) : pc.wakeReader.inside = pc.inside := by cases pc <;> rfl

lemma inside_wakeWriter (pc : Pc) : pc.wakeWriter.inside = pc.inside := by cases pc <;> rfl

lemma writing_wakeReader (pc : Pc) : pc.wakeReader.writing = pc.writing := by cases pc <;> rfl

lemma writing_wakeWriter (pc : Pc) : pc.wakeWriter.writing = pc.writing := by cases pc <;> rfl

lemma wakeReader_of_inside (pc : Pc) (h : pc.inside = true) :
    pc.wakeReader = pc := by cases pc <;> first | rfl | cases h

lemma wakeWriter_of_inside (pc : Pc) (h : pc.inside = true) :
    pc.wakeWriter = pc := by cases pc <;> first | rfl | cases h

attribute [local grind =] inside_wakeReader inside_wakeWriter writing_wakeReader writing_wakeWriter
attribute [local grind →] wakeReader_of_inside wakeWriter_of_inside

lemma Move.alone (h : Inv s) (hm : Move s p s') (hqp : q ≠ p) : (s.proc q).pc.inside = false := by
  by_contra hq
  have hlock := (h.own q).lock (by simpa using hq)
  have hp := (h.own p).lock
  cases hm <;> grind [Pc.inside, GivesUp]

lemma Move.same (hm : Move s p s') (hqp : q ≠ p) : Same s s' q := by
  cases hm <;> constructor <;> grind

lemma Own.frame (h : s.Own q) (hsame : Same s s' q) (hcalls : s.calls ≤ s'.calls)
    (hst : (s.proc q).pc.writing = true → s'.storedBy (s.proc q).id = s.storedBy (s.proc q).id)
    (hin : (s.proc q).pc.inside = true → s'.lock = some q ∧ s'.nread = s.nread ∧ s'.nwrite = s.nwrite ∧
      s'.writeopen = s.writeopen) : s'.Own q := by
  obtain ⟨⟨hid, hn, haddr, hi⟩, hw, hpc⟩ := hsame
  refine ⟨fun hx => ?_, fun hx => ?_, fun hx => ?_, fun hx => ?_, fun hx => ?_, fun hx => ?_⟩
  · exact (hin (hpc hx ▸ hx)).1
  · have hb := h.bound (hw ▸ hx)
    rw [hid, hi, hn]
    exact ⟨hb.1.trans_le hcalls, hb.2⟩
  · rw [hid, hi, haddr, hst (hw ▸ hx), h.written (hw ▸ hx)]
  all_goals
    have hx' := hpc (by rw [hx]; rfl)
    rw [hx] at hx'
    have hsh := hin (by rw [← hx']; rfl)
  · rw [hi, hn, h.writeEnd hx'.symm]
  · rw [hi, hsh.2.1, hsh.2.2.1, hsh.2.2.2]
    exact h.readCopy hx'.symm
  · rw [hi, hn, hsh.2.1, hsh.2.2.1, hsh.2.2.2]
    exact h.readEnd hx'.symm

lemma storedBy_store_self (s : State) (p : ℕ) : (s.store p).storedBy (s.proc p).id =
    s.storedBy (s.proc p).id ++ [(s.proc p).addr (s.proc p).i] := by
  simp [storedBy, store]

lemma storedBy_store_of_ne (s : State) (p : ℕ) {id : ℕ} (h : (s.proc p).id ≠ id) :
    (s.store p).storedBy id = s.storedBy id := by
  simp [storedBy, store, h]

lemma Move.storedBy (h : Inv s) (hm : Move s p s') (hqp : q ≠ p) (hq : (s.proc q).pc.writing = true) :
    s'.storedBy (s.proc q).id = s.storedBy (s.proc q).id := by
  cases hm with
  | store hpc =>
    exact storedBy_store_of_ne s p (h.apart p q hqp.symm (by rw [hpc]; rfl) hq)
  | close => rename_i b _ _; cases b <;> rfl
  | _ => rfl

lemma Move.calls (hm : Move s p s') : s'.calls = s.calls := by
  cases hm with
  | close => rename_i b _ _; cases b <;> rfl
  | _ => rfl

lemma Move.others (h : Inv s) (hm : Move s p s') (hqp : q ≠ p) : s'.Own q :=
  (h.own q).frame (hm.same hqp) hm.calls.ge (hm.storedBy h hqp)
    (fun hin => absurd hin (by rw [hm.alone h hqp]; exact Bool.false_ne_true))

lemma Own.goto (h : s.Own p) (pc : Pc) (hproc : s'.proc p = { s.proc p with pc := pc })
    (hst : s'.stored = s.stored)
    (hcalls : s'.calls = s.calls) (hw : pc.writing = true → (s.proc p).pc.writing = true)
    (hl : pc.inside = true → s'.lock = some p) (hwe : pc = .writeEnd → (s.proc p).i = (s.proc p).n.toNat)
    (hrc : pc = .readCopy → s'.nread = s'.nwrite → s'.writeopen = false)
    (hre : pc = .readEnd → (s.proc p).i = 0 → 0 < (s.proc p).n → s'.nread = s'.nwrite ∧
    s'.writeopen = false) : s'.Own p := by
  refine ⟨?_, ?_, ?_, ?_, ?_, ?_⟩ <;> rw [hproc]
  · exact hl
  · exact fun hx => hcalls ▸ h.bound (hw hx)
  · intro hx
    have hb : s'.storedBy (s.proc p).id = s.storedBy (s.proc p).id := by rw [storedBy, hst, storedBy]
    rw [hb]
    exact h.written (hw hx)
  · exact hwe
  · exact fun hx _ => hrc hx
  · exact hre

lemma woken_proc (s : State) (f : Pc → Pc) (p : ℕ) (pc : Pc) :
    ((s.wakeup f).setPc p pc).proc p = { s.proc p with pc := pc } := by
  simp

lemma Move.self (h : Inv s) (hm : Move s p s') : s'.Own p := by
  have ho := h.own p
  have hlock : ∀ {pc : Pc}, (s.proc p).pc = pc → pc.inside = true → s.lock = some p := fun hpc hin =>
    ho.lock (hpc ▸ hin)
  have hproc : ∀ pc, (s.setPc p pc).proc p = { s.proc p with pc := pc } := fun pc => by simp
  cases hm with
  | store hpc hi hroom =>
    have hw : (s.proc p).pc.writing = true := by rw [hpc]; rfl
    have hb := ho.bound hw
    have hproc : (s.store p).proc p = { s.proc p with i := (s.proc p).i + 1 } := by simp
    refine ⟨fun _ => hlock hpc rfl, fun _ => ?_, fun _ => ?_, ?_, ?_, ?_⟩ <;> rw [hproc]
    · refine ⟨hb.1, ?_⟩
      show (s.proc p).i + 1 ≤ (s.proc p).n.toNat
      omega
    · rw [storedBy_store_self, ho.written hw, List.range_succ, List.map_append]
      rfl
    all_goals simp [hpc]
  | fetch hpc hne =>
    refine ⟨fun _ => hlock hpc rfl, ?_, ?_, ?_, ?_, ?_⟩ <;> simp [hpc, Pc.writing]
  | writeDone hpc hi =>
    have hb := (ho.bound (by rw [hpc]; rfl)).2
    refine ho.goto .writeEnd (hproc _) rfl rfl (fun _ => by rw [hpc]; rfl) (fun _ => hlock hpc rfl)
      (fun _ => ?_) (by simp) (by simp)
    omega
  | readGo hpc he =>
    exact ho.goto .readCopy (hproc _) rfl rfl (by simp [Pc.writing]) (fun _ => hlock hpc rfl)
      (by simp) (fun _ => he) (by simp)
  | readStop hpc hi =>
    refine ho.goto .readEnd (hproc _) rfl rfl (by simp [Pc.writing]) (fun _ => hlock hpc rfl)
      (by simp) (by simp) (fun _ hz hn => ?_)
    have heq := hi (by omega)
    exact ⟨heq, ho.readCopy hpc hz heq⟩
  | writeAcquire hpc =>
    refine ho.goto .writeLoop (by simp) rfl rfl (fun _ => ?_) (fun _ => rfl) (by simp) (by simp) (by simp)
    rcases hpc with hpc | hpc <;> rw [hpc] <;> rfl
  | readAcquire hpc =>
    exact ho.goto .readLoop (by simp) rfl rfl (by simp [Pc.writing]) (fun _ => rfl) (by simp)
      (by simp) (by simp)
  | @close b hpc =>
    refine ho.goto .idle (by simp [close_proc]) ?_ ?_ (by simp [Pc.writing]) (by simp [Pc.inside])
      (by simp) (by simp) (by simp) <;> cases b <;> rfl
  | writeFull hpc =>
    exact ho.goto .writeSleep (woken_proc _ _ _ _) rfl rfl (fun _ => by rw [hpc]; rfl)
      (fun _ => hlock hpc rfl) (by simp) (by simp) (by simp)
  | writeSleep hpc =>
    exact ho.goto .writeAsleep (by simp) rfl rfl (fun _ => by rw [hpc]; rfl) (by simp [Pc.inside])
      (by simp) (by simp) (by simp)
  | readEmpty hpc =>
    exact ho.goto .readSleep (hproc _) rfl rfl (by simp [Pc.writing]) (fun _ => hlock hpc rfl)
      (by simp) (by simp) (by simp)
  | readSleep hpc =>
    exact ho.goto .readAsleep (by simp) rfl rfl (by simp [Pc.writing]) (by simp [Pc.inside])
      (by simp) (by simp) (by simp)
  | giveUp | writeEnd hpc | readKilled hpc | readEnd hpc =>
    exact ho.goto .idle (by simp) rfl rfl (by simp [Pc.writing]) (by simp [Pc.inside]) (by simp)
      (by simp) (by simp)

lemma Move.fifo (h : Inv s) (hm : Move s p s') :
    Fifo PIPESIZE s'.data s'.nread s'.nwrite (s'.stored.map Prod.snd) (s'.delivered.map Prod.snd) := by
  have hf := h.fifo
  cases hm with
  | store hpc hi hroom =>
    have hlt : (s.stored.map Prod.snd).length < (s.delivered.map Prod.snd).length + PIPESIZE :=
      lt_of_le_of_ne hf.cap (fun he => hroom (hf.full_iff.mpr he))
    have := hf.put ((s.proc p).addr (s.proc p).i) hlt
    simpa [State.store] using this
  | fetch hpc hne =>
    have hlt : (s.delivered.map Prod.snd).length < (s.stored.map Prod.snd).length :=
      lt_of_le_of_ne hf.le (fun he => hne (hf.eq_iff.mpr he))
    have := hf.get hlt
    simpa [State.fetch] using this
  | @close b => cases b <;> exact hf
  | _ => exact hf

lemma Move.old (h : Inv s) (hm : Move s p s') : ∀ x ∈ s'.stored, x.1 < s'.calls := by
  have ho := h.old
  cases hm with
  | store hpc =>
    have hb := ((h.own p).bound (by rw [hpc]; rfl)).1
    intro x hx
    rcases List.mem_append.mp hx with hx | hx
    · exact ho x hx
    · rw [List.mem_singleton.mp hx]
      exact hb
  | @close b => cases b <;> exact ho
  | _ => exact ho

lemma Move.writing (hm : Move s p s') (q : ℕ) : (s'.proc q).id = (s.proc q).id ∧
    ((s'.proc q).pc.writing = true → (s.proc q).pc.writing = true) := by
  by_cases hqp : q = p
  · subst hqp
    cases hm <;> grind [Pc.writing]
  · have := hm.same hqp
    exact ⟨this.call.1, fun hw => this.writing ▸ hw⟩

lemma Inv.next (h : Inv s) (hm : Move s p s') : Inv s' := by
  refine ⟨hm.fifo h, fun q => ?_, hm.old h, fun q r hqr hq hr => ?_⟩
  · by_cases hqp : q = p
    · exact hqp ▸ hm.self h
    · exact hm.others h hqp
  · rw [(hm.writing q).1, (hm.writing r).1]
    exact h.apart q r hqr ((hm.writing q).2 hq) ((hm.writing r).2 hr)

lemma Own.trivial (hi : (s.proc p).pc.inside = false) (hw : (s.proc p).pc.writing = false) : s.Own p := by
  refine ⟨fun h => ?_, fun h => ?_, fun h => ?_, fun h => ?_, fun h => ?_, fun h => ?_⟩
  · rw [hi] at h
    cases h
  · rw [hw] at h
    cases h
  · rw [hw] at h
    cases h
  all_goals
    rw [h] at hi
    cases hi

lemma storedBy_calls (h : Inv s) : s.storedBy s.calls = [] := by
  rw [storedBy, List.map_eq_nil_iff, List.filter_eq_nil_iff]
  intro x hx
  have := h.old x hx
  simp only [decide_eq_true_eq]
  omega

lemma Inv.local (h : Inv s) (hq : ∀ q, q ≠ p → s'.proc q = s.proc q) (hp : s'.Own p)
    (hc : s.calls ≤ s'.calls) (hid : (s'.proc p).pc.writing = true →
      (s'.proc p).id = s.calls ∨ (s'.proc p).id = (s.proc p).id ∧ (s.proc p).pc.writing = true)
    (hsh : s'.lock = s.lock ∧ s'.data = s.data ∧ s'.nread = s.nread ∧ s'.nwrite = s.nwrite ∧
      s'.writeopen = s.writeopen ∧ s'.stored = s.stored ∧ s'.delivered = s.delivered) : Inv s' := by
  obtain ⟨hl, hd, hr, hw, ho, hst, hdl⟩ := hsh
  have hne : ∀ q, q ≠ p → (s'.proc p).pc.writing = true → (s.proc q).pc.writing = true →
    (s'.proc p).id ≠ (s.proc q).id := by
    intro q hqp hpw hqw
    rcases hid hpw with he | ⟨he, hpw'⟩
    · rw [he]
      exact ((h.own q).bound hqw).1.ne'
    · rw [he]
      exact h.apart p q hqp.symm hpw' hqw
  refine ⟨by rw [hd, hr, hw, hst, hdl]; exact h.fifo, fun q => ?_, fun x hx => ?_,
    fun q r hqr hqw hrw => ?_⟩
  · by_cases hqp : q = p
    · exact hqp ▸ hp
    · refine (h.own q).frame ⟨by simp [hq q hqp], by rw [hq q hqp], fun _ => by rw [hq q hqp]⟩ hc
        (fun _ => ?_) (fun hin => ⟨hl ▸ (h.own q).lock hin, hr, hw, ho⟩)
      rw [storedBy, hst, storedBy]
  · rw [hst] at hx
    exact (h.old x hx).trans_le hc
  · by_cases hqp : q = p
    · subst hqp
      rw [hq r hqr.symm] at hrw ⊢
      exact hne r hqr.symm hqw hrw
    · rw [hq q hqp] at hqw ⊢
      by_cases hrp : r = p
      · subst hrp
        exact (hne q hqp hrw hqw).symm
      · rw [hq r hrp] at hrw ⊢
        exact h.apart q r hqr hqw hrw

lemma Inv.step (h : Inv s) (hs : Step s e s') : Inv s' := by
  cases e with
  | next p => exact h.next (move_of_next hs)
  | write p n addr =>
    obtain ⟨-, heq⟩ := Option.ite_none_right_eq_some.mp hs
    cases heq
    have hproc : (s.enter p .writeEnter n addr).proc p = ⟨.writeEnter, (s.proc p).killed, s.calls,
      n, addr, 0⟩ := by simp
    refine h.local (p := p) (fun q hq => by simp [hq]) ?_ (Nat.le_succ _) (fun _ => .inl (by simp))
      (by simp [enter])
    refine ⟨?_, ?_, ?_, ?_, ?_, ?_⟩ <;> rw [hproc]
    · simp [Pc.inside]
    · exact fun _ => ⟨Nat.lt_succ_self _, Nat.zero_le _⟩
    · exact fun _ => storedBy_calls h
    all_goals simp
  | read p n =>
    obtain ⟨-, heq⟩ := Option.ite_none_right_eq_some.mp hs
    cases heq
    refine h.local (p := p) (fun q hq => by simp [hq]) (.trivial ?_ ?_) (Nat.le_succ _)
      (fun hw => ?_) (by simp [enter])
    · simp [Pc.inside]
    · simp [Pc.writing]
    · simp [Pc.writing] at hw
  | close p b =>
    obtain ⟨-, heq⟩ := Option.ite_none_right_eq_some.mp hs
    cases heq
    refine h.local (p := p) (fun q hq => by simp [hq]) (.trivial ?_ ?_) le_rfl (fun hw => ?_)
      (by simp [setPc])
    · simp [Pc.inside]
    · simp [Pc.writing]
    · simp [Pc.writing] at hw
  | kill p =>
    cases hs
    have hsame : Same s (s.kill p) p := by constructor <;> grind
    refine h.local (p := p) (fun q hq => by simp [hq]) ?_ le_rfl
      (fun hw => .inr ⟨hsame.call.1, hsame.writing ▸ hw⟩) (by simp [kill])
    exact (h.own p).frame hsame le_rfl (fun _ => rfl) (fun hin => ⟨(h.own p).lock hin, rfl, rfl, rfl⟩)

lemma Inv.init (data : ℕ → UInt8) : Inv (init data) :=
  ⟨.empty (by decide) (by decide), fun _ => .trivial rfl rfl, fun _ hx => absurd hx List.not_mem_nil,
    fun _ _ _ hw => absurd hw Bool.false_ne_true⟩

lemma Inv.run {data : ℕ → UInt8} {es : List Event} (hrun : Run Step (State.init data) es s) : Inv s :=
  hrun.state_invariant (Inv.init data) (fun _ _ _ h hs => h.step hs)

lemma returns_cases {v : ℤ} (h : s.returns p = some v) :
    (s.proc p).pc = .writeEnd ∧ v = (s.proc p).n ∨ s.GivesUp p ∧ v = -1 ∨
    (s.proc p).pc = .readLoop ∧ v = -1 ∨
      (s.proc p).pc = .readEnd ∧ v = (s.proc p).i := by
  unfold returns at h
  split at h
  · rename_i hpc
    split_ifs at h with hg
    exact .inr (.inl ⟨⟨hpc, hg⟩, (Option.some.inj h).symm⟩)
  · rename_i hpc
    exact .inl ⟨hpc, (Option.some.inj h).symm⟩
  · rename_i hpc
    split_ifs at h
    exact .inr (.inr (.inl ⟨hpc, (Option.some.inj h).symm⟩))
  · rename_i hpc
    exact .inr (.inr (.inr ⟨hpc, (Option.some.inj h).symm⟩))
  · cases h

theorem pipe_is_fifo (data : ℕ → UInt8) (es : List Event) (s : State) (hrun : Run Step (init data) es s) :
    (s.nwrite - s.nread).toNat ≤ PIPESIZE ∧
    s.stored.map Prod.snd = s.delivered.map Prod.snd ++ Fifo.pending PIPESIZE s.data s.nread s.nwrite ∧
    (∀ p, (s.proc p).pc.writing = true → s.returns p = some (s.proc p).n →
      s.storedBy (s.proc p).id = (List.range (s.proc p).n.toNat).map (s.proc p).addr) ∧
    (∀ p, (s.proc p).pc.writing = false → 0 < (s.proc p).n → s.returns p = some 0 →
      s.writeopen = false ∧ s.delivered.map Prod.snd = s.stored.map Prod.snd) := by
  have h := Inv.run hrun
  refine ⟨h.fifo.count_le, h.fifo.ins_eq, fun p hw hr => ?_, fun p hw hn hr => ?_⟩
  · have ho := h.own p
    rcases returns_cases hr with ⟨hpc, -⟩ | ⟨hg, hn⟩ | ⟨hpc, -⟩ | ⟨hpc, -⟩
    · rw [ho.written hw, ho.writeEnd hpc]
    · -- the return value -1 is `n` only if no byte was to be written
      have := hg.2.1
      omega
    all_goals
      rw [hpc] at hw
      cases hw
  · rcases returns_cases hr with ⟨hpc, -⟩ | ⟨hg, -⟩ | ⟨-, hv⟩ | ⟨hpc, hi⟩
    · rw [hpc] at hw
      cases hw
    · rw [hg.1] at hw
      cases hw
    · cases hv
    · obtain ⟨heq, hopen⟩ := (h.own p).readEnd hpc (by omega) hn
      have hlen := h.fifo.eq_iff.mp heq
      refine ⟨hopen, ?_⟩
      rw [h.fifo.taken, List.take_of_length_le hlen.ge]

def writeTwo : List Event := .write 0 2 (fun i => if i = 0 then 65 else 66) :: List.replicate 4 (.next 0)

def readAll : List Event :=
  writeTwo ++ .next 0 :: .read 1 8 :: List.replicate 6 (.next 1) ++ .close 0 true :: .next 0 ::
    .read 1 8 :: List.replicate 3 (.next 1)

theorem pipe_is_fifo_two_bytes : ∃ s s', Run Step (init fun _ => 0) writeTwo s ∧ s.returns 0 = some 2 ∧
    s.storedBy (s.proc 0).id = [65, 66] ∧ Run Step (init fun _ => 0) readAll s' ∧ s'.returns 1 = some 0 ∧
    s'.delivered.map Prod.snd = [65, 66] := by
  obtain ⟨s, hs, hret, hw, hn, haddr⟩ : ∃ s ∈ exec State.step (init fun _ => 0) writeTwo,
    s.returns 0 = some 2 ∧
    (s.proc 0).pc.writing = true ∧ (s.proc 0).n = 2 ∧ (List.range 2).map (s.proc 0).addr = [65, 66] := by
    decide +kernel
  obtain ⟨s', hs', hret', hw', hn', hstored⟩ : ∃ s' ∈ exec State.step (init fun _ => 0) readAll,
    s'.returns 1 = some 0 ∧
    (s'.proc 1).pc.writing = false ∧ 0 < (s'.proc 1).n ∧
    s'.stored.map Prod.snd = [65, 66] := by decide +kernel
  have hrun := run_of_exec hs
  have hrun' := run_of_exec hs'
  refine ⟨s, s', hrun, hret, ?_, hrun', hret', ?_⟩
  · rw [(pipe_is_fifo _ writeTwo s hrun).2.2.1 0 hw (hn ▸ hret), hn]
    exact haddr
  · rw [((pipe_is_fifo _ readAll s' hrun').2.2.2 1 hw' hn' hret').2, hstored]

end Xv6.Pipe.State
