import Xv6.Bio.OneDisk
import Xv6.Log.Atomicity

namespace Xv6.Logged

open Lib Bio
open Xv6.Log (Sys Stage Area Policy Loggable Clean Pending headerCount putHeader boot recoverCrashed
  recoverFromLog)

variable {start size disksize : ℕ} {d : Disk} {s s' : State} {x : UInt32 → Block} {p b : ℕ} {k : UInt32}

namespace State

def commits (s : State) : Event → Bool
  | .next p =>
    match s.sys.proc p, s.io p with
    | .committing .writeHead, .one _ => true
    | _, _ => false
  | _ => false

lemma of_commits (h : s.commits (.next p) = true) : s.sys.proc p = .committing .writeHead ∧ ∃ b,
    s.io p = .one b := by
  simp only [commits] at h
  split at h
  · exact ⟨by assumption, _, by assumption⟩
  · cases h

def crashStep (disksize : ℕ) (d : Disk) (t : State × (UInt32 → Block)) (e : Event) :
    Option (State × (UInt32 → Block)) :=
  (t.1.step disksize e).map fun s => (s, if t.1.commits e then t.1.contents d else t.2)

def headerOut (n : ℕ) : Stage → Prop
  | .writeHead => n = 1
  | .installTrans _ => True
  | .clear => n = 0
  | _ => False

def Committed (s : State) : Prop := ∃ p st, s.At p st ∧ headerOut (s.io p).done st

lemma Inv.committed_iff (h : Inv start size d s) {u : Stage} (hst : s.At p u) :
    s.Committed ↔ headerOut (s.io p).done u := by
  refine ⟨fun ⟨q, st', hst', hd⟩ => ?_, fun hd => ⟨p, u, hst, hd⟩⟩
  obtain rfl : q = p := by
    by_contra hq
    exact h.alone hst q st' hq hst'
  rwa [At.unique hst hst'] at hd

lemma Inv.not_committed (h : Inv start size d s) (hc : s.sys.log.committing = false) : ¬ s.Committed := by
  rintro ⟨p, st, hst, -⟩
  rw [h.committing hst] at hc
  cases hc

structure Safe (start size : ℕ) (d : Disk) (s : State) (x : UInt32 → Block) (val : ℕ → Block) : Prop where
  inv : Inv start size d s
  home : ∀ k, Home start size k → val k.toNat = x k
  clean : ¬ s.Committed → Clean ⟨start, size⟩ val s.disk
  pending : s.Committed → Pending ⟨start, size⟩ s.sys.log.lh val val s.disk ∧ ∀ k,
    Home start size k → x k = s.contents d k

variable {val : ℕ → Block}

section

variable (h : Safe start size d s x val) (hinv : Inv start size d s')
include h hinv

lemma Safe.quiet (hdisk : s'.disk = s.disk) (hiff : s'.Committed ↔ s.Committed)
    (hsame : s.Committed → s'.sys.log.lh = s.sys.log.lh ∧ s'.written = s.written) :
    Safe start size d s' x val := by
  refine ⟨hinv, h.home, fun hn => ?_, fun hc => ?_⟩
  · rw [hdisk]
    exact h.clean (mt hiff.2 hn)
  · obtain ⟨hlh, hw⟩ := hsame (hiff.1 hc)
    unfold contents
    rw [hdisk, hlh, hw]
    exact h.pending (hiff.1 hc)

lemma Safe.idle (hdisk : s'.disk = s.disk) (hn : ¬ s.Committed) (hn' : ¬ s'.Committed) :
    Safe start size d s' x val :=
  h.quiet hinv hdisk (iff_of_false hn' hn) (fun hc => absurd hc hn)

lemma Safe.local (hsys : s'.sys = s.sys) (hdisk : s'.disk = s.disk) (hw : s'.written = s.written)
    (hio : ∀ q, (s'.io q).done = (s.io q).done) : Safe start size d s' x val := by
  refine h.quiet hinv hdisk ?_ (fun _ => ⟨by rw [hsys], hw⟩)
  simp only [Committed, At, hsys, hio]

lemma Safe.setIo {t : State} {y : Io} (hs : s' = t.setIo p y) (hsys : t.sys = s.sys)
    (hdisk : t.disk = s.disk)
    (hw : t.written = s.written) (hio : t.io = s.io) (hy : y.done = (s.io p).done) :
    Safe start size d s' x val := by
  subst hs
  refine h.local hinv hsys hdisk hw fun q => ?_
  simp only [State.setIo, assign_apply, hio]
  split_ifs with hq
  · rw [hq, hy]
  · rfl

lemma Safe.scan {e : Bio.Event} {c : Cont} (hs : s.scan e p k c = some s') (hdone : (s.io p).done = 0) :
    Safe start size d s' x val := by
  unfold State.scan at hs
  split at hs
  · refine h.setIo hinv (Option.some.inj hs).symm rfl rfl rfl rfl ?_
    rw [hdone]
    split <;> rfl
  · cases hs

lemma Safe.brelse {y : Io} (hs : s.brelse p b y = some s') (hdone : y.done = (s.io p).done) :
    Safe start size d s' x val := by
  unfold State.brelse at hs
  split at hs
  · exact h.setIo hinv (Option.some.inj hs).symm rfl rfl rfl rfl hdone
  · cases hs

lemma Safe.load {c : Cont} (hio : s.io p = .loading b c) (hs : s.load disksize p b c = some s') :
    Safe start size d s' x val := by
  have hdone : (c.returned b).done = (s.io p).done := by
    rw [hio]
    cases c <;> rfl
  unfold State.load at hs
  split_ifs at hs with hv
  · exact h.setIo hinv (Option.some.inj hs).symm rfl rfl rfl rfl hdone
  · obtain ⟨t, ht, rfl⟩ := Option.map_eq_some_iff.mp hs
    obtain ⟨hr, hsame, -⟩ := h.inv.read_rewrote (by simpa using hv) ht
    exact h.setIo hinv rfl hr.sys hr.disk hr.written hsame hdone

lemma Safe.control {sys : Sys} (hs : s' = { s with sys := sys })
    (hmove : Sys.Move s.sys (.beginOp p) sys ∨ Sys.Move s.sys (.endOp p) sys) :
    Safe start size d s' x val := by
  subst hs
  have hquiet : (∀ q, (sys.proc q).stage? = (s.sys.proc q).stage?) → sys.log.lh = s.sys.log.lh →
      Safe start size d { s with sys := sys } x val := by
    intro hstage hlh
    refine h.quiet hinv rfl ?_ (fun _ => ⟨hlh, rfl⟩)
    simp only [Committed, At, hstage]
  rcases hmove with hmove | hmove
  · cases hmove with
    | sleep hp | start hp =>
      refine hquiet (fun q => ?_) rfl
      rw [Sys.set_proc]
      split_ifs with hq
      · rcases hp with hp | hp <;> rw [hq, hp] <;> rfl
      · rfl
  · cases hmove with
    | endPanic => exact hquiet (fun _ => rfl) rfl
    | endLast hp hc =>
      refine h.idle hinv rfl (h.inv.not_committed hc)
        ((hinv.committed_iff (p := p) (u := Sys.firstStage s.sys.log.lh.length) ?_).not.2 ?_)
      · rw [At, Sys.set_proc, if_pos rfl]
        rfl
      · unfold Sys.firstStage
        split_ifs <;> exact not_false
    | endMore hp =>
      refine hquiet (fun q => ?_) rfl
      rw [Sys.wakeup_proc, Log.Proc.stage?_wake, Sys.set_proc]
      split_ifs with hq
      · rw [hq, hp]
        rfl
      · rfl

lemma Safe.advance {st : Stage} (hst : s.At p st)
    (hio : s.io p = .idle ∧ st ≠ .writeHead ∧ st ≠ .clear ∨ s.io p = .finished)
    (hs : s.advance p st = some s') : Safe start size d s' x val := by
  unfold State.advance at hs
  split at hs
  · rename_i sys hcall
    obtain rfl : s.sys.commitStep p st = sys := by
      simp only [Sys.call, Sys.step, hst.proc] at hcall
      split_ifs at hcall
      exact Option.some.inj hcall
    cases hs
    have hiff := h.inv.committed_iff hst
    have hdone : Io.done (assign s.io p .idle p) = 0 := congrArg Io.done (assign_self ..)
    have hat : ∀ {t : Sys} {st' : Stage}, ((t.set p (.committing st')).proc p).stage? = some st' :=
      fun {t st'} => by
      rw [Sys.set_proc, if_pos rfl]
      rfl
    cases st with
    | writeLog tail =>
      refine h.idle hinv rfl (hiff.not.2 not_false) ((hinv.committed_iff (p := p) hat).not.2 ?_)
      simp only [State.setIo, hdone]
      split_ifs <;> simp [headerOut]
    | writeHead =>
      have hf := hio.resolve_left (fun hn => hn.2.1 rfl)
      refine h.quiet hinv rfl (iff_of_true ((hinv.committed_iff (p := p) hat).2 trivial)
        (hiff.2 ?_)) fun _ => ⟨rfl, rfl⟩
      rw [hf]
      rfl
    | installTrans tail =>
      refine h.quiet hinv rfl (iff_of_true ((hinv.committed_iff (p := p) hat).2 ?_)
        (hiff.2 trivial)) fun _ => ⟨rfl, rfl⟩
      simp only [State.setIo, hdone]
      split_ifs <;> simp [headerOut]
    | clear =>
      have hf := hio.resolve_left (fun hn => hn.2.2 rfl)
      refine h.idle hinv rfl (hiff.not.2 ?_) ((hinv.committed_iff (p := p) hat).not.2 not_false)
      rw [hf]
      exact Nat.one_ne_zero
    | finish => exact h.idle hinv rfl (hiff.not.2 not_false) (hinv.not_committed rfl)
  · cases hs

end

lemma Clean.write_log {log : Area} {disk : Disk} (h : Clean log val disk) (hb : log.Mem b)
    (hne : b ≠ log.start) (data : Block) : Clean log val (assign disk b data) where
  count := by rw [assign_of_ne hne.symm, h.count]
  home c hc := by rw [assign_of_ne (by rintro rfl; exact hc hb), h.home c hc]

lemma Pending.write_home {log : Area} {lh : List ℕ} {disk : Disk} (hl : Loggable log lh)
    (h : Pending log lh val val disk) (hb : b ∈ lh) (data : Block) :
    Pending log lh val val (assign disk b data) := by
  have hkeep : ∀ c, log.Mem c → assign disk b data c = disk c := fun c hc =>
    assign_of_ne (by rintro rfl; exact hl.outside c hb hc) ..
  have := hl.fits
  refine ⟨?_, fun i hi => ?_, fun c hc hn => ?_⟩
  · rw [hkeep _ hl.start_mem, h.head]
  · rw [hkeep _ ⟨by omega, by omega⟩, h.copies i hi]
  · rw [assign_of_ne (by rintro rfl; exact hn hb), h.rest c hc hn]

lemma Listing.exists_block (h : Listing start size s) (hb : b ∈ s.sys.log.lh) :
    ∃ k : UInt32, k.toNat = b ∧ Home start size k := by
  have hk : (UInt32.ofNat b).toNat = b := by rw [UInt32.toNat_ofNat', Nat.mod_eq_of_lt (h.range b hb)]
  exact ⟨_, hk, h.home _ (by rwa [hk])⟩

section

variable (hfit : start + size ≤ 2 ^ 32)
include hfit

lemma toNat_logBlock {i : ℕ} (hi : i < size) : (logBlock start i).toNat = start + i := by
  rw [logBlock, UInt32.toNat_ofNat', Nat.mod_eq_of_lt (by omega)]

lemma home_iff : Home start size k ↔ ¬ Area.Mem ⟨start, size⟩ k.toNat := by
  refine ⟨fun h ⟨h1, h2⟩ => ?_, fun h i hi hk => h ?_⟩
  · dsimp only at h1 h2
    refine h (k.toNat - start) (by omega) (UInt32.toNat_inj.1 ?_)
    rw [toNat_logBlock hfit (by omega)]
    omega
  · rw [hk, toNat_logBlock hfit hi]
    exact ⟨Nat.le_add_right start i, Nat.add_lt_add_left hi start⟩

variable (hsize : 0 < size)
include hsize

lemma Inv.loggable (h : Inv start size d s) : Loggable ⟨start, size⟩ s.sys.log.lh where
  fits := by
    have := h.listing.room (s.sys.log.lh.length - 1)
    dsimp only
    omega
  le_logsize := h.listing.few
  uint := h.listing.range
  nodup := h.listing.nodup
  outside b hb := by
    obtain ⟨k, rfl, hk⟩ := h.listing.exists_block hb
    exact (home_iff hfit).1 hk

variable (h : Safe start size d s x val) (hinv : Inv start size d s')
include h hinv

lemma Safe.header {st : Stage} {data : Block} (hst : s.At p st) (hstage : st = .writeHead ∨ st = .clear)
    (hio : s.io p = .one b) (hs : s.bwrite disksize p b data (.last b) = some s') :
    s'.disk = assign s.disk start data ∧ s'.sys = s.sys ∧ s'.written = s.written ∧
      (s'.Committed ↔ st = .writeHead) := by
  obtain ⟨k, hopen, hb⟩ := h.inv.at_one hst hio
  obtain ⟨hr, hio', -⟩ := h.inv.bwrite_cases hs
  have hk : k = logBlock s.sys.log.start 0 := by rcases hstage with rfl | rfl <;> exact hopen
  have hiff := hinv.committed_iff (p := p) (u := st) (by rwa [At, hr.sys])
  rw [hio'] at hiff
  refine ⟨?_, hr.sys, hr.written, hiff.trans ?_⟩
  · rw [hr.disk, hb.2.2, hk, h.inv.listing.area.1, toNat_logBlock hfit hsize, Nat.add_zero]
  · rcases hstage with rfl | rfl <;> simp [headerOut, Io.done]

lemma Safe.write_head (hst : s.At p .writeHead) (hio : s.io p = .one b)
    (hs : s.bwrite disksize p b (putHeader (s.buf b).data s.sys.log.lh) (.last b) = some s') :
    ∃ val', Safe start size d s' (s.contents d) val' := by
  obtain ⟨hdisk, hsys, hw, hiff⟩ := h.header hfit hsize hinv hst (.inl rfl) hio hs
  obtain ⟨-, hinst, hcopied⟩ := (h.inv.own p).progress _ hst
  have hl := h.inv.loggable hfit hsize
  have hfits := hl.fits
  -- a block of the transaction has the data that is in the log, any other one that on the disk
  refine ⟨Log.installed s.sys.log.lh s.disk (fun b => s.contents d (UInt32.ofNat b)), hinv,
    fun k hk => ?_,
    fun hn => absurd (hiff.2 rfl) hn, fun _ => ⟨?_, fun k _ => by rw [contents, contents, hw]⟩⟩
  · unfold Log.installed
    split_ifs with hm
    · exact congrArg (s.contents d) k.ofNat_toNat
    · exact h.inv.coherent.disk k hk (fun hp => hm hp.1)
  rw [hdisk, hsys]
  refine ⟨?_, fun i hi => ?_, fun c hc hn => ?_⟩
  · rw [assign_self, Log.headerBlocks_putHeader _ hl.le_logsize hl.uint]
  · obtain ⟨k, hk, -⟩ := h.inv.listing.exists_block (List.get_mem s.sys.log.lh ⟨i, hi⟩)
    have hcopy := hcopied i hi k (by rw [hk]; simp)
    dsimp only at hfits ⊢
    rw [h.inv.listing.area.1, toNat_logBlock hfit (by omega)] at hcopy
    rw [assign_of_ne (by omega), Nat.add_assoc, hcopy, Log.installed, if_pos (List.get_mem ..),
      ← hk, UInt32.ofNat_toNat]
  · rw [assign_of_ne (by rintro rfl; exact hc hl.start_mem), Log.installed, if_neg hn]

lemma Safe.clear (hst : s.At p .clear) (hio : s.io p = .one b)
    (hs : s.bwrite disksize p b (putHeader (s.buf b).data []) (.last b) = some s') :
    Safe start size d s' x val := by
  obtain ⟨hdisk, hsys, -, hiff⟩ := h.header hfit hsize hinv hst (.inr rfl) hio hs
  obtain ⟨-, hinst⟩ := (h.inv.own p).progress _ hst
  obtain ⟨hp, hx⟩ := h.pending ((h.inv.committed_iff hst).2 (by rw [hio]; rfl))
  refine ⟨hinv, h.home, fun _ => ?_, fun hc => by cases hiff.1 hc⟩
  rw [hdisk]
  refine ⟨by rw [assign_self, Log.headerCount_clear], fun c hc => ?_⟩
  rw [assign_of_ne (by rintro rfl; exact hc (h.inv.loggable hfit hsize).start_mem)]
  by_cases hm : c ∈ s.sys.log.lh
  · obtain ⟨k, rfl, hk⟩ := h.inv.listing.exists_block hm
    rw [h.home k hk, hx k hk]
    exact h.inv.coherent.disk k hk (fun hp => hp.2 (by rwa [hinst]))
  · exact hp.rest c hc hm

omit hsize in
lemma Safe.copy {tail tbuf fbuf : ℕ} {data : Block} (hst : s.At p (.writeLog tail))
    (hio : s.io p = .two tbuf fbuf)
    (hs : s.bwrite disksize p tbuf data (.wrote tbuf fbuf) = some s') : Safe start size d s' x val := by
  obtain ⟨k, hk, hb, -⟩ := h.inv.at_two (.inl hst) hio
  obtain ⟨hr, -⟩ := h.inv.bwrite_cases hs
  have hroom := h.inv.listing.room tail (List.getElem?_eq_some_iff.mp hk).1
  have hst' : s'.At p (.writeLog tail) := by rwa [At, hr.sys]
  have hout : ¬ s.Committed := (h.inv.committed_iff hst).not.2 not_false
  refine ⟨hinv, h.home, fun _ => ?_, fun hc => ((hinv.committed_iff hst').1 hc).elim⟩
  rw [hr.disk, hb.2.2, h.inv.listing.area.1, toNat_logBlock hfit hroom]
  exact Clean.write_log (h.clean hout) ⟨by dsimp only; omega, Nat.add_lt_add_left hroom start⟩
    (by dsimp only; omega) _

lemma Safe.install {tail lbuf dbuf : ℕ} {data : Block} {t : State} {inst : List ℕ}
    (hst : s.At p (.installTrans tail))
    (hio : s.io p = .two lbuf dbuf) (hs : s.bwrite disksize p dbuf data (.wrote lbuf dbuf) = some t)
    (ht : s' = { t with installed := inst }) : Safe start size d s' x val := by
  obtain ⟨k, hk, -, hb⟩ := h.inv.at_two (.inr hst) hio
  obtain ⟨hr, -⟩ := h.inv.bwrite_cases hs
  obtain ⟨hp, hx⟩ := h.pending ((h.inv.committed_iff hst).2 trivial)
  have hst' : s'.At p (.installTrans tail) := by rwa [ht, At, hr.sys]
  refine ⟨hinv, h.home, fun hn => (hn ((hinv.committed_iff hst').2 trivial)).elim, fun _ => ?_⟩
  rw [ht]
  refine ⟨?_, fun k hk => ?_⟩
  · simp only [hr.disk, hr.sys, hb.2.2]
    exact Pending.write_home (h.inv.loggable hfit hsize) hp (List.mem_of_getElem? hk) _
  · rw [hx k hk, contents, contents, hr.written]

lemma Safe.commit {st : Stage} (hst : s.sys.proc p = .committing st)
    (hs : s.commit disksize p st = some s') :
    ∃ val', Safe start size d s' (if s.commits (.next p) then s.contents d else x) val' := by
  have hat : s.At p st := by
    rw [At, hst]
    rfl
  have hkeep : (st = .writeHead → ∀ b, s.io p ≠ .one b) → Safe start size d s' x val →
      ∃ val', Safe start size d s' (if s.commits (.next p) then s.contents d else x) val' := by
    intro hno hx
    refine ⟨val, ?_⟩
    rwa [if_neg]
    intro hc
    obtain ⟨hw, b, hb⟩ := of_commits hc
    rw [hst] at hw
    cases hw
    exact hno rfl b hb
  unfold State.commit at hs
  split at hs
  case h_8 b hio =>
    rw [if_pos (by simp [commits, hst, hio])]
    exact h.write_head hfit hsize hinv hat hio hs
  case h_9 b hio => exact hkeep (by simp) (h.clear hfit hsize hinv hat hio hs)
  case h_10 tail tbuf fbuf hio => exact hkeep (by simp) (h.copy hfit hinv hat hio hs)
  case h_11 tail lbuf dbuf hio =>
    obtain ⟨t, ht, rfl⟩ := Option.map_eq_some_iff.mp hs
    exact hkeep (by simp) (h.install hfit hsize hinv hat hio ht rfl)
  -- the other branches leave the disk alone
  all_goals try split at hs
  all_goals first
    | exact hkeep (by simp [*]) (h.scan hinv hs (by simp [*, Io.done]))
    | exact hkeep (by simp [*]) (h.brelse hinv hs (by simp [*, Io.done]))
    | exact hkeep (by simp [*]) (h.advance hinv hat (by simp [*]) hs)
    | cases hs

omit hinv in
lemma Safe.step {e : Event} (hs : Step disksize s e s') :
    ∃ val', Safe start size d s' (if s.commits e then s.contents d else x) val' := by
  have hinv := h.inv.step hs
  unfold Step State.step at hs
  split_ifs at hs
  cases e with
  | beginOp p | endOp p =>
    simp only at hs
    split_ifs at hs
    split at hs <;> cases hs
    rename_i hsys
    first
    | exact ⟨val, h.control hinv rfl (.inl (Sys.Step.move (e := .beginOp p) hsys).2)⟩
    | exact ⟨val, h.control hinv rfl (.inr (Sys.Step.move (e := .endOp p) hsys).2)⟩
  | bread p k =>
    simp only at hs
    split_ifs at hs with hg
    exact ⟨val, h.scan hinv hs (by rw [(ready_iff.mp hg.1).1]; rfl)⟩
  | logWrite p b data =>
    simp only at hs
    split_ifs at hs
    split at hs
    · rename_i sys bio hsys hbio
      split_ifs at hs with hn
      cases hs
      obtain ⟨hop, -, -, -, hproc⟩ := call_logWrite hsys (by simpa using hn)
      have hn := h.inv.not_committed (h.inv.sys.not_committing hop)
      exact ⟨val, h.idle hinv rfl hn (fun hc => hn (by simpa only [Committed, At, hproc] using hc))⟩
    · cases hs
  | brelse p b =>
    simp only at hs
    split_ifs at hs with hg
    exact ⟨val, h.brelse hinv hs (by rw [(ready_iff.mp hg).1])⟩
  | kill p =>
    simp only at hs
    split at hs <;> cases hs
    exact ⟨val, h.local hinv rfl rfl rfl (fun _ => rfl)⟩
  | next p =>
    have hno : (∀ b, s.io p ≠ .one b) → ¬ s.commits (.next p) = true :=
      fun hno hc => (of_commits hc).2.elim hno
    simp only [State.next] at hs
    split at hs
    · rename_i c hio
      rw [if_neg (hno (by simp [hio]))]
      split at hs
      · exact ⟨val, h.scan hinv hs (by rw [hio]; rfl)⟩
      · cases hs
    · rename_i b c hio
      rw [if_neg (hno (by simp [hio]))]
      exact ⟨val, h.load hinv hio hs⟩
    · split at hs
      · exact h.commit hfit hsize hinv (by assumption) hs
      · cases hs

omit hinv in
lemma Safe.recovered (crashes : List (Policy × ℕ)) (q : Policy) : Clean ⟨start, size⟩ val
      (recoverFromLog ⟨start, size⟩ q
      (boot (crashes.foldl (recoverCrashed ⟨start, size⟩) s.disk))).disk := by
  have hl := h.inv.loggable hfit hsize
  by_cases hc : s.Committed
  · have hphase : Log.Phase ⟨start, size⟩ s.sys.log.lh val val true s.disk := .inl (h.pending hc).1
    have hfin := (hphase.recover_crashes hl crashes).recovered hl q
    exact ⟨hfin.count, fun b hb => (hfin.home b hb).trans (ite_self (val b))⟩
  · have hphase : Log.Phase ⟨start, size⟩ s.sys.log.lh val val false s.disk := h.clean hc
    exact (hphase.recover_crashes hl crashes).recovered hl q

omit hinv hsize in
lemma Safe.durable (hnc : s.sys.log.committing = false) (hlh : s.sys.log.lh = [])
    (hk : Home start size k) : x k = s.contents d k := by
  rw [← h.home k hk, ← (h.clean (h.inv.not_committed hnc)).home _ ((home_iff hfit).1 hk)]
  exact h.inv.coherent.disk k hk (fun hp => List.not_mem_nil (hlh ▸ hp.1))

end

lemma Safe.init (hclean : headerCount (d start) = 0) :
    Safe start size d (State.init start size d) (fun k => d k.toNat) d :=
  have hn : ¬ (State.init start size d).Committed := Inv.init.not_committed rfl
  ⟨Inv.init, fun _ _ => rfl, fun _ => ⟨hclean, fun _ _ => rfl⟩, fun hc => absurd hc hn⟩

lemma Inv.commits_alone (h : Inv start size d s) {e : Event} (he : s.commits e = true) (p : ℕ) :
    (s.sys.proc p).op? = none := by
  cases e with
  | next r =>
    by_contra hop
    have hst : s.At r .writeHead := by
      rw [At, (of_commits he).1]
      rfl
    have hnc := h.sys.not_committing hop
    rw [h.committing hst] at hnc
    cases hnc
  | _ => cases he

theorem crash_restores_last_commit (start size disksize : ℕ) (d : Disk)
    (hfit : start + size ≤ 2 ^ 32) (hsize : 0 < size)
    (hclean : headerCount (d start) = 0) (es : List Event) (s : State) (x : UInt32 → Block)
    (hrun : Run (fun t e t' => crashStep disksize d t e = some t') (State.init start size d,
    fun k => d k.toNat) es (s, x)) : (∀ (crashes : List (Policy × ℕ)) (q : Policy),
      let log : Area := ⟨start, size⟩
      let d' := (recoverFromLog log q (boot (crashes.foldl (recoverCrashed log) s.disk))).disk
      headerCount (d' log.start) = 0 ∧ ∀ k, Home start size k → d' k.toNat = x k) ∧
    (∀ e, s.commits e = true → ∀ p, (s.sys.proc p).op? = none) ∧
    (s.sys.log.committing = false → s.sys.log.lh = [] → ∀ k, Home start size k →
      x k = s.contents d k) := by
  obtain ⟨val, h⟩ : ∃ val, Safe start size d s x val := by
    refine Run.state_invariant (P := fun t => ∃ val, Safe start size d t.1 t.2 val)
      ⟨d, Safe.init hclean⟩ ?_ hrun
    rintro t e t' ⟨val, h⟩ hs
    obtain ⟨s', hstep, rfl⟩ := Option.map_eq_some_iff.mp hs
    exact h.step hfit hsize hstep
  refine ⟨fun crashes q => ?_, fun e he p => h.inv.commits_alone he p,
    fun hnc hlh k hk => h.durable hfit hnc hlh hk⟩
  have hfin := h.recovered hfit hsize crashes q
  exact ⟨hfin.count, fun k hk => (hfin.home _ ((home_iff hfit).1 hk)).trans (h.home k hk)⟩

def oneCommit : List Event :=
  [.beginOp 0, .bread 0 50, .next 0, .logWrite 0 0 (fun _ => 1), .brelse 0 0, .endOp 0] ++
    List.replicate 12 (.next 0)

theorem crash_restores_last_commit_one :
    ∃ s x, Run (fun t e t' => crashStep FSSIZE (fun _ => Block.zero) t e = some t')
      (State.init 2 30 fun _ => Block.zero, fun _ => Block.zero) oneCommit (s, x) ∧
      s.disk 50 0 = 0 ∧ x 50 0 = 1 ∧
      ∀ (crashes : List (Policy × ℕ)) q,
      (recoverFromLog ⟨2, 30⟩ q (boot (crashes.foldl (recoverCrashed ⟨2, 30⟩) s.disk))).disk
        (50 : UInt32).toNat = x 50 := by
  obtain ⟨⟨s, x⟩, hs, h₁, h₂⟩ : ∃ t ∈ exec (crashStep FSSIZE fun _ => Block.zero)
    (State.init 2 30 fun _ => Block.zero, fun _ => Block.zero) oneCommit, t.1.disk 50 0 = 0 ∧
    t.2 50 0 = 1 := by decide +kernel
  have hrun := run_of_exec hs
  have h := crash_restores_last_commit 2 30 FSSIZE (fun _ => Block.zero) (by decide) (by decide)
    (by decide) oneCommit s x hrun
  exact ⟨s, x, hrun, h₁, h₂, fun crashes q => (h.1 crashes q).2 50 (by decide)⟩

end State

end Xv6.Logged
