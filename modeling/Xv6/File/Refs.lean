import Xv6.File.Calls
import Xv6.Lib.Refs

namespace Xv6.Files

open Lib

namespace Cont

def pc : Cont → Pc
  | ret r => .user r
  | close f => .close f (.ret (-1))
  | exit fd => .exit (fd + 1)

def view : Cont → (Fd → Option Ix) → Fd → Option Ix
  | exit fd, v => assign v fd none
  | _, v => v

def held : Cont → List Ix
  | close f => [f]
  | _ => []

def clean : Cont → ℕ
  | exit fd => fd
  | _ => 0

end Cont

namespace Pc

def view : Pc → (Fd → Option Ix) → Fd → Option Ix
  | close _ k | closePipe _ _ k | freePipe _ k => k.view
  | _ => id

def held : Pc → List Ix
  | openFd f _ | pipe1 f => [f]
  | pipeKalloc f0 f1 | pipeFd f0 f1 => [f0, f1]
  | close f k => f :: k.held
  | closePipe _ _ k | freePipe _ k => k.held
  | _ => []

def clean : Pc → ℕ
  | unused | zombie => NOFILE
  | exit fd => fd
  | close _ k | closePipe _ _ k | freePipe _ k => k.clean
  | _ => 0

def kid : Pc → Option Proc
  | fork np _ => some np
  | _ => none

def fresh : Pc → List Ix
  | openFd f _ | openSet _ f _ | pipe1 f => [f]
  | pipeKalloc f0 f1 => [f0, f1]
  | _ => []

def setting : Pc → Option (Fd × Ix)
  | openSet fd f _ => some (fd, f)
  | _ => none

end Pc

namespace State

variable {s s' : State} {p q : Proc} {f g : Ix}

@[simp, grind =] lemma resume_pc (s : State) (p q : Proc) (k : Cont) :
    (s.resume p k).pc q = if q = p then k.pc else s.pc q := by
  cases k <;> rfl

@[simp, grind =] lemma resume_ofile (s : State) (p q : Proc) (k : Cont) :
    (s.resume p k).ofile q = if q = p then k.view (s.ofile p) else s.ofile q := by
  cases k <;> simp only [resume, Cont.view, setPc_ofile, setFd_ofile] <;> grind -linarith

@[simp, grind =] lemma resume_file (s : State) (p : Proc) (k : Cont) (f : Ix) :
    (s.resume p k).file f = s.file f := by
  cases k <;> rfl

structure Kids (s : State) : Prop where
  clean : ∀ p (fd : Fd), fd < (s.pc p).clean → s.ofile p fd = none
  embryo : ∀ p np, (s.pc p).kid = some np → s.pc np = .embryo
  unique : ∀ p p' np, (s.pc p).kid = some np → (s.pc p').kid = some np → p = p'
  copied : ∀ p np i (fd : Fd), s.pc p = .fork np i → i ≤ fd → s.ofile np fd = none

attribute [local grind =] Cont.pc Cont.view Cont.held Cont.clean Pc.view Pc.held Pc.clean Pc.kid
  Pc.fresh Pc.setting hold share drop clear assign

lemma Kids.orphan (h : Kids s) (hne : s.pc p ≠ .embryo) (q : Proc) : (s.pc q).kid ≠ some p :=
  fun hq => hne (h.embryo q p hq)

lemma Kids.frame (h : Kids s) (hpc : ∀ q, q ≠ p → s'.pc q = s.pc q)
    (hof : ∀ q, q ≠ p → s'.ofile q = s.ofile q)
    (hp : ∀ q, (s.pc q).kid ≠ some p) (hkid : (s'.pc p).kid = none)
    (hclean : ∀ fd : Fd, fd < (s'.pc p).clean → s'.ofile p fd = none) : Kids s' := by
  have hold : ∀ q np, (s'.pc q).kid = some np → q ≠ p ∧ np ≠ p ∧ (s.pc q).kid = some np := by
    intro q np hq
    have hqp : q ≠ p := by
      rintro rfl
      rw [hkid] at hq
      cases hq
    rw [hpc q hqp] at hq
    exact ⟨hqp, fun he => hp q (he ▸ hq), hq⟩
  refine ⟨fun q fd hfd => ?_, fun q np hq => ?_, fun q q' np hq hq' => ?_, fun q np i fd hq hle => ?_⟩
  · by_cases hqp : q = p
    · rw [hqp] at hfd ⊢
      exact hclean fd hfd
    · rw [hof q hqp]
      exact h.clean q fd (hpc q hqp ▸ hfd)
  · obtain ⟨-, hnp, hq⟩ := hold q np hq
    rw [hpc np hnp]
    exact h.embryo q np hq
  · exact h.unique q q' np (hold q np hq).2.2 (hold q' np hq').2.2
  · obtain ⟨hqp, hnp, -⟩ := hold q np (by rw [hq]; rfl)
    rw [hof np hnp]
    exact h.copied q np i fd (hpc q hqp ▸ hq) hle

lemma Kids.goto {pc : Pc} {t : State} (h : Kids s) (hpc : ∀ q, t.pc q = s.pc q)
    (hof : ∀ q, q ≠ p → t.ofile q = s.ofile q) (hne : s.pc p ≠ .embryo) (hkid : pc.kid = none)
    (hclean : ∀ fd : Fd, fd < pc.clean → t.ofile p fd = none) : Kids (t.setPc p pc) := by
  refine h.frame (p := p) (fun q hq => ?_) hof (h.orphan hne) ?_ fun fd hfd => ?_
  · rw [setPc_pc, if_neg hq, hpc]
  · rw [setPc_pc, if_pos rfl, hkid]
  · rw [setPc_pc, if_pos rfl] at hfd
    exact hclean fd hfd

lemma Kids.forking {np : Proc} {i : ℕ} (h : Kids s) (hne : s.pc p ≠ .embryo)
    (hone : ∀ q, q ≠ p → (s.pc q).kid ≠ some np) (hpc : ∀ q, q ≠ p → q ≠ np → s'.pc q = s.pc q)
    (hof : ∀ q, q ≠ np → s'.ofile q = s.ofile q) (hp : s'.pc p = .fork np i) (hnp : s'.pc np = .embryo)
    (hcopied : ∀ fd : Fd, i ≤ fd → s'.ofile np fd = none) : Kids s' := by
  have hold : ∀ q np', (s'.pc q).kid = some np' →
      q = p ∧ np' = np ∨ q ≠ p ∧ s'.pc q = s.pc q ∧ np' ≠ p ∧ np' ≠ np := by
    intro q np' hq
    by_cases hqp : q = p
    · rw [hqp, hp] at hq
      exact .inl ⟨hqp, (Option.some.inj hq).symm⟩
    · have hqnp : q ≠ np := by
        rintro rfl
        rw [hnp] at hq
        cases hq
      have hqs := hpc q hqp hqnp
      rw [hqs] at hq
      exact .inr ⟨hqp, hqs, fun he => h.orphan hne q (he ▸ hq), fun he => hone q hqp (he ▸ hq)⟩
  refine ⟨fun q fd hfd => ?_, fun q np' hq => ?_, fun q q' np' hq hq' => ?_, fun q np' i' fd hq hle => ?_⟩
  · by_cases hqp : q = p
    · rw [hqp, hp] at hfd
      cases hfd
    · by_cases hqnp : q = np
      · rw [hqnp, hnp] at hfd
        cases hfd
      · rw [hof q hqnp]
        exact h.clean q fd (hpc q hqp hqnp ▸ hfd)
  · obtain ⟨-, rfl⟩ | ⟨-, hqs, hnp', hnp''⟩ := hold q np' hq
    · exact hnp
    · rw [hpc np' hnp' hnp'']
      exact h.embryo q np' (hqs ▸ hq)
  · obtain ⟨rfl, rfl⟩ | ⟨-, hqs, -, hnp'⟩ := hold q np' hq <;>
      obtain ⟨rfl, heq⟩ | ⟨-, hqs', -, hnp''⟩ := hold q' np' hq'
    · rfl
    · exact (hnp'' rfl).elim
    · exact (hnp' heq).elim
    · exact h.unique q q' np' (hqs ▸ hq) (hqs' ▸ hq')
  · obtain ⟨rfl, rfl⟩ | ⟨-, hqs, -, hnp'⟩ := hold q np' (by rw [hq]; rfl)
    · rw [hp] at hq
      cases hq
      exact hcopied fd hle
    · rw [hof np' hnp']
      exact h.copied q np' i' fd (hqs ▸ hq) hle

lemma plain_pc {pc pc' : Pc} (h : Plain pc pc') :
    pc ≠ .embryo ∧ pc'.kid = none ∧ pc'.clean = 0 ∧ pc'.held = pc.held ∧ pc.view = id ∧
    pc'.view = id := by
  cases h <;> exact ⟨nofun, rfl, rfl, rfl, rfl, rfl⟩

lemma allocs_pc {pc pc' : Pc} (h : Allocs f pc pc') :
    pc ≠ .embryo ∧ pc'.kid = none ∧ pc'.clean = 0 ∧ pc'.held = pc.held ++ [f] ∧ pc.view = id ∧
    pc'.view = id := by
  cases h <;> exact ⟨nofun, rfl, rfl, rfl, rfl, rfl⟩

lemma Kids.resume_clean (h : Kids s) {k : Cont} (hk : (s.pc p).clean = k.clean) (fd : Fd)
    (hfd : fd < k.pc.clean) : k.view (s.ofile p) fd = none := by
  cases k with
  | ret r => cases hfd
  | close f => cases hfd
  | exit fd' =>
    simp only [Cont.view, assign]
    split_ifs with heq
    · rfl
    · refine h.clean p fd ?_
      have hlt : (fd : ℕ) < fd' + 1 := hfd
      have hne : (fd : ℕ) ≠ fd' := fun he => heq (Fin.ext he)
      rw [hk]
      exact lt_of_le_of_ne (Nat.lt_succ_iff.mp hlt) hne

lemma Kids.resume {t : State} {k : Cont} (h : Kids s) (hpc : ∀ q, t.pc q = s.pc q)
    (hof : ∀ q, t.ofile q = s.ofile q)
    (hne : s.pc p ≠ .embryo) (hk : (s.pc p).clean = k.clean) : Kids (t.resume p k) := by
  refine h.frame (p := p) (fun q hq => ?_) (fun q hq => ?_) (h.orphan hne) ?_ fun fd hfd => ?_
  · rw [resume_pc, if_neg hq, hpc]
  · rw [resume_ofile, if_neg hq, hof]
  · cases k <;> simp [Cont.pc, Pc.kid]
  · rw [resume_pc, if_pos rfl] at hfd
    rw [resume_ofile, if_pos rfl, hof]
    exact h.resume_clean hk fd hfd

lemma Kids.only {np : Proc} {i : ℕ} (h : Kids s) (hp : s.pc p = .fork np i) {q : Proc} (hq : q ≠ p) :
    (s.pc q).kid ≠ some np :=
  fun hk => hq (h.unique q p np hk (by rw [hp]; rfl))

lemma Kids.fork_ne {np : Proc} {i : ℕ} (h : Kids s) (hp : s.pc p = .fork np i) : np ≠ p := by
  rintro rfl
  have hnp := h.embryo np np (by rw [hp]; rfl)
  rw [hp] at hnp
  cases hnp

lemma Kids.forkDone {np : Proc} {i : ℕ} {r r' : ℤ} (h : Kids s) (hp : s.pc p = .fork np i) :
    Kids ((s.setPc np (.user r)).setPc p (.user r')) := by
  have hp' : Kids (s.setPc p (.user r')) :=
    h.goto (fun _ => rfl) (fun _ _ => rfl) (by rw [hp]; nofun) rfl nofun
  have hne := h.fork_ne hp
  refine hp'.frame (p := np) (fun q hq => ?_) (fun _ _ => rfl) (fun q => ?_) ?_ ?_
  · simp only [setPc_pc, if_neg hq]
  · rw [setPc_pc]
    split_ifs with hq
    · nofun
    · exact h.only hp hq
  all_goals simp [setPc_pc, if_neg hne, Pc.kid, Pc.clean]

lemma Kids.step (h : Kids s) (hm : Move s p s') : Kids s' := by
  cases hm with
  | goto hpl =>
    obtain ⟨hne, hkid, hcl, -⟩ := plain_pc hpl
    exact h.goto (fun _ => rfl) (fun _ _ => rfl) hne hkid (by simp [hcl])
  | hold hal =>
    obtain ⟨hne, hkid, hcl, -⟩ := allocs_pc hal
    exact h.goto (fun _ => rfl) (fun _ _ => rfl) hne hkid (by simp [hcl])
  | dup hp | close hp | openFd hp =>
    exact h.goto (fun _ => rfl) (fun q hq => if_neg hq) (by rw [hp]; nofun) rfl nofun
  | pipeFds hp =>
    refine h.goto (fun _ => rfl) (fun q hq => ?_) (by rw [hp]; nofun) rfl nofun
    rw [setFd_ofile, if_neg hq, setFd_ofile, if_neg hq]
  | openSet hp | pipeInit hp => exact h.goto (fun _ => rfl) (fun _ _ => rfl) (by rw [hp]; nofun) rfl nofun
  | drop hp | clear hp | shut hp | kfree hp =>
    exact h.resume (fun _ => rfl) (fun _ => rfl) (by rw [hp]; nofun) (by rw [hp]; rfl)
  | clearPipe hp | shutLast hp | reap hp | exitClose hp =>
    exact h.goto (fun _ => rfl) (fun _ _ => rfl) (by rw [hp]; nofun) rfl fun fd hlt => h.clean p fd
      (by rw [hp]; exact hlt)
  | @exitSkip fd hp hfd =>
    refine h.goto (fun _ => rfl) (fun _ _ => rfl) (by rw [hp]; nofun) rfl fun fd' hlt => ?_
    rcases Nat.lt_succ_iff_lt_or_eq.mp hlt with hlt | heq
    · exact h.clean p fd' (by rw [hp]; exact hlt)
    · rw [Fin.ext heq, hfd]
  | @exitDone fd hp hle =>
    refine h.goto (fun _ => rfl) (fun _ _ => rfl) (by rw [hp]; nofun) rfl fun fd' _ => ?_
    exact h.clean p fd' (by rw [hp]; exact fd'.isLt.trans_le hle)
  | @fork r np hp hnp =>
    have hne : np ≠ p := fun he => by rw [he, hp] at hnp; cases hnp
    refine h.forking (by rw [hp]; nofun) (fun q _ => h.orphan (by rw [hnp]; nofun) q) (fun q hq hq' => ?_)
      (fun _ _ => rfl) (if_pos rfl) ?_ fun fd _ => h.clean np fd (by rw [hnp]; exact fd.isLt)
    · rw [setPc_pc, if_neg hq, setPc_pc, if_neg hq']
    · rw [setPc_pc, if_neg hne, setPc_pc, if_pos rfl]
  | @forkSkip np i hp hf =>
    have hnp := h.embryo p np (by rw [hp]; rfl)
    have hne := h.fork_ne hp
    refine h.forking (by rw [hp]; nofun) (fun q hq => h.only hp hq) (fun q hq _ => if_neg hq)
      (fun _ _ => rfl)
      (if_pos rfl) (by rw [setPc_pc, if_neg hne, hnp]) fun fd hle => h.copied p np i fd hp (by omega)
  | @forkDup np i f hp hf =>
    have hnp := h.embryo p np (by rw [hp]; rfl)
    have hne := h.fork_ne hp
    refine h.forking (by rw [hp]; nofun) (fun q hq => h.only hp hq) (fun q hq _ => if_neg hq)
      (fun q hq => if_neg hq) (if_pos rfl) ?_ fun fd hle => ?_
    · rw [setPc_pc, if_neg hne, ← hnp]
      rfl
    · have hfd : fd ≠ i := fun he => by rw [he] at hle; omega
      rw [setPc_ofile, setFd_ofile, if_pos rfl, assign_of_ne hfd]
      exact h.copied p np i fd hp (by omega)
  | forkDone hp => exact h.forkDone hp

def refs (s : State) (p : Proc) (f : Ix) : ℕ := uses ((s.pc p).view (s.ofile p)) f + (s.pc p).held.count f

def Count (s : State) : Prop := ∀ f, (s.file f).ref = ∑ p, s.refs p f

lemma refs_congr (hpc : s'.pc q = s.pc q) (hof : s'.ofile q = s.ofile q) : s'.refs q f = s.refs q f := by
  rw [refs, refs, hpc, hof]

lemma Count.keep (h : Count s) (hrefs : ∀ q f, s'.refs q f = s.refs q f)
    (href : ∀ f, (s'.file f).ref = (s.file f).ref) : Count s' := by
  intro f
  rw [href f, h f]
  exact Finset.sum_congr rfl fun q _ => (hrefs q f).symm

lemma Count.own (h : Count s) (hrefs : ∀ q, q ≠ p → ∀ f, s'.refs q f = s.refs q f)
    (href : ∀ f, (s'.file f).ref + s.refs p f = (s.file f).ref + s'.refs p f) : Count s' := by
  intro f
  have hsum := sum_frame (s.refs · f) (s'.refs · f) p fun q hq => hrefs q hq f
  have hf := href f
  have hc := h f
  omega

lemma Count.goto {pc : Pc} {v : Fd → Option Ix} {t : State} (h : Count s) (hpc : ∀ q, t.pc q = s.pc q)
    (hof : ∀ q, t.ofile q = if q = p then v else s.ofile q)
    (href : ∀ f, (t.file f).ref + (uses ((s.pc p).view (s.ofile p)) f + (s.pc p).held.count f)
      = (s.file f).ref + (uses (pc.view v) f + pc.held.count f)) : Count (t.setPc p pc) := by
  refine h.own (p := p) (fun q hq f => refs_congr ?_ ?_) fun f => ?_
  · rw [setPc_pc, if_neg hq, hpc]
  · rw [setPc_ofile, hof, if_neg hq]
  · simpa only [refs, setPc_pc, setPc_ofile, setPc_file, if_pos, hof] using href f

lemma Count.stay {pc : Pc} {t : State} (h : Count s) (hpc : ∀ q, t.pc q = s.pc q)
    (hof : ∀ q, t.ofile q = s.ofile q)
    (href : ∀ f, (t.file f).ref + (uses ((s.pc p).view (s.ofile p)) f + (s.pc p).held.count f)
      = (s.file f).ref + (uses (pc.view (s.ofile p)) f + pc.held.count f)) : Count (t.setPc p pc) := by
  refine h.goto hpc (fun q => ?_) href
  split_ifs with hq
  · rw [hof, hq]
  · exact hof q

lemma view_pc (k : Cont) : k.pc.view = id := by
  cases k <;> rfl

lemma held_pc (k : Cont) : k.pc.held = k.held := by
  cases k <;> rfl

lemma Count.resume {k : Cont} {t : State} (h : Count s) (hpc : ∀ q, t.pc q = s.pc q)
    (hof : ∀ q, t.ofile q = s.ofile q)
    (href : ∀ f, (t.file f).ref + (uses ((s.pc p).view (s.ofile p)) f + (s.pc p).held.count f)
      = (s.file f).ref + (uses (k.view (s.ofile p)) f + k.held.count f)) : Count (t.resume p k) := by
  refine h.own (p := p) (fun q hq f => refs_congr ?_ ?_) fun f => ?_
  · rw [resume_pc, if_neg hq, hpc]
  · rw [resume_ofile, if_neg hq, hof]
  · simpa only [refs, resume_pc, resume_ofile, resume_file, if_pos, view_pc, held_pc, id,
      hof] using href f

lemma Count.step (h : Count s) (hk : Kids s) (hm : Move s p s') : Count s' := by
  cases hm with
  | @goto pc hpl =>
    obtain ⟨-, -, -, hheld, hv, hv'⟩ := plain_pc hpl
    exact h.stay (fun _ => rfl) (fun _ => rfl) fun f => by rw [hheld, hv, hv']
  | @hold f pc hal h0 =>
    obtain ⟨-, -, -, hheld, hv, hv'⟩ := allocs_pc hal
    refine h.stay (fun _ => rfl) (fun _ => rfl) fun g => ?_
    rw [hheld, hv, hv', List.count_append]
    grind -linarith
  | @dup r fd fd' f hp hf hfd | @openFd f omode fd hp hfd =>
    refine h.goto (v := assign (s.ofile p) fd (some f)) (fun _ => rfl) (by grind -linarith) fun g => ?_
    have hu := uses_assign (s.ofile p) fd (some f) g
    simp only [hp, Pc.view, Pc.held]
    grind -linarith
  | @close r fd f hp hf =>
    refine h.goto (v := assign (s.ofile p) fd none) (fun _ => rfl) (by grind -linarith) fun g => ?_
    have hu := uses_assign (s.ofile p) fd none g
    simp only [hp, Pc.view, Pc.held, Cont.view, Cont.held]
    grind -linarith
  | @fork r np hp hnp =>
    refine h.keep (fun q f => ?_) fun f => rfl
    simp only [refs, setPc_pc, setPc_ofile]
    split_ifs with hq hq' <;> simp_all [Pc.view, Pc.held]
  | openSet hp | pipeInit hp | clearPipe hp =>
    refine h.stay (fun _ => rfl) (fun _ => rfl) fun g => ?_
    simp only [hp, Pc.view, Pc.held]
    grind -linarith [openFile]
  | @pipeFds f0 f1 fd0 fd1 hp h0 h1 hne =>
    refine h.goto (v := assign (assign (s.ofile p) fd0 (some f0)) fd1 (some f1)) (fun _ => rfl)
      (by grind -linarith) fun g => ?_
    have hu0 := uses_assign (s.ofile p) fd0 (some f0) g
    have hu1 := uses_assign (assign (s.ofile p) fd0 (some f0)) fd1 (some f1) g
    rw [assign_of_ne hne.symm] at hu1
    simp only [hp, Pc.view, Pc.held]
    grind -linarith
  | @forkDup np i f hp hf =>
    have hnp := hk.embryo p np (by rw [hp]; rfl)
    have hne := hk.fork_ne hp
    have hu := uses_assign (s.ofile np) i (some f)
    rw [hk.copied p np i i hp le_rfl] at hu
    refine h.own (p := np) (fun q hq g => ?_) fun g => ?_
    · simp only [refs, setPc_pc, setPc_ofile, setFd_pc, setFd_ofile, share, setFile_pc,
        setFile_ofile, if_neg hq]
      split_ifs with heq <;> simp_all [Pc.view, Pc.held]
    · have hu := hu g
      simp only [refs, setPc_pc, setPc_ofile, setFd_pc, setFd_ofile, share, setFile_pc,
        setFile_ofile, hnp, if_neg hne, Pc.view, Pc.held, if_pos]
      grind -linarith
  | @forkDone np i hp hi =>
    have hnp := hk.embryo p np (by rw [hp]; rfl)
    refine h.keep (fun q f => ?_) fun f => rfl
    simp only [refs, setPc_pc, setPc_ofile]
    split_ifs with hq hq' <;> simp_all [Pc.view, Pc.held]
  | @exitClose fd f hp hf =>
    refine h.stay (fun _ => rfl) (fun _ => rfl) fun g => ?_
    have hu := uses_assign (s.ofile p) fd none g
    simp only [hp, Pc.view, Pc.held, Cont.view, Cont.held]
    grind -linarith
  | forkSkip hp | exitSkip hp | exitDone hp | reap hp =>
    exact h.stay (fun _ => rfl) (fun _ => rfl) fun g => by simp only [hp, Pc.view, Pc.held]
  | @drop f k hp href | @clear f k hp href =>
    refine h.resume (fun _ => rfl) (fun _ => rfl) fun g => ?_
    simp only [hp, Pc.view, Pc.held]
    grind -linarith
  | @shut pg w k hp hw | @kfree pg k hp =>
    exact h.resume (fun _ => rfl) (fun _ => rfl) fun g => by simp only [hp, Pc.view, Pc.held]; rfl
  | @shutLast pg w k hp hw =>
    exact h.stay (fun _ => rfl) (fun _ => rfl) fun g => by simp only [hp, Pc.view, Pc.held]; rfl

end State

end Xv6.Files
