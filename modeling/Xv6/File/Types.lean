import Xv6.File.Refs

namespace Xv6.Files

open Lib

namespace Pc

def made : Pc → List Ix
  | pipeFd f0 f1 => [f0, f1]
  | _ => []

end Pc

namespace State

variable {s s' : State} {p q : Proc} {f g : Ix}

attribute [local grind =] Cont.pc Pc.held Pc.fresh Pc.setting Pc.made hold share drop clear assign
  openFile

structure Own (file : Ix → File) (pc : Pc) (v : Fd → Option Ix) : Prop where
  typed : ∀ fd f, pc.view v fd = some f → (file f).type ≠ .none ∨ pc.setting = some (fd, f)
  fresh : ∀ f ∈ pc.fresh, (file f).ref = 1 ∧ (file f).type = .none
  made : ∀ f ∈ pc.made, (file f).type = .pipe
  slot : ∀ fd f, pc.setting = some (fd, f) → v fd = some f

structure Typed (s : State) : Prop where
  dead : ∀ f, (s.file f).ref = 0 → (s.file f).type = .none
  own : ∀ p, Own s.file (s.pc p) (s.ofile p)

lemma refs_pos_of_view {d : Fd} (h : (s.pc p).view (s.ofile p) d = some f) : 0 < s.refs p f :=
  (uses_pos h).trans_le (Nat.le_add_right _ _)

lemma refs_pos_of_held (h : f ∈ (s.pc p).held) : 0 < s.refs p f :=
  (List.count_pos_iff.mpr h).trans_le (Nat.le_add_left _ _)

lemma refs_pos_of_fresh (h : Own s.file (s.pc p) (s.ofile p)) (hf : f ∈ (s.pc p).fresh) :
    0 < s.refs p f := by
  cases hp : s.pc p with
  | openSet fd g omode =>
    rw [hp] at h hf
    obtain rfl := List.mem_singleton.mp hf
    exact refs_pos_of_view (by rw [hp]; exact h.slot fd f rfl)
  | openFd | pipe1 | pipeKalloc =>
    rw [hp] at hf
    exact refs_pos_of_held (by rw [hp]; exact hf)
  | _ => rw [hp] at hf; cases hf

lemma refs_pos_of_made (hf : f ∈ (s.pc p).made) : 0 < s.refs p f := by
  cases hp : s.pc p with
  | pipeFd =>
    rw [hp] at hf
    exact refs_pos_of_held (by rw [hp]; exact hf)
  | _ => rw [hp] at hf; cases hf

lemma Count.refs_le (h : Count s) (p : Proc) (f : Ix) : s.refs p f ≤ (s.file f).ref := by
  rw [h f]
  exact Finset.single_le_sum (f := (s.refs · f)) (fun _ _ => Nat.zero_le _) (Finset.mem_univ p)

lemma Count.ref_pos (h : Count s) (hp : 0 < s.refs p f) : 0 < (s.file f).ref :=
  hp.trans_le (h.refs_le p f)

lemma Count.two_le (h : Count s) (hne : p ≠ q) (hp : 0 < s.refs p f) (hq : 0 < s.refs q f) :
    2 ≤ (s.file f).ref := by
  rw [h f]
  have hle := add_le_sum (g := (s.refs · f)) hne
  omega

lemma Move.gentle (hm : Move s p s') (h : Own s.file (s.pc p) (s.ofile p)) (f : Ix) :
    (s'.file f).ref = (s.file f).ref ∧ (s'.file f).type = (s.file f).type ∨ (s.file f).ref = 0 ∨
      0 < s.refs p f ∧ ((s.file f).ref = 1 ∨ (s'.file f).type = (s.file f).type) := by
  cases hm with
  | @dup r fd fd' g hp hg hfd | @forkDup np i g hp hg =>
    by_cases heq : f = g
    · exact .inr (.inr ⟨refs_pos_of_view (by rw [hp, heq]; exact hg), .inr (by grind)⟩)
    · left; grind
  | @openSet g omode fd hp =>
    by_cases heq : f = g
    · have hf : f ∈ (s.pc p).fresh := by grind
      exact .inr (.inr ⟨refs_pos_of_fresh h hf, .inl (h.fresh f hf).1⟩)
    · left; grind
  | @pipeInit f0 f1 pg rest hp =>
    by_cases hf : f ∈ (s.pc p).fresh
    · exact .inr (.inr ⟨refs_pos_of_fresh h hf, .inl (h.fresh f hf).1⟩)
    · left; grind
  | @drop g k hp | @clear g k hp | @clearPipe g k hp =>
    by_cases heq : f = g
    · exact .inr (.inr ⟨refs_pos_of_held (by grind), by grind⟩)
    · left; grind
  | _ => grind

lemma Own.frame (h : Own s.file (s.pc q) (s.ofile q)) (hc : Count s) (hne : q ≠ p)
    (hg : ∀ f, (s'.file f).ref = (s.file f).ref ∧ (s'.file f).type = (s.file f).type ∨
    (s.file f).ref = 0 ∨
      0 < s.refs p f ∧ ((s.file f).ref = 1 ∨ (s'.file f).type = (s.file f).type)) :
    Own s'.file (s.pc q) (s.ofile q) := by
  have hty : ∀ f, 0 < s.refs q f → (s'.file f).type = (s.file f).type ∧
      ((s.file f).ref = 1 → (s'.file f).ref = 1) := by
    intro f hq
    have hpos := hc.ref_pos hq
    have htwo := hc.two_le hne hq (f := f)
    rcases hg f with hg | hg | hg
    · exact ⟨hg.2, hg.1.trans⟩
    · omega
    · have := htwo hg.1
      exact ⟨hg.2.resolve_left (by omega), by omega⟩
  refine ⟨fun fd f hv => ?_, fun f hf => ?_, fun f hf => ?_, h.slot⟩
  · rw [(hty f (refs_pos_of_view hv)).1]
    exact h.typed fd f hv
  · obtain ⟨hty, href⟩ := hty f (refs_pos_of_fresh h hf)
    obtain ⟨h1, h2⟩ := h.fresh f hf
    exact ⟨href h1, hty.trans h2⟩
  · rw [(hty f (refs_pos_of_made hf)).1]
    exact h.made f hf

lemma plain_own {pc pc' : Pc} (h : Plain pc pc') :
    pc'.fresh = [] ∧ pc'.made = [] ∧ pc.setting = none ∧ pc'.setting = none := by
  cases h <;> exact ⟨rfl, rfl, rfl, rfl⟩

lemma allocs_own {pc pc' : Pc} (h : Allocs f pc pc') :
    pc'.fresh = pc.fresh ++ [f] ∧ pc'.made = [] ∧ pc.setting = none ∧ pc'.setting = none := by
  cases h <;> exact ⟨rfl, rfl, rfl, rfl⟩

lemma Own.of_view {file : Ix → File} {pc : Pc} {v : Fd → Option Ix} (hf : pc.fresh = [])
    (hm : pc.made = [])
    (hs : pc.setting = none) (h : ∀ fd f, pc.view v fd = some f → (file f).type ≠ .none) :
    Own file pc v := by
  refine ⟨fun fd f hv => .inl (h fd f hv), fun f hf' => ?_, fun f hm' => ?_, fun fd f hs' => ?_⟩
  · rw [hf] at hf'; cases hf'
  · rw [hm] at hm'; cases hm'
  · rw [hs] at hs'; cases hs'

lemma Own.view_typed {file : Ix → File} {pc : Pc} {v : Fd → Option Ix} (h : Own file pc v)
    (hs : pc.setting = none) {d : Fd} (hv : pc.view v d = some f) : (file f).type ≠ .none :=
  (h.typed d f hv).resolve_right (by rw [hs]; nofun)

lemma Own.resume {t : State} {k : Cont} (h : Own s.file (s.pc p) (s.ofile p))
    (hs : (s.pc p).setting = none)
    (hv : (s.pc p).view = k.view) (hof : t.ofile p = s.ofile p) (hc : Count (t.resume p k))
    (hty : ∀ f, (t.file f).type ≠ .none ∨ (t.file f).ref = 0 ∨ (s.file f).type = .none) :
    Own (t.resume p k).file ((t.resume p k).pc p) ((t.resume p k).ofile p) := by
  refine Own.of_view ?_ ?_ ?_ fun fd f hfd => ?_
  · cases k <;> simp [Cont.pc, Pc.fresh]
  · cases k <;> simp [Cont.pc, Pc.made]
  · cases k <;> simp [Cont.pc, Pc.setting]
  · have hpos := hc.ref_pos (refs_pos_of_view hfd)
    rw [resume_pc, if_pos rfl, view_pc, resume_ofile, if_pos rfl, hof] at hfd
    have htf := h.view_typed hs (by rw [hv]; exact hfd)
    rw [resume_file] at hpos ⊢
    have := hty f
    grind

lemma Own.slots {pc : Pc} (h : Own s.file (s.pc p) (s.ofile p)) (hp : s.pc p = pc) (hv : pc.view = id)
    (hs : pc.setting = none) (fd : Fd) (f : Ix) (hf : s.ofile p fd = some f) : (s.file f).type ≠ .none :=
  h.view_typed (d := fd) (by rw [hp, hs]) (by rw [hp, hv]; exact hf)

lemma Own.goto {t : State} {pc : Pc} (hf : pc.fresh = []) (hm : pc.made = []) (hs : pc.setting = none)
    (h : ∀ fd f, pc.view (t.ofile p) fd = some f → (t.file f).type ≠ .none) :
    Own (t.setPc p pc).file ((t.setPc p pc).pc p) ((t.setPc p pc).ofile p) := by
  rw [setPc_pc, if_pos rfl]
  exact Own.of_view hf hm hs h

lemma Typed.self (h : Typed s) (hk : Kids s) (hc : Count s') (hm : Move s p s') :
    Own s'.file (s'.pc p) (s'.ofile p) := by
  have ho := h.own p
  cases hm with
  | @goto pc hpl =>
    obtain ⟨hf, hm, hs, hs'⟩ := plain_own hpl
    obtain ⟨-, -, -, -, hv, hv'⟩ := plain_pc hpl
    refine Own.goto hf hm hs' fun fd f hfd => ho.view_typed (d := fd) hs ?_
    rw [hv'] at hfd
    rw [hv]
    exact hfd
  | @hold f pc hal h0 =>
    obtain ⟨hf, hm, hs, hs'⟩ := allocs_own hal
    obtain ⟨-, -, -, -, hv, hv'⟩ := allocs_pc hal
    have hdead := h.dead f h0
    rw [setPc_pc, if_pos rfl]
    refine ⟨fun fd g hfd => .inl ?_, fun g hg => ?_, by simp [hm], by simp [hs']⟩
    · have := ho.view_typed hs (by rw [hv]; rw [hv'] at hfd; exact hfd)
      grind
    · rw [hf] at hg
      have := ho.fresh g
      grind
  | @dup r fd fd' f hp hf hfd =>
    have hty := ho.slots hp rfl rfl
    refine Own.goto rfl rfl rfl fun d g hg => ?_
    simp only [Pc.view, id, share, setFile_ofile, setFd_ofile, if_pos] at hg
    grind
  | @close r fd f hp hf =>
    have hty := ho.slots hp rfl rfl
    refine Own.goto rfl rfl rfl fun d g hg => ?_
    simp only [Pc.view, Cont.view, setFd_ofile, if_pos] at hg
    grind
  | fork hp | forkSkip hp | forkDone hp | exitSkip hp | exitDone hp | reap hp =>
    exact Own.goto rfl rfl rfl (ho.slots hp rfl rfl)
  | @openFd f omode fd hp hfd =>
    have hty := ho.slots hp rfl rfl
    have hfr := ho.fresh f (by rw [hp]; exact List.mem_singleton_self f)
    rw [setPc_pc, if_pos rfl]
    refine ⟨fun d g hg => ?_, fun g hg => ?_, by simp [Pc.made], fun d g hg => ?_⟩
    · simp only [Pc.view, id, setPc_ofile, setFd_ofile, if_pos] at hg
      grind
    · obtain rfl := List.mem_singleton.mp hg
      exact hfr
    · cases hg
      simp
  | @openSet f omode fd hp =>
    refine Own.goto rfl rfl rfl fun d g hg => ?_
    have hty := ho.typed d g (by rw [hp]; exact hg)
    grind
  | @pipeInit f0 f1 pg rest hp hfree =>
    rw [setPc_pc, if_pos rfl]
    refine ⟨fun d g hg => .inl ?_, by simp [Pc.fresh], fun g hg => by grind, by simp [Pc.setting]⟩
    have hty := ho.slots hp rfl rfl d g hg
    grind
  | @pipeFds f0 f1 fd0 fd1 hp h0 h1 hne =>
    have hty := ho.slots hp rfl rfl
    have hmade := ho.made
    rw [hp] at hmade
    refine Own.goto rfl rfl rfl fun d g hg => ?_
    simp only [Pc.view, id, setFd_ofile, if_pos] at hg
    have := hmade f0
    have := hmade f1
    grind
  | @forkDup np i f hp hf =>
    have hne := (hk.fork_ne hp).symm
    refine Own.goto rfl rfl rfl fun d g hg => ?_
    simp only [Pc.view, id, share, setFile_ofile, setFd_ofile, if_neg hne] at hg
    have hty := ho.slots hp rfl rfl d g hg
    grind
  | @exitClose fd f hp hf =>
    have hty := ho.slots hp rfl rfl
    refine Own.goto rfl rfl rfl fun d g hg => ?_
    simp only [Pc.view, Cont.view] at hg
    grind
  | @clearPipe f k hp href hpipe =>
    refine Own.goto rfl rfl rfl fun d g hg => ?_
    have hty := ho.view_typed (by rw [hp]; rfl) (by rw [hp]; exact hg)
    have hpos := hc.ref_pos (p := p) (f := g)
      (refs_pos_of_view (d := d) (by rw [setPc_pc, if_pos rfl]; exact hg))
    grind
  | shutLast hp =>
    exact Own.goto rfl rfl rfl fun d g hg => ho.view_typed (by rw [hp]; rfl) (by rw [hp]; exact hg)
  | drop hp | clear hp | shut hp | kfree hp =>
    exact ho.resume (by rw [hp]; rfl) (by rw [hp]; rfl) rfl hc (by grind)

lemma Move.others (hm : Move s p s') (hne : q ≠ p) :
    s'.pc q = s.pc q ∧ s'.ofile q = s.ofile q ∨ s.pc q = .unused ∧ s'.pc q = .embryo ∧
    s'.ofile q = s.ofile q ∨
      (s.pc p).kid = some q ∧ s'.pc q = .user 0 ∧ s'.ofile q = s.ofile q ∨
      (s.pc p).kid = some q ∧ s'.pc q = s.pc q ∧ (∀ f, (s'.file f).type = (s.file f).type) ∧
        ∃ i f, s.ofile p i = some f ∧ s'.ofile q = assign (s.ofile q) i (some f) := by
  cases hm with
  | @fork r np hp hnp =>
    by_cases hq : q = np
    · exact .inr (.inl ⟨hq ▸ hnp, by grind, rfl⟩)
    · left; simp [hne, hq]
  | @forkDone np i hp hi =>
    by_cases hq : q = np
    · exact .inr (.inr (.inl ⟨by rw [hp, hq]; rfl, by grind, rfl⟩))
    · left; simp [hne, hq]
  | @forkDup np i f hp hf =>
    by_cases hq : q = np
    · exact .inr (.inr (.inr ⟨by rw [hp, hq]; rfl, by simp [hne, share], by grind, i, f,
        hf, by simp [hq, share]⟩))
    · left; simp [hne, hq, share]
  | _ => left; grind

lemma Typed.step (h : Typed s) (hk : Kids s) (hc : Count s) (hm : Move s p s') : Typed s' := by
  have hc' := hc.step hk hm
  have hg := hm.gentle (h.own p)
  refine ⟨fun f hf => ?_, fun q => ?_⟩
  · have hdead := h.dead f
    have hfr := (h.own p).fresh f
    cases hm <;> grind
  · by_cases hq : q = p
    · rw [hq]
      exact h.self hk hc' hm
    · have hfr := (h.own q).frame hc hq hg
      rcases hm.others hq with ⟨hpc, hof⟩ | ⟨hpc, hpc', hof⟩ | ⟨hkid, hpc', hof⟩
        | ⟨hkid, hpc', hty, i, f, hf, hof⟩
      · rwa [hpc, hof]
      · rw [hpc', hof]
        rw [hpc] at hfr
        exact Own.of_view rfl rfl rfl fun fd f => hfr.view_typed rfl
      · rw [hpc', hof]
        rw [hk.embryo p q hkid] at hfr
        exact Own.of_view rfl rfl rfl fun fd f => hfr.view_typed rfl
      · have hpf : (s.file f).type ≠ .none := by
          cases hp : s.pc p with
          | fork np i' => exact (h.own p).slots hp rfl rfl i f hf
          | _ => rw [hp] at hkid; cases hkid
        rw [hpc', hof, hk.embryo p q hkid]
        rw [hk.embryo p q hkid] at hfr
        refine Own.of_view rfl rfl rfl fun fd g hg => ?_
        have hty' := hfr.view_typed (d := fd) (f := g) rfl
        simp only [Pc.view, id] at hg hty'
        grind

end State

end Xv6.Files
