import Xv6.File.Types

namespace Xv6.Files

open Lib

def File.pipeEnd (x : File) : Option (ℕ × Bool) :=
  if x.type = .pipe then some (x.pipe, x.writable) else none

namespace Pc

def shuts : Pc → Option (ℕ × Bool)
  | closePipe pg w _ => some (pg, w)
  | _ => none

def frees : Pc → Option ℕ
  | freePipe pg _ => some pg
  | _ => none

end Pc

namespace State

variable {s s' : State} {p q : Proc} {f g : Ix} {pg : ℕ} {holder : ℕ → Bool → Option (Ix ⊕ Proc)}
  {freer : ℕ → Option Proc}

attribute [local grind =] Cont.pc Pc.shuts Pc.frees File.pipeEnd hold share drop clear assign openFile

@[simp, grind =] lemma resume_ends (s : State) (p : Proc) (k : Cont) (pg : ℕ) (w : Bool) :
    (s.resume p k).ends pg w = s.ends pg w := by
  cases k <;> rfl

@[simp, grind =] lemma resume_free (s : State) (p : Proc) (k : Cont) : (s.resume p k).free = s.free := by
  cases k <;> rfl

@[simp, grind =] lemma resume_taken (s : State) (p : Proc) (k : Cont) (pg : ℕ) :
    (s.resume p k).taken pg = s.taken pg := by
  cases k <;> rfl

@[simp, grind =] lemma resume_allocs (s : State) (p : Proc) (k : Cont) (pg : ℕ) :
    (s.resume p k).allocs pg = s.allocs pg := by
  cases k <;> rfl

@[simp, grind =] lemma resume_frees (s : State) (p : Proc) (k : Cont) (pg : ℕ) :
    (s.resume p k).frees pg = s.frees pg := by
  cases k <;> rfl

@[simp, grind =] lemma shuts_pc (k : Cont) : k.pc.shuts = none := by
  cases k <;> rfl

@[simp, grind =] lemma frees_pc (k : Cont) : k.pc.frees = none := by
  cases k <;> rfl

structure Pipes (s : State) (holder : ℕ → Bool → Option (Ix ⊕ Proc)) (freer : ℕ → Option Proc) :
    Prop where
  file : ∀ f pg w, (s.file f).pipeEnd = some (pg, w) → holder pg w = some (.inl f)
  file_of : ∀ f pg w, holder pg w = some (.inl f) → (s.file f).pipeEnd = some (pg, w)
  proc : ∀ p pg w, (s.pc p).shuts = some (pg, w) → holder pg w = some (.inr p)
  proc_of : ∀ p pg w, holder pg w = some (.inr p) → (s.pc p).shuts = some (pg, w)
  freeing : ∀ p pg, (s.pc p).frees = some pg → freer pg = some p
  freeing_of : ∀ p pg, freer pg = some p → (s.pc p).frees = some pg
  ends : ∀ pg w, s.ends pg w = (holder pg w).isSome
  last : ∀ pg w, freer pg ≠ none → holder pg w = none
  gone : ∀ pg, holder pg false = none → holder pg true = none → freer pg = none → s.allocs pg = s.frees pg
  live : ∀ pg w, holder pg w ≠ none ∨ freer pg ≠ none → s.allocs pg = s.frees pg + 1

structure Pages (s : State) : Prop where
  nodup : s.free.Nodup
  free : ∀ pg ∈ s.free, s.allocs pg = s.frees pg ∧ s.taken pg = false
  taken : ∀ pg, s.taken pg = true → s.allocs pg = s.frees pg

structure Kept (s s' : State) : Prop where
  file : ∀ f, (s'.file f).pipeEnd = (s.file f).pipeEnd
  shuts : ∀ q, (s'.pc q).shuts = (s.pc q).shuts
  frees : ∀ q, (s'.pc q).frees = (s.pc q).frees
  ends : ∀ pg w, s'.ends pg w = s.ends pg w
  pages : ∀ pg, s'.allocs pg = s.allocs pg ∧ s'.frees pg = s.frees pg

lemma Pipes.kept (h : Pipes s holder freer) (hk : Kept s s') : Pipes s' holder freer where
  file f := hk.file f ▸ h.file f
  file_of f := hk.file f ▸ h.file_of f
  proc p := hk.shuts p ▸ h.proc p
  proc_of p := hk.shuts p ▸ h.proc_of p
  freeing p := hk.frees p ▸ h.freeing p
  freeing_of p := hk.frees p ▸ h.freeing_of p
  ends pg w := hk.ends pg w ▸ h.ends pg w
  last := h.last
  gone pg := (hk.pages pg).1 ▸ (hk.pages pg).2 ▸ h.gone pg
  live pg := (hk.pages pg).1 ▸ (hk.pages pg).2 ▸ h.live pg

lemma plain_quiet {pc pc' : Pc} (h : Plain pc pc') :
    pc.shuts = none ∧ pc'.shuts = none ∧ pc.frees = none ∧ pc'.frees = none := by
  cases h <;> exact ⟨rfl, rfl, rfl, rfl⟩

lemma allocs_quiet {pc pc' : Pc} (h : Allocs f pc pc') :
    pc.shuts = none ∧ pc'.shuts = none ∧ pc.frees = none ∧ pc'.frees = none := by
  cases h <;> exact ⟨rfl, rfl, rfl, rfl⟩

lemma Count.pipe_ne {f0 f1 : Ix} (hc : Count s) (hp : s.pc p = .pipeKalloc f0 f1)
    (h : (s.file f0).ref = 1) : f0 ≠ f1 := by
  rintro rfl
  have hle := hc.refs_le p f0
  simp only [refs, hp, Pc.held, List.count_cons_self] at hle
  omega

section owners

variable {holder' : ℕ → Bool → Option (Ix ⊕ Proc)} {freer' : ℕ → Option Proc} {w : Bool} {k : Cont}

lemma Pipes.pipeInit {f0 f1 : Ix} {rest : List ℕ} (h : Pipes s holder freer) (hg : Pages s) (ht : Typed s)
    (hc : Count s) (hp : s.pc p = .pipeKalloc f0 f1) (hfree : s.free = pg :: rest)
    (hh : ∀ pg' w, holder' pg' w = if pg' = pg then some (.inl (if w then f1 else f0)) else holder
    pg' w) : Pipes ((s.pipeInit f0 f1 pg rest).setPc p (.pipeFd f0 f1)) holder' freer := by
  have ho := (ht.own p).fresh
  rw [hp] at ho
  have ho0 := ho f0 (by simp [Pc.fresh])
  have ho1 := ho f1 (by simp [Pc.fresh])
  have hne := hc.pipe_ne hp ho0.1
  have hpg := hg.free pg (by simp [hfree])
  cases h
  have hno : ∀ w, holder pg w = none := by grind -linarith
  have hfr : freer pg = none := by grind -linarith
  constructor <;> grind -linarith

lemma Pipes.clear (h : Pipes s holder freer) (hp : s.pc p = .close f k) (hty : (s.file f).type = .pipe)
    (hh : ∀ pg w, holder' pg w = if pg = (s.file f).pipe ∧ w = (s.file f).writable then some
    (.inr p) else holder pg w) :
    Pipes ((s.clear f).setPc p (.closePipe (s.file f).pipe (s.file f).writable k)) holder' freer := by
  cases h
  constructor <;> grind -linarith

lemma Pipes.shut (h : Pipes s holder freer) (hp : s.pc p = .closePipe pg w k) (hw : s.ends pg (!w) = true)
    (hh : ∀ pg' w', holder' pg' w' = if pg' = pg ∧ w' = w then none else holder pg' w') :
    Pipes ((s.shut pg w).resume p k) holder' freer := by
  obtain ⟨h1, h2, h3, h4, h5, h6, h7, h8, h9, h10⟩ := h
  have hme : holder pg w = some (.inr p) := h3 p pg w (by rw [hp]; rfl)
  have hother := h7 pg !w
  have hfr : freer pg = none := by grind -linarith
  cases w <;> constructor <;> grind -linarith

lemma Pipes.shutLast (h : Pipes s holder freer) (hp : s.pc p = .closePipe pg w k)
    (hw : s.ends pg (!w) = false)
    (hh : ∀ pg' w', holder' pg' w' = if pg' = pg ∧ w' = w then none else holder pg' w')
    (hf : ∀ pg', freer' pg' = if pg' = pg then some p else freer pg') :
    Pipes ((s.shut pg w).setPc p (.freePipe pg k)) holder' freer' := by
  obtain ⟨h1, h2, h3, h4, h5, h6, h7, h8, h9, h10⟩ := h
  have hme : holder pg w = some (.inr p) := h3 p pg w (by rw [hp]; rfl)
  have hother : holder pg (!w) = none := by
    rw [h7] at hw
    exact Option.isSome_eq_false_iff.mp hw |> Option.isNone_iff_eq_none.mp
  have hfr : freer pg = none := by grind -linarith
  cases w <;> simp only [Bool.not_false, Bool.not_true] at hother <;> constructor <;> grind -linarith

lemma Pipes.kfree (h : Pipes s holder freer) (hp : s.pc p = .freePipe pg k)
    (hf : ∀ pg', freer' pg' = if pg' = pg then none else freer pg') :
    Pipes ((s.kfree pg).resume p k) holder freer' := by
  obtain ⟨h1, h2, h3, h4, h5, h6, h7, h8, h9, h10⟩ := h
  have hme : freer pg = some p := h5 p pg (by rw [hp]; rfl)
  have hlive := h10 pg false (.inr (by rw [hme]; nofun))
  have hno := fun w => h8 pg w (by rw [hme]; nofun)
  constructor <;> grind -linarith

end owners

lemma Pipes.step (h : Pipes s holder freer) (hg : Pages s) (ht : Typed s) (hc : Count s) (hk : Kids s)
    (hm : Move s p s') : ∃ holder' freer', Pipes s' holder' freer' := by
  cases hm with
  | goto hpl =>
    have hpc := plain_quiet hpl
    exact ⟨holder, freer, h.kept (by constructor <;> grind -linarith)⟩
  | hold hal h0 =>
    have hpc := allocs_quiet hal
    have hdead := ht.dead _ h0
    exact ⟨holder, freer, h.kept (by constructor <;> grind -linarith)⟩
  | forkDone hp =>
    have hnp := hk.embryo p _ (by rw [hp]; rfl)
    exact ⟨holder, freer, h.kept (by constructor <;> grind -linarith)⟩
  | @openSet f omode fd hp =>
    have hnew := (ht.own p).fresh f (by rw [hp]; simp [Pc.fresh])
    exact ⟨holder, freer, h.kept (by constructor <;> grind -linarith)⟩
  | pipeInit hp hfree => exact ⟨_, _, h.pipeInit hg ht hc hp hfree fun _ _ => rfl⟩
  | clearPipe hp href hty => exact ⟨_, _, h.clear hp hty fun _ _ => rfl⟩
  | shut hp hw => exact ⟨_, _, h.shut hp hw fun _ _ => rfl⟩
  | shutLast hp hw => exact ⟨_, _, h.shutLast hp hw (fun _ _ => rfl) fun _ => rfl⟩
  | kfree hp => exact ⟨_, _, h.kfree hp fun _ => rfl⟩
  | _ => exact ⟨holder, freer, h.kept (by constructor <;> grind -linarith)⟩

lemma Pages.step (h : Pages s) (hh : Pipes s holder freer) (hm : Move s p s') : Pages s' := by
  obtain ⟨h1, h2, h3⟩ := h
  cases hm with
  | @pipeInit f0 f1 pg rest hp hfree =>
    rw [hfree] at h1 h2
    constructor <;> grind -linarith
  | @kfree pg k hp =>
    have hme : freer pg = some p := hh.freeing p pg (by rw [hp]; rfl)
    have hlive := hh.live pg false (.inr (by rw [hme]; nofun))
    constructor <;> grind -linarith
  | _ => constructor <;> grind -linarith

structure Inv (s : State) : Prop where
  kids : Kids s
  count : Count s
  typed : Typed s
  pages : Pages s
  pipes : ∃ holder freer, Pipes s holder freer

lemma Inv.move (h : Inv s) (hm : Move s p s') : Inv s' := by
  obtain ⟨hk, hc, ht, hg, holder, freer, hh⟩ := h
  exact ⟨hk.step hm, hc.step hk hm, ht.step hk hc hm, hg.step hh hm, hh.step hg ht hc hk hm⟩

lemma Inv.pages_only (h : Inv s) (hfile : s'.file = s.file) (hpc : s'.pc = s.pc)
    (hof : s'.ofile = s.ofile)
    (hends : s'.ends = s.ends) (ha : s'.allocs = s.allocs) (hf : s'.frees = s.frees)
    (hg : Pages s') : Inv s' := by
  obtain ⟨⟨h1, h2, h3, h4⟩, hc, ⟨h5, h6⟩, -, holder, freer, hh⟩ := h
  refine ⟨⟨?_, ?_, ?_, ?_⟩, fun f => ?_, ⟨?_, ?_⟩, hg, holder, freer, ?_⟩
  · rwa [hpc, hof]
  · rwa [hpc]
  · rwa [hpc]
  · rwa [hpc, hof]
  · rw [hfile, hc f]
    exact Finset.sum_congr rfl fun q _ => (refs_congr (by rw [hpc]) (by rw [hof])).symm
  · rwa [hfile]
  · rwa [hfile, hpc, hof]
  · exact hh.kept ⟨by simp [hfile], by simp [hpc], by simp [hpc], by simp [hends], by simp [ha, hf]⟩

lemma Inv.step {e : Event} (h : Inv s) (he : Step s e s') : Inv s' := by
  cases e with
  | call p c =>
    simp only [Step, State.step] at he
    split at he
    case h_1 r hp => exact h.move (move_of_call hp he)
    case h_2 => cases he
  | next p => exact h.move (move_of_next he)
  | reap p =>
    obtain ⟨hp, heq⟩ := Option.ite_none_right_eq_some.mp he
    cases heq
    exact h.move (.reap hp)
  | grab =>
    simp only [Step, State.step] at he
    split at he <;> cases he
    case h_1 pg rest hfree =>
      refine h.pages_only rfl rfl rfl rfl rfl rfl ?_
      obtain ⟨h1, h2, h3⟩ := h.pages
      rw [hfree] at h1 h2
      constructor <;> grind -linarith
  | give pg =>
    obtain ⟨hp, heq⟩ := Option.ite_none_right_eq_some.mp he
    cases heq
    refine h.pages_only rfl rfl rfl rfl rfl rfl ?_
    obtain ⟨h1, h2, h3⟩ := h.pages
    constructor <;> grind -linarith

lemma init_pc (free : List ℕ) (p : Proc) : (init free).pc p = .user 0 ∨ (init free).pc p = .unused := by
  unfold init
  dsimp only
  split_ifs
  · exact .inl rfl
  · exact .inr rfl

lemma inv_init {free : List ℕ} (h : free.Nodup) : Inv (init free) where
  kids := by
    have hpc := init_pc free
    constructor <;> grind -linarith [Pc.kid, init]
  count f := by
    refine (Finset.sum_eq_zero fun p _ => ?_).symm
    rw [refs, uses]
    rcases init_pc free p with hp | hp <;> rw [hp] <;> simp [Pc.view, Pc.held, init]
  typed := ⟨fun _ _ => rfl, fun p => by
    rcases init_pc free p with hp | hp <;> rw [hp] <;> exact Own.of_view rfl rfl rfl
      (by simp [Pc.view, init])⟩
  pages := ⟨h, fun _ _ => ⟨rfl, rfl⟩, by simp [init]⟩
  pipes := ⟨fun _ _ => none, fun _ => none, by
    have hpc := init_pc free
    constructor <;> grind -linarith [init]⟩

lemma inv_of_run {free : List ℕ} {es : List Event} (h : free.Nodup)
    (hr : Run Step (init free) es s) : Inv s :=
  hr.state_invariant (inv_init h) fun _ _ _ => Inv.step

end State

end Xv6.Files
