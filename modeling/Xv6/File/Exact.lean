import Xv6.File.Pipes

namespace Xv6.Files

open Lib

def Pc.idle : Pc → Bool
  | unused | embryo | zombie | user _ => true
  | _ => false

namespace State

variable {s s' t t' : State} {p q : Proc} {f g f0 f1 : Ix} {pg : ℕ}

def Quiet (s : State) : Prop := ∀ p, (s.pc p).idle = true

def Shown (s : State) (pg : ℕ) : Prop :=
  ∃ p fd f, s.ofile p fd = some f ∧ (s.file f).type = .pipe ∧ (s.file f).pipe = pg

structure Exact (s : State) : Prop where
  ref : ∀ f, (s.file f).ref = Finset.card {x : Proc × Fd | s.ofile x.1 x.2 = some f}
  used : ∀ p fd f, s.ofile p fd = some f →
    0 < (s.file f).ref ∧ ((s.file f).type = .pipe ∨ (s.file f).type = .inode)
  open_pipe : ∀ pg, s.Shown pg → s.allocs pg = s.frees pg + 1
  closed_pipe : ∀ pg, ¬ s.Shown pg → s.allocs pg = s.frees pg

structure Restored (s s' : State) : Prop where
  ofile : s'.ofile = s.ofile
  ref : ∀ f, (s'.file f).ref = (s.file f).ref
  type : ∀ f, (s'.file f).type = (s.file f).type
  used : ∀ f, 0 < (s.file f).ref → s'.file f = s.file f
  free : s'.free = s.free

lemma idle_pc {pc : Pc} (h : pc.idle = true) :
    pc.view = id ∧ pc.held = [] ∧ pc.setting = none ∧ pc.shuts = none ∧ pc.frees = none := by
  cases pc with
  | unused | embryo | zombie | user => exact ⟨rfl, rfl, rfl, rfl, rfl⟩
  | _ => cases h

lemma idle_refs (h : (s.pc p).idle = true) (f : Ix) : s.refs p f = uses (s.ofile p) f := by
  obtain ⟨hv, hh, -⟩ := idle_pc h
  rw [refs, hv, hh, List.count_nil, Nat.add_zero, id]

lemma Inv.ref_eq (h : Inv s) (hq : s.Quiet) (f : Ix) : (s.file f).ref = ∑ p, uses (s.ofile p) f := by
  rw [h.count f]
  exact Finset.sum_congr rfl fun p _ => idle_refs (hq p) f

lemma Inv.slot_used (h : Inv s) (hq : s.Quiet) {fd : Fd} (hf : s.ofile p fd = some f) :
    0 < (s.file f).ref ∧ (s.file f).type ≠ .none := by
  obtain ⟨hv, -, hset, -⟩ := idle_pc (hq p)
  have hview : (s.pc p).view (s.ofile p) fd = some f := by
    rw [hv]
    exact hf
  exact ⟨h.count.ref_pos (refs_pos_of_view hview), (h.typed.own p).view_typed hset hview⟩

lemma Inv.shown (h : Inv s) (hq : s.Quiet) (hf : (s.file f).type = .pipe) : s.Shown (s.file f).pipe := by
  have hpos : ∑ p, uses (s.ofile p) f ≠ 0 := by
    rw [← h.ref_eq hq]
    intro h0
    rw [h.typed.dead f h0] at hf
    cases hf
  obtain ⟨p, -, hp⟩ := Finset.exists_ne_zero_of_sum_ne_zero hpos
  obtain ⟨fd, hfd⟩ := exists_of_uses_pos (Nat.pos_of_ne_zero hp)
  exact ⟨p, fd, f, hfd, hf, rfl⟩

lemma Inv.exact (h : Inv s) (hq : s.Quiet) : s.Exact := by
  obtain ⟨holder, freer, hh⟩ := h.pipes
  refine ⟨fun f => (h.ref_eq hq f).trans (sum_uses s.ofile f), fun p fd f hf => ?_,
    fun pg hpg => ?_, fun pg hpg => ?_⟩
  · obtain ⟨hpos, hty⟩ := h.slot_used hq hf
    refine ⟨hpos, ?_⟩
    cases hk : (s.file f).type <;> simp_all
  · obtain ⟨p, fd, f, -, hty, rfl⟩ := hpg
    exact hh.live _ _ (.inl (by rw [hh.file f _ _ (if_pos hty)]; nofun))
  · have hno : ∀ w, holder pg w = none := by
      intro w
      rcases hw : holder pg w with _ | f | p
      · rfl
      · obtain ⟨hty, heq⟩ := Option.ite_none_right_eq_some.mp (hh.file_of f pg w hw)
        cases heq
        exact absurd (h.shown hq hty) hpg
      · have hs := hh.proc_of p pg w hw
        rw [(idle_pc (hq p)).2.2.2.1] at hs
        cases hs
    have hfr : freer pg = none := by
      rcases hw : freer pg with _ | p
      · rfl
      · have hs := hh.freeing_of p pg hw
        rw [(idle_pc (hq p)).2.2.2.2] at hs
        cases hs
    exact hh.gone pg (hno false) (hno true) hfr

lemma Inv.live (h : Inv s) (pg : ℕ) : s.frees pg ≤ s.allocs pg ∧ s.allocs pg ≤ s.frees pg + 1 := by
  obtain ⟨holder, freer, hh⟩ := h.pipes
  by_cases hall : ∀ w, holder pg w = none
  · rcases hf : freer pg with _ | p
    · have := hh.gone pg (hall false) (hall true) hf
      omega
    · have := hh.live pg false (.inr (by rw [hf]; nofun))
      omega
  · push Not at hall
    obtain ⟨w, hw⟩ := hall
    have := hh.live pg w (.inl hw)
    omega

lemma Move.frees (hm : Move s p s') : s'.frees pg = s.frees pg ∨
    (s.pc p).frees = some pg ∧ s'.frees pg = s.frees pg + 1 := by
  cases hm with
  | @kfree pg' k hp =>
    rw [hp, resume_frees, kfree_frees]
    split_ifs with heq
    · exact .inr ⟨by rw [heq]; rfl, by rw [heq]⟩
    · exact .inl rfl
  | drop | clear | shut => left; rw [resume_frees]; rfl
  | _ => exact .inl rfl

lemma Inv.freed {e : Event} (h : Inv s) (he : Step s e s') (hne : s'.frees pg ≠ s.frees pg) :
    s'.frees pg = s.frees pg + 1 ∧ ∀ f, (s.file f).type = .pipe → (s.file f).pipe ≠ pg := by
  have hmove : ∀ p, Move s p s' → s'.frees pg = s.frees pg + 1 ∧
      ∀ f, (s.file f).type = .pipe → (s.file f).pipe ≠ pg := by
    intro p hm
    obtain ⟨hp, hadd⟩ := hm.frees.resolve_left hne
    refine ⟨hadd, fun f hf hpg => ?_⟩
    obtain ⟨holder, freer, hh⟩ := h.pipes
    have hlast := hh.last pg (s.file f).writable (by rw [hh.freeing p pg hp]; nofun)
    rw [← hpg, hh.file f _ _ (if_pos hf)] at hlast
    cases hlast
  cases e with
  | call p c =>
    simp only [Step, State.step] at he
    split at he
    case h_1 r hp => exact hmove p (move_of_call hp he)
    case h_2 => cases he
  | next p => exact hmove p (move_of_next he)
  | reap p =>
    obtain ⟨hp, heq⟩ := Option.ite_none_right_eq_some.mp he
    exact hmove p (Option.some.inj heq ▸ .reap hp)
  | grab =>
    simp only [Step, State.step] at he
    split at he <;> cases he
    exact absurd rfl hne
  | give pg' =>
    obtain ⟨hp, heq⟩ := Option.ite_none_right_eq_some.mp he
    cases heq
    exact absurd rfl hne

lemma Inv.progress (h : Inv s) (hp : (s.pc p).idle = false) : ∃ s', Step s (.next p) s' := by
  change ∃ s', s.next p = some s'
  unfold State.next
  cases hpc : s.pc p with
  | unused | embryo | zombie | user => rw [hpc] at hp; cases hp
  | openAlloc | openFd | pipe0 | pipe1 | pipeKalloc => dsimp only; split <;> exact ⟨_, rfl⟩
  | fork np i =>
    dsimp only
    split_ifs with hi
    · split
      case h_1 f hf =>
        have hpos := h.count.ref_pos (p := p) (f := f)
          (refs_pos_of_view (d := ⟨i, hi⟩) (by rw [hpc]; exact hf))
        rw [filedup, if_neg (by omega)]
        exact ⟨_, rfl⟩
      case h_2 => exact ⟨_, rfl⟩
    · exact ⟨_, rfl⟩
  | exit fd =>
    dsimp only
    split_ifs with hi
    · split <;> exact ⟨_, rfl⟩
    · exact ⟨_, rfl⟩
  | close f k =>
    have hpos := h.count.ref_pos (p := p) (f := f) (refs_pos_of_held (by rw [hpc]; simp [Pc.held]))
    dsimp only [fileclose]
    rw [if_neg (by omega)]
    split_ifs <;> exact ⟨_, rfl⟩
  | _ => exact ⟨_, rfl⟩

structure Lent (s t : State) (l : List Ix) : Prop where
  ofile : t.ofile = s.ofile
  held : ∀ f ∈ l, (s.file f).ref = 0 ∧ (t.file f).ref = 1
  ref : ∀ f, f ∉ l → (t.file f).ref = (s.file f).ref
  type : ∀ f, f ∉ l → (t.file f).type = (s.file f).type
  used : ∀ f, 0 < (s.file f).ref → t.file f = s.file f

structure Made (s t : State) (f0 f1 : Ix) : Prop where
  type0 : (t.file f0).type = .pipe
  writable0 : (t.file f0).writable = false
  type1 : (t.file f1).type = .pipe
  writable1 : (t.file f1).writable = true
  pipe : (t.file f0).pipe = (t.file f1).pipe
  ends : t.ends (t.file f0).pipe true = true
  free : s.free = (t.file f0).pipe :: t.free

inductive Undo (s t : State) : Pc → Prop
  | pipe0 : Lent s t [] → t.free = s.free → Undo s t .pipe0
  | pipe1 {f0 : Ix} : Lent s t [f0] → (t.file f0).type = .none → t.free = s.free → Undo s t (.pipe1 f0)
  | kalloc {f0 f1 : Ix} : Lent s t [f0, f1] → f0 ≠ f1 → (t.file f0).type = .none →
      (t.file f1).type = .none → t.free = s.free → Undo s t (.pipeKalloc f0 f1)
  | fds {f0 f1 : Ix} : Lent s t [f0, f1] → f0 ≠ f1 → Made s t f0 f1 → Undo s t (.pipeFd f0 f1)
  | closeNew {f0 f1 : Ix} : Lent s t [f0, f1] → f0 ≠ f1 → (t.file f0).type = .none →
      (t.file f1).type = .none → t.free = s.free → Undo s t (.close f0 (.close f1))
  | closeEnds {f0 f1 : Ix} : Lent s t [f0, f1] → f0 ≠ f1 → Made s t f0 f1 →
      Undo s t (.close f0 (.close f1))
  | closeLast {f : Ix} : Lent s t [f] → (t.file f).type = .none → t.free = s.free →
      Undo s t (.close f (.ret (-1)))
  | closeRead {f1 : Ix} {pg : ℕ} : Lent s t [f1] → (t.file f1).type = .pipe →
      (t.file f1).writable = true → (t.file f1).pipe = pg → t.ends pg true = true →
      s.free = pg :: t.free → Undo s t (.closePipe pg false (.close f1))
  | closeEnd {f1 : Ix} {pg : ℕ} : Lent s t [f1] → (t.file f1).type = .pipe → (t.file f1).writable = true →
      (t.file f1).pipe = pg → t.ends pg false = false → s.free = pg :: t.free →
      Undo s t (.close f1 (.ret (-1)))
  | closeWrite {pg : ℕ} : Lent s t [] → t.ends pg false = false → s.free = pg :: t.free →
      Undo s t (.closePipe pg true (.ret (-1)))
  | freePage {pg : ℕ} : Lent s t [] → s.free = pg :: t.free → Undo s t (.freePipe pg (.ret (-1)))
  | failed : Lent s t [] → t.free = s.free → Undo s t (.user (-1))
  | done : Undo s t (.user 0)

attribute [local grind =] hold share drop clear assign

lemma Lent.setPc {l : List Ix} {pc : Pc} (h : Lent s t l) : Lent s (t.setPc p pc) l :=
  { h with }

lemma Made.setPc {pc : Pc} (h : Made s t f0 f1) : Made s (t.setPc p pc) f0 f1 :=
  { h with }

lemma Undo.goto {pc : Pc} (h : Undo s t pc) : Undo s (t.setPc p pc) ((t.setPc p pc).pc p) := by
  rw [setPc_pc, if_pos rfl]
  cases h with
  | pipe0 hl hfree => exact .pipe0 hl.setPc hfree
  | pipe1 hl h0 hfree => exact .pipe1 hl.setPc h0 hfree
  | kalloc hl hne h0 h1 hfree => exact .kalloc hl.setPc hne h0 h1 hfree
  | fds hl hne hm => exact .fds hl.setPc hne hm.setPc
  | closeNew hl hne h0 h1 hfree => exact .closeNew hl.setPc hne h0 h1 hfree
  | closeEnds hl hne hm => exact .closeEnds hl.setPc hne hm.setPc
  | closeLast hl h0 hfree => exact .closeLast hl.setPc h0 hfree
  | closeRead hl hty hw hpg he hfree => exact .closeRead hl.setPc hty hw hpg he hfree
  | closeEnd hl hty hw hpg he hfree => exact .closeEnd hl.setPc hty hw hpg he hfree
  | closeWrite hl he hfree => exact .closeWrite hl.setPc he hfree
  | freePage hl hfree => exact .freePage hl.setPc hfree
  | failed hl hfree => exact .failed hl.setPc hfree
  | done => exact .done

section alone

variable (hs : ∀ f, (s.file f).ref = 0 → (s.file f).type = .none)

include hs

lemma Lent.hold {l : List Ix} (h : Lent s t l) (h0 : (t.file f).ref = 0) :
    Lent s (t.hold f) (l ++ [f]) ∧ f ∉ l ∧ ((t.hold f).file f).type = .none := by
  obtain ⟨h1, h2, h3, h4, h5⟩ := h
  have hf : f ∉ l := by grind
  refine ⟨⟨h1, ?_, ?_, ?_, ?_⟩, hf, ?_⟩ <;> grind

lemma Lent.clear {l : List Ix} (h : Lent s t (f :: l)) (hf : f ∉ l) : Lent s (t.clear f) l := by
  obtain ⟨h1, h2, h3, h4, h5⟩ := h
  refine ⟨h1, ?_, ?_, ?_, ?_⟩ <;> grind

omit hs in
lemma Lent.pipeInit {rest : List ℕ} (h : Lent s t [f0, f1]) (hne : f0 ≠ f1) (hfree : t.free = s.free)
    (hpg : t.free = pg :: rest) : Lent s (t.pipeInit f0 f1 pg rest) [f0, f1] ∧
      Made s (t.pipeInit f0 f1 pg rest) f0 f1 := by
  obtain ⟨h1, h2, h3, h4, h5⟩ := h
  refine ⟨⟨h1, ?_, ?_, ?_, ?_⟩, ?_, ?_, ?_, ?_, ?_, ?_, ?_⟩ <;> grind

omit hs in
lemma Lent.fileclose {l : List Ix} {k : Cont} (h : Lent s t (f :: l)) : t.fileclose p f k =
    some (if (t.file f).type = .pipe then
      (t.clear f).setPc p (.closePipe (t.file f).pipe (t.file f).writable k)
        else (t.clear f).resume p k) := by
  have href := (h.held f (List.mem_cons_self)).2
  rw [State.fileclose, if_neg (by omega), if_neg (by omega)]
  split_ifs <;> rfl

lemma Undo.next {pc : Pc} (h : Undo s t pc) (hp : t.pc p = pc) (hn : t.next p = some t') :
    Undo s t' (t'.pc p) := by
  unfold State.next at hn
  rw [hp] at hn
  cases h with
  | pipe0 hl hfree =>
    dsimp only at hn
    split at hn <;> cases hn
    case h_1 f hf =>
      obtain ⟨hl', -, hty⟩ := hl.hold hs (filealloc_spec hf)
      exact (Undo.pipe1 hl' hty hfree).goto
    case h_2 => exact (Undo.failed hl hfree).goto
  | @pipe1 f0 hl h0 hfree =>
    dsimp only at hn
    split at hn <;> cases hn
    case h_1 f hf =>
      obtain ⟨hl', hne, hty⟩ := hl.hold hs (filealloc_spec hf)
      have hne : f0 ≠ f := by grind
      exact (Undo.kalloc hl' hne (by grind) hty hfree).goto
    case h_2 => exact (Undo.closeLast hl h0 hfree).goto
  | @kalloc f0 f1 hl hne h0 h1 hfree =>
    dsimp only at hn
    split at hn <;> cases hn
    case h_1 pg rest hpg =>
      obtain ⟨hl', hm⟩ := hl.pipeInit hne hfree hpg
      exact (Undo.fds hl' hne hm).goto
    case h_2 => exact (Undo.closeNew hl hne h0 h1 hfree).goto
  | @fds f0 f1 hl hne hm =>
    cases hn
    unfold pipeFds
    split
    case h_1 => exact (Undo.closeEnds hl hne hm).goto
    case h_2 fd0 h0 =>
      split
      case h_1 =>
        rw [setFd_setFd, setFd_eq_self (fdalloc_spec h0)]
        exact (Undo.closeEnds hl hne hm).goto
      case h_2 => exact Undo.done.goto
  | @closeNew f0 f1 hl hne h0 h1 hfree =>
    dsimp only at hn
    rw [hl.fileclose, if_neg (by rw [h0]; decide)] at hn
    cases hn
    exact (Undo.closeLast (hl.clear hs (by simpa using hne)) (by grind) hfree).goto
  | @closeEnds f0 f1 hl hne hm =>
    dsimp only at hn
    rw [hl.fileclose, if_pos hm.type0, hm.writable0] at hn
    cases hn
    have := hm.type1
    have := hm.writable1
    have := hm.pipe
    exact (Undo.closeRead (hl.clear hs (by simpa using hne)) (by grind) (by grind)
      (by grind) hm.ends hm.free).goto
  | @closeLast f hl h0 hfree =>
    dsimp only at hn
    rw [hl.fileclose, if_neg (by rw [h0]; decide)] at hn
    cases hn
    exact (Undo.failed (hl.clear hs List.not_mem_nil) hfree).goto
  | @closeRead f1 pg hl hty hw hpg he hfree =>
    cases hn
    rw [pipeclose_eq, Bool.not_false, if_pos he]
    exact (Undo.closeEnd (t := t.shut pg false) { hl with } hty hw hpg (by grind)
      hfree).goto
  | @closeEnd f1 pg hl hty hw hpg he hfree =>
    dsimp only at hn
    rw [hl.fileclose, if_pos hty, hw] at hn
    cases hn
    exact (Undo.closeWrite (hl.clear hs List.not_mem_nil) (by rw [hpg]; exact he)
      (by rw [hpg]; exact hfree)).goto
  | @closeWrite pg hl he hfree =>
    cases hn
    rw [pipeclose_eq, Bool.not_true, he, if_neg Bool.false_ne_true]
    exact (Undo.freePage (t := t.shut pg true) { hl with } hfree).goto
  | @freePage pg hl hfree =>
    cases hn
    exact (Undo.failed (t := t.kfree pg) { hl with } hfree.symm).goto
  | failed => cases hn
  | done => cases hn

end alone

lemma Inv.undo_pipe {ok : Bool} {es : List Event} (h : Inv s)
    (hr : Run Step s (.call p (.pipe ok) :: es) s')
    (hes : ∀ e ∈ es, e = .next p) (hf : s'.pc p = .user (-1)) : Restored s s' := by
  obtain ⟨t, hc, hr⟩ : ∃ t, Run Step s [.call p (.pipe ok)] t ∧ Run Step t es s' := Run.split hr
  have hstart : Undo s t (t.pc p) := by
    have hc := hc.one
    simp only [Step, State.step] at hc
    have hl : Lent s s [] := ⟨rfl, by simp, fun _ _ => rfl, fun _ _ => rfl, fun _ _ => rfl⟩
    split at hc
    case h_1 =>
      cases ok <;> cases hc
      · exact (Undo.failed hl rfl).goto
      · exact (Undo.pipe0 hl rfl).goto
    case h_2 => cases hc
  have hend : Undo s s' (s'.pc p) := by
    refine Run.invariant (P := fun es t => (∀ e ∈ es, e = .next p) → Undo s t (t.pc p))
      (fun _ => hstart) ?_ hr hes
    intro es t e t' _ ih he hes
    obtain rfl := hes e (by simp)
    exact (ih fun e he => hes e (by simp [he])).next h.typed.dead rfl he
  rw [hf] at hend
  cases hend with
  | failed hl hfree =>
    exact ⟨hl.ofile, fun f => hl.ref f List.not_mem_nil, fun f => hl.type f List.not_mem_nil,
      hl.used, hfree⟩

end State

def Cont.left : Cont → ℕ
  | ret _ => 0
  | close _ => 3
  | exit fd => 4 * (NOFILE - (fd + 1)) + 1

def Pc.left : Pc → ℕ
  | unused | embryo | zombie | user _ => 0
  | openAlloc _ => 6
  | openFd _ _ => 5
  | openSet _ _ _ => 1
  | pipe0 => 10
  | pipe1 _ => 9
  | pipeKalloc _ _ => 8
  | pipeFd _ _ => 7
  | fork _ i => NOFILE - i + 1
  | exit fd => 4 * (NOFILE - fd) + 1
  | close _ k => 3 + k.left
  | closePipe _ _ k => 2 + k.left
  | freePipe _ k => 1 + k.left

namespace State

variable {s s' : State} {p : Proc}

lemma left_pc (k : Cont) : k.pc.left = k.left := by
  cases k <;> rfl

lemma plain_left {pc pc' : Pc} (h : Plain pc pc') (hpc : pc.idle = false) : pc'.left < pc.left := by
  cases h with
  | fail | «open» | pipe | exit => cases hpc
  | _ => simp only [Pc.left, Cont.left]; omega

lemma allocs_left {pc pc' : Pc} {f : Ix} (h : Allocs f pc pc') : pc'.left < pc.left := by
  cases h <;> simp only [Pc.left] <;> omega

lemma Move.left (hm : Move s p s') (hp : (s.pc p).idle = false) : (s'.pc p).left < (s.pc p).left := by
  cases hm with
  | goto hpl => simpa using plain_left hpl hp
  | hold hal => simpa using allocs_left hal
  | dup hpc | close hpc | fork hpc | reap hpc => rw [hpc] at hp; cases hp
  | drop hpc | clear hpc | shut hpc | kfree hpc =>
    rw [resume_pc, if_pos rfl, left_pc, hpc]
    simp only [Pc.left]
    omega
  | @exitSkip fd hpc | @exitClose fd f hpc =>
    have := fd.isLt
    rw [setPc_pc, if_pos rfl, hpc]
    simp only [Pc.left, Cont.left]
    omega
  | @forkSkip np i hpc | @forkDup np i f hpc =>
    have := i.isLt
    rw [setPc_pc, if_pos rfl, hpc]
    simp only [Pc.left]
    omega
  | openFd hpc | openSet hpc | pipeInit hpc | pipeFds hpc | forkDone hpc | exitDone hpc | clearPipe hpc
  | shutLast hpc =>
    rw [setPc_pc, if_pos rfl, hpc]
    simp only [Pc.left]
    omega

lemma Inv.finish (h : Inv s) (p : Proc) :
    ∃ es s', Run Step s es s' ∧ (∀ e ∈ es, e = .next p) ∧ (s'.pc p).idle = true := by
  induction hn : (s.pc p).left using Nat.strong_induction_on generalizing s with
  | _ n ih =>
    cases hp : (s.pc p).idle with
    | true => exact ⟨[], s, .nil, nofun, hp⟩
    | false =>
      obtain ⟨t, ht⟩ := h.progress hp
      obtain ⟨es, s', hr, hes, hidle⟩ := ih _ (hn ▸ (move_of_next ht).left hp) (h.step ht) rfl
      exact ⟨.next p :: es, s', hr.cons ht, by simpa using hes, hidle⟩

lemma Inv.dup {r : ℤ} (h : Inv s) (hp : s.pc p = .user r) (n : ℤ) :
    ∃ s', Step s (.call p (.dup n)) s' ∧ (s'.pc p = .user (-1) → s' = s.setPc p (.user (-1))) := by
  simp only [Step, State.step, State.call, hp]
  split
  case h_1 => exact ⟨_, rfl, fun _ => rfl⟩
  case h_2 fd' f harg =>
    split
    case h_1 => exact ⟨_, rfl, fun _ => rfl⟩
    case h_2 fd hfd =>
      have hpos := h.count.ref_pos (p := p)
        (refs_pos_of_view (d := fd') (by rw [hp]; exact argfd_spec harg))
      rw [filedup, if_neg (by rw [setFd_file]; omega)]
      refine ⟨_, rfl, fun hret => ?_⟩
      rw [setPc_pc, if_pos rfl] at hret
      have : (fd : ℤ) = -1 := Pc.user.inj hret
      omega

theorem file_refs_exact {free : List ℕ} {es : List Event} {s : State} (hfree : free.Nodup)
    (hr : Run Step (init free) es s) :
    (s.Quiet → s.Exact) ∧
    (∀ pg, s.frees pg ≤ s.allocs pg ∧ s.allocs pg ≤ s.frees pg + 1) ∧
    (∀ e s' pg, Step s e s' → s'.frees pg ≠ s.frees pg →
      s'.frees pg = s.frees pg + 1 ∧ ∀ f, (s.file f).type = .pipe → (s.file f).pipe ≠ pg) ∧
    (∀ p, ∃ fs s', Run Step s fs s' ∧ (∀ e ∈ fs, e = .next p) ∧ (s'.pc p).idle = true) ∧
    (∀ p r n, s.pc p = .user r →
      ∃ s', Step s (.call p (.dup n)) s' ∧ (s'.pc p = .user (-1) → s' = s.setPc p (.user (-1)))) ∧
    ∀ p ok fs s', Run Step s (.call p (.pipe ok) :: fs) s' → (∀ e ∈ fs, e = .next p) →
      s'.pc p = .user (-1) → Restored s s' := by
  have h := inv_of_run hfree hr
  exact ⟨h.exact, h.live, fun _ _ _ he => h.freed he, h.finish, fun _ _ n hp => h.dup hp n,
    fun _ _ _ _ hr' hes hf => h.undo_pipe hr' hes hf⟩

def fillTable : List Event :=
  .call 0 (.open true 0) :: List.replicate 3 (.next 0) ++ List.replicate 15 (.call 0 (.dup 0))

def failPipe : List Event := List.replicate 9 (.next 0)

lemma full_table_run : ∃ s, Run Step (init [4]) fillTable s ∧ s.Quiet ∧ ∃ s',
    Run Step s (.call 0 (.pipe true) :: failPipe) s' ∧ s'.pc 0 = .user (-1) ∧
      (s'.file 1).readable ≠ (s.file 1).readable := by
  obtain ⟨s, hs, hq, s', hs', hfail⟩ : ∃ s ∈ exec State.step (init [4]) fillTable,
    (∀ p, (s.pc p).idle = true) ∧ ∃ s' ∈ exec State.step s (.call 0 (.pipe true) :: failPipe),
      s'.pc 0 = .user (-1) ∧ (s'.file 1).readable ≠ (s.file 1).readable := by decide +kernel
  exact ⟨s, run_of_exec hs, hq, s', run_of_exec hs', hfail⟩

theorem file_refs_exact_full_table : ∃ s s', Run Step (init [4]) fillTable s ∧ s.Quiet ∧ s.Exact ∧
    Run Step s (.call 0 (.pipe true) :: failPipe) s' ∧ s'.pc 0 = .user (-1) ∧ Restored s s' := by
  obtain ⟨s, hs, hq, s', hs', hf, -⟩ := full_table_run
  have h := file_refs_exact (by decide) hs
  exact ⟨s, s', hs, hq, h.1 hq, hs', hf, h.2.2.2.2.2 0 true failPipe s' hs' (by decide) hf⟩

theorem failed_pipe_changes_free_entry : ∃ s s', Run Step (init [4]) fillTable s ∧ s.Quiet ∧
    Run Step s (.call 0 (.pipe true) :: failPipe) s' ∧ s'.pc 0 = .user (-1) ∧ s'.file ≠ s.file := by
  obtain ⟨s, hs, hq, s', hs', hf, hne⟩ := full_table_run
  exact ⟨s, s', hs, hq, hs', hf, fun heq => hne (by rw [heq])⟩

end State

end Xv6.Files
