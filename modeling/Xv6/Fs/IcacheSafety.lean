import Xv6.Fs.Icache

namespace Xv6.Icache.State

open Lib
open Xv6.Fs (Dinode Panic)

variable {n : ℕ} {ninodes : UInt32} {s s' : State} {p q i j : ℕ} {k : Key} {d : Dinode}

def Uses : Pc → ℕ → Prop
  | .wait i, j | .test i, j | .read i, j | .itrunc i, j | .untype i, j | .freed i _, j => i = j
  | _, _ => False

def Inlock : Pc → ℕ → Prop
  | .test i, j | .read i, j | .itrunc i, j | .untype i, j | .freed i _, j => i = j
  | _, _ => False

def Cleared (d : Dinode) : Prop := d.type = 0 ∧ d.nlink = 0 ∧ d.size = 0 ∧ d.addrs = fun _ => 0

def Claimed (s : State) (k : Key) : Prop := ∃ p, s.pc p = .got k

def Freed (s : State) (i : ℕ) : Prop := ∃ p d, s.pc p = .freed i d

lemma Inlock.uses {c : Pc} (h : Inlock c i) : Uses c i := by
  cases c <;> first | exact h | exact h.elim

lemma ne_of_pc {c c' : Pc} (hq : s.pc q = c) (hp : s.pc p = c') (hne : c ≠ c') : q ≠ p := by
  rintro rfl
  exact hne (hq.symm.trans hp)

lemma Freed.setPc (hf : s.Freed i) (hp : ∀ d, s.pc p ≠ .freed i d) (c : Pc) : (s.setPc p c).Freed i := by
  obtain ⟨q, d, hq⟩ := hf
  have hqp : q ≠ p := fun he => hp d (he ▸ hq)
  exact ⟨q, d, by rw [setPc_pc, if_neg hqp, hq]⟩

structure Tokens (n : ℕ) (s : State) (i : ℕ) : Prop where
  ref : (s.slot i).ref = tally s.held i
  lt : ∀ p, (p, i) ∈ s.held → i < n
  busy : tally s.locks i = if (s.slot i).busy then 1 else 0
  locked : ∀ p, (p, i) ∈ s.locks → (p, i) ∈ s.held
  uses : ∀ p, Uses (s.pc p) i → (p, i) ∈ s.held
  inlock : ∀ p, Inlock (s.pc p) i → (p, i) ∈ s.locks
  fresh : ∀ p, s.fresh i = some p → (p, i) ∈ s.held

structure Freeing (x : Inode) (o : Option ℕ) (d : Dinode) : Prop where
  ref : x.ref = 1
  valid : x.valid
  fresh : o = none
  nlink : x.dip.nlink = 0
  disk : d.nlink = 0

/-- What the process `p` at `c` relies on in slot `i`, which is `x`, has been allocated by `o` and
is `d` on disk. -/
def Relies (x : Inode) (o : Option ℕ) (d : Dinode) (claimed : Prop) (i p : ℕ) : Pc → Prop
  | .itrunc j => j = i → Freeing x o d
  | .untype j => j = i → Freeing x o d ∧ x.dip.size = 0 ∧ x.dip.addrs = fun _ => 0
  | .freed j e => j = i → Cleared e ∧ o ≠ some p ∧ (o = none → x.ref = 1 ∧ (d = e ∨ claimed)) ∧
      (o ≠ none → d.type ≠ 0 ∧ ¬ claimed)
  | _ => True

structure Live (x : Inode) (o : Option ℕ) (d : Dinode) (g : ℕ) (claimed : Prop) : Prop where
  type : d.type ≠ 0
  unclaimed : ¬ claimed
  linked : o = none → x.valid ∨ d.nlink ≠ 0
  current : x.valid → x.dip.type = d.type ∧ x.gen = g ∧ (x.busy = false → x.dip.nlink = d.nlink)

structure Slot (n : ℕ) (s : State) (i : ℕ) : Prop extends Tokens n s i where
  owned : ∀ p, (p, i) ∈ s.locks → ¬ Inlock (s.pc p) i → (s.slot i).valid
  relies : ∀ p, Relies (s.slot i) (s.fresh i) (s.disk (s.slot i).key) (Claimed s (s.slot i).key) i p
    (s.pc p)
  live : 0 < (s.slot i).ref → ¬ s.Freed i →
    Live (s.slot i) (s.fresh i) (s.disk (s.slot i).key) (s.gen (s.slot i).key) (Claimed s (s.slot i).key)

structure Inv (n : ℕ) (s : State) : Prop where
  slots : ∀ i, Slot n s i
  uniq : ∀ i j, 0 < (s.slot i).ref → 0 < (s.slot j).ref → (s.slot i).key = (s.slot j).key → i = j
  got : ∀ p k, s.pc p = .got k → (s.disk k).type ≠ 0 ∧ (s.disk k).nlink = 0 ∧ ∀ q, s.pc q = .got k → q = p
  scan : ∀ p dev type inum, s.pc p = .scan dev type inum → type ≠ 0
  orphan : ∀ k, (∀ i, 0 < (s.slot i).ref → (s.slot i).key ≠ k) →
    (s.disk k).type = 0 ∨ (s.disk k).nlink ≠ 0 ∨ Claimed s k

namespace Tokens

variable (h : Tokens n s i)
include h

lemma ref_pos (hp : (p, i) ∈ s.held) : 0 < (s.slot i).ref := by
  rw [h.ref]
  exact tally_pos hp

lemma lt_of_ref (hr : 0 < (s.slot i).ref) : i < n := by
  obtain ⟨q, hq⟩ := exists_mem_of_tally_pos (h.ref ▸ hr)
  exact h.lt q hq

lemma lock_unique (hp : (p, i) ∈ s.locks) (hq : (q, i) ∈ s.locks) : q = p :=
  holder_unique (by rw [h.busy]; split_ifs <;> simp) hq hp

lemma ref_unique (hr : (s.slot i).ref = 1) (hp : (p, i) ∈ s.held) (hq : (q, i) ∈ s.held) : q = p :=
  holder_unique (by rw [← h.ref, hr]) hq hp

lemma busy_iff : (s.slot i).busy = true ↔ ∃ p, (p, i) ∈ s.locks := by
  have hb := h.busy
  constructor
  · intro hbusy
    rw [if_pos hbusy] at hb
    exact exists_mem_of_tally_pos (hb ▸ one_pos)
  · rintro ⟨p, hp⟩
    by_contra hbusy
    rw [if_neg hbusy] at hb
    exact absurd (tally_pos hp) (by omega)

lemma unlocked (hb : (s.slot i).busy = false) (q : ℕ) : (q, i) ∉ s.locks := fun hq => by
  rw [h.busy_iff.mpr ⟨q, hq⟩] at hb
  cases hb

lemma notMem_erase (hl : (p, i) ∈ s.locks) (q : ℕ) : (q, i) ∉ s.locks.erase (p, i) :=
  notMem_erase_of_tally_le_one (by rw [h.busy]; split_ifs <;> simp) hl

lemma not_freed (hp : (p, i) ∈ s.locks) (hpc : ∀ d, s.pc p ≠ .freed i d) : ¬ s.Freed i := by
  rintro ⟨q, d, hq⟩
  obtain rfl := h.lock_unique hp (h.inlock q (by rw [hq]; rfl))
  exact hpc d hq

lemma setPc {c : Pc} (hu : Uses c i → (p, i) ∈ s.held) (hl : Inlock c i → (p, i) ∈ s.locks) :
    Tokens n (s.setPc p c) i := by
  refine { h with uses := fun q hq => ?_, inlock := fun q hq => ?_ } <;> rw [setPc_pc] at hq <;>
    split_ifs at hq with hqp
  · exact hqp ▸ hu hq
  · exact h.uses q hq
  · exact hqp ▸ hl hq
  · exact h.inlock q hq

lemma toIdle (p : ℕ) : Tokens n (s.setPc p .idle) i := h.setPc False.elim False.elim

lemma setSlot {x : Inode} (hr : x.ref = (s.slot i).ref) (hb : x.busy = (s.slot i).busy) :
    Tokens n (s.setSlot i x) i :=
  { h with
    ref := by simpa [hr] using h.ref
    busy := by simpa [hb] using h.busy }

lemma setDisk (k : Key) (d : Dinode) : Tokens n (s.setDisk k d) i := { h with }

lemma setFresh {o : Option ℕ} (ho : ∀ q, o = some q → (q, i) ∈ s.held) : Tokens n (s.setFresh i o) i :=
  { h with fresh := fun q hq => ho q (by simpa using hq) }

lemma take (hi : i < n) (p : ℕ) : Tokens n (s.take p i) i where
  ref := by simp [h.ref]
  lt _ _ := hi
  busy := by simpa using h.busy
  locked q hq := List.mem_cons_of_mem _ (h.locked q hq)
  uses q hq := List.mem_cons_of_mem _ (h.uses q hq)
  inlock := h.inlock
  fresh q hq := List.mem_cons_of_mem _ (h.fresh q hq)

lemma drop (hi : (p, i) ∈ s.held)
    (hp : (p, i) ∈ s.locks ∨ Uses (s.pc p) i ∨ s.fresh i = some p → (p, i) ∈ s.held.erase (p, i)) :
    Tokens n (s.drop p i) i := by
  have hkeep : ∀ q, (q = p → (p, i) ∈ s.held.erase (p, i)) → (q, i) ∈ s.held → (q, i) ∈ s.held.erase
    (p, i) := by
    intro q hqp hq
    by_cases he : q = p
    · exact he ▸ hqp he
    · exact (List.mem_erase_of_ne (by simp [he])).mpr hq
  refine ⟨?_, fun q hq => h.lt q
    (List.mem_of_mem_erase hq), by simpa using h.busy, fun q hq => ?_, fun q hq => ?_, h.inlock,
    fun q hq => ?_⟩
  · have := tally_erase_add (x := i) hi
    simp only [drop_slot, if_pos, drop_held, h.ref]
    simp at this
    omega
  · exact hkeep q (fun he => hp (.inl (he ▸ hq))) (h.locked q hq)
  · exact hkeep q (fun he => hp (.inr (.inl (he ▸ hq)))) (h.uses q hq)
  · exact hkeep q (fun he => hp (.inr (.inr (he ▸ hq)))) (h.fresh q hq)

lemma lock (hb : (s.slot i).busy = false) (hp : (p, i) ∈ s.held) : Tokens n (s.lock p i) i where
  __ := h
  ref := by simpa using h.ref
  busy := by simp [h.busy, hb]
  locked q hq := by
    rcases List.mem_cons.mp hq with heq | hq
    · exact (Prod.mk.inj heq).1 ▸ hp
    · exact h.locked q hq
  inlock q hq := List.mem_cons_of_mem _ (h.inlock q hq)

lemma unlock (hl : (p, i) ∈ s.locks) (hp : ¬ Inlock (s.pc p) i) : Tokens n (s.unlock p i) i where
  __ := h
  ref := by simpa using h.ref
  busy := by
    have := tally_erase_add (x := i) hl
    rw [h.busy, if_pos (h.busy_iff.mpr ⟨p, hl⟩)] at this
    simpa using this
  locked q hq := h.locked q (List.mem_of_mem_erase hq)
  inlock q hq := by
    have hqp : q ≠ p := fun he => hp (he ▸ hq)
    exact (List.mem_erase_of_ne (by simp [hqp])).mpr (h.inlock q hq)

end Tokens

lemma Relies.of_not_inlock {x : Inode} {o : Option ℕ} {claimed : Prop} {c : Pc} (hc : ¬ Inlock c i) :
    Relies x o d claimed i p c := by
  cases c <;> first | exact trivial | exact fun he => absurd he hc

lemma Relies.of_freed {x : Inode} {o : Option ℕ} {claimed : Prop} {c : Pc}
    (hc : c ≠ .itrunc i ∧ c ≠ .untype i)
    (hf : ∀ e, c = .freed i e → Relies x o d claimed i p (.freed i e)) : Relies x o d claimed i p c := by
  cases c with
  | itrunc j => exact fun he => absurd (he ▸ rfl) hc.1
  | untype j => exact fun he => absurd (he ▸ rfl) hc.2
  | freed j e =>
    rintro rfl
    exact hf e rfl rfl
  | _ => exact trivial

lemma Relies.setRef {x : Inode} {o : Option ℕ} {claimed : Prop} {c : Pc}
    (h : Relies x o d claimed i p c) (r : ℕ)
    (hc : c ≠ .itrunc i ∧ c ≠ .untype i) (ho : ∀ e, c = .freed i e → o ≠ none) :
    Relies { x with ref := r } o d claimed i p c := by
  refine .of_freed hc fun e he _ => ?_
  rw [he] at h
  obtain ⟨h1, h2, -, h4⟩ := h rfl
  exact ⟨h1, h2, fun hn => absurd hn (ho e he), h4⟩

namespace Live

variable {x : Inode} {o : Option ℕ} {g : ℕ} {claimed claimed' : Prop} (h : Live x o d g claimed)
include h

lemma of_claimed (hc : claimed' → claimed) : Live x o d g claimed' :=
    { h with unclaimed := mt hc h.unclaimed }

lemma setRef (r : ℕ) : Live { x with ref := r } o d g claimed := { h with }

lemma lock : Live { x with busy := true } o d g claimed :=
  { h with current := fun hv => ⟨(h.current hv).1, (h.current hv).2.1, nofun⟩ }

lemma unlock (hn : x.dip.nlink = d.nlink) : Live { x with busy := false } o d g claimed :=
  { h with current := fun hv => ⟨(h.current hv).1, (h.current hv).2.1, fun _ => hn⟩ }

lemma read : Live { x with dip := d, gen := g, valid := true } o d g claimed :=
  ⟨h.type, h.unclaimed, fun _ => .inl rfl, fun _ => ⟨rfl, rfl, fun _ => rfl⟩⟩

lemma modify {e : Dinode} (he : e.type = x.dip.type) (hb : x.busy = true) :
    Live { x with dip := e } o d g claimed :=
  ⟨h.type, h.unclaimed, h.linked, fun hv => ⟨he.trans (h.current hv).1, (h.current hv).2.1, fun hb' => by
    rw [hb] at hb'
    cases hb'⟩⟩

lemma write {e : Dinode} (hv : x.valid) (he : e.type = x.dip.type) (o' : Option ℕ) :
    Live { x with dip := e } o' e g claimed := by
  obtain ⟨ht, hg, -⟩ := h.current hv
  exact ⟨by rw [he, ht]; exact h.type, h.unclaimed, fun _ => .inl hv, fun _ => ⟨rfl, hg, fun _ => rfl⟩⟩

end Live

namespace Slot

lemma intro {x : Inode} {o : Option ℕ} {g : ℕ} (ht : Tokens n s i) (hx : s.slot i = x)
    (ho : s.fresh i = o) (hd : s.disk x.key = d) (hg : s.gen x.key = g)
    (howned : ∀ p, (p, i) ∈ s.locks → ¬ Inlock (s.pc p) i → x.valid)
    (hrelies : ∀ p, Relies x o d (Claimed s x.key) i p (s.pc p))
    (hlive : 0 < x.ref → ¬ s.Freed i → Live x o d g (Claimed s x.key)) : Slot n s i := by
  subst hx ho hd hg
  exact ⟨ht, howned, hrelies, hlive⟩

lemma of_only {x : Inode} {o : Option ℕ} {g : ℕ} {c : Pc} (ht : Tokens n s i) (hx : s.slot i = x)
    (ho : s.fresh i = o) (hd : s.disk x.key = d) (hg : s.gen x.key = g) (hc : s.pc p = c)
    (honly : ∀ q, (q, i) ∈ s.locks → q = p)
    (howned : (p, i) ∈ s.locks → ¬ Inlock c i → x.valid) (hrelies : Relies x o d (Claimed s x.key) i p c)
    (hlive : 0 < x.ref → ¬ s.Freed i → Live x o d g (Claimed s x.key)) : Slot n s i := by
  refine .intro ht hx ho hd hg (fun q hq hn => ?_) (fun q => ?_) hlive
  · obtain rfl := honly q hq
    exact howned hq (hc ▸ hn)
  · by_cases hq : Inlock (s.pc q) i
    · obtain rfl := honly q (ht.inlock q hq)
      exact hc ▸ hrelies
    · exact .of_not_inlock hq

lemma freeing (h : Slot n s i) (hp : s.pc p = .itrunc i ∨ s.pc p = .untype i) :
    Freeing (s.slot i) (s.fresh i) (s.disk (s.slot i).key) := by
  have hr := h.relies p
  rcases hp with hp | hp <;> rw [hp] at hr
  · exact hr rfl
  · exact (hr rfl).1

lemma freed (h : Slot n s i) (hp : s.pc p = .freed i d) : Cleared d ∧ s.fresh i ≠ some p ∧
    (s.fresh i = none → (s.slot i).ref = 1 ∧ (s.disk (s.slot i).key = d ∨ Claimed s (s.slot i).key)) ∧
    (s.fresh i ≠ none → (s.disk (s.slot i).key).type ≠ 0 ∧ ¬ Claimed s (s.slot i).key) := by
  have hr := h.relies p
  rw [hp] at hr
  exact hr rfl

lemma owned_setPc (h : Slot n s i) (hp : ¬ Inlock (s.pc p) i) (c : Pc) (q : ℕ) (hq : (q, i) ∈ s.locks)
    (hn : ¬ Inlock ((s.setPc p c).pc q) i) : (s.slot i).valid := by
  refine h.owned q hq fun hl => hn ?_
  have hqp : q ≠ p := fun he => hp (he ▸ hl)
  rwa [setPc_pc, if_neg hqp]

lemma still (h : Slot n s i) (hp : s.pc p = .idle) (hi : (p, i) ∈ s.held) :
    (∀ q, s.pc q ≠ .itrunc i ∧ s.pc q ≠ .untype i) ∧ ∀ q e, s.pc q = .freed i e → s.fresh i ≠ none := by
  have hidle : ∀ q, Uses (s.pc q) i → (s.slot i).ref ≠ 1 := by
    intro q hq hr
    rw [h.ref_unique hr hi (h.uses q hq), hp] at hq
    exact hq
  refine ⟨fun q => ⟨fun hq => ?_, fun hq => ?_⟩, fun q e hq hf => ?_⟩
  · exact hidle q (by rw [hq]; rfl) (h.freeing (.inl hq)).ref
  · exact hidle q (by rw [hq]; rfl) (h.freeing (.inr hq)).ref
  · exact hidle q (by rw [hq]; rfl) ((h.freed hq).2.2.1 hf).1

end Slot

lemma claimed_iff {c : Pc} (hpc : ∀ q, s'.pc q = if q = p then c else s.pc q) (hp : s.pc p ≠ .got k)
    (hc : c ≠ .got k) : Claimed s' k ↔ Claimed s k := by
  refine exists_congr fun q => ?_
  rw [hpc]
  split_ifs with hq
  · exact iff_of_false hc (hq ▸ hp)
  · rfl

structure Same (s s' : State) (j : ℕ) : Prop where
  slot : s'.slot j = s.slot j
  fresh : s'.fresh j = s.fresh j
  held : SameTokens s.held s'.held j
  locks : SameTokens s.locks s'.locks j
  pc : ∀ q, s'.pc q = s.pc q ∨ ¬ Uses (s.pc q) j ∧ ¬ Uses (s'.pc q) j
  disk : 0 < (s.slot j).ref → s'.disk (s.slot j).key = s.disk (s.slot j).key ∧
    s'.gen (s.slot j).key = s.gen (s.slot j).key ∧ (Claimed s' (s.slot j).key ↔ Claimed s (s.slot j).key)

namespace Same

variable (hs : Same s s' j)
include hs

lemma uses (hu : Uses (s'.pc q) j) : s'.pc q = s.pc q := (hs.pc q).resolve_right fun hn => hn.2 hu

lemma uses_before (hu : Uses (s.pc q) j) : s'.pc q = s.pc q := (hs.pc q).resolve_right fun hn => hn.1 hu

lemma freed (hf : s.Freed j) : s'.Freed j := by
  obtain ⟨q, d, hq⟩ := hf
  exact ⟨q, d, (hs.uses_before (by rw [hq]; rfl)).trans hq⟩

lemma tokens (h : Tokens n s j) : Tokens n s' j where
  ref := by rw [hs.slot, hs.held.1, h.ref]
  lt q hq := h.lt q ((hs.held.2 q).mp hq)
  busy := by rw [hs.slot, hs.locks.1, h.busy]
  locked q hq := (hs.held.2 q).mpr (h.locked q ((hs.locks.2 q).mp hq))
  uses q hq := (hs.held.2 q).mpr (h.uses q (hs.uses hq ▸ hq))
  inlock q hq := (hs.locks.2 q).mpr (h.inlock q (hs.uses hq.uses ▸ hq))
  fresh q hq := (hs.held.2 q).mpr (h.fresh q (hs.fresh ▸ hq))

end Same

lemma Slot.frame (h : Slot n s j) (hs : Same s s' j) : Slot n s' j := by
  refine .intro (hs.tokens h.toTokens) hs.slot hs.fresh rfl rfl (fun q hq hn => ?_) (fun q => ?_)
    fun hr hf => ?_
  · exact h.owned q ((hs.locks.2 q).mp hq) fun hi => hn ((hs.uses_before hi.uses).symm ▸ hi)
  · by_cases hq : Inlock (s'.pc q) j
    · have hpc := hs.uses hq.uses
      rw [hpc] at hq ⊢
      obtain ⟨hd, -, hc⟩ := hs.disk (h.ref_pos (h.uses q hq.uses))
      rw [hd, propext hc]
      exact h.relies q
    · exact .of_not_inlock hq
  · obtain ⟨hd, hg, hc⟩ := hs.disk hr
    rw [hd, hg]
    exact (h.live hr (mt hs.freed hf)).of_claimed hc.mp

lemma Slot.holder (h : Slot n s i) (hp : (p, i) ∈ s.locks) (hpc : ∀ d, s.pc p ≠ .freed i d) :
    0 < (s.slot i).ref ∧ (∀ q, (q, i) ∈ s.locks → q = p) ∧ (s.slot i).busy = true ∧
      Live (s.slot i) (s.fresh i) (s.disk (s.slot i).key) (s.gen (s.slot i).key)
      (Claimed s (s.slot i).key) :=
  have hr := h.ref_pos (h.locked p hp)
  ⟨hr, fun _ => h.lock_unique hp, h.busy_iff.mpr ⟨p, hp⟩, h.live hr (h.not_freed hp hpc)⟩

def Settled (c : Pc) : Prop := (∀ k, c ≠ .got k) ∧ ∀ dev t inum, c ≠ .scan dev t inum

lemma Uses.settled {c : Pc} (h : Uses c i) : Settled c ∧ ∀ j, Uses c j → j = i := by
  refine ⟨⟨fun k hc => ?_, fun dev t inum hc => ?_⟩, fun j hj => ?_⟩
  · rw [hc] at h
    exact h
  · rw [hc] at h
    exact h
  · cases c <;> first | exact hj.symm.trans h | exact h.elim

lemma settled {c : Pc} (h : c = .idle ∨ Uses c i) : Settled c ∧ ∀ j, Uses c j → j = i := by
  rcases h with rfl | h
  · exact ⟨⟨nofun, nofun⟩, nofun⟩
  · exact h.settled

lemma claimed_of_settled {c : Pc} (hc : c = .idle ∨ Uses c i) (h : Claimed (s.setPc p c) k) :
    Claimed s k := by
  obtain ⟨q, hq⟩ := h
  rw [setPc_pc] at hq
  split_ifs at hq
  · exact absurd hq ((settled hc).1.1 k)
  · exact ⟨q, hq⟩

structure Local (s s' : State) (p i : ℕ) (k : Key) : Prop where
  slot : ∀ j, j ≠ i → s'.slot j = s.slot j ∧ s'.fresh j = s.fresh j
  held : ∀ j, j ≠ i → SameTokens s.held s'.held j
  locks : ∀ j, j ≠ i → SameTokens s.locks s'.locks j
  pc : ∀ q, q ≠ p → s'.pc q = s.pc q
  own : s'.pc p = s.pc p ∨ Settled (s'.pc p) ∧ ∀ j, Uses (s.pc p) j ∨ Uses (s'.pc p) j → j = i
  inode : ∀ k', k' ≠ k → s'.disk k' = s.disk k' ∧ s'.gen k' = s.gen k' ∧ (Claimed s' k' ↔ Claimed s k')

namespace Local

lemma refl : Local s s p i k :=
  ⟨fun _ _ => ⟨rfl, rfl⟩, fun _ _ => .refl, fun _ _ => .refl, fun _ _ => rfl, .inl rfl,
    fun _ _ => ⟨rfl, rfl, Iff.rfl⟩⟩

variable (h : Local s s' p i k)
include h

lemma setSlot (x : Inode) : Local s (s'.setSlot i x) p i k :=
  { h with slot := fun j hj => by simpa [hj] using h.slot j hj }

lemma setFresh (o : Option ℕ) : Local s (s'.setFresh i o) p i k :=
  { h with slot := fun j hj => by simpa [hj] using h.slot j hj }

lemma setDisk (d : Dinode) : Local s (s'.setDisk k d) p i k :=
  { h with inode := fun k' hk => ⟨(if_neg hk).trans (h.inode k' hk).1, (h.inode k' hk).2⟩ }

lemma take (q : ℕ) : Local s (s'.take q i) p i k :=
  { h with
    slot := fun j hj => by simpa [hj] using h.slot j hj
    held := fun j hj => (h.held j hj).cons hj }

lemma drop (q : ℕ) : Local s (s'.drop q i) p i k :=
  { h with
    slot := fun j hj => by simpa [hj] using h.slot j hj
    held := fun j hj => (h.held j hj).erase hj }

lemma lock (q : ℕ) : Local s (s'.lock q i) p i k :=
  { h with
    slot := fun j hj => by simpa [hj] using h.slot j hj
    locks := fun j hj => (h.locks j hj).cons hj }

lemma unlock (q : ℕ) : Local s (s'.unlock q i) p i k :=
  { h with
    slot := fun j hj => by simpa [hj] using h.slot j hj
    locks := fun j hj => (h.locks j hj).erase hj }

lemma goto {c : Pc} (hpc : s'.pc = s.pc) (hp : s.pc p = .idle ∨ Uses (s.pc p) i ∨ s.pc p = .got k)
    (hc : c = .idle ∨ Uses c i) : Local s (s'.setPc p c) p i k := by
  obtain ⟨hc, hcu⟩ := settled hc
  have hold : (∀ k', s.pc p = .got k' → k' = k) ∧ ∀ j, Uses (s.pc p) j → j = i := by
    rcases hp with hp | hu | hp
    · rw [hp]
      exact ⟨nofun, nofun⟩
    · exact ⟨fun k' hk' => absurd hk' (hu.settled.1.1 k'), hu.settled.2⟩
    · rw [hp]
      exact ⟨fun k' hk' => (Pc.got.inj hk').symm, nofun⟩
  exact { h with
    pc := fun q hq => by simpa [hq] using h.pc q hq
    own := .inr (by simpa using ⟨hc, fun j hj => hj.elim (hold.2 j) (hcu j)⟩)
    inode := fun k' hk => ⟨(h.inode k' hk).1, (h.inode k' hk).2.1, Iff.trans
      (claimed_iff (p := p) (fun _ => rfl) (fun hg => hk (hold.1 k' (hpc ▸ hg))) (hc.1 k'))
      (h.inode k' hk).2.2⟩ }

lemma same (hj : j ≠ i) (hk : 0 < (s.slot j).ref → (s.slot j).key ≠ k) : Same s s' j where
  slot := (h.slot j hj).1
  fresh := (h.slot j hj).2
  held := h.held j hj
  locks := h.locks j hj
  pc q := by
    by_cases hq : q = p
    · subst hq
      exact h.own.imp_right fun ho => ⟨fun hu => hj (ho.2 j (.inl hu)), fun hu => hj (ho.2 j (.inr hu))⟩
    · exact .inl (h.pc q hq)
  disk hr := h.inode _ (hk hr)

end Local

section

variable (h : Inv n s)
include h

lemma Inv.key_ne (hr : 0 < (s.slot i).ref) (j : ℕ) (hj : j ≠ i) (hrj : 0 < (s.slot j).ref) :
    (s.slot j).key ≠ (s.slot i).key := fun heq => hj (h.uniq j i hrj hr heq)

lemma Inv.assemble (hl : Local s s' p i k) (hslot : Slot n s' i)
    (hk : ∀ j, j ≠ i → 0 < (s.slot j).ref → (s.slot j).key ≠ k)
    (hold : 0 < (s.slot i).ref → (s.slot i).key = k)
    (hnew : 0 < (s'.slot i).ref → (s'.slot i).key = k) (hdisk : Claimed s k → s'.disk k = s.disk k)
    (hlast : (s'.slot i).ref = 0 → (s'.disk k).type = 0 ∨ (s'.disk k).nlink ≠ 0 ∨ Claimed s' k) :
    Inv n s' := by
  have hpc : ∀ q, s'.pc q = s.pc q ∨ Settled (s'.pc q) := by
    intro q
    by_cases hq : q = p
    · exact hq ▸ hl.own.imp_right And.left
    · exact .inl (hl.pc q hq)
  have hgot : ∀ q k, s'.pc q = .got k → s.pc q = .got k := fun q k hq =>
    ((hpc q).resolve_right fun hs => hs.1 k hq).symm.trans hq
  have hsame : ∀ j, j ≠ i → s'.slot j = s.slot j := fun j hj => (hl.slot j hj).1
  refine ⟨fun j => ?_, fun j j' hj hj' heq => ?_, fun q k' hq => ?_, fun q dev t inum hq => h.scan q
    dev t inum ?_, fun k' hk' => ?_⟩
  · by_cases hj : j = i
    · exact hj ▸ hslot
    · exact (h.slots j).frame (hl.same hj (hk j hj))
  · by_cases hji : j = i <;> by_cases hji' : j' = i
    · rw [hji, hji']
    · subst hji
      rw [hnew hj, hsame j' hji'] at heq
      exact absurd heq.symm (hk j' hji' (hsame j' hji' ▸ hj'))
    · subst hji'
      rw [hnew hj', hsame j hji] at heq
      exact absurd heq (hk j hji (hsame j hji ▸ hj))
    · rw [hsame j hji] at hj heq
      rw [hsame j' hji'] at hj' heq
      exact h.uniq j j' hj hj' heq
  · obtain ⟨h1, h2, h3⟩ := h.got q k' (hgot q k' hq)
    have hd : s'.disk k' = s.disk k' := by
      by_cases hkk : k' = k
      · subst hkk
        exact hdisk ⟨q, hgot q _ hq⟩
      · exact (hl.inode k' hkk).1
    rw [hd]
    exact ⟨h1, h2, fun q' hq' => h3 q' (hgot q' k' hq')⟩
  · exact ((hpc q).resolve_right fun hs => hs.2 dev t inum hq).symm.trans hq
  · by_cases hkk : k' = k
    · subst hkk
      exact hlast (Nat.eq_zero_of_not_pos fun hr => hk' i hr (hnew hr))
    · obtain ⟨hd, -, hc⟩ := hl.inode k' hkk
      rw [hd, hc]
      refine h.orphan k' fun j hj heq => ?_
      have hji : j ≠ i := by
        rintro rfl
        exact hkk (heq.symm.trans (hold hj))
      exact hk' j (by rwa [hsame j hji]) (by rwa [hsame j hji])

lemma Inv.change (hl : Local s s' p i (s.slot i).key) (hslot : Slot n s' i) (hr : 0 < (s.slot i).ref)
    (hr' : 0 < (s'.slot i).ref) (hkey : (s'.slot i).key = (s.slot i).key)
    (hdisk : Claimed s (s.slot i).key → s'.disk (s.slot i).key = s.disk (s.slot i).key) : Inv n s' :=
  h.assemble hl hslot (h.key_ne hr) (fun _ => rfl) (fun _ => hkey) hdisk fun h0 => absurd h0 hr'.ne'

lemma Inv.move {c : Pc} (hp : s.pc p = .idle ∨ ∃ dev t inum, s.pc p = .scan dev t inum)
    (hc : (∃ dev t inum, c = .scan dev t inum ∧ t ≠ 0) ∨ ∃ i, c = .wait i ∧ (p, i) ∈ s.held) :
    Inv n (s.setPc p c) := by
  have hold : (∀ k, s.pc p ≠ .got k) ∧ (∀ i, ¬ Inlock (s.pc p) i) ∧ ∀ i d, s.pc p ≠ .freed i d := by
    rcases hp with hp | ⟨dev, t, inum, hp⟩ <;> simp [hp, Inlock]
  have hnew : (∀ k, c ≠ .got k) ∧ (∀ i, ¬ Inlock c i) ∧ (∀ i, Uses c i → (p, i) ∈ s.held) ∧
      ∀ dev t inum, c = .scan dev t inum → t ≠ 0 := by
    rcases hc with ⟨dev, t, inum, rfl, ht⟩ | ⟨i, rfl, hi⟩
    · exact ⟨nofun, fun _ => id, fun _ => False.elim, fun _ _ _ heq => (Pc.scan.inj heq).2.1 ▸ ht⟩
    · exact ⟨nofun, fun _ => id, fun j hj => hj ▸ hi, nofun⟩
  have hcl : ∀ k, Claimed (s.setPc p c) k ↔ Claimed s k :=
    fun k => claimed_iff (fun _ => rfl) (hold.1 k) (hnew.1 k)
  refine ⟨fun i => ?_, h.uniq, fun q k hq => ?_, fun q dev t inum hq => ?_, fun k hk => ?_⟩
  · have hi := h.slots i
    refine .intro (hi.toTokens.setPc (hnew.2.2.1 i) fun hl => absurd hl (hnew.2.1 i)) rfl rfl rfl rfl
      (hi.owned_setPc (hold.2.1 i) c) (fun q => ?_) fun hr hf =>
      (hi.live hr fun hF => hf (hF.setPc (hold.2.2 i) c)).of_claimed (hcl _).mp
    rw [setPc_pc, propext (hcl _)]
    split_ifs
    · exact .of_not_inlock (hnew.2.1 i)
    · exact hi.relies q
  · rw [setPc_pc] at hq
    split_ifs at hq with hqp
    · exact absurd hq (hnew.1 k)
    · obtain ⟨h1, h2, h3⟩ := h.got q k hq
      refine ⟨h1, h2, fun r hr => h3 r ?_⟩
      rw [setPc_pc] at hr
      split_ifs at hr
      · exact absurd hr (hnew.1 k)
      · exact hr
  · rw [setPc_pc] at hq
    split_ifs at hq
    · exact hnew.2.2.2 dev t inum hq
    · exact h.scan q dev t inum hq
  · rw [hcl]
    exact h.orphan k hk

lemma Inv.test {c : Pc} (hp : s.pc p = .test i) (hc : c = .idle ∧ (s.slot i).valid = true ∨ c = .read i) :
    Inv n (s.setPc p c) := by
  have hi := h.slots i
  have hu : Uses (s.pc p) i := by rw [hp]; rfl
  have hl := hi.inlock p (by rw [hp]; rfl)
  obtain ⟨hr, honly, -, hlive⟩ := hi.holder hl (by simp [hp])
  have hc' : c = .idle ∨ Uses c i := hc.imp And.left fun he => by rw [he]; rfl
  refine h.change (Local.refl.goto rfl (.inr (.inl hu)) hc')
    (.of_only (hi.toTokens.setPc (fun _ => hi.uses p hu) fun _ => hl)
    rfl rfl rfl rfl (if_pos rfl) honly (fun _ hn => ?_) ?_ fun _ _ => hlive.of_claimed
    (claimed_of_settled hc')) hr hr rfl fun _ => rfl
  · rcases hc with ⟨-, hv⟩ | rfl
    · exact hv
    · exact absurd rfl hn
  · rcases hc with ⟨rfl, -⟩ | rfl <;> exact trivial

lemma Inv.acquire (hp : s.pc p = .wait i) (hb : (s.slot i).busy = false) :
    Inv n ((s.lock p i).setPc p (.test i)) := by
  have hi := h.slots i
  have hu : Uses (s.pc p) i := by rw [hp]; rfl
  have hh := hi.uses p hu
  have hr := hi.ref_pos hh
  have hnone := hi.unlocked hb
  have hlive := hi.live hr (by rintro ⟨q, d, hq⟩; exact hnone q (hi.inlock q (by rw [hq]; rfl)))
  refine h.change ((Local.refl.lock p).goto rfl (.inr (.inl hu)) (.inr rfl))
    (.of_only ((hi.toTokens.lock hb hh).setPc (fun _ => hh) fun _ => List.mem_cons_self)
    (if_pos rfl) rfl rfl rfl (if_pos rfl)
      (fun q hq => by simpa [hnone q] using hq) (fun _ hn => absurd rfl hn) trivial
      fun _ _ => hlive.lock.of_claimed (claimed_of_settled (i := i) (.inr rfl))) hr (by simp [hr])
      (by simp) fun _ => rfl

lemma Inv.readDisk (hp : s.pc p = .read i) : Inv n ((s.setSlot i
    { s.slot i with dip := s.disk (s.slot i).key, gen := s.gen (s.slot i).key, valid := true }).setPc
      p .idle) := by
  have hi := h.slots i
  have hu : Uses (s.pc p) i := by rw [hp]; rfl
  obtain ⟨hr, honly, -, hlive⟩ := hi.holder (hi.inlock p (by rw [hp]; rfl)) (by simp [hp])
  exact h.change ((Local.refl.setSlot _).goto rfl (.inr (.inl hu)) (.inl rfl))
    (.of_only ((hi.toTokens.setSlot (by rfl) (by rfl)).toIdle p) (if_pos rfl) rfl rfl rfl
    (if_pos rfl) honly
      (fun _ _ => rfl) trivial fun _ _ => hlive.read.of_claimed
      (claimed_of_settled (i := i) (.inl rfl))) hr (by simp [hr]) (by simp)
    fun _ => rfl

lemma Inv.modify (hp : s.pc p = .idle) (hl : (p, i) ∈ s.locks) (hd : d.type = (s.slot i).dip.type) :
    Inv n (s.setSlot i { s.slot i with dip := d }) := by
  have hi := h.slots i
  obtain ⟨hr, honly, hb, hlive⟩ := hi.holder hl (by simp [hp])
  exact h.change (p := p) (Local.refl.setSlot _)
    (.of_only (hi.toTokens.setSlot (by rfl) (by rfl)) (if_pos rfl) rfl rfl rfl hp honly
    (fun _ _ => hi.owned p hl (by rw [hp]; exact id)) trivial fun _ _ => hlive.modify hd hb) hr
    (by simp [hr]) (by simp) fun _ => rfl

lemma Inv.iupdate (hp : s.pc p = .idle) (hl : (p, i) ∈ s.locks) {o : Option ℕ}
    (ho : o = none ∨ o = s.fresh i) :
    Inv n ((s.setDisk (s.slot i).key (s.slot i).dip).setFresh i o) := by
  have hi := h.slots i
  obtain ⟨hr, honly, -, hlive⟩ := hi.holder hl (by simp [hp])
  have hv := hi.owned p hl (by rw [hp]; exact id)
  refine h.change (p := p) ((Local.refl.setDisk _).setFresh o)
    (.of_only ((hi.toTokens.setDisk _ _).setFresh fun q hq => ?_) rfl
    (if_pos rfl) (if_pos rfl) rfl hp honly (fun _ _ => hv) trivial fun _ _ => hlive.write hv rfl o)
    hr hr rfl fun hc => absurd hc hlive.unclaimed
  rcases ho with rfl | rfl
  · cases hq
  · exact hi.fresh q hq

lemma Inv.iunlock (hp : s.pc p = .idle) (hl : (p, i) ∈ s.locks)
    (hn : (s.slot i).dip.nlink = (s.disk (s.slot i).key).nlink) : Inv n (s.unlock p i) := by
  have hi := h.slots i
  obtain ⟨hr, -, -, hlive⟩ := hi.holder hl (by simp [hp])
  exact h.change (p := p) (Local.refl.unlock p)
    (.of_only (hi.toTokens.unlock hl (by rw [hp]; exact id)) (if_pos rfl) rfl rfl rfl hp
    (fun q hq => absurd hq (hi.notMem_erase hl q)) (fun hq => absurd hq (hi.notMem_erase hl p)) trivial
    fun _ _ => hlive.unlock hn) hr (by simp [hr]) (by simp) fun _ => rfl

lemma Inv.take (hr : 0 < (s.slot i).ref) (hfrees : ∀ q, s.pc q ≠ .itrunc i ∧ s.pc q ≠ .untype i)
    (hfreed : ∀ q e, s.pc q = .freed i e → s.fresh i ≠ none) : Inv n (s.take p i) := by
  have hi := h.slots i
  exact h.change (p := p) (Local.refl.take p)
    (.intro (hi.toTokens.take (hi.lt_of_ref hr) p) (if_pos rfl) rfl rfl rfl hi.owned
    (fun q => (hi.relies q).setRef _ (hfrees q) (hfreed q)) fun _ hf => (hi.live hr hf).setRef _) hr
    (by simp) (by simp) fun _ => rfl

lemma Inv.idup (hp : s.pc p = .idle) (hi : (p, i) ∈ s.held) : Inv n (s.take q i) :=
  have hstill := (h.slots i).still hp hi
  h.take ((h.slots i).ref_pos hi) hstill.1 hstill.2

end

lemma Slot.alone (h : Slot n s i) (hp : s.pc p = .idle) (hi : (p, i) ∈ s.held) (hr : (s.slot i).ref = 1)
    (hlast : (p, i) ∈ s.locks ∨ s.fresh i = some p → 2 ≤ s.held.count (p, i)) :
    (s.slot i).busy = false ∧ s.fresh i = none ∧ (∀ q, (q, i) ∉ s.locks) ∧ ¬ s.Freed i := by
  have hcount : s.held.count (p, i) ≤ 1 := count_le_tally.trans (by rw [← h.ref, hr])
  have hno : (p, i) ∉ s.locks ∧ s.fresh i ≠ some p := by
    refine ⟨fun hl => ?_, fun hf => ?_⟩
    · exact absurd (hlast (.inl hl)) (by omega)
    · exact absurd (hlast (.inr hf)) (by omega)
  have hnl : ∀ q, (q, i) ∉ s.locks := by
    intro q hq
    obtain rfl := h.ref_unique hr hi (h.locked q hq)
    exact hno.1 hq
  refine ⟨?_, ?_, hnl, ?_⟩
  · rw [Bool.eq_false_iff, ne_eq, h.busy_iff]
    exact fun ⟨q, hq⟩ => hnl q hq
  · cases hf : s.fresh i with
    | none => rfl
    | some q =>
      obtain rfl := h.ref_unique hr hi (h.fresh q hf)
      exact absurd hf hno.2
  · rintro ⟨q, d, hq⟩
    exact hnl q (h.inlock q (by rw [hq]; rfl))

section

variable (h : Inv n s)
include h

lemma Inv.startFree (hp : s.pc p = .idle) (hh : (p, i) ∈ s.held) (hr : (s.slot i).ref = 1)
    (hlast : (p, i) ∈ s.locks ∨ s.fresh i = some p → 2 ≤ s.held.count (p, i))
    (hv : (s.slot i).valid = true) (hn : (s.slot i).dip.nlink = 0) :
    Inv n ((s.lock p i).setPc p (.itrunc i)) := by
  have hi := h.slots i
  obtain ⟨hb, hfresh, hnl, hnf⟩ := hi.alone hp hh hr hlast
  have hpos : 0 < (s.slot i).ref := by omega
  have hlive := hi.live hpos hnf
  exact h.change ((Local.refl.lock p).goto rfl (.inl hp) (.inr rfl))
    (.of_only ((hi.toTokens.lock hb hh).setPc (fun _ => hh) fun _ => List.mem_cons_self)
    (if_pos rfl) rfl rfl rfl (if_pos rfl)
      (fun q hq => by simpa [hnl q] using hq) (fun _ hn => absurd rfl hn)
      (fun _ => ⟨hr, hv, hfresh, hn, ((hlive.current hv).2.2 hb).symm.trans hn⟩)
      fun _ _ => hlive.lock.of_claimed (claimed_of_settled (i := i) (.inr rfl))) hpos
      (by simp [hpos]) (by simp) fun _ => rfl

lemma Inv.itrunc (hp : s.pc p = .itrunc i) :
    Inv n (((s.setSlot i { s.slot i with dip := truncated (s.slot i).dip }).setDisk
    (s.slot i).key (truncated (s.slot i).dip)).setPc p (.untype i)) := by
  have hi := h.slots i
  have hu : Uses (s.pc p) i := by rw [hp]; rfl
  have hl := hi.inlock p (by rw [hp]; rfl)
  obtain ⟨hr, honly, -, hlive⟩ := hi.holder hl (by simp [hp])
  have hf := hi.freeing (.inl hp)
  exact h.change (((Local.refl.setSlot _).setDisk _).goto rfl (.inr (.inl hu)) (.inr rfl))
    (.of_only (((hi.toTokens.setSlot (by rfl) (by rfl)).setDisk _ _).setPc (fun _ => hi.uses p hu)
    fun _ => hl) (if_pos rfl) rfl (if_pos rfl)
      rfl (if_pos rfl) honly (fun _ hn => absurd rfl hn)
      (fun _ => ⟨⟨hf.ref, hf.valid, hf.fresh, hf.nlink, hf.nlink⟩, rfl, rfl⟩)
      fun _ _ => (hlive.write (e := truncated _) hf.valid rfl _).of_claimed
      (claimed_of_settled (i := i) (.inr rfl))) hr (by simp [hr]) (by simp)
    fun hc => absurd hc hlive.unclaimed

lemma Inv.untype (hp : s.pc p = .untype i) :
    Inv n (((s.setSlot i { s.slot i with dip := { (s.slot i).dip with type := 0 } }).setDisk
    (s.slot i).key { (s.slot i).dip with type := 0 }).setPc p
    (.freed i { (s.slot i).dip with type := 0 })) := by
  have hi := h.slots i
  have hu : Uses (s.pc p) i := by rw [hp]; rfl
  have hl := hi.inlock p (by rw [hp]; rfl)
  obtain ⟨hr, honly, -, hlive⟩ := hi.holder hl (by simp [hp])
  have hf := hi.freeing (.inr hp)
  have htrunc := hi.relies p
  rw [hp] at htrunc
  obtain ⟨-, hsize, haddrs⟩ := htrunc rfl
  exact h.change (((Local.refl.setSlot _).setDisk _).goto rfl (.inr (.inl hu)) (.inr rfl))
    (.of_only (((hi.toTokens.setSlot (by rfl) (by rfl)).setDisk _ _).setPc (fun _ => hi.uses p hu)
    fun _ => hl) (if_pos rfl) rfl (if_pos rfl)
      rfl (if_pos rfl) honly (fun _ hn => absurd rfl hn)
      (fun _ => ⟨⟨rfl, hf.nlink, hsize,
      haddrs⟩, by simp [hf.fresh], fun _ => ⟨hf.ref, .inl rfl⟩, fun hne => absurd hf.fresh hne⟩)
      fun _ hnf => absurd ⟨p, _, if_pos rfl⟩ hnf) hr (by simp [hr])
      (by simp) fun hc => absurd hc hlive.unclaimed

lemma Inv.drop (hp : s.pc p = .idle) (hh : (p, i) ∈ s.held)
    (hlast : (p, i) ∈ s.locks ∨ s.fresh i = some p → 2 ≤ s.held.count (p, i))
    (hno : ¬ ((s.slot i).ref = 1 ∧ (s.slot i).valid = true ∧ (s.slot i).dip.nlink = 0)) :
    Inv n (s.drop p i) := by
  have hi := h.slots i
  have hr := hi.ref_pos hh
  have hstill := hi.still hp hh
  refine h.assemble (p := p) (Local.refl.drop p)
    (.intro (hi.toTokens.drop hh fun hor => mem_erase_of_two (hlast ?_)) (if_pos rfl)
    rfl rfl rfl hi.owned (fun q => (hi.relies q).setRef _ (hstill.1 q) (hstill.2 q)) fun _ hf =>
    (hi.live hr hf).setRef _) (h.key_ne hr) (fun _ => rfl) (by simp) (fun _ => rfl) fun h0 => ?_
  · rw [hp] at hor
    exact hor.imp_right fun ho => ho.resolve_left id
  · have hr1 : (s.slot i).ref = 1 := by
      simp at h0
      omega
    obtain ⟨hb, hfresh, -, hnf⟩ := hi.alone hp hh hr1 hlast
    have hlive := hi.live hr hnf
    rcases hlive.linked hfresh with hv | hv
    · exact .inr (.inl fun hn => hno ⟨hr1, hv, ((hlive.current hv).2.2 hb).trans hn⟩)
    · exact .inr (.inl hv)

omit h in
lemma Slot.unclaimed (h : Slot n s i) (hp : s.pc p = .freed i d) (hr : (s.slot i).ref = 1) :
    s.disk (s.slot i).key = d ∨ Claimed s (s.slot i).key := by
  obtain ⟨-, hfp, hd, -⟩ := h.freed hp
  refine (hd ?_).2
  cases hf : s.fresh i with
  | none => rfl
  | some q =>
    obtain rfl := h.ref_unique hr (h.uses p (by rw [hp]; rfl)) (h.fresh q hf)
    exact absurd hf hfp

lemma Inv.finish (hp : s.pc p = .freed i d) :
    Inv n ((((s.unlock p i).setSlot i { s.slot i with busy := false, valid := false }).drop p
    i).setPc p .idle) := by
  have hi := h.slots i
  have hl := hi.inlock p (by rw [hp]; rfl)
  have hh := hi.locked p hl
  have hr := hi.ref_pos hh
  have hcl : ∀ k, Claimed (s.setPc p .idle) k ↔ Claimed s k :=
    fun k => claimed_iff (fun _ => rfl) (by simp [hp]) (by simp)
  obtain ⟨hclear, hfp, hnone, hsome⟩ := hi.freed hp
  have htokens := ((hi.toTokens.toIdle p).unlock hl (by simp [Inlock])).setSlot
    (x := { s.slot i with busy := false, valid := false }) (by simp) (by simp)
  refine h.assemble ((((Local.refl.unlock p).setSlot _).drop p).goto rfl
    (.inr (.inl (by rw [hp]; rfl))) (.inl rfl))
    (.of_only (x := { s.slot i with busy := false, valid := false, ref := (s.slot i).ref - 1 })
      (htokens.drop hh fun hor => ?_) (by simp) rfl rfl rfl (if_pos rfl)
      (fun q hq => absurd hq (hi.notMem_erase hl q))
      (fun hq => absurd hq (hi.notMem_erase hl p)) trivial fun hr' _ => ?_)
    (h.key_ne hr) (fun _ => rfl) (by simp) (fun _ => rfl) fun h0 => ?_
  · rcases hor with hq | hu | hf
    · exact absurd hq (hi.notMem_erase hl p)
    · simp [Uses] at hu
    · exact absurd hf hfp
  · have hfresh : s.fresh i ≠ none := fun hf => by
      have := (hnone hf).1
      simp only at hr'
      omega
    exact ⟨(hsome hfresh).1, mt (hcl _).mp (hsome hfresh).2, fun hf => absurd hf hfresh, nofun⟩
  · have hr1 : (s.slot i).ref = 1 := by
      simp at h0
      omega
    rcases hi.unclaimed hp hr1 with hdisk | hclaim
    · exact .inl (hdisk ▸ hclear.1)
    · exact .inr (.inr ((hcl _).mpr hclaim))

lemma Inv.slot_of_free (hk : (s.disk (s.slot i).key).type = 0 ∨ Claimed s (s.slot i).key)
    (hr : 0 < (s.slot i).ref) : s.Freed i ∧ s.fresh i = none := by
  have hf : s.Freed i := by
    by_contra hnf
    have hlive := (h.slots i).live hr hnf
    exact hk.elim hlive.type hlive.unclaimed
  refine ⟨hf, ?_⟩
  obtain ⟨q, d, hq⟩ := hf
  by_contra hne
  obtain ⟨h1, h2⟩ := ((h.slots i).freed hq).2.2.2 hne
  exact hk.elim h1 h2

omit h in
lemma Slot.not_frees (h : Slot n s i) (hf : s.Freed i) (q : ℕ) :
    s.pc q ≠ .itrunc i ∧ s.pc q ≠ .untype i := by
  obtain ⟨p, d, hp⟩ := hf
  have hl := h.inlock p (by rw [hp]; rfl)
  refine ⟨fun hq => ?_, fun hq => ?_⟩
  · rw [← h.lock_unique hl (h.inlock q (by rw [hq]; rfl)), hq] at hp
    cases hp
  · rw [← h.lock_unique hl (h.inlock q (by rw [hq]; rfl)), hq] at hp
    cases hp

lemma Inv.mark {dev : UInt32} {t : Int16} {inum : UInt32} (hp : s.pc p = .scan dev t inum)
    (hk : (s.disk k).type = 0) : Inv n ((s.mark k t).setPc p (.got k)) := by
  have hpc : ∀ q, q ≠ p → ((s.mark k t).setPc p (.got k)).pc q = s.pc q := fun q hq => if_neg hq
  have hself : ((s.mark k t).setPc p (.got k)).pc p = .got k := if_pos rfl
  have hcl : ∀ k', Claimed ((s.mark k t).setPc p (.got k)) k' ↔ k' = k ∨ Claimed s k' := by
    intro k'
    constructor
    · rintro ⟨q, hq⟩
      by_cases hqp : q = p
      · rw [hqp, hself] at hq
        exact .inl (Pc.got.inj hq).symm
      · exact .inr ⟨q, (hpc q hqp).symm.trans hq⟩
    · rintro (rfl | ⟨q, hq⟩)
      · exact ⟨p, hself⟩
      · exact ⟨q, (hpc q (ne_of_pc hq hp nofun)).trans hq⟩
  have hnc : ¬ Claimed s k := by
    rintro ⟨q, hq⟩
    exact (h.got q k hq).1 hk
  have ht := h.scan p dev t inum hp
  refine ⟨fun i => ?_, h.uniq, fun q k' hq => ?_, fun q dev' t' inum' hq => ?_, fun k' hk' => ?_⟩
  · have hi := h.slots i
    by_cases hik : 0 < (s.slot i).ref ∧ (s.slot i).key = k
    · obtain ⟨hr, rfl⟩ := hik
      obtain ⟨hf, hfresh⟩ := h.slot_of_free (.inl hk) hr
      have htok : Tokens n (s.mark (s.slot i).key t) i := { hi.toTokens with }
      refine .intro (htok.setPc False.elim False.elim) rfl rfl (if_pos rfl) rfl
        (hi.owned_setPc (by rw [hp]; exact id) (.got _)) (fun q => ?_) fun _ hnf => absurd
        (hf.setPc (by simp [hp]) _) hnf
      by_cases hqp : q = p
      · rw [hqp, hself]
        exact trivial
      · rw [hpc q hqp]
        refine .of_freed (hi.not_frees hf q) fun e he _ => ?_
        obtain ⟨h1, h2, h3, -⟩ := hi.freed he
        exact ⟨h1, h2, fun hn => ⟨(h3 hn).1, .inr ((hcl _).mpr (.inl rfl))⟩, fun hne => absurd hfresh hne⟩
    · refine hi.frame ⟨rfl, rfl, .refl, .refl, fun q => ?_, fun hr => ?_⟩
      · by_cases hqp : q = p
        · rw [hqp, hself, hp]
          exact .inr ⟨id, id⟩
        · exact .inl (hpc q hqp)
      · have hne : (s.slot i).key ≠ k := fun he => hik ⟨hr, he⟩
        exact ⟨if_neg hne, if_neg hne, (hcl _).trans (or_iff_right hne)⟩
  · by_cases hqp : q = p
    · rw [hqp, hself] at hq
      obtain rfl := Pc.got.inj hq
      refine ⟨by simpa using ht, by simp [Dinode.zero], fun q' hq' => ?_⟩
      by_contra hne
      exact hnc ⟨q', (hpc q' (hqp ▸ hne)).symm.trans hq'⟩
    · have hq' := (hpc q hqp).symm.trans hq
      have hkk : k' ≠ k := by
        rintro rfl
        exact hnc ⟨q, hq'⟩
      obtain ⟨h1, h2, h3⟩ := h.got q k' hq'
      refine ⟨by simpa [hkk] using h1, by simpa [hkk] using h2, fun r hr => h3 r ?_⟩
      exact (hpc r (ne_of_pc hr hself fun he => hkk (Pc.got.inj he))).symm.trans hr
  · exact h.scan q dev' t' inum' ((hpc q (ne_of_pc hq hself nofun)).symm.trans hq)
  · rw [hcl]
    by_cases hkk : k' = k
    · exact .inr (.inr (.inl hkk))
    · have hd : ((s.mark k t).setPc p (.got k)).disk k' = s.disk k' := if_neg hkk
      rw [hd]
      exact (h.orphan k' hk').imp_right (Or.imp_right .inr)

lemma Inv.claimed_resolved (hp : s.pc p = .got k) (k' : Key) : Claimed (s.setPc p .idle) k' ↔
    k' ≠ k ∧ Claimed s k' := by
  constructor
  · rintro ⟨q, hq⟩
    rw [setPc_pc] at hq
    split_ifs at hq with hqp
    refine ⟨?_, q, hq⟩
    rintro rfl
    exact hqp ((h.got p _ hp).2.2 q hq)
  · rintro ⟨hne, q, hq⟩
    exact ⟨q, by rw [setPc_pc, if_neg (ne_of_pc hq hp fun he => hne (Pc.got.inj he)), hq]⟩

lemma Inv.reuse (hp : s.pc p = .got (s.slot i).key) (hr : 0 < (s.slot i).ref) :
    Inv n (((s.take p i).setFresh i (some p)).setPc p .idle) := by
  have hi := h.slots i
  obtain ⟨hf, hfresh⟩ := h.slot_of_free (.inr ⟨p, hp⟩) hr
  obtain ⟨hty, -, -⟩ := h.got p _ hp
  have hnc : ¬ Claimed (s.setPc p .idle) (s.slot i).key :=
    fun hc => ((h.claimed_resolved hp _).mp hc).1 rfl
  refine h.change (((Local.refl.take p).setFresh _).goto rfl (.inr (.inr hp)) (.inl rfl))
    (.intro (((hi.toTokens.take (hi.lt_of_ref hr) p).setFresh fun q hq => ?_).toIdle p) (if_pos rfl)
    (if_pos rfl)
      rfl rfl (hi.owned_setPc (by rw [hp]; exact id) .idle) (fun q => ?_) fun _ hnf => absurd
      (hf.setPc (by simp [hp]) _) hnf)
    hr (by simp) (by simp) fun _ => rfl
  · exact Option.some.inj hq ▸ List.mem_cons_self
  · rw [setPc_pc]
    split_ifs with hqp
    · exact trivial
    · exact .of_freed (hi.not_frees hf q) fun e he _ =>
        ⟨(hi.freed he).1, fun he => hqp (Option.some.inj he).symm, nofun, fun _ => ⟨hty, hnc⟩⟩

omit h in
lemma Slot.empty (h : Slot n s i) (hr : (s.slot i).ref = 0) :
    (∀ q, (q, i) ∉ s.locks) ∧ (s.slot i).busy = false ∧ ∀ q, ¬ Uses (s.pc q) i := by
  have hheld : ∀ q, (q, i) ∉ s.held := fun q hq => absurd (h.ref_pos hq) (by omega)
  have hlocks : ∀ q, (q, i) ∉ s.locks := fun q hq => hheld q (h.locked q hq)
  refine ⟨hlocks, ?_, fun q hq => hheld q (h.uses q hq)⟩
  rw [Bool.eq_false_iff, ne_eq, h.busy_iff]
  exact fun ⟨q, hq⟩ => hlocks q hq

variable (hi : i < n) (hr : (s.slot i).ref = 0) (hk : ∀ j, 0 < (s.slot j).ref → (s.slot j).key ≠ k)
  {g : ℕ}
include hi hr hk

lemma Inv.igetNew (ht : (s.disk k).type ≠ 0) (hn : (s.disk k).nlink ≠ 0) :
    Inv n ((s.setSlot i ⟨k, 0, false, false, d, g⟩).take p i) := by
  obtain ⟨hlocks, hb, huses⟩ := (h.slots i).empty hr
  have hnc : ¬ Claimed s k := by
    rintro ⟨q, hq⟩
    exact hn (h.got q k hq).2.1
  exact h.assemble (p := p) ((Local.refl.setSlot _).take p)
    (.of_only (x := ⟨k, 1, false, false, d, g⟩)
    ((((h.slots i).toTokens.setSlot hr.symm hb.symm).take hi p)) (by simp) rfl rfl rfl rfl
      (fun q hq => absurd hq (hlocks q)) (fun hq => absurd hq (hlocks p))
      (.of_not_inlock fun hl => huses p hl.uses)
      fun _ _ => ⟨ht, hnc, fun _ => .inr hn, nofun⟩) (fun j _ => hk j) (by simp [hr]) (by simp)
      (fun _ => rfl) (by simp)

lemma Inv.iallocNew (hp : s.pc p = .got k) :
    Inv n ((((s.setSlot i ⟨k, 0, false, false, d, g⟩).take p i).setFresh i (some p)).setPc p .idle) := by
  obtain ⟨hlocks, hb, huses⟩ := (h.slots i).empty hr
  have hnc : ¬ Claimed (s.setPc p .idle) k := fun hc => ((h.claimed_resolved hp _).mp hc).1 rfl
  exact h.assemble ((((Local.refl.setSlot _).take p).setFresh _).goto rfl (.inr (.inr hp)) (.inl rfl))
    (.of_only (x := ⟨k, 1, false, false, d, g⟩)
    (((((h.slots i).toTokens.setSlot hr.symm hb.symm).take hi p).setFresh
        fun q hq => Option.some.inj hq ▸ List.mem_cons_self).toIdle p) (by simp)
        (if_pos rfl) rfl rfl (if_pos rfl)
      (fun q hq => absurd hq (hlocks q)) (fun hq => absurd hq (hlocks p)) trivial
      fun _ _ => ⟨(h.got p _ hp).1, hnc, nofun, nofun⟩) (fun j _ => hk j) (by simp [hr]) (by simp)
        (fun _ => rfl) (by simp)

end

lemma Inv.init {disk : Key → Dinode} (hdisk : ∀ k, (disk k).type ≠ 0 → (disk k).nlink ≠ 0) :
    Inv n (State.init disk) := by
  refine ⟨fun i => ?_, fun i j hi => absurd hi (lt_irrefl 0), fun p k hp => ?_,
    fun p dev t inum hp => ?_, fun k _ => ?_⟩
  · exact .intro ⟨rfl, nofun, rfl, nofun, nofun, nofun, nofun⟩ rfl rfl rfl rfl nofun
      (fun _ => trivial) nofun
  · cases hp
  · cases hp
  · by_cases ht : (disk k).type = 0
    · exact .inl ht
    · exact .inr (.inl (hdisk k ht))

/-- What a process knows when it calls `iget` outside `ialloc`: the inode has a link, or its slot is
valid and is not being freed. -/
def Named (s : State) (k : Key) : Prop :=
  (s.disk k).type ≠ 0 ∧ (s.disk k).nlink ≠ 0 ∨
    ∃ i, 0 < (s.slot i).ref ∧ (s.slot i).key = k ∧ (s.slot i).valid = true ∧
      ∀ q, s.pc q ≠ .itrunc i ∧ s.pc q ≠ .untype i ∧ ∀ d, s.pc q ≠ .freed i d

def Allowed (s : State) (e : ℕ × Act) : Prop := ∀ k, e.2 = .iget k → Named s k

def Step (n : ℕ) (ninodes : UInt32) (s : State) (e : ℕ × Act) (s' : State) : Prop :=
  s.step n ninodes e = some (.ok s')

def NamedStep (n : ℕ) (ninodes : UInt32) (s : State) (e : ℕ × Act) (s' : State) : Prop :=
  Allowed s e ∧ Step n ninodes s e s'

lemma Inv.iget_cases (h : Inv n s) (hs : s.iget n p k = .ok (i, s')) :
    (0 < (s.slot i).ref ∧ (s.slot i).key = k ∧ s' = s.take p i) ∨
    (i < n ∧ (s.slot i).ref = 0 ∧ (∀ j, 0 < (s.slot j).ref → (s.slot j).key ≠ k) ∧
      s' = (s.setSlot i ⟨k, 0, false, false, (s.slot i).dip, (s.slot i).gen⟩).take p i) := by
  unfold State.iget at hs
  split at hs
  · rename_i j hj
    cases hs
    have := List.find?_some hj
    simp only [decide_eq_true_eq] at this
    exact .inl ⟨this.1, this.2, rfl⟩
  · rename_i hnone
    split at hs
    · rename_i j hj
      cases hs
      refine .inr ⟨List.mem_range.mp
        (List.mem_of_find?_eq_some hj), by simpa using List.find?_some hj, ?_, rfl⟩
      intro j' hr hkey
      obtain ⟨q, hq⟩ := exists_mem_of_tally_pos ((h.slots j').ref ▸ hr)
      have := List.find?_eq_none.mp hnone j' (List.mem_range.mpr ((h.slots j').lt q hq))
      simp only [decide_eq_true_eq] at this
      exact this ⟨hr, hkey⟩
    · cases hs

lemma iget_error {e : Panic} (hs : s.iget n p k = .error e) : e = .igetNoInodes := by
  unfold State.iget at hs
  split at hs
  · cases hs
  · split at hs <;> cases hs
    rfl

lemma Inv.iget (h : Inv n s) (hk : Named s k) (hs : s.iget n p k = .ok (i, s')) : Inv n s' := by
  rcases h.iget_cases hs with ⟨hr, hkey, rfl⟩ | ⟨hi, hr, hnone, rfl⟩
  · subst hkey
    have hstill : (∀ q, s.pc q ≠ .itrunc i ∧ s.pc q ≠ .untype i) ∧ ∀ q e, s.pc q = .freed i e →
      s.fresh i ≠ none := by
      rcases hk with ⟨ht, hn⟩ | ⟨j, hrj, hkj, hv, hj⟩
      · refine ⟨fun q => ⟨fun hq => ?_, fun hq => ?_⟩, fun q e hq hf => ?_⟩
        · exact hn ((h.slots i).freeing (.inl hq)).disk
        · exact hn ((h.slots i).freeing (.inr hq)).disk
        · obtain ⟨hc, -, hd, -⟩ := (h.slots i).freed hq
          rcases (hd hf).2 with hd | ⟨r, hr⟩
          · rw [hd] at ht
            exact ht hc.1
          · exact hn (h.got r _ hr).2.1
      · obtain rfl := h.uniq j i hrj hr hkj
        exact ⟨fun q => ⟨(hj q).1, (hj q).2.1⟩, fun q e hq => absurd hq ((hj q).2.2 e)⟩
    exact h.take hr hstill.1 hstill.2
  · rcases hk with ⟨ht, hn⟩ | ⟨j, hrj, hkj, -⟩
    · exact h.igetNew hi hr hnone ht hn
    · exact absurd hkj (hnone j hrj)

lemma Inv.igetGot (h : Inv n s) (hp : s.pc p = .got k) (hs : s.iget n p k = .ok (i, s')) :
    Inv n ((s'.setFresh i (some p)).setPc p .idle) := by
  rcases h.iget_cases hs with ⟨hr, rfl, rfl⟩ | ⟨hi, hr, hnone, rfl⟩
  · exact h.reuse hp hr
  · exact h.iallocNew hi hr hnone hp

def Outcome (n : ℕ) : Except Panic State → Prop
  | .ok s' => Inv n s'
  | .error e => e = .igetNoInodes ∨ e = .iallocNoInodes

lemma Inv.next (h : Inv n s) {r : Except Panic State} (hs : s.next n ninodes p = some r) :
    Outcome n r := by
  unfold State.next at hs
  split at hs
  · cases hs
  · rename_i dev t inum hp
    split_ifs at hs with hi ht <;> cases hs
    · exact h.mark hp ht
    · exact h.move (.inr ⟨_, _, _, hp⟩) (.inl ⟨_, _, _, rfl, h.scan p _ _ _ hp⟩)
    · exact .inr rfl
  · rename_i k hp
    split at hs <;> cases hs
    · rename_i i s' hi
      exact h.igetGot hp hi
    · rename_i e he
      exact .inl (iget_error he)
  · rename_i i hp
    split_ifs at hs with hb
    cases hs
    exact h.acquire hp (by simpa using hb)
  · rename_i i hp
    split_ifs at hs with hv <;> cases hs
    · exact h.test hp (.inl ⟨rfl, hv⟩)
    · exact h.test hp (.inr rfl)
  · rename_i i hp
    obtain ⟨-, -, -, hlive⟩ := (h.slots i).holder ((h.slots i).inlock p (by rw [hp]; rfl)) (by simp [hp])
    simp only at hs
    split_ifs at hs with ht <;> cases hs
    · exact absurd ht hlive.type
    · exact h.readDisk hp
  · rename_i i hp
    cases hs
    exact h.itrunc hp
  · rename_i i hp
    cases hs
    exact h.untype hp
  · rename_i i d hp
    cases hs
    exact h.finish hp

lemma Inv.step (h : Inv n s) {e : ℕ × Act} (he : Allowed s e) {r : Except Panic State}
    (hs : s.step n ninodes e = some r) : Outcome n r := by
  obtain ⟨p, a⟩ := e
  simp only [State.step] at hs
  split at hs
  · exact h.next hs
  · rename_i dev t hp
    split_ifs at hs with ht
    cases hs
    exact h.move (.inl hp) (.inl ⟨_, _, _, rfl, ht⟩)
  · rename_i k hp
    split at hs <;> cases hs
    · rename_i i s' hi
      exact h.iget (he k rfl) hi
    · rename_i e he
      exact .inl (iget_error he)
  · rename_i i r hp
    split_ifs at hs with hi
    cases hs
    exact h.idup hp hi
  · rename_i i hp
    split_ifs at hs with hi hr <;> cases hs
    · exact absurd ((h.slots i).ref_pos hi) (by omega)
    · exact h.move (.inl hp) (.inr ⟨i, rfl, hi⟩)
  · rename_i i d hp
    split_ifs at hs with hl
    cases hs
    exact h.modify hp hl.1 hl.2
  · rename_i i hp
    split_ifs at hs with hl hf <;> cases hs
    · exact h.iupdate hp hl (.inl rfl)
    · exact h.iupdate hp hl (.inr rfl)
  · rename_i i hp
    split_ifs at hs with hl hb <;> cases hs
    · obtain ⟨hr, -, hbusy, -⟩ := (h.slots i).holder hl.1 (by simp [hp])
      rcases hb with hb | hb
      · rw [hbusy] at hb
        cases hb
      · omega
    · exact h.iunlock hp hl.1 hl.2.1
  · rename_i i hp
    split_ifs at hs with hi hf hb <;> cases hs
    · rw [((h.slots i).alone hp hi.1 hf.1 hi.2).1] at hb
      cases hb
    · exact h.startFree hp hi.1 hf.1 hi.2 hf.2.1 hf.2.2
    · exact h.drop hp hi.1 hi.2 hf
  · cases hs

lemma iget_ref_le (hs : s.iget n p k = .ok (j, s')) (i : ℕ) : (s.slot i).ref ≤ (s'.slot i).ref := by
  unfold State.iget at hs
  split at hs
  · cases hs
    grind -linarith
  · split at hs
    · rename_i hj
      have := List.find?_some hj
      cases hs
      grind -linarith
    · cases hs

lemma next_ref_le (hs : s.next n ninodes p = some (.ok s')) (hp : ∀ d, s.pc p ≠ .freed i d) :
    (s.slot i).ref ≤ (s'.slot i).ref := by
  unfold State.next at hs
  split at hs
  · cases hs
  · split_ifs at hs <;> cases hs
    · exact le_rfl
    · exact le_rfl
  · split at hs <;> cases hs
    rename_i hi
    exact iget_ref_le hi i
  · split_ifs at hs
    cases hs
    grind -linarith
  · split_ifs at hs <;> cases hs
    · exact le_rfl
    · exact le_rfl
  · simp only at hs
    split_ifs at hs
    cases hs
    grind -linarith
  · cases hs
    grind -linarith
  · cases hs
    grind -linarith
  · rename_i j d hd
    have hij : i ≠ j := by
      rintro rfl
      exact hp d hd
    cases hs
    simp [hij]

lemma Step.drops {e : ℕ × Act} (hs : Step n ninodes s e s') (hr : (s'.slot i).ref < (s.slot i).ref) :
    (∃ d, s.pc e.1 = .freed i d ∧ (s'.slot i).ref + 1 = (s.slot i).ref ∧ ∀ k, s'.disk k = s.disk k ∧
    (Claimed s k → Claimed s' k)) ∨
    s.pc e.1 = .idle ∧ (e.1, i) ∈ s.held ∧
    ((e.1, i) ∈ s.locks ∨ s.fresh i = some e.1 → 2 ≤ s.held.count (e.1, i)) ∧
      s' = s.drop e.1 i := by
  obtain ⟨p, a⟩ := e
  simp only [Step, State.step] at hs
  split at hs
  · by_cases hp : ∃ d, s.pc p = .freed i d
    · obtain ⟨d, hd⟩ := hp
      refine .inl ⟨d, hd, ?_⟩
      simp only [State.next, hd] at hs
      cases hs
      refine ⟨by simp at hr ⊢; omega, fun k => ⟨rfl, ?_⟩⟩
      exact (claimed_iff (p := p) (c := .idle) (fun _ => rfl) (by simp [hd]) (by simp)).mpr
    · exact absurd (next_ref_le hs (not_exists.mp hp)) (by omega)
  · split_ifs at hs
    cases hs
    exact absurd hr (lt_irrefl _)
  · split at hs <;> cases hs
    rename_i hi
    exact absurd (iget_ref_le hi i) (by omega)
  · split_ifs at hs
    cases hs
    grind -linarith
  · split_ifs at hs <;> cases hs
    exact absurd hr (lt_irrefl _)
  · split_ifs at hs
    cases hs
    grind -linarith
  · split_ifs at hs <;> cases hs <;> exact absurd hr (lt_irrefl _)
  · split_ifs at hs
    cases hs
    grind -linarith
  · rename_i j hp
    split_ifs at hs with hj hf hb <;> cases hs
    · grind -linarith
    · have hij : i = j := by grind -linarith
      subst hij
      exact .inr ⟨hp, hj.1, hj.2, rfl⟩
  · cases hs

lemma Inv.last_reference (h : Inv n s) (h' : Inv n s') {e : ℕ × Act} (hs : Step n ninodes s e s')
    (hr : 0 < (s.slot i).ref) (hr' : (s'.slot i).ref = 0) (hn : (s'.disk (s.slot i).key).nlink = 0) :
    ∃ p d, s.pc p = .freed i d ∧ Cleared d ∧
    (s'.disk (s.slot i).key = d ∨ Claimed s' (s.slot i).key) := by
  rcases hs.drops (i := i) (by omega) with ⟨d, hp, hone, hsame⟩ | ⟨hp, hi, hlast, rfl⟩
  · refine ⟨e.1, d, hp, ((h.slots i).freed hp).1, ?_⟩
    rw [(hsame _).1]
    exact ((h.slots i).unclaimed hp (by omega)).imp_right (hsame _).2
  · have hr1 : (s.slot i).ref = 1 := by
      simp at hr'
      omega
    obtain ⟨-, -, -, hnf⟩ := (h.slots i).alone hp hi hr1 hlast
    have hlive := (h.slots i).live hr hnf
    have hgone : ∀ j, 0 < ((s.drop e.1 i).slot j).ref → ((s.drop e.1 i).slot j).key ≠ (s.slot i).key := by
      intro j hj hkey
      have := h.uniq j i
      grind -linarith
    rcases h'.orphan _ hgone with h1 | h1 | h1
    · exact absurd h1 hlive.type
    · exact absurd hn h1
    · exact absurd h1 hlive.unclaimed

lemma Inv.ilock_returns (h : Inv n s) (h' : Inv n s') (hs : Step n ninodes s (p, .next) s')
    (hp : s.pc p = .test i ∨ s.pc p = .read i) (hp' : s'.pc p = .idle) :
    (s'.slot i).valid = true ∧ (s'.slot i).gen = s'.gen (s'.slot i).key ∧
      (s'.slot i).dip.type = (s'.disk (s'.slot i).key).type ∧ (s'.disk (s'.slot i).key).type ≠ 0 := by
  have hl := (h.slots i).inlock p (by rcases hp with hp | hp <;> rw [hp] <;> rfl)
  have hl' : (p, i) ∈ s'.locks := by
    simp only [Step, State.step] at hs
    rcases hp with hp | hp
    · simp only [State.next, hp] at hs
      split_ifs at hs <;> cases hs <;> exact hl
    · simp only [State.next, hp] at hs
      split_ifs at hs <;> cases hs
      exact hl
  have hv := (h'.slots i).owned p hl' (by rw [hp']; exact id)
  obtain ⟨-, -, -, hlive⟩ := (h'.slots i).holder hl' (by simp [hp'])
  obtain ⟨h1, h2, -⟩ := hlive.current hv
  exact ⟨hv, h2, h1, hlive.type⟩

lemma Inv.run {disk : Key → Dinode} (hdisk : ∀ k, (disk k).type ≠ 0 → (disk k).nlink ≠ 0)
    {es : List (ℕ × Act)} (hrun : Run (NamedStep n ninodes) (State.init disk) es s) : Inv n s :=
  hrun.state_invariant (.init hdisk) (fun _ _ _ h hs => h.step hs.1 hs.2)

theorem icache_discipline (n : ℕ) (ninodes : UInt32) (disk : Key → Dinode)
    (hdisk : ∀ k, (disk k).type ≠ 0 → (disk k).nlink ≠ 0) (es : List (ℕ × Act)) (s : State)
    (hrun : Run (NamedStep n ninodes) (State.init disk) es s) :
    (∀ i j, 0 < (s.slot i).ref → 0 < (s.slot j).ref → (s.slot i).key = (s.slot j).key → i = j) ∧
    (∀ i, (s.slot i).ref = tally s.held i) ∧
    (∀ p q i, (p, i) ∈ s.locks → (q, i) ∈ s.locks → q = p) ∧
    (∀ i, (s.slot i).busy = true ↔ ∃ p, (p, i) ∈ s.locks) ∧
    (∀ e x, Allowed s e → s.step n ninodes e = some (.error x) → x = .igetNoInodes ∨
    x = .iallocNoInodes) ∧
    (∀ e s' i, NamedStep n ninodes s e s' → 0 < (s.slot i).ref → (s'.slot i).ref = 0 →
      (s'.disk (s.slot i).key).nlink = 0 → ∃ p d, s.pc p = .freed i d ∧ Cleared d ∧
        (s'.disk (s.slot i).key = d ∨ Claimed s' (s.slot i).key)) ∧
    (∀ p i s', NamedStep n ninodes s (p, .next) s' → (s.pc p = .test i ∨ s.pc p = .read i) →
      s'.pc p = .idle → (s'.slot i).valid = true ∧ (s'.slot i).gen = s'.gen (s'.slot i).key ∧
        (s'.slot i).dip.type = (s'.disk (s'.slot i).key).type ∧ (s'.disk (s'.slot i).key).type ≠ 0) := by
  have h := Inv.run hdisk hrun
  refine ⟨h.uniq, fun i => (h.slots i).ref, fun p q i => (h.slots i).lock_unique,
    fun i => (h.slots i).busy_iff,
    fun e x he hs => h.step he hs, fun e s' i hs => ?_, fun p i s' hs => ?_⟩
  · exact h.last_reference (h.step hs.1 hs.2) hs.2
  · exact h.ilock_returns (h.step hs.1 hs.2) hs.2

def rootOnly (k : Key) : Dinode := if k = (1, 1) then { Dinode.zero with type := 1, nlink := 1 }
    else Dinode.zero

lemma rootOnly_linked (k : Key) (h : (rootOnly k).type ≠ 0) : (rootOnly k).nlink ≠ 0 := by
  unfold rootOnly at h ⊢
  split_ifs at h ⊢ with hk
  · decide
  · exact absurd rfl h

def advance (n : ℕ) (ninodes : UInt32) (s : State) (e : ℕ × Act) : Option State :=
  match s.step n ninodes e with
  | some (.ok s') => some s'
  | _ => none

lemma step_of_advance {e : ℕ × Act} (h : s.advance n ninodes e = some s') : Step n ninodes s e s' := by
  unfold advance at h
  split at h
  · rename_i hs
    cases h
    exact hs
  · cases h

def advanceNamed (n : ℕ) (ninodes : UInt32) (s : State) : ℕ × Act → Option State
  | (_, .iget _) => none
  | e => s.advance n ninodes e

lemma named_of_advanceNamed {e : ℕ × Act} (h : s.advanceNamed n ninodes e = some s') :
    NamedStep n ninodes s e s' := by
  unfold advanceNamed at h
  split at h
  case h_1 => cases h
  case h_2 hne => exact ⟨fun k hk => (hne e.1 k (Prod.ext rfl hk)).elim, step_of_advance h⟩

def createUnlink : List (ℕ × Act) :=
  [.ialloc 1 2, .next, .next, .next, .ilock 0, .next, .next, .next,
    .modify 0 { Dinode.zero with type := 2, nlink := 1 },
    .iupdate 0, .modify 0 { Dinode.zero with type := 2 }, .iupdate 0, .iunlock 0, .iput 0, .next,
    .next].map (0, ·)

theorem icache_discipline_unlinked :
    ∃ s s', Run (NamedStep NINODE 200) (State.init rootOnly) createUnlink s ∧ NamedStep NINODE 200 s
    (0, .next) s' ∧
      (s.slot 0).ref = 1 ∧ (s'.slot 0).ref = 0 ∧ ∃ p d, s.pc p = .freed 0 d ∧ Cleared d := by
  obtain ⟨s, hs, hr, s', hs', hr', hn⟩ :
    ∃ s ∈ exec (advanceNamed NINODE 200) (State.init rootOnly) createUnlink,
    (s.slot 0).ref = 1 ∧ ∃ s' ∈ s.advanceNamed NINODE 200 (0, .next), (s'.slot 0).ref = 0 ∧
      (s'.disk (s.slot 0).key).nlink = 0 := by decide +kernel
  have hrun := (run_of_exec hs).mono (fun _ _ _ => named_of_advanceNamed)
  have hnext := named_of_advanceNamed hs'
  obtain ⟨p, d, hpc, hd, -⟩ := (icache_discipline NINODE 200 rootOnly rootOnly_linked _ s
    hrun).2.2.2.2.2.1 _ s' 0 hnext (by omega) hr' hn
  exact ⟨s, s', hrun, hnext, hr, hr', p, d, hpc, hd⟩

def strayGet : List (ℕ × Act) := [(0, .ialloc 1 2), (0, .next), (0, .next), (1, .iget (1, 2))]

theorem last_put_leaves_unlinked_inode :
    ∃ s s', Run (Step NINODE 200) (State.init rootOnly) strayGet s ∧ Step NINODE 200 s (1, .iput 0) s' ∧
      (s.slot 0).ref = 1 ∧ (s'.slot 0).ref = 0 ∧ (s.slot 0).key = (1, 2) ∧
      (s'.disk (1, 2)).nlink = 0 ∧ (s'.disk (1, 2)).type = 2 ∧ s'.gen (1, 2) = 1 := by
  obtain ⟨s, hs, hr, hkey, s', hs', hr', hlost⟩ :
    ∃ s ∈ exec (advance NINODE 200) (State.init rootOnly) strayGet,
    (s.slot 0).ref = 1 ∧ (s.slot 0).key = (1, 2) ∧ ∃ s' ∈ s.advance NINODE 200 (1, .iput 0),
    (s'.slot 0).ref = 0 ∧
      (s'.disk (1, 2)).nlink = 0 ∧ (s'.disk (1, 2)).type = 2 ∧ s'.gen (1, 2) = 1 := by decide +kernel
  have hrun := (run_of_exec hs).mono (fun _ _ _ h => step_of_advance h)
  exact ⟨s, s', hrun, step_of_advance hs', hr, hr', hkey, hlost⟩

end Xv6.Icache.State
