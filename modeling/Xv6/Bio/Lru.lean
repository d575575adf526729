import Xv6.Bio.Cache

namespace Xv6.Bio

open Lib

namespace Bcache

variable {c : Bcache} {l : List ℕ} {dev blockno : UInt32}

@[simp] lemma setBuf_buf (c : Bcache) (b : ℕ) (x : Buf) (b' : ℕ) :
    (c.setBuf b x).buf b' = if b' = b then x else c.buf b' := rfl

structure Listed (c : Bcache) (l : List ℕ) : Prop where
  ring : Ring c.next c.prev l
  mem : ∀ b, b ∈ l ↔ b < NBUF

lemma Listed.perm (h : Listed c l) : l.Perm (List.range NBUF) :=
  (List.perm_ext_iff_of_nodup h.ring.nodup List.nodup_range).mpr (fun b => by rw [h.mem, List.mem_range])

lemma Listed.length (h : Listed c l) : l.length = NBUF := by
  rw [h.perm.length_eq, List.length_range]

lemma Listed.setBuf (h : Listed c l) (b : ℕ) (x : Buf) : Listed (c.setBuf b x) l := ⟨h.ring, h.mem⟩

@[simp] lemma brelse_buf (c : Bcache) (b b' : ℕ) :
    (c.brelse b).buf b' = if b' = b then { c.buf b with busy := false } else c.buf b' := rfl

lemma Listed.brelse (h : Listed c l) {b : ℕ} (hb : b < NBUF) : Listed (c.brelse b) (b :: l.erase b) := by
  have hbl : b ∈ l := (h.mem b).mpr hb
  refine ⟨(h.ring.unlink hbl).pushFront (fun hm => ?_), fun x => ?_⟩
  · exact (List.Nodup.mem_erase_iff h.ring.nodup).mp hm |>.1 rfl
  · rw [List.mem_cons, List.Nodup.mem_erase_iff h.ring.nodup, h.mem]
    by_cases hx : x = b
    · simp [hx, hb]
    · simp [hx]

lemma Listed.bget (h : Listed c l) (dev blockno : UInt32) :
    (∃ b < NBUF, c.carries dev blockno b = true ∧ (c.buf b).busy = true ∧
    c.bget dev blockno = (.sleep b, c)) ∨
    (∃ b < NBUF, c.carries dev blockno b = true ∧ (c.buf b).busy = false ∧
      c.bget dev blockno = (.hit b, c.setBuf b { c.buf b with busy := true })) ∨
    (∃ l1 b l2, l = l1 ++ b :: l2 ∧ (∀ x < NBUF, c.carries dev blockno x = false) ∧ c.idle b = true ∧
      (∀ x ∈ l2, c.idle x = false) ∧
      c.bget dev blockno = (.recycled b, c.setBuf b ⟨true, false, false, dev, blockno, (c.buf b).data⟩)) ∨
    ((∀ x < NBUF, c.carries dev blockno x = false) ∧ (∀ x < NBUF, c.idle x = false) ∧
      c.bget dev blockno = (.panic, c)) := by
  have hfind := h.ring.linked.scan (c.carries dev blockno) (NBUF + 1) (by rw [h.length]; omega)
  have hback := h.ring.linked.reverse.scan c.idle (NBUF + 1)
    (by rw [List.length_reverse, h.length]; omega)
  unfold Bcache.bget
  rw [hfind, hback]
  cases hf : l.find? (c.carries dev blockno) with
  | some b =>
    have hb : b < NBUF := (h.mem b).mp (List.mem_of_find?_eq_some hf)
    have hc : c.carries dev blockno b = true := List.find?_some hf
    cases hbusy : (c.buf b).busy with
    | true => exact .inl ⟨b, hb, hc, hbusy, by simp [hbusy]⟩
    | false => exact .inr (.inl ⟨b, hb, hc, hbusy, by simp [hbusy]⟩)
  | none =>
    have hno : ∀ x < NBUF, c.carries dev blockno x = false := by
      intro x hx
      have := List.find?_eq_none.mp hf x ((h.mem x).mpr hx)
      simpa using this
    cases hr : l.reverse.find? c.idle with
    | none =>
      refine .inr (.inr (.inr ⟨hno, fun x hx => ?_, rfl⟩))
      simpa using List.find?_eq_none.mp hr x (List.mem_reverse.mpr ((h.mem x).mpr hx))
    | some b =>
      obtain ⟨hidle, as, bs, heq, has⟩ := List.find?_eq_some_iff_append.mp hr
      refine .inr (.inr (.inl ⟨bs.reverse, b, as.reverse, ?_, hno, hidle, fun x hx => ?_, rfl⟩))
      · rw [← List.reverse_reverse l, heq]
        simp
      · simpa using has x (List.mem_reverse.mp hx)

lemma binit_buf (b : ℕ) : binit.buf b = ⟨false, false, false, if b < NBUF then -1 else 0, 0,
    Block.zero⟩ := by
  have key : ∀ k, ((List.range k).foldl (fun c b => (Bcache.insert c b).setBuf b
    { c.buf b with dev := -1 }) zeroed).buf b =
      ⟨false, false, false, if b < k then -1 else 0, 0, Block.zero⟩ := by
    intro k
    induction k with
    | zero => rfl
    | succ k ih =>
      rw [List.range_succ, List.foldl_append, List.foldl_cons, List.foldl_nil, setBuf_buf]
      by_cases hb : b = k
      · subst hb
        rw [if_pos rfl, ih, if_pos (Nat.lt_succ_self b)]
      · have hlt : (if b < k + 1 then (-1 : UInt32) else 0) = if b < k then -1 else 0 := by
          simp only [show b < k + 1 ↔ b < k by omega]
        rw [if_neg hb, hlt]
        exact ih
  exact key NBUF

lemma binit_listed : Listed binit (List.range NBUF).reverse ∧
    ∀ b < NBUF, (binit.buf b).dev = -1 ∧ (binit.buf b).busy = false := by
  have key : ∀ k, ∃ c, (List.range k).foldl
    (fun c b => (Bcache.insert c b).setBuf b { c.buf b with dev := -1 }) zeroed = c ∧
      Ring c.next c.prev (List.range k).reverse ∧ (∀ b < k, (c.buf b).dev = -1) ∧ ∀ b,
      (c.buf b).busy = false := by
    intro k
    induction k with
    | zero =>
      exact ⟨zeroed, rfl, ⟨List.nodup_nil, rfl, rfl⟩, fun b hb => absurd hb (Nat.not_lt_zero b),
        fun b => rfl⟩
    | succ k ih =>
      obtain ⟨c, hc, hring, hdev, hbusy⟩ := ih
      rw [List.range_succ, List.foldl_append, hc, List.reverse_append]
      refine ⟨_, rfl, hring.pushFront (by simp), fun b hb => ?_, fun b => ?_⟩
      · show (if b = k then _ else c.buf b).dev = -1
        split_ifs with hk
        · rfl
        · exact hdev b (by omega)
      · show (if b = k then _ else c.buf b).busy = false
        split_ifs
        · exact hbusy k
        · exact hbusy b
  obtain ⟨c, hc, hring, hdev, hbusy⟩ := key NBUF
  have hbinit : binit = c := hc
  rw [hbinit]
  exact ⟨⟨hring, fun b => by simp⟩, fun b hb => ⟨hdev b hb, hbusy b⟩⟩

end Bcache

def Apart (P : UInt32 → UInt32 → Prop) (f : ℕ → Buf) : Prop := ∀ b < NBUF, ∀ b' < NBUF,
    P (f b).dev (f b).blockno →
  (f b).dev = (f b').dev → (f b).blockno = (f b').blockno → b = b'

lemma Apart.assign {P : UInt32 → UInt32 → Prop} {f : ℕ → Buf} {b : ℕ} {x : Buf} (h : Apart P f)
    (hx : (x.dev = (f b).dev ∧ x.blockno = (f b).blockno) ∨
      ∀ y < NBUF, ¬ ((f y).dev = x.dev ∧ (f y).blockno = x.blockno)) : Apart P (assign f b x) := by
  intro y hy z hz hP hd hk
  rw [assign_apply] at hP
  rw [assign_apply, assign_apply] at hd hk
  rcases hx with ⟨hdev, hblock⟩ | hno
  · refine h y hy z hz ?_ ?_ ?_ <;> split_ifs at hP hd hk <;> simp_all
  · split_ifs at hP hd hk with hyb hzb hzb
    · rw [hyb, hzb]
    · exact absurd ⟨hd.symm, hk.symm⟩ (hno z hz)
    · exact absurd ⟨hd, hk⟩ (hno y hy)
    · exact h y hy z hz hP hd hk

namespace State

variable {s s' : State} {l : List ℕ}

def Older (s : State) (x y : ℕ) : Prop :=
  s.released x < s.released y ∨ s.released x = s.released y ∧ x < y

structure Inv (s : State) (l : List ℕ) : Prop where
  listed : s.cache.Listed l
  sorted : l.Pairwise (fun x y => s.Older y x)
  bound : ∀ b, s.released b ≤ s.time
  unique : Apart (fun dev _ => dev ≠ -1) s.cache.buf
  held : ∀ p b, b ∈ s.held p → b < NBUF ∧ (s.cache.buf b).busy = true
  holder : ∀ b < NBUF, (s.cache.buf b).busy = true → ∃ p, b ∈ s.held p
  single : ∀ p q b, b ∈ s.held p → b ∈ s.held q → p = q

lemma Inv.init : Inv State.init (List.range NBUF).reverse := by
  obtain ⟨hl, hb⟩ := Bcache.binit_listed
  refine ⟨hl, ?_, fun b => le_rfl, fun b hlt b' _ hne => absurd (hb b hlt).1 hne, ?_, ?_, ?_⟩
  · rw [List.pairwise_reverse]
    exact List.pairwise_lt_range.imp (fun h => .inr ⟨rfl, h⟩)
  · exact fun p b hm => absurd hm (Finset.notMem_empty b)
  · intro b hlt hbusy
    rw [show (State.init.cache.buf b).busy = false from (hb b hlt).2] at hbusy
    cases hbusy
  · exact fun p q b hm => absurd hm (Finset.notMem_empty b)

lemma Inv.give (h : Inv s l) {p b : ℕ} {x : Buf} {w : ℕ → Want} (hb : b < NBUF)
    (hfree : (s.cache.buf b).busy = false)
    (hx : x.busy = true) (huniq : (x.dev = (s.cache.buf b).dev ∧ x.blockno = (s.cache.buf b).blockno) ∨
      ∀ b' < NBUF, s.cache.carries x.dev x.blockno b' = false) :
    Inv { s with
      cache := s.cache.setBuf b x, held := assign s.held p (insert b (s.held p)), want := w } l := by
  have hnot : ∀ q, b ∉ s.held q := by
    intro q hq
    rw [(h.held q b hq).2] at hfree
    cases hfree
  have hmem : ∀ q b', b' ∈ assign s.held p (insert b (s.held p)) q ↔ (q = p ∧ b' = b) ∨
    b' ∈ s.held q := by
    intro q b'
    by_cases hq : q = p
    · subst hq
      simp [assign_self]
    · simp [assign_of_ne hq, hq]
  refine ⟨h.listed.setBuf b x, h.sorted, h.bound,
    h.unique.assign (huniq.imp_right fun hno y hy => of_decide_eq_false (hno y hy)), fun q b' hq => ?_,
    fun b' hlt hbusy => ?_, fun q r b' hq hr => ?_⟩
  · simp only [Bcache.setBuf_buf]
    rcases (hmem q b').mp hq with ⟨rfl, rfl⟩ | hold
    · exact ⟨hb, by simp [hx]⟩
    · refine ⟨(h.held q b' hold).1, ?_⟩
      split_ifs
      · exact hx
      · exact (h.held q b' hold).2
  · by_cases hbb : b' = b
    · exact ⟨p, (hmem p b').mpr (.inl ⟨rfl, hbb⟩)⟩
    · simp only [Bcache.setBuf_buf, if_neg hbb] at hbusy
      obtain ⟨q, hq⟩ := h.holder b' hlt hbusy
      exact ⟨q, (hmem q b').mpr (.inr hq)⟩
  · rcases (hmem q b').mp hq with ⟨hqp, hqb⟩ | hq' <;> rcases (hmem r b').mp hr with ⟨hrp, hrb⟩ | hr'
    · rw [hqp, hrp]
    · exact absurd (hqb ▸ hr') (hnot r)
    · exact absurd (hrb ▸ hq') (hnot q)
    · exact h.single q r b' hq' hr'

lemma Inv.want (h : Inv s l) (w : ℕ → Want) : Inv { s with want := w } l :=
  { h with }

lemma Inv.scan (h : Inv s l) {p : ℕ} {dev blockno : UInt32} (hs : s.scan p dev blockno = some s') :
    Inv s' l := by
  unfold State.scan at hs
  rcases h.listed.bget dev blockno with
    ⟨b, hb, hc, hbusy, heq⟩ | ⟨b, hb, hc, hfree, heq⟩ | ⟨l1, b, l2, hl, hno, hidle, -, heq⟩ | ⟨-, -, heq⟩
  · rw [heq] at hs
    cases hs
    exact h.want _
  · rw [heq] at hs
    cases hs
    exact h.give hb hfree rfl (.inl ⟨rfl, rfl⟩)
  · rw [heq] at hs
    cases hs
    have hb : b < NBUF := (h.listed.mem b).mp (by rw [hl]; simp)
    exact h.give hb (of_decide_eq_true hidle).1 rfl (.inr hno)
  · rw [heq] at hs
    cases hs

lemma Inv.update (h : Inv s l) {b : ℕ} (valid dirty : Bool) (data : Block) :
    Inv { s with
      cache := s.cache.setBuf b { s.cache.buf b with valid := valid, dirty := dirty, data := data } } l := by
  have hsame : ∀ b', ((s.cache.setBuf b
    { s.cache.buf b with valid := valid, dirty := dirty, data := data }).buf b').busy =
      (s.cache.buf b').busy := by
    intro b'
    rw [Bcache.setBuf_buf]
    split_ifs with hb
    · rw [hb]
    · rfl
  refine ⟨h.listed.setBuf _ _, h.sorted, h.bound, h.unique.assign (.inl ⟨rfl, rfl⟩), fun p b' hp => ?_,
    fun b' hlt hbusy => ?_, h.single⟩
  · rw [hsame]
    exact h.held p b' hp
  · rw [hsame] at hbusy
    exact h.holder b' hlt hbusy

lemma Inv.brelse (h : Inv s l) {p b : ℕ} (hb : b ∈ s.held p) (w : ℕ → Want) : Inv { s with
      cache := s.cache.brelse b, held := assign s.held p ((s.held p).erase b),
      want := w, time := s.time + 1, released := assign s.released b (s.time + 1) } (b :: l.erase b) := by
  have hlt := (h.held p b hb).1
  have hmem : ∀ q b', b' ∈ assign s.held p ((s.held p).erase b) q ↔ b' ∈ s.held q ∧ b' ≠ b := by
    intro q b'
    by_cases hq : q = p
    · subst hq
      simp [assign_self, and_comm]
    · rw [assign_of_ne hq]
      refine ⟨fun hm => ⟨hm, ?_⟩, fun hm => hm.1⟩
      rintro rfl
      exact hq (h.single q p b' hm hb)
  refine ⟨h.listed.brelse hlt, ?_, fun b' => ?_, h.unique.assign (.inl ⟨rfl, rfl⟩), fun q b' hq => ?_,
    fun b' hl' hbusy => ?_, fun q r b' hq hr => h.single q r b' ((hmem q b').mp hq).1
    ((hmem r b').mp hr).1⟩
  · refine List.pairwise_cons.mpr ⟨fun x hx => .inl ?_, ?_⟩
    · have hxb : x ≠ b := ((List.Nodup.mem_erase_iff h.listed.ring.nodup).mp hx).1
      have := h.bound x
      simp only [assign_of_ne hxb, assign_self]
      omega
    · refine List.Pairwise.imp_of_mem ?_ (h.sorted.erase b)
      intro x y hx hy hold
      have hxb : x ≠ b := ((List.Nodup.mem_erase_iff h.listed.ring.nodup).mp hx).1
      have hyb : y ≠ b := ((List.Nodup.mem_erase_iff h.listed.ring.nodup).mp hy).1
      simpa only [Older, assign_of_ne hxb, assign_of_ne hyb] using hold
  · have := h.bound b'
    show assign s.released b (s.time + 1) b' ≤ s.time + 1
    unfold assign
    split_ifs <;> omega
  · obtain ⟨hq, hne⟩ := (hmem q b').mp hq
    simpa only [Bcache.brelse_buf, if_neg hne] using h.held q b' hq
  · have hne : b' ≠ b := by
      rintro rfl
      simp at hbusy
    simp only [Bcache.brelse_buf, if_neg hne] at hbusy
    obtain ⟨q, hq⟩ := h.holder b' hl' hbusy
    exact ⟨q, (hmem q b').mpr ⟨hq, hne⟩⟩

lemma Inv.step (h : Inv s l) {e : Event} (hs : s.step e = some s') : ∃ l', Inv s' l' := by
  cases e with
  | bget p dev blockno =>
    simp only [State.step] at hs
    split at hs
    · exact ⟨l, h.scan hs⟩
    · cases hs
  | rescan p =>
    simp only [State.step] at hs
    split at hs
    · exact ⟨l, h.scan hs⟩
    · cases hs
  | kill p =>
    simp only [State.step] at hs
    split at hs
    · cases hs
      exact ⟨l, h.want _⟩
    · cases hs
  | update p b valid dirty data =>
    simp only [State.step] at hs
    split_ifs at hs
    cases hs
    exact ⟨l, h.update valid dirty data⟩
  | brelse p b =>
    simp only [State.step] at hs
    split_ifs at hs with hb
    cases hs
    exact ⟨_, h.brelse hb _⟩

def Step (s : State) (e : Event) (s' : State) : Prop := s.step e = some s'

lemma Inv.run {es : List Event} (hr : Run Step State.init es s) : ∃ l, Inv s l :=
  hr.state_invariant (P := fun s => ∃ l, Inv s l) ⟨_, Inv.init⟩ (fun _ _ _ ⟨_, h⟩ hs => h.step hs)

def walk (c : Bcache) : List (Option ℕ) := (List.range NBUF).map (fun i => c.next^[i + 1] none)

theorem buffer_cache_representation (es : List Event) (s : State) (hrun : Run Step init es s) :
    (walk s.cache).Perm ((List.range NBUF).map some) ∧ s.cache.next^[NBUF + 1] none = none ∧
    (∀ x ∈ none :: (List.range NBUF).map some, s.cache.prev (s.cache.next x) = x ∧
    s.cache.next (s.cache.prev x) = x) ∧
    (∀ b < NBUF, ∀ b' < NBUF, (s.cache.buf b).dev ≠ -1 → (s.cache.buf b).dev = (s.cache.buf b').dev →
      (s.cache.buf b).blockno = (s.cache.buf b').blockno → b = b') ∧
    (∀ b < NBUF, (s.cache.buf b).busy = true → ∃! p, b ∈ s.held p) ∧
    (∀ dev blockno b c, s.cache.bget dev blockno = (.recycled b, c) → b < NBUF ∧ s.cache.idle b = true ∧
      ∀ b' < NBUF, s.cache.idle b' = true → b' ≠ b → s.Older b b') := by
  obtain ⟨l, h⟩ := Inv.run hrun
  have hlen := h.listed.length
  obtain ⟨hwalk, hend⟩ := h.listed.ring.linked.iterate
  obtain ⟨hp₁, hp₂⟩ := h.listed.ring.linked.prev_next
  obtain ⟨hn₁, hn₂⟩ := h.listed.ring.linked.reverse.prev_next
  rw [hlen] at hwalk hend
  refine ⟨?_, hend, fun x hx => ?_, h.unique, fun b hb hbusy => ?_, fun dev blockno b c hget => ?_⟩
  · rw [walk, hwalk]
    exact h.listed.perm.map some
  · rcases List.mem_cons.mp hx with rfl | hx
    · exact ⟨hp₁, hn₁⟩
    · obtain ⟨b, hb, rfl⟩ := List.mem_map.mp hx
      have hbl : b ∈ l := (h.listed.mem b).mpr (List.mem_range.mp hb)
      exact ⟨hp₂ b hbl, hn₂ b (List.mem_reverse.mpr hbl)⟩
  · obtain ⟨p, hp⟩ := h.holder b hb hbusy
    exact ⟨p, hp, fun q hq => h.single q p b hq hp⟩
  · rcases h.listed.bget dev blockno with
      ⟨b₁, -, -, -, heq⟩ | ⟨b₁, -, -, -, heq⟩ | ⟨l₁, b₁, l₂, hl, -, hidle, hlast, heq⟩ | ⟨-, -, heq⟩ <;>
      rw [heq] at hget <;> cases hget
    refine ⟨(h.listed.mem b).mp (by rw [hl]; simp), hidle, fun b' hb' hidle' hne => ?_⟩
    have hb'l : b' ∈ l := (h.listed.mem b').mpr hb'
    -- every idle buffer but the last one on the list stands before it
    have hsort := h.sorted
    rw [hl, List.pairwise_append] at hsort
    rw [hl, List.mem_append, List.mem_cons] at hb'l
    rcases hb'l with hmem | rfl | hmem
    · exact hsort.2.2 b' hmem b (List.mem_cons_self ..)
    · exact absurd rfl hne
    · rw [hlast b' hmem] at hidle'
      cases hidle'

def fillCache : List Event :=
  (List.range NBUF).map (fun k => .bget 0 1 (UInt32.ofNat k)) ++ [.brelse 0 5, .brelse 0 3]

theorem buffer_cache_representation_full : ∃ s, Run Step init fillCache s ∧ (∃! p, 4 ∈ s.held p) ∧
    ∃ c, s.cache.bget 1 99 = (.recycled 5, c) ∧ s.Older 5 3 := by
  obtain ⟨s, hs, hbusy, hget, hidle⟩ : ∃ s ∈ exec step init fillCache, (s.cache.buf 4).busy = true ∧
    (s.cache.bget 1 99).1 = .recycled 5 ∧ s.cache.idle 3 = true := by decide +kernel
  have hrun := run_of_exec hs
  obtain ⟨-, -, -, -, hheld, holdest⟩ := buffer_cache_representation fillCache s hrun
  have hbget : s.cache.bget 1 99 = (.recycled 5, (s.cache.bget 1 99).2) := Prod.ext hget rfl
  exact ⟨s, hrun, hheld 4 (by decide) hbusy, _, hbget,
    (holdest 1 99 5 _ hbget).2.2 3 (by decide) hidle (by decide)⟩

end State

end Xv6.Bio
