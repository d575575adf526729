import Xv6.Umalloc.Sbrk
import Xv6.Umalloc.Wrap

namespace Xv6.Umalloc

open Lib

structure Process extends State where
  mem : Mem

namespace Process

open Heap

def malloc (base fuel : ℕ) (s : Process) (nbytes : ℕ) (ok : ℕ → Bool) : Option (Process × ℕ) :=
  (s.heap.malloc base fuel (s.mem.answers (sbrkArg nbytes) fuel ok) nbytes).map fun r =>
    (⟨⟨r.1, if r.2.1 = 0 then s.live else (r.2.1 - 8, nbytes) :: s.live⟩,
      s.mem.after (sbrkArg nbytes) (fuel - r.2.2.length) ok⟩, r.2.1)

/-- `malloc` is called with any `uint`; `free` and the stores of the program are on blocks that it
has. -/
inductive Event
  | malloc (nbytes : ℕ) (ok : ℕ → Bool)
  | free (ap : ℕ)
  | write (a ptr size : ℕ)

def Allowed (s : Process) : Event → Prop
  | .malloc nbytes _ => nbytes < 2 ^ 32
  | .free ap => ∃ b ∈ s.live, ap = b.1 + 8
  | .write a _ _ => ∃ b ∈ s.live, b.1 < a ∧ a < b.1 + 8 * nunits b.2 ∧ 8 ∣ a

instance (s : Process) : (e : Event) → Decidable (s.Allowed e)
  | .malloc .. => inferInstanceAs (Decidable (_ < _))
  | .free _ => inferInstanceAs (Decidable (∃ b ∈ s.live, _))
  | .write .. => inferInstanceAs (Decidable (∃ b ∈ s.live, _))

def step (base fuel : ℕ) (s : Process) (e : Event) : Option Process :=
  if s.Allowed e then
    match e with
    | .malloc nbytes ok => (s.malloc base fuel nbytes ok).map Prod.fst
    | .free ap => (s.heap.free fuel ap).map fun h => ⟨⟨h, s.live.eraseP fun b => b.1 + 8 = ap⟩, s.mem⟩
    | .write a ptr size => some ⟨⟨s.heap.store a ptr size, s.live⟩, s.mem⟩
  else none

def Step (base : ℕ) (s : Process) (e : Event) (s' : Process) : Prop :=
  ∃ k, ∀ fuel, k ≤ fuel → s.step base fuel e = some s'

def init (ptr size : ℕ → ℕ) (sz : ℕ) : Process := ⟨State.init ptr size, ⟨sz, pgroundup sz⟩⟩

def Fits (base : ℕ) (s : Process) (nbytes : ℕ) (ok : ℕ → Bool) : Prop :=
  nbytes + 16 ≤ 2 ^ 31 ∨ 2 ^ 32 ≤ nbytes + 7 ∧ (s.heap.freep = 0 ∨ s.heap.ptr base = base) ∧
    (KERNBASE ≤ s.mem.sz + 8 * 4096 ∨ ok 0 = false)

def Good (base : ℕ) (s : Process) : Event → Prop
  | .malloc nbytes ok => s.Fits base nbytes ok
  | _ => True

/-- `malloc` returns 0 or `nbytes` bytes from the memory between `lo`, where the break was at the
start, and the break, none of them in a block of the program, and the process has no less memory
than before. -/
def Honours (base lo : ℕ) (s : Process) (nbytes : ℕ) (ok : ℕ → Bool) : Prop :=
  ∃ s' r k, (∀ fuel, k ≤ fuel → s.malloc base fuel nbytes ok = some (s', r)) ∧
    (r = 0 ∨ ∀ a, r ≤ a → a < r + nbytes →
      lo ≤ a ∧ a < s'.mem.sz ∧ ∀ b ∈ s.live, ¬ (b.1 ≤ a ∧ a < b.1 + 8 * nunits b.2)) ∧
    s.mem.sz ≤ s'.mem.sz ∧ s.mem.mapped ≤ s'.mem.mapped

variable {base lo nbytes n : ℕ} {s s' : Process} {ok : ℕ → Bool} {fl lv : List ℕ} {h h' : Heap}

section sizes

lemma nunits_small (hn : nbytes + 16 ≤ 2 ^ 31) : nunits nbytes < 2 ^ 28 ∧
    nbytes ≤ 8 * (nunits nbytes - 1) := by
  unfold nunits
  omega

lemma nunits_large (hn : 2 ^ 31 < nbytes + 16) (hlt : nbytes + 7 < 2 ^ 32) :
    2 ^ 28 ≤ nunits nbytes ∧ nunits nbytes ≤ 2 ^ 29 := by
  unfold nunits
  omega

lemma nunits_wrap (hn : 2 ^ 32 ≤ nbytes + 7) (hlt : nbytes < 2 ^ 32) : nunits nbytes = 1 := by
  unfold nunits
  omega

lemma request_lt (hn : n < 2 ^ 28) : 8 * request n < 2 ^ 31 := by
  unfold request
  split_ifs <;> omega

end sizes

structure Placed (base lo sz : ℕ) (h : Heap) (fl lv : List ℕ) : Prop where
  ok : Ok h base fl lv
  low : ∀ x ∈ fl ++ lv, lo ≤ x
  regions : ∀ r ∈ h.regions, r.1 + 8 * r.2 ≤ sz

lemma Placed.top_le {sz : ℕ} (hp : Placed base lo sz h fl lv) (hb : base + 8 ≤ sz) : h.top base ≤ sz := by
  unfold Heap.top
  split
  · exact hb
  · rename_i a nu rest heq
    exact hp.regions (a, nu) (by simp [heq])

lemma placed_of_taken {sz q : ℕ} {fl0 fl' : List ℕ} (ht : Taken h h' base n q fl0 fl' lv)
    (hlow : ∀ x ∈ fl0, lo ≤ x)
    (hlv : ∀ x ∈ lv, lo ≤ x) (hr : ∀ r ∈ h'.regions, r.1 + 8 * r.2 ≤ sz) :
    Placed base lo sz h' fl' (q :: lv) := by
  obtain ⟨p, hp, hpq⟩ := ht.above
  refine ⟨ht.ok, fun x hx => ?_, hr⟩
  rcases List.mem_append.mp hx with hx | hx
  · exact hlow x (ht.sub hx)
  · rcases List.mem_cons.mp hx with rfl | hx
    · exact (hlow p hp).trans hpq
    · exact hlv x hx

structure Inv (base lo : ℕ) (s : Process) : Prop where
  heap : s.heap.freep = 0 ∧ s.heap.regions = [] ∧ s.live = [] ∨
    ∃ fl, Placed base lo s.mem.sz s.heap fl s.blocks
  live : ∀ b ∈ s.live, s.heap.size b.1 = nunits b.2 ∧ b.2 + 16 ≤ 2 ^ 31
  base : base + 8 ≤ lo
  lo : lo ≤ s.mem.sz
  aligned : 8 ∣ s.mem.sz
  sz : s.mem.sz < KERNBASE
  mapped : s.mem.mapped = pgroundup s.mem.sz

lemma Inv.start (h0 : 0 < base) (h : Inv base lo s) :
    ∃ fl, Placed base lo s.mem.sz (s.heap.start base) fl s.blocks ∧
      (∀ b ∈ s.live, (s.heap.start base).size b.1 = nunits b.2 ∧ b.2 + 16 ≤ 2 ^ 31) ∧
      (fl = [] ↔ s.heap.freep = 0 ∨ s.heap.ptr base = base) := by
  have hK : KERNBASE = 2 ^ 31 := rfl
  have hb := h.base
  have hlo := h.lo
  have hsz := h.sz
  rcases h.heap with ⟨hp, hr, hl⟩ | ⟨fl, hpl⟩
  · have hbl : s.blocks = [] := by rw [State.blocks, hl]; rfl
    rw [hbl, hl]
    refine ⟨[], ⟨State.start_empty (by omega) hp hr, by simp, ?_⟩, by simp, by simp [hp]⟩
    rw [State.start_regions, hr]
    simp
  · have hne : s.heap.freep ≠ 0 := by
      have := hpl.ok.list.base_le hpl.ok.freep
      omega
    rw [State.start_of_ok h0 hpl.ok]
    refine ⟨fl, hpl, h.live, ?_⟩
    have hlink := hpl.ok.list.link (show base :: fl = [] ++ base :: fl from rfl)
    cases fl with
    | nil => exact iff_of_true rfl (.inr hlink)
    | cons c fl =>
      have hc : base ≠ c := ((List.pairwise_cons.mp hpl.ok.list.sorted).1 c List.mem_cons_self).ne
      simp only [reduceCtorEq, false_iff, not_or]
      exact ⟨hne, fun heq => hc (heq.symm.trans hlink)⟩

def result (s : Process) (nbytes : ℕ) (ok : ℕ → Bool) (h' : Heap) (r c : ℕ) : Process :=
  ⟨⟨h', if r = 0 then s.live else (r - 8, nbytes) :: s.live⟩, s.mem.after (sbrkArg nbytes) c ok⟩

lemma answers_length (w : Int32) (k : ℕ) (m : Mem) (ok : ℕ → Bool) : (m.answers w k ok).length = k := by
  induction k generalizing m ok with
  | zero => rfl
  | succ k ih => rw [Mem.answers, List.length_cons, ih]

lemma answers_head {k : ℕ} (w : Int32) (hk : 0 < k) (m : Mem) (ok : ℕ → Bool) :
    (m.answers w k ok).head? = some (m.sys_sbrk w (ok 0)).2 := by
  obtain ⟨k, rfl⟩ := Nat.exists_eq_add_one.mpr hk
  rfl

lemma malloc_eq {fuel r c : ℕ} (hc : c ≤ fuel)
    (hm : s.heap.malloc base fuel (s.mem.answers (sbrkArg nbytes) fuel ok) nbytes =
    some (h', r, (s.mem.answers (sbrkArg nbytes) fuel ok).drop c)) :
    s.malloc base fuel nbytes ok = some (s.result nbytes ok h' r c, r) := by
  rw [malloc, hm, Option.map_some, List.length_drop, answers_length, Nat.sub_sub_self hc]
  rfl

def answer (s : Process) (nbytes : ℕ) (ok : ℕ → Bool) : Option ℕ :=
    (s.mem.sys_sbrk (sbrkArg nbytes) (ok 0)).2

lemma Inv.call (ok : ℕ → Bool) (h0 : 0 < base) (h : Inv base lo s)
    (hn : ∀ hp, s.answer nbytes ok = some hp →
    hp = s.mem.sz ∧ hp + 8 * request (nunits nbytes) < 2 ^ 32) :
    ∃ fl h' r c k, Placed base lo s.mem.sz (s.heap.start base) fl s.blocks ∧
      (∀ b ∈ s.live, (s.heap.start base).size b.1 = nunits b.2 ∧ b.2 + 16 ≤ 2 ^ 31) ∧
      (fl = [] ↔ s.heap.freep = 0 ∨ s.heap.ptr base = base) ∧
      (∀ fuel, k ≤ fuel → s.malloc base fuel nbytes ok = some (s.result nbytes ok h' r c, r)) ∧
      Outcome (s.heap.start base) base (nunits nbytes) fl s.blocks
      (some (s.answer nbytes ok)) h' r c := by
  obtain ⟨fl, hpl, hlive, hnil⟩ := h.start h0
  have hfresh : ∀ hp, some (s.answer nbytes ok) = some (some hp) →
      (s.heap.start base).Fresh base (request (nunits nbytes)) hp := by
    intro hp he
    obtain ⟨rfl, hlt⟩ := hn hp (Option.some.inj he)
    exact ⟨h.aligned, h.base.trans h.lo, hpl.regions, hlt⟩
  obtain ⟨h', r, c, k, hrun, ho⟩ := hpl.ok.mallocLoop_outcome h0 (State.nunits_pos nbytes) hfresh
  have hc : c ≤ 1 := by cases ho <;> omega
  refine ⟨fl, h', r, c, k + 1, hpl, hlive, hnil, fun fuel hf => malloc_eq (by omega) ?_, ho⟩
  exact hrun _ fuel (answers_head _ (by omega) _ _) (by omega)

structure Kept (m m' : Mem) : Prop where
  le : m.sz ≤ m'.sz
  aligned : 8 ∣ m'.sz
  sz : m'.sz < KERNBASE
  mapped : m'.mapped = pgroundup m'.sz

lemma pgroundup_mono {a b : ℕ} (h : a ≤ b) : pgroundup a ≤ pgroundup b :=
  Nat.mul_le_mul_right _ (Nat.div_le_div_right (Nat.add_le_add_right h _))

lemma Inv.mapped_le {m' : Mem} (h : Inv base lo s) (hk : Kept s.mem m') : s.mem.mapped ≤ m'.mapped := by
  rw [h.mapped, hk.mapped]
  exact pgroundup_mono hk.le

lemma Inv.kept_refl (h : Inv base lo s) : Kept s.mem s.mem := ⟨le_rfl, h.aligned, h.sz, h.mapped⟩

lemma Inv.sbrk_small (ok : ℕ → Bool) (h : Inv base lo s) (hn : nunits nbytes < 2 ^ 28) :
    s.mem.sys_sbrk (sbrkArg nbytes) (ok 0) =
      if s.mem.sz + 8 * request (nunits nbytes) < KERNBASE ∧ ok 0 then
        (⟨s.mem.sz + 8 * request (nunits nbytes),
          pgroundup (s.mem.sz + 8 * request (nunits nbytes))⟩, some s.mem.sz)
      else (s.mem, none) := by
  have hpos := request_pos (nunits nbytes)
  exact Mem.sys_sbrk_grow (by omega) (request_lt hn) h.sz

inductive Small (base lo : ℕ) (s : Process) (nbytes : ℕ) (ok : ℕ → Bool) (s' : Process) : ℕ → Prop
  | null : (nunits nbytes = 1 → s.heap.freep = 0 ∨ s.heap.ptr base = base) →
      ¬ (s.mem.sz + 8 * request (nunits nbytes) < KERNBASE ∧ ok 0) → Inv base lo s' →
      Small base lo s nbytes ok s' 0
  | block {q : ℕ} {fl : List ℕ} : s'.live = (q, nbytes) :: s.live →
      Placed base lo s'.mem.sz s'.heap fl (q :: s.blocks) → s'.heap.size q = nunits nbytes →
      (∀ b ∈ s.live, s'.heap.size b.1 = nunits b.2 ∧ b.2 + 16 ≤ 2 ^ 31) →
      ¬ ((s.heap.freep = 0 ∨ s.heap.ptr base = base) ∧
        ¬ (s.mem.sz + 8 * request (nunits nbytes) < KERNBASE ∧ ok 0)) →
      Small base lo s nbytes ok s' (q + 8)

lemma Inv.small (ok : ℕ → Bool) (h0 : 0 < base) (h : Inv base lo s) (hn : nunits nbytes < 2 ^ 28) :
    ∃ s' r k, (∀ fuel, k ≤ fuel → s.malloc base fuel nbytes ok = some (s', r)) ∧ Kept s.mem s'.mem ∧
      Small base lo s nbytes ok s' r := by
  have hK : KERNBASE = 2 ^ 31 := rfl
  have hsbrk := h.sbrk_small ok hn
  have hans : ∀ hp, s.answer nbytes ok = some hp → hp = s.mem.sz ∧
      s.mem.sz + 8 * request (nunits nbytes) < KERNBASE ∧ ok 0 = true := by
    intro hp he
    rw [answer, hsbrk] at he
    split_ifs at he with hc
    · exact ⟨(Option.some.inj he).symm, hc⟩
  obtain ⟨fl, h', r, c, k, hpl, hlive, hnil, hrun, ho⟩ := h.call ok h0 fun hp he => by
    have := hans hp he
    omega
  have hsize : ∀ {h' : Heap}, (∀ x ∈ s.blocks, h'.size x = (s.heap.start base).size x) →
      ∀ b ∈ s.live, h'.size b.1 = nunits b.2 ∧ b.2 + 16 ≤ 2 ^ 31 := fun hsame b hb => by
    rw [hsame _ (List.mem_map_of_mem hb)]
    exact hlive b hb
  refine ⟨_, r, k, hrun, ?_⟩
  have hlow := fun x hx => hpl.low x (List.mem_append_left _ hx)
  have hlv := fun x hx => hpl.low x (List.mem_append_right _ hx)
  cases ho with
  | @fit _ q fl' hy ht hr =>
    refine ⟨h.kept_refl, .block rfl (placed_of_taken ht hlow hlv (hr ▸ hpl.regions)) ht.size
      (hsize ht.same) fun hc => ?_⟩
    obtain ⟨y, hy, -⟩ := hy
    rw [hnil.mpr hc.1] at hy
    cases hy
  | refused hsmall ha =>
    have hc : ¬ (s.mem.sz + 8 * request (nunits nbytes) < KERNBASE ∧ ok 0 = true) := fun hc => by
      rw [Option.join_some, answer, hsbrk, if_pos hc] at ha
      cases ha
    have hmem : s.mem.after (sbrkArg nbytes) 1 ok = s.mem := by
      rw [Mem.after, Mem.after, hsbrk, if_neg hc]
    have hempty : nunits nbytes = 1 → fl = [] :=
      fun h1 => List.eq_nil_iff_forall_not_mem.mpr fun y hy => by
      have hpos := hpl.ok.tiles.pos y (List.mem_append_left _ hy)
      have hlt := hsmall y hy
      unfold len at hpos
      omega
    change Kept s.mem (s.mem.after _ _ _) ∧ _
    rw [hmem]
    refine ⟨h.kept_refl, .null (fun h1 => hnil.mp (hempty h1)) hc ⟨.inr ⟨fl, ?_⟩, hlive, h.base, ?_,
      ?_, ?_, ?_⟩⟩
    all_goals
      simp only [result, hmem, if_true]
    · exact hpl
    · exact h.lo
    · exact h.aligned
    · exact h.sz
    · exact h.mapped
  | @more _ hp q fl' hsmall ha ht hr =>
    obtain ⟨rfl, hlt, hok⟩ := hans hp (Option.some.inj ha)
    have hmem : s.mem.after (sbrkArg nbytes) 1 ok = ⟨s.mem.sz + 8 * request (nunits nbytes),
        pgroundup (s.mem.sz + 8 * request (nunits nbytes))⟩ := by
      rw [Mem.after, Mem.after, hsbrk, if_pos ⟨hlt, hok⟩]
    change Kept s.mem (s.mem.after _ _ _) ∧ _
    rw [hmem]
    have hal := h.aligned
    have hregions : ∀ r ∈ h'.regions, r.1 + 8 * r.2 ≤ s.mem.sz + 8 * request (nunits nbytes) := by
      rw [hr]
      exact List.forall_mem_cons.mpr ⟨le_rfl, fun r hr => (hpl.regions r hr).trans (Nat.le_add_right _ _)⟩
    have hpl' := placed_of_taken ht (List.forall_mem_cons.mpr ⟨h.lo, hlow⟩) hlv hregions
    refine ⟨⟨Nat.le_add_right _ _, by dsimp only; omega, hlt, rfl⟩,
      .block rfl (show Placed _ _ _ _ fl' _ from ?_) ht.size (hsize ht.same) fun hc => hc.2 ⟨hlt, hok⟩⟩
    simpa only [result, hmem] using hpl'

lemma Small.inv {r : ℕ} (hs : Small base lo s nbytes ok s' r) (h : Inv base lo s) (hk : Kept s.mem s'.mem)
    (hn : nbytes + 16 ≤ 2 ^ 31 ∨ r = 0) : Inv base lo s' := by
  cases hs with
  | null _ _ hi => exact hi
  | @block q fl hl hpl hq hlive =>
    have hblocks : s'.blocks = q :: s.blocks := by rw [State.blocks, hl]; rfl
    refine ⟨.inr ⟨fl, hblocks ▸ hpl⟩, ?_, h.base, h.lo.trans hk.le, hk.aligned, hk.sz, hk.mapped⟩
    rw [hl]
    exact List.forall_mem_cons.mpr ⟨⟨hq, hn.resolve_right (by omega)⟩, hlive⟩

lemma Small.null_iff {r : ℕ} (hs : Small base lo s nbytes ok s' r) (hn : nunits nbytes = 1) :
    r = 0 ↔ (s.heap.freep = 0 ∨ s.heap.ptr base = base) ∧
    (KERNBASE ≤ s.mem.sz + 8 * 4096 ∨ ok 0 = false) := by
  have hreq : request (nunits nbytes) = 4096 := by rw [hn]; rfl
  have hiff : ¬ (s.mem.sz + 8 * request (nunits nbytes) < KERNBASE ∧ ok 0 = true) ↔
      KERNBASE ≤ s.mem.sz + 8 * 4096 ∨ ok 0 = false := by
    rw [hreq, not_and_or, Nat.not_lt, Bool.not_eq_true]
  rw [← hiff]
  cases hs with
  | null h1 hc _ => exact iff_of_true rfl ⟨h1 hn, hc⟩
  | block _ _ _ _ hne => exact iff_of_false (Nat.succ_ne_zero _) hne

lemma Inv.malloc (h0 : 0 < base) (h : Inv base lo s) (hlt : nbytes < 2 ^ 32)
    (hf : s.Fits base nbytes ok) :
    ∃ s' r k, (∀ fuel, k ≤ fuel → s.malloc base fuel nbytes ok = some (s', r)) ∧ Inv base lo s' := by
  have hn : nunits nbytes < 2 ^ 28 := by
    rcases hf with hn | hn
    · exact (nunits_small hn).1
    · rw [nunits_wrap hn.1 hlt]
      omega
  obtain ⟨s', r, k, hrun, hk, hs⟩ := h.small ok h0 hn
  refine ⟨s', r, k, hrun, hs.inv h hk (hf.imp id fun hw => ?_)⟩
  exact (hs.null_iff (nunits_wrap hw.1 hlt)).mpr hw.2

lemma Inv.returns {e : Event} (h0 : 0 < base) (h : Inv base lo s) (ha : s.Allowed e)
    (hg : s.Good base e) :
    ∃ s' k, (∀ fuel, k ≤ fuel → s.step base fuel e = some s') ∧ Inv base lo s' := by
  cases e with
  | malloc nbytes ok =>
    obtain ⟨s', r, k, hrun, hi⟩ := h.malloc h0 ha hg
    refine ⟨s', k, fun fuel hf => ?_, hi⟩
    rw [step, if_pos ha]
    exact congrArg (Option.map Prod.fst) (hrun fuel hf)
  | free ap =>
    have ha' := ha
    obtain ⟨b, hb, rfl⟩ := ha'
    rcases h.heap with ⟨-, -, hl⟩ | ⟨fl, hpl⟩
    · rw [hl] at hb
      cases hb
    obtain ⟨h', fl', l, hfree, herase, hok', hsub, hsame, hr, hfl⟩ := State.free_block h0 hpl.ok hb
    refine ⟨⟨⟨h', l⟩, s.mem⟩, fl.length + 1, fun fuel hf => ?_,
      .inr ⟨fl', hok', fun x hx => ?_, hr ▸ hpl.regions⟩,
      fun x hx => ?_, h.base, h.lo, h.aligned, h.sz, h.mapped⟩
    · rw [step, if_pos ha, hfree fuel hf, herase]
      rfl
    · rcases List.mem_append.mp hx with hx | hx
      · rcases List.mem_cons.mp (hfl hx) with rfl | hx
        · exact hpl.low _ (List.mem_append_right _ (List.mem_map_of_mem hb))
        · exact hpl.low _ (List.mem_append_left _ hx)
      · obtain ⟨c, hc, rfl⟩ := List.mem_map.mp hx
        exact hpl.low _ (List.mem_append_right _ (List.mem_map_of_mem (hsub hc)))
    · rw [hsame x hx]
      exact h.live x (hsub hx)
  | write a ptr size =>
    have ha' := ha
    obtain ⟨b, hb, hlt, hgt, -⟩ := ha'
    rcases h.heap with ⟨-, -, hl⟩ | ⟨fl, hpl⟩
    · rw [hl] at hb
      cases hb
    obtain ⟨hok', hsame⟩ := State.store_block ptr size hpl.ok hb (h.live b hb).1 hlt hgt
    refine ⟨⟨⟨s.heap.store a ptr size, s.live⟩, s.mem⟩, 0, fun fuel _ => by rw [step, if_pos ha],
      .inr ⟨fl, hok', hpl.low, hpl.regions⟩, fun x hx => ?_, h.base, h.lo, h.aligned, h.sz, h.mapped⟩
    rw [hsame x hx]
    exact h.live x hx

lemma Inv.step {e : Event} (h0 : 0 < base) (h : Inv base lo s) (hs : s.Step base e s')
    (hg : s.Good base e) : Inv base lo s' := by
  obtain ⟨k, hs⟩ := hs
  have ha : s.Allowed e := by
    have := hs k le_rfl
    unfold Process.step at this
    split_ifs at this with ha
    exact ha
  obtain ⟨t, k', hrun, ht⟩ := h.returns h0 ha hg
  have heq := (hs _ (le_max_left k k')).symm.trans (hrun _ (le_max_right k k'))
  rwa [Option.some.inj heq]

lemma inv_init {ptr size : ℕ → ℕ} (hb : base + 8 ≤ lo) (hal : 8 ∣ lo) (hlo : lo < KERNBASE) :
    Inv base lo (init ptr size lo) := ⟨.inl ⟨rfl, rfl, rfl⟩, nofun, hb, le_rfl, hal, hlo, rfl⟩

lemma Small.honours {r k : ℕ} (hs : Small base lo s nbytes ok s' r) (h : Inv base lo s)
    (hk : Kept s.mem s'.mem) (hrun : ∀ fuel, k ≤ fuel → s.malloc base fuel nbytes ok = some (s', r))
    (hn : nbytes ≤ 8 * (nunits nbytes - 1) ∨ r = 0) : Honours base lo s nbytes ok := by
  refine ⟨s', r, k, hrun, ?_, hk.le, h.mapped_le hk⟩
  cases hs with
  | null => exact .inl rfl
  | @block q fl hl hpl hq hlive =>
    have hn := hn.resolve_right (Nat.succ_ne_zero _)
    have hmem : q ∈ fl ++ q :: s.blocks := by simp
    have hlow := hpl.low q hmem
    have hhigh := hpl.ok.tiles.high q hmem
    have htop := hpl.top_le (h.base.trans (h.lo.trans hk.le))
    unfold len at hhigh
    rw [hq] at hhigh
    refine .inr fun a ha hlt => ⟨by omega, by omega, fun b hb hin => ?_⟩
    have hbm : b.1 ∈ fl ++ q :: s.blocks := by simp [State.blocks, List.mem_map_of_mem hb]
    have hne : q ≠ b.1 := fun heq => by
      have hnd := (hpl.ok.tiles.perm List.perm_middle).nodup
      exact (List.nodup_cons.mp hnd).1 (List.mem_append_right _ (heq ▸ List.mem_map_of_mem hb))
    have hap := hpl.ok.tiles.apart_of_mem hmem hbm hne
    unfold Apart len at hap
    rw [hq, (hlive b hb).1] at hap
    omega

lemma Inv.not_honours {r k : ℕ} (h0 : 0 < base) (h : Inv base lo s) (hn : 2 ^ 31 < nbytes + 16)
    (hr : r ≠ 0)
    (hk : Kept s.mem s'.mem) (hrun : ∀ fuel, k ≤ fuel → s.malloc base fuel nbytes ok = some (s', r)) :
    ¬ Honours base lo s nbytes ok := by
  rintro ⟨s'', r', k', hrun', hbytes, -⟩
  have heq := (hrun _ (le_max_left k k')).symm.trans (hrun' _ (le_max_right k k'))
  cases heq
  have hK : KERNBASE = 2 ^ 31 := rfl
  have hb := h.base
  have hal := hk.aligned
  have hsz := hk.sz
  have hall := hbytes.resolve_left hr
  have hfirst := (hall r le_rfl (by omega)).1
  have hlast := (hall (r + nbytes - 1) (by omega) (by omega)).2.1
  omega

lemma after_sz_le {w : Int32} (hw : ¬ 0 < w) (k : ℕ) (m : Mem) (ok : ℕ → Bool) :
    (m.after w k ok).sz ≤ m.sz := by
  induction k generalizing m ok with
  | zero => exact le_rfl
  | succ k ih =>
    refine (ih _ _).trans ?_
    simp only [Mem.sys_sbrk, Mem.growproc, if_neg hw, Mem.deallocuvm]
    split_ifs <;> simp_all
    omega

lemma Inv.large_zero (ok : ℕ → Bool) (h0 : 0 < base) (h : Inv base lo s) (hbig : 2 ^ 31 < nbytes + 16)
    (hn : nunits nbytes = 2 ^ 29) : ¬ Honours base lo s nbytes ok := by
  have hb := h.base
  have hlo := h.lo
  have hsz := h.sz
  have harg : sbrkArg nbytes = (UInt32.ofNat (2 ^ 32)).toInt32 := by rw [sbrkArg, hn]; rfl
  have hsbrk : ∀ ok, s.mem.sys_sbrk (sbrkArg nbytes) ok = (s.mem, some s.mem.sz) := fun ok => by
    rw [harg]
    exact Mem.sys_sbrk_zero
  obtain ⟨fl, hpl, -⟩ := h.start h0
  obtain ⟨h', k, hloop⟩ := hpl.ok.wrap h0 (hpl.top_le (by omega)) (by omega) (by omega)
  have hrun : ∀ fuel, k + 1 ≤ fuel → s.malloc base fuel nbytes ok =
      some (s.result nbytes ok h' (s.mem.sz + 8) 1, s.mem.sz + 8) := by
    intro fuel hf
    refine malloc_eq (by omega) ?_
    obtain ⟨fuel, rfl⟩ := Nat.exists_eq_add_of_le' (show 1 ≤ fuel by omega)
    rw [Mem.answers, hsbrk, List.drop_one, List.tail_cons, Heap.malloc, hn]
    exact hloop _ _ (by omega)
  refine h.not_honours h0 hbig (Nat.succ_ne_zero _) ?_ hrun
  change Kept s.mem (s.mem.after _ _ _)
  rw [Mem.after, Mem.after, hsbrk]
  exact h.kept_refl

lemma Inv.large_neg (ok : ℕ → Bool) (h0 : 0 < base) (h : Inv base lo s) (hbig : 2 ^ 31 < nbytes + 16)
    (hn : 2 ^ 28 ≤ nunits nbytes) (hlt : nunits nbytes < 2 ^ 29) : ¬ Honours base lo s nbytes ok := by
  have hK : KERNBASE = 2 ^ 31 := rfl
  have hb := h.base
  have hlo := h.lo
  have hsz := h.sz
  have hreq : request (nunits nbytes) = nunits nbytes := by rw [request, if_neg (by omega)]
  have hsbrk : s.mem.sys_sbrk (sbrkArg nbytes) (ok 0) =
      if s.mem.sz + 8 * nunits nbytes < 2 ^ 32 then (s.mem, some s.mem.sz)
      else if s.mem.sz + 8 * nunits nbytes = 2 ^ 32 then (⟨s.mem.sz, 0⟩, none)
      else (⟨s.mem.sz + 8 * nunits nbytes - 2 ^ 32,
      pgroundup (s.mem.sz + 8 * nunits nbytes - 2 ^ 32)⟩, some s.mem.sz) := by
    rw [sbrkArg, hreq]
    exact Mem.sys_sbrk_neg (by omega) (by omega) (by omega) hsz
  have hafter : s.mem.after (sbrkArg nbytes) 1 ok = (s.mem.sys_sbrk (sbrkArg nbytes) (ok 0)).1 := rfl
  rcases Nat.lt_trichotomy (s.mem.sz + 8 * nunits nbytes) (2 ^ 32) with hc | hc | hc
  · -- the break stays, and `sbrk` answers with it
    have hmem : s.mem.sys_sbrk (sbrkArg nbytes)
      (ok 0) = (s.mem, some s.mem.sz) := by rw [hsbrk, if_pos hc]
    obtain ⟨fl, h', r, c, k, -, -, -, hrun, ho⟩ := h.call ok h0 fun hp he => by
      rw [answer, hmem] at he
      cases he
      exact ⟨rfl, by rwa [hreq]⟩
    cases ho with
    | fit =>
      refine h.not_honours h0 hbig (Nat.succ_ne_zero _) ?_ hrun
      exact h.kept_refl
    | refused _ ha =>
      rw [answer, hmem] at ha
      cases ha
    | more =>
      refine h.not_honours h0 hbig (Nat.succ_ne_zero _) ?_ hrun
      change Kept s.mem (s.mem.after _ _ _)
      rw [hafter, hmem]
      exact h.kept_refl
  · -- all pages are freed, and `growproc` fails
    have hmem : s.mem.sys_sbrk (sbrkArg nbytes) (ok 0) = (⟨s.mem.sz, 0⟩, none) := by
      rw [hsbrk, if_neg (by omega), if_pos hc]
    obtain ⟨fl, h', r, c, k, -, -, -, hrun, ho⟩ := h.call ok h0 fun hp he => by
      rw [answer, hmem] at he
      cases he
    cases ho with
    | fit =>
      refine h.not_honours h0 hbig (Nat.succ_ne_zero _) ?_ hrun
      exact h.kept_refl
    | refused =>
      rintro ⟨s'', r', k', hrun', -, -, hmap⟩
      have heq := (hrun _ (le_max_left k k')).symm.trans (hrun' _ (le_max_right k k'))
      cases heq
      change _ ≤ (s.mem.after _ _ _).mapped at hmap
      rw [hafter, hmem, h.mapped, pgroundup] at hmap
      dsimp only at hmap
      omega
    | more _ ha =>
      rw [answer, hmem] at ha
      cases ha
  · -- the break moves down
    rintro ⟨s', r, k, hrun, -, hle, -⟩
    obtain ⟨fl, hpl, -⟩ := h.start h0
    have hsmall : ∀ x ∈ base :: fl, (s.heap.start base).size x < nunits nbytes := fun x hx => by
      have := (hpl.ok.below (hpl.top_le (by omega)) (show s.mem.sz < 2 ^ 31 by omega) (by omega) x hx).2
      omega
    obtain ⟨⟨h', r', rest⟩, hm, heq⟩ := Option.map_eq_some_iff.mp (hrun (k + fl.length + 1) (by omega))
    have hlen := answers_length (sbrkArg nbytes) (k + fl.length + 1) s.mem ok
    have hlt := hpl.ok.rest_lt hsmall (by omega) (by omega) hm
    have hpos : ¬ 0 < sbrkArg nbytes := by
      rw [sbrkArg, hreq, Int32.lt_iff_toInt_lt, Mem.toInt_toInt32_neg (by omega) (by omega)]
      change ¬ (0 : ℤ) < _
      omega
    obtain ⟨c, hc'⟩ : ∃ c, k + fl.length + 1 - rest.length = c + 1 :=
      ⟨k + fl.length - rest.length, by omega⟩
    cases heq
    dsimp only at hle
    rw [hc', Mem.after] at hle
    have hdown := after_sz_le hpos c (s.mem.sys_sbrk (sbrkArg nbytes) (ok 0)).1 fun i => ok (i + 1)
    rw [hsbrk, if_neg (by omega), if_neg (by omega)] at hdown hle
    dsimp only at hdown hle
    omega

theorem malloc_honours_iff {ptr size : ℕ → ℕ} {es : List Event} (h0 : 0 < base) (hb : base + 8 ≤ lo)
    (hal : 8 ∣ lo) (hlo : lo < KERNBASE) (hr : Run (fun s e s' => Step base s e s' ∧ Good base s e)
    (init ptr size lo) es s)
    (hn : nbytes < 2 ^ 32) : Honours base lo s nbytes ok ↔ Fits base s nbytes ok := by
  have h : Inv base lo s := hr.state_invariant (inv_init hb hal hlo) fun _ _ _ h hs => h.step h0 hs.1 hs.2
  rcases Nat.lt_or_ge (2 ^ 31) (nbytes + 16) with hbig | hsmall
  · rcases Nat.lt_or_ge (nbytes + 7) (2 ^ 32) with hmid | hwrap
    · obtain ⟨hlow, hhigh⟩ := nunits_large hbig hmid
      refine iff_of_false ?_ fun hf => ?_
      · rcases Nat.eq_or_lt_of_le hhigh with heq | hlt
        · exact h.large_zero ok h0 hbig heq
        · exact h.large_neg ok h0 hbig hlow hlt
      · rcases hf with hf | hf <;> omega
    · have h1 := nunits_wrap hwrap hn
      obtain ⟨s', r, k, hrun, hk, hs⟩ := h.small ok h0 (show nunits nbytes < 2 ^ 28 by omega)
      have hiff := hs.null_iff h1
      refine ⟨fun hh => .inr ⟨hwrap, hiff.mp ?_⟩, fun hf => ?_⟩
      · by_contra hr
        exact h.not_honours h0 hbig hr hk hrun hh
      · exact hs.honours h hk hrun (.inr (hiff.mpr (hf.resolve_left (by omega)).2))
  · obtain ⟨hlt, hle⟩ := nunits_small hsmall
    obtain ⟨s', r, k, hrun, hk, hs⟩ := h.small ok h0 hlt
    exact iff_of_true (hs.honours h hk hrun (.inl hle)) (.inl hsmall)

theorem malloc_honours_second : ∃ s, Run (fun s e s' => Step 16 s e s' ∧ Good 16 s e)
    (init (fun _ => 0) (fun _ => 0) 16384)
      [.malloc 100 fun _ => true] s ∧ Honours 16 16384 s 200 (fun _ => true) ∧
    Honours 16 16384 (init (fun _ => 0) (fun _ => 0) 16384) (2 ^ 32 - 1) (fun _ => false) := by
  have h : Inv 16 16384 (init (fun _ => 0) (fun _ => 0) 16384) :=
    inv_init (by decide) (by decide) (by decide)
  obtain ⟨s, r, k, hrun, -⟩ := h.small (fun _ => true) (by decide) (show nunits 100 < 2 ^ 28 by decide)
  have hstep : Step 16 (init (fun _ => 0) (fun _ => 0) 16384) (.malloc 100 fun _ => true) s :=
    ⟨k, fun fuel hk => by rw [step, if_pos (by decide), hrun fuel hk]; rfl⟩
  have hgood : Good 16 (init (fun _ => 0) (fun _ => 0) 16384) (.malloc 100 fun _ => true) :=
    .inl (by decide)
  have hs : Run (fun s e s' => Step 16 s e s' ∧ Good 16 s e) (init (fun _ => 0) (fun _ => 0) 16384)
    [.malloc 100 fun _ => true] s := Run.nil.snoc ⟨hstep, hgood⟩
  refine ⟨s, hs, ?_, ?_⟩
  · exact (malloc_honours_iff (by decide) (by decide) (by decide) (by decide) hs (by decide)).mpr
      (.inl (by decide))
  · exact (malloc_honours_iff (by decide) (by decide) (by decide) (by decide) .nil (by decide)).mpr
      (.inr ⟨by decide, .inl rfl, .inr rfl⟩)

theorem malloc_breaks_promise :
    (malloc 16 10 (init (fun _ => 0) (fun _ => 0) 16384) (2 ^ 32 - 1) (fun _ => true)).any
      (fun r => r.2 = 49152 ∧ r.1.mem.sz = 49152) = true ∧
    ¬ Honours 16 16384 (init (fun _ => 0) (fun _ => 0) 16384) (2 ^ 32 - 1) (fun _ => true) ∧
    (malloc 16 10 (init (fun _ => 0) (fun _ => 0) 16384) (2 ^ 32 - 16) (fun _ => true)).any
      (fun r => r.1.mem.sz = 16376) = true := by
  refine ⟨by decide +kernel, ?_, by decide +kernel⟩
  have h : Inv 16 16384 (init (fun _ => 0) (fun _ => 0) 16384) :=
    inv_init (by decide) (by decide) (by decide)
  obtain ⟨s', r, k, hrun, hk, hs⟩ :=
    h.small (fun _ => true) (by decide) (show nunits (2 ^ 32 - 1) < 2 ^ 28 by decide)
  refine h.not_honours (by decide) (by decide) (fun hr => ?_) hk hrun
  rcases ((hs.null_iff (by decide)).mp hr).2 with hsz | hok
  · exact absurd hsz (by decide)
  · cases hok

end Process

end Xv6.Umalloc
