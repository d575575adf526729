import Xv6.Vm.Free
import Xv6.Vm.Setup

namespace Xv6.Vm

open Lib View

variable {ld : Kernel} {m m' : Mem} {A₀ A₁ A B C : View} {pd d f n k s : ℕ} {sz : UInt32}

def Fill.copy (A : View) (pd : ℕ) : Fill where
  entry n f := v2p (kva f) ||| PTE_FLAGS (A.ent pd n) ||| PTE_P
  bytes n := A.page (pframe (A.ent pd n))
  note _ _ := []
  present _ _ := present_entry _ _
  frame _ _ hf := pframe_kva hf (PTE_FLAGS_lt _)

structure Parent (ld : Kernel) (m : Mem) (A : View) (pd : ℕ) (sz : UInt32) : Prop where
  rep : Rep ld m A
  dir : A.own pd = .dir
  lt : sz < KERNBASE
  mapped : ∀ n < npages sz, Present (entry m.mem pd n)
  data : ∀ n < 2 ^ 19, Present (entry m.mem pd n) → (A.own (pframe (entry m.mem pd n))).data = true
  ram : ∀ n < 2 ^ 19, Present (entry m.mem pd n) → pframe (entry m.mem pd n) < NFRAMES

namespace Parent

variable (h : Parent ld m A pd sz)

include h

lemma ent (hn : n < 2 ^ 20) : A.ent pd n = entry m.mem pd n := h.rep.ent pd h.dir n hn

lemma lt_of_lt (hn : n < npages sz) : n < 2 ^ 19 := hn.trans_le (npages_le (UInt32.le_of_lt h.lt))

lemma present (hn : n < npages sz) : Present (A.ent pd n) := by
  have hlt := h.lt_of_lt hn
  rw [h.ent (by omega)]
  exact h.mapped n hn

lemma frame (hn : n < 2 ^ 19) (hp : Present (A.ent pd n)) :
    (A.own (pframe (A.ent pd n))).data = true ∧ pframe (A.ent pd n) < NFRAMES := by
  rw [h.ent (by omega)] at hp ⊢
  exact ⟨h.data n hn hp, h.ram n hn hp⟩

lemma not_free (hn : n < 2 ^ 19) (hp : Present (A.ent pd n)) :
    A.own (pframe (A.ent pd n)) ≠ .free := fun hf => by
  have hdata := (h.frame hn hp).1
  rw [hf] at hdata
  cases hdata

end Parent

structure Keeps (pd d : ℕ) (A B : View) : Prop extends Takes d A B where
  ne : pd ≠ d
  isDir : A.own pd = .dir

namespace Keeps

lemma dir_now (h : Keeps pd d A B) : B.own pd = .dir := h.dir h.isDir

lemma ent (h : Keeps pd d A B) : B.ent pd = A.ent pd := (h.other pd h.ne).1

end Keeps

lemma fetchPage_on (hf : f < NFRAMES) : (fetchPage (kva f)).on m = (.ok (m.mem f), m) := by
  rw [fetchPage, if_neg (kva_mapped hf), Act.on_bind_ok (Act.on_get m), Act.on_pure, Mem.page,
    frame_kva hf]

lemma Keeps.grown {F : Fill} {lo hi : ℕ} (h : Keeps pd d A₀ A) (hg : Grown F d lo hi A B) :
    Keeps pd d A₀ B :=
  ⟨h.toTakes.trans hg.toTakes, h.ne, h.isDir⟩

section

variable {F : Fill} {lo hi : ℕ} {l : List ℕ}

lemma AllocStep.whole (h : AllocStep F d n A B) (hA : A.Sound) (hnew : ¬ Present (A.ent d n))
    (hp : Present (B.ent d n)) (hn : n < hi) (hlt : n < 2 ^ 20) :
    (Whole d lo n A₁ A → Whole d lo (n + 1) A₁ B) ∧
    B.firstRefused d (n + 1) hi = A.firstRefused d n hi := by
  rcases h.pass hA (hi - (n + 1)) with ⟨-, hl, x, hx, hplan⟩ | ⟨he, -⟩
  · refine ⟨fun hw => hw.mapped_step (h.grown hA hlt) hp hl, ?_⟩
    rw [firstRefused, firstRefused, show hi - n = hi - (n + 1) + 1 by omega, hplan, hx.refused]
  · rw [he] at hp
    exact absurd hp hnew

lemma View.firstRefused_table (hA : A.Sound) (hs : ¬ A.Starved) (hf : A.free = f :: l)
    (hnew : ¬ Present (A.ent d n))
    (hi' : (A.takeFor F n f).install d (n / 1024) = none) (hn : n < hi) :
    A.firstRefused d n hi = some .table := by
  rcases (AllocStep.forgotten hs hf hi').pass hA (hi - (n + 1)) with ⟨hp, -⟩ | ⟨-, -, h0, h1, -, hplan⟩
  · exact absurd hp hnew
  · rw [firstRefused, show hi - n = hi - (n + 1) + 1 by omega, hplan, refused, if_neg h0, refused,
      if_pos h1]

end

inductive CopyOutcome (ld : Kernel) (F : Fill) (d P : ℕ) (A₁ : View) (r : UInt32) (C : View) : Prop
  | done (hr : r = kva d) (hg : Grown F d 0 P A₁ C) (hw : Whole d 0 P A₁ C)
      (hf : A₁.firstRefused d 0 P = none)
  | data (n : ℕ) (B : View) (hr : r = 0) (hn : n < P) (hg : Grown F d 0 n A₁ B) (hw : Whole d 0 n A₁ B)
      (hd : Dropped d B.called C) (hf : A₁.firstRefused d 0 P = some .data)
  | table (n f : ℕ) (B : View) (m₀ : Mem) (hr : r = 0) (hn : n < P) (hB : Rep ld m₀ B)
      (hg : Grown F d 0 n A₁ B) (hfree : B.own f = .free)
      (hd : Dropped d (B.takeFor F n f).called C) (hf : A₁.firstRefused d 0 P = some .table)

structure Copying (ld : Kernel) (m : Mem) (A₀ A₁ A : View) (pd d : ℕ) (sz : UInt32) (n : ℕ) : Prop where
  keeps : Keeps pd d A₀ A₁
  dir : A₁.own d = .dir
  new : ∀ k < 2 ^ 19, ¬ Present (A₁.ent d k)
  rep : Rep ld m A
  grown : Grown (.copy A₀ pd) d 0 n A₁ A
  whole : Whole d 0 n A₁ A
  first : A.firstRefused d n (npages sz) = A₁.firstRefused d 0 (npages sz)

namespace Copying

variable {l : List ℕ} {m1 : Mem} (h : Copying ld m' A₀ A₁ A pd d sz n)

include h

lemma keeps_now : Keeps pd d A₀ A := h.keeps.grown h.grown

lemma dir_now : A.own d = .dir := h.grown.dir h.dir

lemma not_present (hn : n < 2 ^ 19) : ¬ Present (A.ent d n) := by
  rw [h.grown.outside n (by omega)]
  exact h.new n hn

lemma owned (k : ℕ) (hk : k < 2 ^ 19) (hpk : Present (A.ent d k)) :
    A.own (pframe (A.ent d k)) = .page d k :=
  h.grown.own_frame h.rep (Nat.zero_le k) (h.new k hk) hpk

lemma takeFor_own (hfree : A.free = f :: l) (F : Fill) (hg : A.own k ≠ .free) :
    (A.takeFor F n f).own k = A.own k := by
  rw [View.takeFor_own, assign_of_ne (h.rep.sound.ne_head hfree hg)]

lemma source_on {a : UInt32} (hp : Parent ld m A₀ pd sz) (hn : n < npages sz) (ha : a.toNat = n * 4096) :
    ∃ pte, (walkpgdir (kva pd) a false).on m' = (.ok (some pte), m') ∧ m'.pte pte = A₀.ent pd n := by
  have hn19 := hp.lt_of_lt hn
  have hk := h.keeps_now
  have hpres := hp.present hn
  rw [← hk.ent] at hpres ⊢
  obtain ⟨g, htab⟩ := Option.ne_none_iff_exists'.mp (h.rep.tab_ne_none hk.dir_now (by omega) hpres)
  have hwalk := walkpgdir_false_on h.rep hk.dir_now a
  rw [vpn_eq ha, htab, Option.map_some] at hwalk
  exact ⟨_, hwalk, h.rep.pte_ptr hk.dir_now (by omega) htab⟩

lemma source_page {p : Page} (hp : Parent ld m A₀ pd sz) (hn : n < npages sz) (hfree : A.free = f :: l)
    (h1 : Rep ld m1 (A.take f p)) : m1.mem (pframe (A₀.ent pd n)) = (Fill.copy A₀ pd).bytes n := by
  have hn19 := hp.lt_of_lt hn
  have hused := hp.not_free hn19 (hp.present hn)
  have hk := h.keeps_now
  have hne := h.rep.sound.ne_head hfree (hk.not_free hused)
  have hdata : ((A.take f p).own (pframe (A₀.ent pd n))).data = true := by
    rw [take_own, assign_of_ne hne, hk.own _ hused, (hp.frame hn19 (hp.present hn)).1]
  rw [← h1.page _ hdata, take_page, assign_of_ne hne, hk.page _ hused]
  rfl

lemma next {m2 : Mem} (hn : n < npages sz) (hn19 : n < 2 ^ 19) (hs : ¬ A.Starved)
    (hfree : A.free = f :: l) (hi : (A.takeFor (.copy A₀ pd) n f).install d (n / 1024) = some C)
    (hsound : (A.takeFor (.copy A₀ pd) n f).Sound)
    (h3 : Rep ld m2 (C.set d n ((Fill.copy A₀ pd).entry n f))) :
    Copying ld m2 A₀ A₁ ((C.set d n ((Fill.copy A₀ pd).entry n f)).label f (.page d n)) pd d sz
    (n + 1) := by
  have hstep := AllocStep.mapped hs hfree hi
  have hlost : (C.set d n ((Fill.copy A₀ pd).entry n f)).own f = .lost := by
    rw [set_own, (hsound.installed hi).own f (by simp [View.takeFor_own]), View.takeFor_own, assign_self]
  have hpres : Present (((C.set d n ((Fill.copy A₀ pd).entry n f)).label f (.page d n)).ent d n) := by
    rw [label_ent, set_ent, assign_self, assign_self]
    exact Fill.present _ n f
  obtain ⟨hwhole, hfirst⟩ : (Whole d 0 n A₁ A → Whole d 0 (n + 1) A₁ _) ∧
    firstRefused _ d (n + 1) (npages sz) = A.firstRefused d n (npages sz) :=
    hstep.whole h.rep.sound (h.not_present hn19) hpres hn (by omega)
  exact ⟨h.keeps, h.dir, h.new, Rep.label h3 (congrArg Owner.data hlost) (hlost.trans_ne (by simp)) rfl,
    h.grown.trans (hstep.grown h.rep.sound (by omega)) (Nat.zero_le n) (by omega), hwhole h.whole,
    hfirst.trans h.first⟩

end Copying

lemma copyuvmLoop_wp {fuel : ℕ} {a : UInt32} (hp : Parent ld m A₀ pd sz)
    (h : Copying ld m' A₀ A₁ A pd d sz n)
    (ha : a.toNat = n * 4096) (hn : n ≤ npages sz) (hpos : 0 < fuel) (hfuel : npages sz < n + fuel) :
    (copyuvmLoop ld (kva pd) sz (kva d) fuel a).Wp m' (fun r m' =>
      ∃ C, CopyOutcome ld (.copy A₀ pd) d (npages sz) A₁ r C ∧ Rep ld m' C) (fun _ _ => False) := by
  induction fuel generalizing m' A a n with
  | zero => exact absurd hpos (lt_irrefl 0)
  | succ fuel ih =>
    rw [copyuvmLoop]
    by_cases hlt : n < npages sz
    swap
    · obtain rfl : n = npages sz := by omega
      rw [if_neg (mt (lt_npages ha).mp (lt_irrefl _))]
      have hf := h.first
      rw [firstRefused_end] at hf
      exact .pure ⟨A, .done rfl h.grown h.whole hf.symm, h.rep⟩
    rw [if_pos ((lt_npages ha).mpr hlt)]
    have hn19 := hp.lt_of_lt hlt
    have hpres := hp.present hlt
    obtain ⟨pte, hwalk, hpte⟩ := h.source_on hp hlt ha
    refine .bind (.of_ok hwalk (.bind (.get ?_)))
    rw [hpte, if_neg hpres]
    refine (kalloc_wp h.rep).seq fun r m1 hr => ?_
    rcases hr with ⟨rfl, hs, h1⟩ | ⟨f, l, hs, hfree, rfl, hflt, h1⟩
    · rw [if_pos rfl]
      refine (freevm_wp h1 h.dir_now h.owned).seq ?_
      rintro - m2 ⟨C, hdrop, h2⟩
      exact .pure ⟨C, .data n A rfl hlt h.grown h.whole hdrop (h.first ▸ firstRefused_starved hs hlt), h2⟩
    rw [if_neg (kva_ne_zero hflt), p2v_PTE_ADDR]
    refine .bind (.of_ok (fetchPage_on (hp.frame hn19 hpres).2) (.bind (.modify ?_)))
    rw [h.source_page hp hlt hfree h1]
    have h2 := h1.setPage hflt (by rw [take_own, assign_self]; rfl) ((Fill.copy A₀ pd).bytes n)
    rw [take_write] at h2
    change Rep ld _ (A.takeFor (.copy A₀ pd) n f) at h2
    have hd2 := (h.takeFor_own hfree (.copy A₀ pd) (by simp [h.dir_now])).trans h.dir_now
    refine (mappages_page_wp h2 hd2 ha (h.not_present hn19)).seq ?_
    rintro b m2 ⟨rfl, h3⟩
    rw [mapPage] at h3 ⊢
    cases hi : (A.takeFor (.copy A₀ pd) n f).install d (n / 1024) with
    | some C =>
      rw [hi] at h3
      refine ih (h.next hlt hn19 hs hfree hi h2.sound h3) ?_ (by omega) (by omega) (by omega)
      rw [UInt32.toNat_add, ha, show (PGSIZE).toNat = 4096 from rfl]
      omega
    | none =>
      rw [hi] at h3
      refine (freevm_wp h3 hd2 fun k hk hpk => ?_).seq ?_
      · have ho := h.owned k hk hpk
        exact (h.takeFor_own hfree (.copy A₀ pd) (ho.trans_ne (by simp))).trans ho
      · rintro - m3 ⟨C, hdrop, h4⟩
        exact .pure ⟨C, .table n f A _ rfl hlt h.rep h.grown (h.rep.sound.head hfree) hdrop
          (h.first ▸ firstRefused_table h.rep.sound hs hfree (h.not_present hn19) hi hlt), h4⟩

lemma Built.keeps (h : Built ld d A₀ A₁) (hd : A₀.own pd = .dir) : Keeps pd d A₀ A₁ := by
  have hne : pd ≠ d := by
    rintro rfl
    rw [h.fresh] at hd
    cases hd
  exact ⟨h.toTakes, hne, hd⟩

lemma Built.not_present (h : Built ld d A₀ A₁) (hr : Rep ld m A₁) (hn : n < 2 ^ 19) :
    ¬ Present (A₁.ent d n) := by
  have htab : A₁.tab d (n / 1024) = none := by
    by_contra hne
    have := (h.tables (n / 1024) (by omega)).mp hne
    rw [kernelTables, Finset.mem_union, Finset.mem_Ico, Finset.mem_Ico] at this
    omega
  rw [hr.ent_of_none h.dir_new (by omega) htab]
  exact not_present_zero

lemma copyuvm_wp (hp : Parent ld m A pd sz) : (copyuvm ld (kva pd) sz).Wp m (fun r m' =>
    (r = 0 ∧ A.Starved ∧ Rep ld m' A.called) ∨ (∃ d B, r = 0 ∧ Botched d A B ∧ Rep ld m' B) ∨
      ∃ d A₁ m1 C, (setupkvm ld).on m = (.ok (kva d), m1) ∧ Rep ld m1 A₁ ∧ Built ld d A A₁ ∧
        CopyOutcome ld (.copy A pd) d (npages sz) A₁ r C ∧ Rep ld m' C) (fun _ _ => False) := by
  refine (setupkvm_wp hp.rep).reached.seq fun r m1 hr => ?_
  obtain ⟨hon, ⟨rfl, hs, h1⟩ | ⟨d, B, rfl, hb, h1⟩ | ⟨d, B, rfl, hb, h1⟩⟩ := hr
  · rw [if_pos rfl]
    exact .pure (.inl ⟨rfl, hs, h1⟩)
  · rw [if_pos rfl]
    exact .pure (.inr (.inl ⟨d, B, rfl, hb, h1⟩))
  · have hnp := npages_le (UInt32.le_of_lt hp.lt)
    rw [if_neg (kva_ne_zero (h1.dir_lt hb.dir_new))]
    have hloop : (copyuvmLoop ld (kva pd) sz (kva d) (2 ^ 20) 0).Wp m1 _ _ :=
      copyuvmLoop_wp hp ⟨hb.keeps hp.dir, hb.dir_new, fun j => hb.not_present h1, h1,
        Grown.refl _ d 0 B, Whole.refl d 0 B, rfl⟩ rfl (Nat.zero_le _) (by decide) (by omega)
    refine hloop.imp ?_
    rintro r m2 ⟨C, hc, h2⟩
    exact .inr (.inr ⟨d, B, m1, C, hon, h1, hb, hc, h2⟩)

lemma View.Supply.refused (h : A.Supply s) (l : List Call) {j : ℕ} (hj : j ≤ s) :
    A.refused l j = l[s - j]? := by
  induction l generalizing j with
  | nil => rfl
  | cons c l ih =>
    rw [View.refused]
    split_ifs with hr
    · rw [show s - j = 0 by have := (h.refuses j).mp hr; omega]
      rfl
    · rw [h.refuses, not_le] at hr
      rw [ih (by omega), show s - j = s - (j + 1) + 1 by omega, List.getElem?_cons_succ]

lemma plan_congr {has has' : ℕ → Bool} {b : ℕ} (h : ∀ i < b, has i = has' i) (hn : n + k ≤ b * 1024) :
    plan has k n = plan has' k n := by
  induction k generalizing has has' n with
  | zero => rfl
  | succ k ih =>
    have hassign : ∀ i < b, assign has (n / 1024) true i = assign has' (n / 1024) true i := fun i hi => by
      rw [assign_apply, assign_apply, h i hi]
    rw [plan, plan, h (n / 1024) (by omega), ih h (by omega), ih hassign (by omega)]

def seen (n i : ℕ) : Bool := decide (i * 1024 < n)

lemma Built.firstRefused (h : Built ld d A A₁) (hs : A₁.Supply s) (hk : k ≤ 2 ^ 19) :
    A₁.firstRefused d 0 k = (plan (seen 0) k 0)[s]? := by
  have hhas : ∀ i < 512, A₁.has d i = seen 0 i := fun i hi => by
    have htab : A₁.tab d i = none := by
      by_contra hne
      have := (h.tables i (by omega)).mp hne
      rw [kernelTables, Finset.mem_union, Finset.mem_Ico, Finset.mem_Ico] at this
      omega
    rw [has, htab, seen, eq_comm, Option.isSome_none, decide_eq_false_iff_not]
    omega
  rw [View.firstRefused, Nat.sub_zero, plan_congr hhas (by omega), hs.refused _ (Nat.zero_le s),
    Nat.sub_zero]

lemma copyuvm_ne_zero (hp : Parent ld m A pd sz) (hs : A.Supply s)
    (hlen : 65 + (plan (seen 0) (npages sz) 0).length ≤ s) :
    (copyuvm ld (kva pd) sz).Wp m (fun r _ => r ≠ 0) (fun _ _ => False) := by
  refine (copyuvm_wp hp).imp ?_
  rintro r m' (⟨-, hst, -⟩ | ⟨d, B, -, hb, -⟩ | ⟨d, A₁, m₁, C, -, h₁, hb, hc, -⟩)
  · have := hs.starved_iff.mp hst
    omega
  · have := hb.supply_lt hs
    omega
  · obtain ⟨t, ht, he⟩ := hb.supply_eq hs
    have hnone : A₁.firstRefused d 0 (npages sz) = none := by
      rw [hb.firstRefused ht (npages_le (UInt32.le_of_lt hp.lt)), List.getElem?_eq_none (by omega)]
    cases hc with
    | done hr => exact hr ▸ kva_ne_zero (h₁.dir_lt hb.dir_new)
    | data n B hr hn hg hw hd hf | table n f B m₀ hr hn hB hg hfree hd hf =>
      rw [hnone] at hf
      cases hf

structure Faithful (ld : Kernel) (A : View) (pd : ℕ) (sz : UInt32) (m : Mem) (d : ℕ) (m' : Mem) :
    Prop where
  present : ∀ n < npages sz, Present (entry m'.mem d n)
  bytes : ∀ n < npages sz, m'.mem (pframe (entry m'.mem d n)) = m.mem (pframe (entry m.mem pd n))
  flags : ∀ n < npages sz, PTE_FLAGS (entry m'.mem d n) = PTE_FLAGS (entry m.mem pd n)
  fresh : ∃ l, FreeList m' l ∧ ∀ n < 2 ^ 19, Present (entry m'.mem d n) →
    pframe (entry m'.mem d n) ∈ A.free ∧ pframe (entry m'.mem d n) ∉ l
  distinct : ∀ n < 2 ^ 19, ∀ k < 2 ^ 19, Present (entry m'.mem d n) → Present (entry m'.mem d k) →
    pframe (entry m'.mem d n) = pframe (entry m'.mem d k) → n = k
  apart : ∀ n < 2 ^ 19, ∀ k < 2 ^ 19, Present (entry m'.mem d n) → Present (entry m.mem pd k) →
    pframe (entry m'.mem d n) ≠ pframe (entry m.mem pd k)
  rest : ∀ n, npages sz ≤ n → n < 2 ^ 19 → ¬ Present (entry m'.mem d n)
  kernel : ∃ m₁, (setupkvm ld).on m = (.ok (kva d), m₁) ∧
    ∀ n, 2 ^ 19 ≤ n → n < 2 ^ 20 → entry m'.mem d n = entry m₁.mem d n
  parent : ∀ n < 2 ^ 20, entry m'.mem pd n = entry m.mem pd n
  memory : ∀ n < 2 ^ 19, Present (entry m.mem pd n) → m'.mem (pframe (entry m.mem pd n)) = m.mem
    (pframe (entry m.mem pd n))

lemma PTE_FLAGS_copy {w : UInt32} (hf : f < NFRAMES) (hw : Present w) :
    PTE_FLAGS (v2p (kva f) ||| PTE_FLAGS w ||| PTE_P) = PTE_FLAGS w := by
  have hor : PTE_FLAGS w ||| PTE_P = PTE_FLAGS w := by
    rw [present_iff] at hw
    rw [← UInt32.toNat_inj, UInt32.toNat_or, PTE_FLAGS, show (0xFFF : UInt32) = UInt32.ofNat
      (2 ^ 12 - 1) from rfl, toNat_and_low _ _ (by decide), show (PTE_P).toNat = 2 ^ 0 from rfl]
    apply Nat.eq_of_testBit_eq
    intro i
    rw [Nat.testBit_or, Nat.testBit_two_pow]
    by_cases hi : i = 0
    · subst hi
      rw [Nat.testBit_mod_two_pow, hw]
      rfl
    · simp [Ne.symm hi]
  have hlt := PTE_FLAGS_lt w
  have hal := aligned_v2p_kva hf
  rw [UInt32.or_assoc, hor, ← UInt32.toNat_inj]
  conv_lhs => rw [PTE_FLAGS, show (0xFFF : UInt32) = UInt32.ofNat (2 ^ 12 - 1) from rfl,
    toNat_and_low _ _ (by decide), toNat_or_of_aligned hal hlt]
  omega

lemma Built.copied {F : Fill} {P : ℕ} (h : Built ld d A A₁) (h1 : Rep ld m A₁) (hg : Grown F d 0 P A₁ C)
    (hn : n < 2 ^ 19) (hpn : Present (C.ent d n)) : n < P ∧ ∃ g < NFRAMES, A.own g = .free ∧
    C.own g = .page d n ∧
      C.ent d n = F.entry n g ∧ C.page g = F.bytes n := by
  have hnP : n < P := by
    by_contra hnP
    rw [hg.outside n (by omega)] at hpn
    exact h.not_present h1 hn hpn
  obtain ⟨g, hfree, hown, hrest⟩ := (hg.inside n (Nat.zero_le n) hnP hpn).resolve_left
    (h.not_present h1 hn)
  exact ⟨hnP, g, h1.lt_of_eq hfree (by simp), h.free_of_free hfree, hown, hrest⟩

lemma Parent.faithful {m1 : Mem} (hp : Parent ld m A pd sz)
    (hon : (setupkvm ld).on m = (.ok (kva d), m1)) (h1 : Rep ld m1 A₁)
    (hb : Built ld d A A₁) (hg : Grown (.copy A pd) d 0 (npages sz) A₁ C)
    (hw : Whole d 0 (npages sz) A₁ C) (h' : Rep ld m' C) : Faithful ld A pd sz m d m' := by
  have hk : Keeps pd d A C := (hb.keeps hp.dir).grown hg
  have hdC := hg.dir hb.dir_new
  have hent : ∀ n < 2 ^ 20, entry m'.mem d n = C.ent d n := fun n hn => (h'.ent d hdC n hn).symm
  have hused : ∀ n < 2 ^ 19, Present (A.ent pd n) → m'.mem (pframe (A.ent pd n)) = m.mem
    (pframe (A.ent pd n)) ∧
      A.page (pframe (A.ent pd n)) = m.mem (pframe (A.ent pd n)) := fun n hn hpn => by
    have hne := hp.not_free hn hpn
    have hdata := (hp.frame hn hpn).1
    rw [← h'.page _ (by rw [hk.own _ hne, hdata]), hk.page _ hne, hp.rep.page _ hdata]
    exact ⟨rfl, rfl⟩
  have hcopied : ∀ n < 2 ^ 19, Present (C.ent d n) → n < npages sz ∧ ∃ g < NFRAMES,
    A.own g = .free ∧ C.own g = .page d n ∧
      pframe (C.ent d n) = g ∧ C.ent d n = (Fill.copy A pd).entry n g ∧
      C.page g = (Fill.copy A pd).bytes n := by
    intro n hn hpn
    obtain ⟨hnP, g, hlt, hfree, hown, he, hpage⟩ := hb.copied h1 hg hn hpn
    exact ⟨hnP, g, hlt, hfree, hown, by rw [he, Fill.frame _ n g hlt], he, hpage⟩
  refine ⟨fun n hn => ?_, fun n hn => ?_, fun n hn => ?_, ⟨C.free, h'.freeList, fun n hn hpn => ?_⟩,
    fun n hn k hk' hpn hpk he => ?_,
    fun n hn k hk' hpn hpk he => ?_, fun n hn hn' hpn => ?_, ⟨m1, hon, fun n hn hn' => ?_⟩,
    fun n hn => ?_, fun n hn hpn => ?_⟩
  · rw [hent n (by have := hp.lt_of_lt hn; omega)]
    exact hw.mapped n (Nat.zero_le n) hn
  · have hn19 := hp.lt_of_lt hn
    obtain ⟨-, g, hlt, -, hown, hframe, he, hpage⟩ := hcopied n hn19 (hw.mapped n (Nat.zero_le n) hn)
    have hpn := hp.present hn
    rw [hent n (by omega), hframe, ← h'.page g (by rw [hown]; rfl), hpage, ← hp.ent (by omega),
      ← (hused n hn19 hpn).2]
    rfl
  · have hn19 := hp.lt_of_lt hn
    obtain ⟨-, g, hlt, -, -, -, he, -⟩ := hcopied n hn19 (hw.mapped n (Nat.zero_le n) hn)
    have hpn := hp.mapped n hn
    rw [hent n (by omega), he, ← hp.ent (by omega)] at *
    exact PTE_FLAGS_copy hlt hpn
  · rw [hent n (by omega)] at hpn ⊢
    obtain ⟨-, g, -, hfree, hown, hframe, -⟩ := hcopied n hn hpn
    rw [hframe, hp.rep.mem_free, h'.mem_free, hown]
    exact ⟨hfree, by simp⟩
  · rw [hent n (by omega)] at hpn he
    rw [hent k (by omega)] at hpk he
    obtain ⟨-, g, -, -, hown, hframe, -⟩ := hcopied n hn hpn
    obtain ⟨-, g', -, -, hown', hframe', -⟩ := hcopied k hk' hpk
    rw [hframe, hframe'] at he
    rw [he, hown'] at hown
    injection hown with _ hkn
    exact hkn.symm
  · rw [hent n (by omega)] at hpn he
    obtain ⟨-, g, -, hfree, -, hframe, -⟩ := hcopied n hn hpn
    rw [← hp.ent (by omega)] at hpk he
    rw [hframe] at he
    exact hp.not_free hk' hpk (he ▸ hfree)
  · rw [hent n (by omega)] at hpn
    have := (hcopied n hn' hpn).1
    omega
  · have := npages_le (UInt32.le_of_lt hp.lt)
    rw [hent n hn', hg.outside n (by omega), h1.ent d hb.dir_new n hn']
  · rw [← h'.ent pd hk.dir_now n hn, hk.ent, hp.ent hn]
  · rw [← hp.ent (by omega)] at hpn ⊢
    exact (hused n hn hpn).1

theorem copyuvm_faithful (hp : Parent ld m A pd sz) : (copyuvm ld (kva pd) sz).Wp m (fun r m' =>
    r ≠ 0 → ∃ d, r = kva d ∧ Faithful ld A pd sz m d m') (fun _ _ => False) := by
  refine (copyuvm_wp hp).imp ?_
  rintro r m' (⟨rfl, -⟩ | ⟨d, B, rfl, -⟩ | ⟨d, A₁, m₁, C, hon, h₁, hb, hc, h'⟩) hr
  · exact absurd rfl hr
  · exact absurd rfl hr
  · cases hc with
    | done hr' hg hw hf => exact ⟨d, hr', hp.faithful hon h₁ hb hg hw h'⟩
    | data n B hr' => exact absurd hr' hr
    | table n f B m₀ hr' => exact absurd hr' hr

def smallProc (k : ℕ) : Mem := (onePage 0).pushed (List.range' 3000 k)

def smallProcView (k : ℕ) : View := (onePageView 0).given (List.range' 3000 k)

lemma smallProcView_own (hf : f < 3000) : (smallProcView k).own f = (onePageView 0).own f :=
  given_own _ fun hm => by
    rw [List.mem_range'_1] at hm
    omega

lemma rep_smallProc (ld : Kernel) (hk : k ≤ 10000) : Rep ld (smallProc k) (smallProcView k) := by
  refine (rep_onePage ld (by decide)).pushed List.nodup_range' fun f hf => ?_
  rw [List.mem_range'_1] at hf
  have hown : (onePageView 0).own f = View.blank.own f := by
    rw [onePageView, label_own, assign_of_ne (by omega), set_own, mktab_own, assign_of_ne (by omega),
      mkdir_own, assign_of_ne (by omega)]
  rw [hown, blank_own (by simp only [NFRAMES]; omega)]
  exact ⟨rfl, ld.lo_le.trans (by omega), by simp only [NFRAMES]; omega⟩

lemma parent_smallProc (ld : Kernel) (hk : k ≤ 10000) :
    Parent ld (smallProc k) (smallProcView k) 2000 1 := by
  have h := rep_smallProc ld hk
  have hd : (smallProcView k).own 2000 = .dir := smallProcView_own (by decide)
  have hent : ∀ n < 2 ^ 20, entry (smallProc k).mem 2000 n = entry (onePage 0).mem 2000 n :=
    fun n hn => by
    rw [← h.ent 2000 hd n hn, smallProcView, (given_rest _ _).2.2.1,
      (rep_onePage ld (by decide)).ent 2000 rfl n hn]
  have hone : ∀ n < 2 ^ 19, Present (entry (smallProc k).mem 2000 n) → n = 0 := fun n hn hp => by
    rw [hent n (by omega)] at hp
    exact (present_onePage (by decide) (by omega)).mp hp
  have hframe : pframe (entry (smallProc k).mem 2000 0) = 2002 := by
    rw [hent 0 (by decide), pframe_onePage (by decide)]
  refine ⟨h, hd, by decide, fun n hn => ?_, fun n hn hp => ?_, fun n hn hp => ?_⟩
  · obtain rfl : n = 0 := by
      rw [show npages 1 = 1 from rfl] at hn
      omega
    rw [hent 0 (by decide)]
    exact (present_onePage (by decide) (by decide)).mpr rfl
  · rw [hone n hn hp, hframe, smallProcView_own (by decide)]
    rfl
  · rw [hone n hn hp, hframe]
    decide

lemma smallProcView_supply (k : ℕ) : (smallProcView k).Supply k := by
  obtain ⟨hfree, -, -, hcalls, hdeny⟩ := given_rest (onePageView 0) (List.range' 3000 k)
  have hd : ∀ j, (smallProcView k).deny j = false := fun j => by rw [smallProcView, hdeny]; rfl
  refine ⟨fun i j _ hi => ?_, fun j => ?_⟩
  · rw [hd] at hi
    cases hi
  · rw [View.Refuses, hd, smallProcView, hfree, List.length_append, List.length_range',
      show (onePageView 0).free = [] from rfl]
    simp

theorem copyuvm_faithful_one_page : (copyuvm Kernel.small (kva 2000) 1).Wp (smallProc 100) (fun r m' =>
    ∃ d, r = kva d ∧ Faithful Kernel.small (smallProcView 100) 2000 1 (smallProc 100) d m')
      (fun _ _ => False) := by
  have hp := parent_smallProc Kernel.small (k := 100) (by decide)
  have hw := (copyuvm_ne_zero hp (smallProcView_supply 100) (by decide)).and (copyuvm_faithful hp)
  exact hw.mono (fun r m' hr => hr.2 hr.1) (fun _ _ he => he.1)

end Xv6.Vm
