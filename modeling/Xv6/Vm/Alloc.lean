import Xv6.Vm.Dealloc

namespace Xv6.Vm

open Lib View

structure Fill where
  entry : ℕ → ℕ → UInt32
  bytes : ℕ → Page
  note : ℕ → ℕ → List Access
  present : ∀ n f, Present (entry n f)
  frame : ∀ n f, f < NFRAMES → pframe (entry n f) = f

variable {ld : Kernel} {m m' : Mem} {A₀ A B C : View} {pd f n k lo mid hi : ℕ} {l : List ℕ} {F : Fill}

def userEntry (f : ℕ) : UInt32 := v2p (kva f) ||| (PTE_W ||| PTE_U) ||| PTE_P

lemma pframe_userEntry (hf : f < NFRAMES) : pframe (userEntry f) = f := pframe_kva hf (by decide)

@[simps] def Fill.user : Fill where
  entry _ f := userEntry f
  bytes _ := Page.fill 0
  note n f := [.alloc (UInt32.ofNat (n * 4096)) f]
  present _ _ := present_entry _ _
  frame _ _ := pframe_userEntry

def View.takeFor (A : View) (F : Fill) (n f : ℕ) : View :=
  { A.take f (F.bytes n) with trace := F.note n f ++ A.trace }

inductive AllocStep (F : Fill) (pd n : ℕ) (A : View) : View → Prop
  | mapped {f : ℕ} {l : List ℕ} {C : View} (hs : ¬ A.Starved) (hf : A.free = f :: l)
      (hi : (A.takeFor F n f).install pd (n / 1024) = some C) :
      AllocStep F pd n A ((C.set pd n (F.entry n f)).label f (.page pd n))
  | forgotten {f : ℕ} {l : List ℕ} (hs : ¬ A.Starved) (hf : A.free = f :: l)
      (hi : (A.takeFor F n f).install pd (n / 1024) = none) :
      AllocStep F pd n A ((A.takeFor F n f).called.log (.unmapped (UInt32.ofNat (n * 4096))))

structure Grown (F : Fill) (pd lo hi : ℕ) (A B : View) : Prop extends Adds pd A B where
  took : ∀ g, A.own g = .free → B.own g = .free ∨ B.own g = .lost ∨
    (∃ i < 1024, B.own g = .table pd i ∧ B.tab pd i = some g) ∨
    ∃ n, lo ≤ n ∧ n < hi ∧ B.own g = .page pd n ∧ B.ent pd n = F.entry n g ∧ B.page g = F.bytes n
  inside : ∀ n, lo ≤ n → n < hi → Present (B.ent pd n) → Present (A.ent pd n) ∨
    ∃ g, A.own g = .free ∧ B.own g = .page pd n ∧ B.ent pd n = F.entry n g ∧ B.page g = F.bytes n
  outside : ∀ n, ¬ (lo ≤ n ∧ n < hi) → B.ent pd n = A.ent pd n
  kept : ∀ n, ¬ Present (B.ent pd n) → B.ent pd n = A.ent pd n

lemma Grown.refl (F : Fill) (pd n : ℕ) (A : View) : Grown F pd n n A A :=
  ⟨.refl pd A, fun _ hg => .inl hg, fun k h1 h2 => by omega, fun _ _ => rfl, fun _ _ => rfl⟩

lemma Grown.trans (h : Grown F pd lo mid A B) (h' : Grown F pd mid hi B C) (h1 : lo ≤ mid)
    (h2 : mid ≤ hi) : Grown F pd lo hi A C := by
  refine ⟨h.toAdds.trans h'.toAdds, fun g hg => ?_, fun n hl hh hp => ?_, fun n hn => ?_, fun n hp => ?_⟩
  · rcases h.took g hg with hB | hB | ⟨i, hi, hB, ht⟩ | ⟨n, hl, hm, hB, he, hz⟩
    · rcases h'.took g hB with hC | hC | hC | ⟨n, hl, hm, hC⟩
      · exact .inl hC
      · exact .inr (.inl hC)
      · exact .inr (.inr (.inl hC))
      · exact .inr (.inr (.inr ⟨n, by omega, hm, hC⟩))
    · exact .inr (.inl ((h'.own g (by simp [hB])).trans hB))
    · exact .inr (.inr (.inl ⟨i, hi, (h'.own g (by simp [hB])).trans hB,
        (h'.tab i (by simp [ht])).trans ht⟩))
    · have hne : B.own g ≠ .free := by simp [hB]
      exact .inr (.inr (.inr ⟨n, hl, by omega, (h'.own g hne).trans hB,
        (h'.outside n (by omega)).trans he, (h'.page g hne).trans hz⟩))
  · by_cases hm : n < mid
    · rw [h'.outside n (by omega)] at hp ⊢
      refine (h.inside n hl hm hp).imp_right ?_
      rintro ⟨g, hg, hB, he, hz⟩
      have hne : B.own g ≠ .free := by simp [hB]
      exact ⟨g, hg, (h'.own g hne).trans hB, he, (h'.page g hne).trans hz⟩
    · rcases h'.inside n (by omega) hh hp with hB | ⟨g, hg, hC⟩
      · rw [h.outside n (by omega)] at hB
        exact .inl hB
      · exact .inr ⟨g, h.free_of_free hg, hC⟩
  · rw [h'.outside n (by omega), h.outside n (by omega)]
  · have hB := h'.kept n hp
    rw [hB] at hp ⊢
    exact h.kept n hp

namespace View

lemma takeFor_own (g : ℕ) : (A.takeFor F n f).own g = assign A.own f .lost g := rfl

lemma Sound.takeFor (h : A.Sound) (hf : A.free = f :: l) (n : ℕ) : (A.takeFor F n f).Sound :=
  ⟨(h.take hf (F.bytes n)).nodup, (h.take hf (F.bytes n)).mem_free⟩

end View

lemma AllocStep.not_starved (h : AllocStep F pd n A B) : ¬ A.Starved := by
  cases h with
  | mapped hs _ _ => exact hs
  | forgotten hs _ _ => exact hs

lemma View.Sound.adds_takeFor (h : A.Sound) (hf : A.free = f :: l) (n : ℕ) :
    Adds pd A (A.takeFor F n f) :=
  ⟨⟨fun _ hg => assign_of_ne (h.ne_head hf hg) .., fun _ hg => assign_of_ne (h.ne_head hf hg) ..,
    fun _ _ => ⟨rfl, rfl⟩, rfl⟩, fun _ _ => rfl, fun _ _ hg => .inl hg⟩

lemma AllocStep.grown (h : AllocStep F pd n A B) (hA : A.Sound) (hn : n < 2 ^ 20) :
    Grown F pd n (n + 1) A B := by
  cases h with
  | @mapped f l C hs hf hi =>
    have hc := (hA.takeFor hf n).installed hi
    have hfree := hA.head hf
    have hadds := (hA.adds_takeFor (F := F) hf n).trans hc.toAdds
    have hpage : C.page f = F.bytes n := by
      rw [hc.page f (by simp [takeFor_own])]
      exact assign_self ..
    refine ⟨⟨⟨fun g hg => ?_, hadds.page, fun q hq => ?_, hc.deny⟩, hadds.tab, hadds.newtab⟩,
      fun g hg => ?_, fun k h1 h2 hp => .inr ⟨f, hfree, ?_⟩, fun k hk => ?_, fun k hk => ?_⟩
    · rw [label_own, assign_of_ne (hA.ne_head hf hg), set_own, hadds.own g hg]
    · rw [label_ent, set_ent, assign_of_ne hq]
      exact hadds.other q hq
    · rw [label_own, assign_apply]
      split_ifs with hgf
      · subst hgf
        refine .inr (.inr (.inr ⟨n, le_rfl, by omega, rfl, ?_, hpage⟩))
        rw [label_ent, set_ent, assign_self, assign_self]
      · rcases hc.took g (by rw [takeFor_own, assign_of_ne hgf, hg]) with hC | hC
        · exact .inl hC
        · exact .inr (.inr (.inl ⟨n / 1024, by omega, hC⟩))
    · obtain rfl : k = n := by omega
      rw [label_own, assign_self, label_ent, set_ent, assign_self, assign_self]
      exact ⟨rfl, rfl, hpage⟩
    · rw [label_ent, set_ent, assign_self, assign_of_ne (by omega), hc.ent]
      rfl
    · rw [label_ent, set_ent, assign_self, assign_apply] at hk ⊢
      split_ifs at hk ⊢
      · exact absurd (F.present n f) hk
      · rw [hc.ent]
        rfl
  | @forgotten f l hs hf hi =>
    have hadds : Adds pd A (A.takeFor F n f) := hA.adds_takeFor hf n
    refine ⟨⟨⟨hadds.own, hadds.page, hadds.other, rfl⟩, hadds.tab, hadds.newtab⟩, fun g hg => ?_,
      fun k h1 h2 hp => .inl hp, fun k hk => rfl, fun k hk => rfl⟩
    show assign A.own f .lost g = .free ∨ assign A.own f .lost g = .lost ∨ _
    rw [assign_apply]
    split_ifs
    · exact .inr (.inl rfl)
    · exact .inl hg

lemma Grown.own_frame (h : Grown F pd lo hi A₀ A) (hr : Rep ld m A) (hlo : lo ≤ n)
    (hnew : ¬ Present (A₀.ent pd n))
    (hp : Present (A.ent pd n)) : A.own (pframe (A.ent pd n)) = .page pd n := by
  by_cases hn : n < hi
  · rcases h.inside n hlo hn hp with ho | ⟨g, -, hg, he, -⟩
    · exact absurd ho hnew
    · rwa [he, F.frame n g (hr.lt_of_eq hg (by simp))]
  · rw [h.outside n (by omega)] at hp
    exact absurd hp hnew

lemma Rep.takeFor {a : UInt32} {p : Page} (h : Rep ld m (A.take f p)) (hf : f < NFRAMES)
    (ha : a.toNat = n * 4096) :
    Rep ld ((m.log (.alloc a (frame (kva f)))).setPage (kva f) (Page.fill 0)) (A.takeFor .user n f) := by
  have hlost : (A.take f p).own f = .lost := assign_self ..
  have h1 := (h.log (.alloc a f)).setPage hf (by rw [log_own, hlost]; rfl) (Page.fill 0)
  rw [frame_kva hf, View.takeFor, Fill.user_note, ← ha, UInt32.ofNat_toNat]
  convert h1 using 1
  simp [View.take, View.log, View.write, show Fill.user.bytes n = Page.fill 0 from rfl]

section

variable {oldsz newsz a : UInt32} {fuel : ℕ}

inductive AllocEnd (ld : Kernel) (pd : ℕ) (oldsz newsz : UInt32) (I : ℕ → View → Prop) (A₀ : View)
    (r : UInt32) (m' : Mem) : Prop
  | done (B : View) (hr : r = newsz) (hi : I (npages newsz) B)
      (hg : Grown .user pd (npages oldsz) (npages newsz) A₀ B) (h' : Rep ld m' B)
  | starved (n : ℕ) (B : View) (m1 : Mem) (hr : r = 0) (hlo : npages oldsz ≤ n)
      (hn : n < npages newsz) (hs : B.Starved) (hi : I n B)
      (hg : Grown .user pd (npages oldsz) n A₀ B) (hB : Rep ld m1 B)
      (h' : Rep ld m' (B.called.unmap pd (B.called.doomed pd newsz oldsz)))

lemma allocuvmLoop_wp {I : ℕ → View → Prop} (hlt : newsz < KERNBASE)
    (hI : ∀ n A B m, npages oldsz ≤ n → n < npages newsz → Rep ld m A →
    Grown .user pd (npages oldsz) n A₀ A → I n A →
      AllocStep .user pd n A B → I (n + 1) B)
    (hd : A₀.own pd = .dir) (hfresh : ∀ j, npages oldsz ≤ j → j < npages newsz → ¬ Present (A₀.ent pd j))
    (h : Rep ld m A) (hg : Grown .user pd (npages oldsz) n A₀ A) (hi : I n A) (ha : a.toNat = n * 4096)
    (hlo : npages oldsz ≤ n) (hhi : n ≤ npages newsz) (hpos : 0 < fuel)
      (hfuel : npages newsz < n + fuel) :
    (allocuvmLoop ld (kva pd) oldsz newsz fuel a).Wp m (AllocEnd ld pd oldsz newsz I A₀)
      (fun _ _ => False) := by
  induction fuel generalizing m A a n with
  | zero => exact absurd hpos (lt_irrefl 0)
  | succ fuel ih =>
    rw [allocuvmLoop]
    by_cases hlt' : n < npages newsz
    swap
    · obtain rfl : n = npages newsz := by omega
      rw [if_neg (mt (lt_npages ha).mp (lt_irrefl _))]
      exact .pure (.done A rfl hi hg h)
    have hdA := hg.dir hd
    have hnew : ¬ Present (A.ent pd n) := by
      rw [hg.outside n (by omega)]
      exact hfresh n hlo hlt'
    rw [if_pos ((lt_npages ha).mpr hlt')]
    refine (kalloc_wp h).seq fun r m1 hr => ?_
    rcases hr with ⟨rfl, hs, h1⟩ | ⟨f, l, hs, hfree, rfl, hf, h1⟩
    · rw [if_pos rfl]
      have hlt2 : oldsz < newsz := by
        rw [UInt32.lt_iff_toNat_lt]
        simp only [npages] at hlo hlt'
        omega
      refine (deallocuvm_label_wp h1 hdA hlt2 (UInt32.le_of_lt hlt) fun k h1 h2 hp => ?_).seq
        fun r m2 h2 => ?_
      · exact hg.own_frame h h1 (hfresh k h1 h2) hp
      · exact .pure (.starved n A m rfl hlo hlt' hs hi hg h h2.2)
    · rw [if_neg (kva_ne_zero hf)]
      refine .bind (.modify ?_)
      have h2 : Rep ld _ (A.takeFor .user n f) := h1.takeFor hf ha
      have hd2 : (A.takeFor .user n f).own pd = .dir := by
        rw [takeFor_own, assign_of_ne (h.sound.ne_head hfree (by simp [hdA])), hdA]
      have hnp := npages_le (UInt32.le_of_lt hlt)
      have ha' : (a + PGSIZE).toNat = (n + 1) * 4096 := by
        rw [UInt32.toNat_add, ha, show (PGSIZE).toNat = 4096 from rfl]
        omega
      have hnext : ∀ {B m}, AllocStep .user pd n A B → Rep ld m B →
          (allocuvmLoop ld (kva pd) oldsz newsz fuel (a + PGSIZE)).Wp m _ (fun _ _ => False) :=
          fun hstep hB =>
        ih hB (hg.trans (hstep.grown h.sound (by omega)) hlo (by omega))
          (hI _ _ _ _ hlo hlt' h hg hi hstep) ha' (by omega) (by omega) (by omega) (by omega)
      refine (mappages_page_wp h2 hd2 ha hnew).seq ?_
      rintro b m2 ⟨rfl, h3⟩
      rw [mapPage] at h3 ⊢
      cases hi : (A.takeFor .user n f).install pd (n / 1024) with
      | some C =>
        rw [hi] at h3
        have hc := h2.sound.installed hi
        have hlost : (C.set pd n (userEntry f)).own f = .lost := by
          rw [set_own, hc.own f (by simp [takeFor_own]), takeFor_own, assign_self]
        refine hnext (.mapped hs hfree hi) (Rep.label h3 ?_ ?_ rfl)
        · exact congrArg Owner.data hlost
        · exact hlost.trans_ne (by simp)
      | none =>
        rw [hi] at h3
        refine .bind (.modify (hnext (.forgotten hs hfree hi) ?_))
        rw [← ha, UInt32.ofNat_toNat]
        exact h3.log _

lemma npages_mono (h : oldsz ≤ newsz) : npages oldsz ≤ npages newsz := by
  have := UInt32.le_iff_toNat_le.mp h
  rw [npages, npages]
  omega

lemma allocuvm_wp {I : ℕ → View → Prop} (hle : oldsz ≤ newsz) (hlt : newsz < KERNBASE)
    (hI : ∀ n A B m, npages oldsz ≤ n → n < npages newsz → Rep ld m A →
    Grown .user pd (npages oldsz) n A₀ A → I n A →
      AllocStep .user pd n A B → I (n + 1) B) (h : Rep ld m A₀) (hd : A₀.own pd = .dir)
    (hfresh : ∀ j, npages oldsz ≤ j → j < npages newsz → ¬ Present (A₀.ent pd j))
      (hi : I (npages oldsz) A₀) :
    (allocuvm ld (kva pd) oldsz newsz).Wp m (AllocEnd ld pd oldsz newsz I A₀) (fun _ _ => False) := by
  have hnp := npages_le (UInt32.le_of_lt hlt)
  rw [allocuvm, if_neg (UInt32.not_le.mpr hlt), if_neg (UInt32.not_lt.mpr hle)]
  exact allocuvmLoop_wp hlt hI hd hfresh h (Grown.refl .user pd _ A₀) hi
    (toNat_PGROUNDUP_npages (UInt32.le_trans hle (UInt32.le_of_lt hlt))) le_rfl (npages_mono hle)
    (by decide) (by omega)

end

end Xv6.Vm
