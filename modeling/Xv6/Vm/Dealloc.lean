import Xv6.Vm.Walk

namespace Xv6.Vm

open Lib View

variable {ld : Kernel} {m m' : Mem} {A : View} {pd f n : ℕ} {l : List ℕ}

def visits (tab : ℕ → Option ℕ) (stop : ℕ) : ℕ → ℕ → List ℕ
  | 0, _ => []
  | fuel + 1, a =>
    if a < stop then
      if tab (a / 1024) = none then visits tab stop fuel (a + 1024) else a :: visits tab stop fuel (a + 1)
    else []

def Reached (tab : ℕ → Option ℕ) (a n : ℕ) : Prop :=
  (∃ i, a / 1024 ≤ i ∧ i < n / 1024 ∧ tab i ≠ none) ∨ a % 1024 ≤ n % 1024

section

variable {tab : ℕ → Option ℕ} {stop fuel a k : ℕ}

lemma reached_skip (h : tab (a / 1024) = none) (hn : tab (n / 1024) ≠ none) :
    a + 1024 ≤ n ∧ Reached tab (a + 1024) n ↔ a ≤ n ∧ Reached tab a n := by
  have hdiv : n / 1024 ≠ a / 1024 := fun he => hn (he ▸ h)
  constructor
  · rintro ⟨hle, ⟨i, h1, h2, hi⟩ | hmod⟩
    · exact ⟨by omega, .inl ⟨i, by omega, h2, hi⟩⟩
    · exact ⟨by omega, .inr (by omega)⟩
  · rintro ⟨hle, ⟨i, h1, h2, hi⟩ | hmod⟩
    · have hne : i ≠ a / 1024 := fun he => hi (he ▸ h)
      exact ⟨by omega, .inl ⟨i, by omega, h2, hi⟩⟩
    · exact ⟨by omega, .inr (by omega)⟩

lemma reached_of_present (h : tab (a / 1024) ≠ none) (hle : a ≤ n) : Reached tab a n := by
  by_cases hdiv : n / 1024 = a / 1024
  · exact .inr (by omega)
  · exact .inl ⟨a / 1024, le_rfl, by omega, h⟩

lemma reached_succ (h : tab (a / 1024) ≠ none) (hle : a + 1 ≤ n) : Reached tab (a + 1) n := by
  by_cases hdiv : (a + 1) / 1024 = a / 1024
  · exact reached_of_present (hdiv ▸ h) hle
  · exact .inr (by omega)

lemma mem_visits (hfuel : stop ≤ a + fuel) :
    n ∈ visits tab stop fuel a ↔ n < stop ∧ tab (n / 1024) ≠ none ∧ a ≤ n ∧ Reached tab a n := by
  induction fuel generalizing a with
  | zero =>
    refine iff_of_false (by simp [visits]) ?_
    rintro ⟨h1, -, h2, -⟩
    omega
  | succ fuel ih =>
    rw [visits]
    split_ifs with hlt hnone
    · rw [ih (by omega)]
      refine and_congr_right fun _ => and_congr_right fun hn => reached_skip hnone hn
    · rw [List.mem_cons, ih (by omega)]
      constructor
      · rintro (rfl | ⟨h1, h2, h3, -⟩)
        · exact ⟨hlt, hnone, le_rfl, .inr le_rfl⟩
        · exact ⟨h1, h2, by omega, reached_of_present hnone (by omega)⟩
      · rintro ⟨h1, h2, h3, -⟩
        by_cases hn : n = a
        · exact .inl hn
        · exact .inr ⟨h1, h2, by omega, reached_succ hnone (by omega)⟩
    · refine iff_of_false List.not_mem_nil ?_
      rintro ⟨h1, -, h2, -⟩
      omega

lemma visits_nodup (hfuel : stop ≤ a + fuel) : (visits tab stop fuel a).Nodup := by
  induction fuel generalizing a with
  | zero => exact List.nodup_nil
  | succ fuel ih =>
    rw [visits]
    split_ifs with hlt hnone
    · exact ih (by omega)
    · refine List.nodup_cons.mpr ⟨fun hmem => ?_, ih (by omega)⟩
      have := ((mem_visits (by omega)).mp hmem).2.2.1
      omega
    · exact List.nodup_nil

end

namespace View

def unmapPage (A : View) (pd n : ℕ) : View :=
  if Present (A.ent pd n) then (A.give (pframe (A.ent pd n))).set pd n 0 else A

def unmap (A : View) (pd : ℕ) (l : List ℕ) : View := l.foldl (fun A n => A.unmapPage pd n) A

def frames (A : View) (pd : ℕ) (l : List ℕ) : List ℕ :=
  (l.filter fun n => Present (A.ent pd n)).map fun n => pframe (A.ent pd n)

lemma unmapPage_of_not (h : ¬ Present (A.ent pd n)) : A.unmapPage pd n = A := if_neg h

lemma unmapPage_of_present (h : Present (A.ent pd n)) :
    A.unmapPage pd n = (A.give (pframe (A.ent pd n))).set pd n 0 := if_pos h

@[simp] lemma unmap_nil : A.unmap pd [] = A := rfl

lemma unmap_cons : A.unmap pd (n :: l) = (A.unmapPage pd n).unmap pd l := rfl

lemma frames_cons_of_not (h : ¬ Present (A.ent pd n)) : A.frames pd (n :: l) = A.frames pd l := by
  simp [frames, h]

lemma frames_cons_of_present (h : Present (A.ent pd n)) :
    A.frames pd (n :: l) = pframe (A.ent pd n) :: A.frames pd l := by
  simp [frames, h]

lemma mem_frames : f ∈ A.frames pd l ↔ ∃ n ∈ l, Present (A.ent pd n) ∧ pframe (A.ent pd n) = f := by
  simp [frames, and_assoc]

lemma unmapPage_ent (k : ℕ) : (A.unmapPage pd n).ent pd k = if k = n ∧ Present (A.ent pd k) then 0
    else A.ent pd k := by
  by_cases hp : Present (A.ent pd n)
  · rw [unmapPage_of_present hp, set_ent, assign_self, assign_apply, give_ent]
    by_cases hk : k = n
    · rw [if_pos hk, if_pos ⟨hk, hk ▸ hp⟩]
    · rw [if_neg hk, if_neg fun h => hk h.1]
  · rw [unmapPage_of_not hp, if_neg]
    rintro ⟨rfl, h⟩
    exact hp h

lemma unmapPage_ent_of_ne {q : ℕ} (hq : q ≠ pd) : (A.unmapPage pd n).ent q = A.ent q := by
  rw [unmapPage]
  split_ifs
  · rw [set_ent, assign_of_ne hq]
    rfl
  · rfl

lemma unmap_ent (k : ℕ) :
    (A.unmap pd l).ent pd k = if k ∈ l ∧ Present (A.ent pd k) then 0 else A.ent pd k := by
  induction l generalizing A with
  | nil => simp
  | cons n l ih =>
    rw [unmap_cons, ih, unmapPage_ent]
    by_cases hk : k = n
    · by_cases hp : Present (A.ent pd k)
      · rw [if_pos (c := k = n ∧ _) ⟨hk, hp⟩, if_pos (c := k ∈ n :: l ∧ _) ⟨hk ▸ List.mem_cons_self,
          hp⟩, ite_self]
      · simp [hp]
    · simp [hk]

lemma unmap_ent_of_ne {q : ℕ} (hq : q ≠ pd) : (A.unmap pd l).ent q = A.ent q := by
  induction l generalizing A with
  | nil => rfl
  | cons n l ih => rw [unmap_cons, ih, unmapPage_ent_of_ne hq]

lemma unmap_rest : (A.unmap pd l).tab = A.tab ∧ (A.unmap pd l).page = A.page ∧
    (A.unmap pd l).calls = A.calls ∧
    (A.unmap pd l).deny = A.deny ∧ (A.unmap pd l).trace = A.trace := by
  induction l generalizing A with
  | nil => exact ⟨rfl, rfl, rfl, rfl, rfl⟩
  | cons n l ih =>
    rw [unmap_cons]
    obtain ⟨h1, h2, h3, h4, h5⟩ := ih (A := A.unmapPage pd n)
    have hstep : (A.unmapPage pd n).tab = A.tab ∧ (A.unmapPage pd n).page = A.page ∧
        (A.unmapPage pd n).calls = A.calls ∧ (A.unmapPage pd n).deny = A.deny ∧
        (A.unmapPage pd n).trace = A.trace := by
      rw [unmapPage]
      split_ifs <;> exact ⟨rfl, rfl, rfl, rfl, rfl⟩
    exact ⟨h1.trans hstep.1, h2.trans hstep.2.1, h3.trans hstep.2.2.1, h4.trans hstep.2.2.2.1,
      h5.trans hstep.2.2.2.2⟩

lemma unmapPage_frames (hn : n ∉ l) : (A.unmapPage pd n).frames pd l = A.frames pd l := by
  have hent : ∀ k ∈ l, (A.unmapPage pd n).ent pd k = A.ent pd k := fun k hk => by
    rw [unmapPage_ent, if_neg]
    rintro ⟨rfl, -⟩
    exact hn hk
  rw [frames, frames, List.filter_congr fun k hk => by rw [hent k hk]]
  exact List.map_congr_left fun k hk => by rw [hent k (List.mem_of_mem_filter hk)]

lemma unmap_free (hl : l.Nodup) : (A.unmap pd l).free = (A.frames pd l).reverse ++ A.free := by
  induction l generalizing A with
  | nil => rfl
  | cons n l ih =>
    obtain ⟨hn, hl⟩ := List.nodup_cons.mp hl
    rw [unmap_cons, ih hl, unmapPage_frames hn]
    by_cases hp : Present (A.ent pd n)
    · rw [frames_cons_of_present hp, unmapPage_of_present hp, set_free, give_free]
      simp
    · rw [frames_cons_of_not hp, unmapPage_of_not hp]

lemma unmap_own (hl : l.Nodup) : (A.unmap pd l).own f = if f ∈ A.frames pd l then .free else A.own f := by
  induction l generalizing A with
  | nil => rfl
  | cons n l ih =>
    obtain ⟨hn, hl⟩ := List.nodup_cons.mp hl
    rw [unmap_cons, ih hl, unmapPage_frames hn]
    by_cases hp : Present (A.ent pd n)
    · rw [frames_cons_of_present hp, unmapPage_of_present hp, set_own, give_own, assign_apply]
      by_cases hf : f ∈ A.frames pd l
      · simp [hf]
      · simp [hf]
    · rw [frames_cons_of_not hp, unmapPage_of_not hp]

structure Apart (A : View) (pd : ℕ) (l : List ℕ) : Prop where
  data : ∀ n ∈ l, Present (A.ent pd n) → (A.own (pframe (A.ent pd n))).data = true
  inj : ∀ n ∈ l, Present (A.ent pd n) → ∀ k ∈ l, Present (A.ent pd k) → pframe (A.ent pd n) = pframe
    (A.ent pd k) → n = k

lemma Apart.unmapPage (h : A.Apart pd (n :: l)) (hn : n ∉ l) : (A.unmapPage pd n).Apart pd l := by
  have hent : ∀ k ∈ l, (A.unmapPage pd n).ent pd k = A.ent pd k := fun k hk => by
    rw [unmapPage_ent, if_neg]
    rintro ⟨rfl, -⟩
    exact hn hk
  refine ⟨fun k hk hp => ?_, fun k hk hp j hj hq he => ?_⟩
  · rw [hent k hk] at hp ⊢
    have hd := h.data k (List.mem_cons_of_mem n hk) hp
    by_cases hpn : Present (A.ent pd n)
    · rw [unmapPage_of_present hpn, set_own, give_own, assign_of_ne]
      · exact hd
      · intro he
        have := h.inj k (List.mem_cons_of_mem n hk) hp n List.mem_cons_self hpn he
        exact hn (this ▸ hk)
    · rwa [unmapPage_of_not hpn]
  · rw [hent k hk] at hp he
    rw [hent j hj] at hq he
    exact h.inj k (List.mem_cons_of_mem n hk) hp j (List.mem_cons_of_mem n hj) hq he

lemma Apart.unmap_own {q : ℕ} (h : A.Apart pd l) (hl : l.Nodup) (hq : (A.own q).data = false) :
    (A.unmap pd l).own q = A.own q := by
  rw [View.unmap_own hl, if_neg]
  intro hm
  obtain ⟨n, hn, hp, rfl⟩ := mem_frames.mp hm
  rw [h.data n hn hp] at hq
  cases hq

end View

def Kernel.Frees (ld : Kernel) (f : ℕ) : Prop := ld.lo ≤ f ∧ f < NFRAMES

lemma PTE_ADDR_ne_zero {w : UInt32} (h : pframe w ≠ 0) : PTE_ADDR w ≠ 0 := by
  intro he
  have := toNat_PTE_ADDR w
  rw [he, ← pframe] at this
  simp at this
  omega

def npages (sz : UInt32) : ℕ := (sz.toNat + 4095) / 4096

lemma lt_npages {sz a : UInt32} (ha : a.toNat = n * 4096) : a < sz ↔ n < npages sz := by
  rw [UInt32.lt_iff_toNat_lt, ha, npages]
  omega

lemma deallocuvmLoop_wp {oldsz newsz a : UInt32} {fuel : ℕ} (h : Rep ld m A) (hd : A.own pd = .dir)
    (hle : oldsz ≤ KERNBASE) (ha : a.toNat = n * 4096) (hpos : 0 < fuel)
    (hfuel : npages oldsz < n + fuel) (hap : A.Apart pd (visits (A.tab pd) (npages oldsz) fuel n)) :
    (deallocuvmLoop ld (kva pd) oldsz newsz fuel a).Wp m
      (fun r m' => r = newsz ∧ (∀ f ∈ A.frames pd (visits (A.tab pd) (npages oldsz) fuel n), ld.Frees f) ∧
        Rep ld m' (A.unmap pd (visits (A.tab pd) (npages oldsz) fuel n)))
      (fun _ _ => ∃ f ∈ A.frames pd (visits (A.tab pd) (npages oldsz) fuel n), ¬ ld.Frees f) := by
  induction fuel generalizing m A a n with
  | zero => exact absurd hpos (lt_irrefl 0)
  | succ fuel ih =>
    rw [deallocuvmLoop]
    by_cases hlt : n < npages oldsz
    swap
    · rw [if_neg (mt (lt_npages ha).mp hlt)]
      refine .pure ⟨rfl, ?_⟩
      rw [visits, if_neg hlt]
      exact ⟨fun f hf => (List.not_mem_nil hf).elim, h⟩
    have hlt' := (lt_npages ha).mpr hlt
    have hn : n < 2 ^ 19 := by
      have h1 := UInt32.lt_iff_toNat_lt.mp (UInt32.lt_of_lt_of_le hlt' hle)
      rw [ha, show (KERNBASE).toNat = 2 ^ 19 * 4096 from rfl] at h1
      omega
    rw [if_pos hlt']
    refine .bind (.of_ok (walkpgdir_false_on h hd a) ?_)
    rw [vpn_eq ha]
    rw [visits, if_pos hlt] at hap ⊢
    cases hg : A.tab pd (n / 1024) with
    | none =>
      rw [if_pos hg] at hap
      rw [if_pos rfl]
      refine ih h hd ?_ (by omega) (by omega) hap
      rw [UInt32.toNat_add, UInt32.toNat_add, ha,
        show ((NPTENTRIES - 1).toUInt32 * PGSIZE).toNat = 1023 * 4096 from rfl,
        show (PGSIZE).toNat = 4096 from rfl]
      omega
    | some g =>
      rw [if_neg (by rw [hg]; simp)] at hap
      rw [if_neg (by simp)]
      have ha' : (a + PGSIZE).toNat = (n + 1) * 4096 := by
        rw [UInt32.toNat_add, ha, show (PGSIZE).toNat = 4096 from rfl]
        omega
      have hmem : n ∉ visits (A.tab pd) (npages oldsz) fuel (n + 1) := fun hm => by
        have := ((mem_visits (by omega)).mp hm).2.2.1
        omega
      refine .bind (.get ?_)
      rw [h.pte_ptr hd (by omega) hg]
      have hnext := hap.unmapPage hmem
      by_cases hp : Present (A.ent pd n)
      swap
      · rw [if_neg (show ¬ (_ ≠ _) from hp)]
        rw [unmapPage_of_not hp] at hnext
        rw [frames_cons_of_not hp, unmap_cons, unmapPage_of_not hp]
        exact ih h hd ha' (by omega) (by omega) hnext
      rw [if_pos (show _ ≠ _ from hp), frames_cons_of_present hp, unmap_cons]
      by_cases hfr : ld.Frees (pframe (A.ent pd n))
      · have hz : pframe (A.ent pd n) ≠ 0 := (ld.lo_pos.trans_le hfr.1).ne'
        rw [if_neg (PTE_ADDR_ne_zero hz), p2v_PTE_ADDR]
        have hdata := hap.data n List.mem_cons_self hp
        refine .bind (kfree_wp h hdata hfr.1 hfr.2 fun m1 h1 => ?_)
        refine .bind (.modify ?_)
        have hne : pd ≠ pframe (A.ent pd n) := Rep.ne_of_data hdata (by rw [hd]; rfl)
        have hd1 : (A.give (pframe (A.ent pd n))).own pd = .dir := by
          rw [give_own, assign_of_ne hne, hd]
        have h2 := h1.setPte hd1 (by omega) hg 0
        rw [← unmapPage_of_present hp] at h2
        have htab : (A.unmapPage pd n).tab pd = A.tab pd := by
          rw [unmapPage_of_present hp]
          rfl
        have hd2 : (A.unmapPage pd n).own pd = .dir := by
          rw [unmapPage_of_present hp]
          exact hd1
        rw [← htab] at hnext
        have hfrm : (A.unmapPage pd n).frames pd _ = A.frames pd _ := unmapPage_frames hmem
        refine (ih h2 hd2 ha' (by omega) (by omega) hnext).mono ?_ ?_
        · rintro r m' ⟨hr, hall, hrep⟩
          rw [htab] at hrep hall
          rw [hfrm] at hall
          exact ⟨hr, List.forall_mem_cons.mpr ⟨hfr, hall⟩, hrep⟩
        · rintro e m' ⟨f, hf, hbad⟩
          rw [htab, hfrm] at hf
          exact ⟨f, List.mem_cons_of_mem _ hf, hbad⟩
      · have hbad : ∃ f ∈ pframe (A.ent pd n) ::
          A.frames pd (visits (A.tab pd) (npages oldsz) fuel (n + 1)), ¬ ld.Frees f :=
          ⟨_, List.mem_cons_self, hfr⟩
        by_cases hz : PTE_ADDR (A.ent pd n) = 0
        · rw [if_pos hz]
          exact .throw hbad
        · rw [if_neg hz, p2v_PTE_ADDR]
          exact .bind (.of_error (kfree_panics (pframe_lt _) hfr) hbad)

lemma toNat_PGROUNDUP_npages {sz : UInt32} (h : sz ≤ KERNBASE) :
    (PGROUNDUP sz).toNat = npages sz * 4096 := by
  have := UInt32.le_iff_toNat_le.mp h
  rw [show (KERNBASE).toNat = 2147483648 from rfl] at this
  exact toNat_PGROUNDUP (by omega)

def View.doomed (A : View) (pd : ℕ) (oldsz newsz : UInt32) : List ℕ :=
  visits (A.tab pd) (npages oldsz) (2 ^ 20) (npages newsz)

section

variable {oldsz newsz : UInt32}

lemma npages_le (h : oldsz ≤ KERNBASE) : npages oldsz ≤ 2 ^ 19 := by
  have := UInt32.le_iff_toNat_le.mp h
  rw [show (KERNBASE).toNat = 2147483648 from rfl] at this
  rw [npages]
  omega

lemma View.mem_doomed (h : oldsz ≤ KERNBASE) : n ∈ A.doomed pd oldsz newsz ↔
    n < npages oldsz ∧ A.tab pd (n / 1024) ≠ none ∧ npages newsz ≤ n ∧ Reached (A.tab pd)
    (npages newsz) n :=
  have := npages_le h
  mem_visits (by omega)

lemma View.doomed_nodup (h : oldsz ≤ KERNBASE) : (A.doomed pd oldsz newsz).Nodup :=
  have := npages_le h
  visits_nodup (by omega)

lemma deallocuvm_wp (h : Rep ld m A) (hd : A.own pd = .dir) (hle : oldsz ≤ KERNBASE) (hlt : newsz < oldsz)
    (hap : A.Apart pd (A.doomed pd oldsz newsz)) : (deallocuvm ld (kva pd) oldsz newsz).Wp m
      (fun r m' => r = newsz ∧ (∀ f ∈ A.frames pd (A.doomed pd oldsz newsz), ld.Frees f) ∧
        Rep ld m' (A.unmap pd (A.doomed pd oldsz newsz)))
      (fun _ _ => ∃ f ∈ A.frames pd (A.doomed pd oldsz newsz), ¬ ld.Frees f) := by
  have := npages_le hle
  rw [deallocuvm, if_neg (UInt32.not_le.mpr hlt)]
  exact deallocuvmLoop_wp h hd hle
    (toNat_PGROUNDUP_npages (UInt32.le_trans (UInt32.le_of_lt hlt) hle)) (by decide) (by omega) hap

lemma View.apart_of_label (h : ∀ n ∈ l, Present (A.ent pd n) → A.own (pframe (A.ent pd n)) = .page pd n) :
    A.Apart pd l := by
  refine ⟨fun n hn hp => by rw [h n hn hp]; rfl, fun n hn hp k hk hq he => ?_⟩
  have hn' := h n hn hp
  rw [he, h k hk hq] at hn'
  injection hn' with _ hkn
  exact hkn.symm

lemma deallocuvm_label_wp (h : Rep ld m A) (hd : A.own pd = .dir) (hlt : newsz < oldsz)
    (hle : oldsz ≤ KERNBASE)
    (hown : ∀ n, npages newsz ≤ n → n < npages oldsz → Present (A.ent pd n) →
      A.own (pframe (A.ent pd n)) = .page pd n) : (deallocuvm ld (kva pd) oldsz newsz).Wp m
      (fun r m' => r = newsz ∧ Rep ld m' (A.unmap pd (A.doomed pd oldsz newsz))) (fun _ _ => False) := by
  have hmem : ∀ n ∈ A.doomed pd oldsz newsz, Present (A.ent pd n) →
    A.own (pframe (A.ent pd n)) = .page pd n :=
    fun n hn hp => by
      obtain ⟨h1, -, h2, -⟩ := (mem_doomed hle).mp hn
      exact hown n h2 h1 hp
  refine (deallocuvm_wp h hd hle hlt (apart_of_label hmem)).mono (fun r m' hr => ⟨hr.1, hr.2.2⟩) ?_
  rintro e m' ⟨f, hf, hbad⟩
  obtain ⟨n, hn, hp, rfl⟩ := mem_frames.mp hf
  exact hbad (h.range _ (by rw [hmem n hn hp]; simp))

def InRange (newsz oldsz : UInt32) (n : ℕ) : Prop := (PGROUNDUP newsz).toNat ≤ n * 4096 ∧
    n * 4096 < oldsz.toNat

instance : Decidable (InRange newsz oldsz n) := inferInstanceAs (Decidable (_ ∧ _))

lemma inRange_iff (h : newsz ≤ KERNBASE) : InRange newsz oldsz n ↔ npages newsz ≤ n ∧
    n < npages oldsz := by
  rw [InRange, toNat_PGROUNDUP_npages h, npages, npages]
  omega

structure OwnFrames (A : View) (mem : ℕ → Page) (pd : ℕ) : Prop where
  nonzero : ∀ n < 2 ^ 19, Present (entry mem pd n) → pframe (entry mem pd n) ≠ 0
  data : ∀ n < 2 ^ 19, Present (entry mem pd n) → (A.own (pframe (entry mem pd n))).data = true
  inj : ∀ n < 2 ^ 19, Present (entry mem pd n) → ∀ k < 2 ^ 19, Present (entry mem pd k) →
    pframe (entry mem pd n) = pframe (entry mem pd k) → n = k

structure Cleared (A : View) (pd : ℕ) (oldsz newsz : UInt32) (m : Mem) (r : UInt32) (m' : Mem) :
    Prop where
  ret : r = newsz
  unmapped : ∀ n, InRange newsz oldsz n → ¬ Present (entry m'.mem pd n)
  freed : ∃ l, Linked m'.mem m'.freelist (l ++ A.free) ∧
    l.Perm (((List.range (2 ^ 19)).filter fun n => InRange newsz oldsz n ∧ Present (entry m.mem pd n)).map
      fun n => pframe (entry m.mem pd n))
  other : ∀ q, A.own q = .dir → ∀ n < 2 ^ 20, (q = pd → ¬ InRange newsz oldsz n) →
    entry m'.mem q n = entry m.mem q n

lemma OwnFrames.apart (h : Rep ld m A) (hd : A.own pd = .dir) (hle : oldsz ≤ KERNBASE)
    (hown : OwnFrames A m.mem pd) : A.Apart pd (A.doomed pd oldsz newsz) := by
  have hlt : ∀ n ∈ A.doomed pd oldsz newsz, n < 2 ^ 19 ∧ A.ent pd n = entry m.mem pd n := fun n hn => by
    have h1 := ((mem_doomed hle).mp hn).1
    have h2 := npages_le hle
    exact ⟨by omega, h.ent pd hd n (by omega)⟩
  refine ⟨fun n hn hp => ?_, fun n hn hp k hk hq he => ?_⟩
  · obtain ⟨h1, h2⟩ := hlt n hn
    rw [h2] at hp ⊢
    exact hown.data n h1 hp
  · obtain ⟨h1, h2⟩ := hlt n hn
    obtain ⟨h3, h4⟩ := hlt k hk
    rw [h2] at hp he
    rw [h4] at hq he
    exact hown.inj n h1 hp k h3 hq he

lemma Rep.tab_ne_none (h : Rep ld m A) (hd : A.own pd = .dir) (hn : n < 2 ^ 20)
    (hp : Present (A.ent pd n)) : A.tab pd (n / 1024) ≠ none := fun ht => by
  rw [h.ent_of_none hd hn ht] at hp
  exact not_present_zero hp

lemma reached_congr {tab tab' : ℕ → Option ℕ} {a : ℕ} (h : ∀ i < 1024, tab i = tab' i) (hn : n < 2 ^ 20) :
    Reached tab a n ↔ Reached tab' a n := by
  refine or_congr_left (exists_congr fun i => and_congr_right fun _ => and_congr_right fun hi => ?_)
  rw [h i (by omega)]

lemma cleared_of_unmap (h : Rep ld m A) (hd : A.own pd = .dir) (hown : OwnFrames A m.mem pd)
    (hlt : newsz < oldsz) (hle : oldsz ≤ KERNBASE)
    (hall : ∀ n, InRange newsz oldsz n → Present (entry m.mem pd n) → n ∈ A.doomed pd oldsz newsz)
    (h' : Rep ld m' (A.unmap pd (A.doomed pd oldsz newsz))) : Cleared A pd oldsz newsz m newsz m' := by
  have hle' := UInt32.le_trans (UInt32.le_of_lt hlt) hle
  have hnp := npages_le hle
  have hnd : (A.doomed pd oldsz newsz).Nodup := doomed_nodup hle
  have hap : A.Apart pd (A.doomed pd oldsz newsz) := hown.apart h hd hle
  have hdir : ∀ q, A.own q = .dir → (A.unmap pd (A.doomed pd oldsz newsz)).own q = .dir := fun q hq =>
    (hap.unmap_own hnd (by rw [hq]; rfl)).trans hq
  have hent : ∀ n, InRange newsz oldsz n → A.ent pd n = entry m.mem pd n := fun n hn =>
    have := (inRange_iff hle').mp hn
    h.ent pd hd n (by omega)
  refine ⟨rfl, fun n hn => ?_, ⟨(A.frames pd (A.doomed pd oldsz newsz)).reverse, ?_,
    (List.reverse_perm _).trans ?_⟩, fun q hq n hn hr => ?_⟩
  · have hr := (inRange_iff hle').mp hn
    rw [← h'.ent pd (hdir pd hd) n (by omega), unmap_ent]
    split_ifs with hc
    · exact not_present_zero
    · intro hp
      exact hc ⟨hall n hn (hent n hn ▸ hp), hp⟩
  · have hl := h'.linked
    rwa [unmap_free hnd] at hl
  · rw [frames]
    have hperm : ((A.doomed pd oldsz newsz).filter fun n => Present (A.ent pd n)).Perm
        ((List.range (2 ^ 19)).filter fun n => InRange newsz oldsz n ∧ Present (entry m.mem pd n)) := by
      refine (List.perm_ext_iff_of_nodup (hnd.filter _) (List.nodup_range.filter _)).mpr fun n => ?_
      simp only [List.mem_filter, decide_eq_true_eq, List.mem_range]
      constructor
      · rintro ⟨hm, hp⟩
        obtain ⟨h1, -, h2, -⟩ := (mem_doomed hle).mp hm
        have hr : InRange newsz oldsz n := (inRange_iff hle').mpr ⟨h2, h1⟩
        exact ⟨by omega, hr, hent n hr ▸ hp⟩
      · rintro ⟨-, hr, hp⟩
        exact ⟨hall n hr hp, (hent n hr).symm ▸ hp⟩
    refine (hperm.map _).trans (List.Perm.of_eq (List.map_congr_left fun n hn => ?_))
    rw [List.mem_filter, decide_eq_true_eq] at hn
    rw [hent n hn.2.1]
  · rw [← h'.ent q (hdir q hq) n hn, ← h.ent q hq n hn]
    by_cases hqp : q = pd
    · subst hqp
      rw [unmap_ent, if_neg]
      rintro ⟨hm, -⟩
      obtain ⟨h1, -, h2, -⟩ := (mem_doomed hle).mp hm
      exact hr rfl ((inRange_iff hle').mpr ⟨h2, h1⟩)
    · rw [unmap_ent_of_ne hqp]

lemma doomed_of_cleared (h : Rep ld m A) (hd : A.own pd = .dir) (hown : OwnFrames A m.mem pd)
    (hlt : newsz < oldsz) (hle : oldsz ≤ KERNBASE)
    (hw : (deallocuvm ld (kva pd) oldsz newsz).Wp m (Cleared A pd oldsz newsz m) (fun _ _ => False))
    (hn : InRange newsz oldsz n) (hp : Present (entry m.mem pd n)) :
    n ∈ A.doomed pd oldsz newsz ∧ ld.Frees (pframe (entry m.mem pd n)) := by
  have hap : A.Apart pd (A.doomed pd oldsz newsz) := hown.apart h hd hle
  have hnp := npages_le hle
  obtain ⟨-, hn'⟩ := (inRange_iff (UInt32.le_trans (UInt32.le_of_lt hlt) hle)).mp hn
  rcases (hw.and (deallocuvm_wp h hd hle hlt hap)).outcome with ⟨r, m', hc, -, hfr, h'⟩ | ⟨-, -, hf, -⟩
  · have hdir : (A.unmap pd (A.doomed pd oldsz newsz)).own pd = .dir :=
      (hap.unmap_own (doomed_nodup hle) (by rw [hd]; rfl)).trans hd
    have hent := h.ent pd hd n (by omega)
    have hm : n ∈ A.doomed pd oldsz newsz := by
      by_contra hnot
      refine hc.unmapped n hn ?_
      rw [← h'.ent pd hdir n (by omega), unmap_ent, if_neg fun hx => hnot hx.1, hent]
      exact hp
    refine ⟨hm, hfr _ (mem_frames.mpr ⟨n, hm, ?_⟩)⟩
    rw [hent]
    exact ⟨hp, rfl⟩
  · exact hf.elim

theorem deallocuvm_clears_iff (h : Rep ld m A) (hd : A.own pd = .dir) (hown : OwnFrames A m.mem pd)
    (hlt : newsz < oldsz) (hle : oldsz ≤ KERNBASE) :
    (deallocuvm ld (kva pd) oldsz newsz).Wp m (Cleared A pd oldsz newsz m) (fun _ _ => False) ↔
      ∀ n, InRange newsz oldsz n → Present (entry m.mem pd n) →
        Reached (table m.mem pd) ((PGROUNDUP newsz).toNat / 4096) n ∧
        ld.Frees (pframe (entry m.mem pd n)) := by
  have hle' := UInt32.le_trans (UInt32.le_of_lt hlt) hle
  have hnp := npages_le hle
  have hap : A.Apart pd (A.doomed pd oldsz newsz) := hown.apart h hd hle
  have hent : ∀ n, InRange newsz oldsz n → A.ent pd n = entry m.mem pd n := fun n hn =>
    have := (inRange_iff hle').mp hn
    h.ent pd hd n (by omega)
  have hmem : ∀ n, InRange newsz oldsz n → Present (entry m.mem pd n) →
      (n ∈ A.doomed pd oldsz newsz ↔ Reached (table m.mem pd) ((PGROUNDUP newsz).toNat / 4096) n) :=
      fun n hn hp => by
    obtain ⟨h₁, h₂⟩ := (inRange_iff hle').mp hn
    have htab := h.tab_ne_none hd (by omega) ((hent n hn).symm ▸ hp)
    rw [mem_doomed hle, toNat_PGROUNDUP_npages hle', Nat.mul_div_cancel _ (by decide),
      ← reached_congr (h.tab pd hd) (by omega)]
    exact ⟨fun hm => hm.2.2.2, fun hr => ⟨h₂, htab, h₁, hr⟩⟩
  have hspec := deallocuvm_wp h hd hle hlt hap
  constructor
  · intro hw n hn hp
    obtain ⟨hm, hfr⟩ := doomed_of_cleared h hd hown hlt hle hw hn hp
    exact ⟨(hmem n hn hp).mp hm, hfr⟩
  · intro hc
    refine hspec.mono ?_ ?_
    · rintro r m' ⟨rfl, -, h'⟩
      exact cleared_of_unmap h hd hown hlt hle (fun n hn hp => (hmem n hn hp).mpr (hc n hn hp).1) h'
    · rintro e m' ⟨f, hf, hbad⟩
      obtain ⟨n, hm, hp, rfl⟩ := mem_frames.mp hf
      obtain ⟨h₁, -, h₂, -⟩ := (mem_doomed hle).mp hm
      have hr : InRange newsz oldsz n := (inRange_iff hle').mpr ⟨h₂, h₁⟩
      rw [hent n hr] at hp hbad
      exact hbad (hc n hr hp).2

end

def onePage (n : ℕ) : Mem :=
  (Mem.blank.setWord (kva 2000) (n / 1024) (v2p (kva 2001) ||| PTE_P ||| PTE_W ||| PTE_U)).setPte
    (ptr 2001 n) (v2p (kva 2002) ||| (PTE_W ||| PTE_U) ||| PTE_P)

def onePageView (n : ℕ) : View :=
  (((View.blank.mkdir 2000).mktab 2000 (n / 1024) 2001).set 2000 n
    (v2p (kva 2002) ||| (PTE_W ||| PTE_U) ||| PTE_P)).label 2002 (.page 2000 n)

lemma rep_onePage (ld : Kernel) (hn : n < 2 ^ 20) : Rep ld (onePage n) (onePageView n) := by
  have h0 := (Rep.blank ld).mkdir (blank_data 2000) (by rw [blank_own (by decide)]; simp) rfl
  have ho : (View.blank.mkdir 2000).own 2001 = .lost := by
    rw [mkdir_own, assign_of_ne (by decide), blank_own (by decide)]
  have h1 := h0.setPde (i := n / 1024) (assign_self ..) ho rfl rfl
  have hg : ((View.blank.mkdir 2000).mktab 2000 (n / 1024) 2001).tab 2000 (n / 1024) = some 2001 := by
    rw [mktab_tab, assign_self, assign_self]
  exact (h1.setPte rfl hn hg _).label rfl (show Owner.lost ≠ .none by decide) rfl

lemma entry_onePage {k : ℕ} (hn : n < 2 ^ 20) (hk : k < 2 ^ 20) : entry (onePage n).mem 2000 k =
    if k = n then v2p (kva 2002) ||| (PTE_W ||| PTE_U) ||| PTE_P else 0 := by
  rw [← (rep_onePage Kernel.small hn).ent 2000 rfl k hk]
  rfl

lemma present_onePage {k : ℕ} (hn : n < 2 ^ 20) (hk : k < 2 ^ 20) :
    Present (entry (onePage n).mem 2000 k) ↔ k = n := by
  rw [entry_onePage hn hk]
  split_ifs with h
  · exact iff_of_true (present_entry _ _) h
  · exact iff_of_false not_present_zero h

lemma pframe_onePage (hn : n < 2 ^ 20) : pframe (entry (onePage n).mem 2000 n) = 2002 := by
  rw [entry_onePage hn hn, if_pos rfl]
  exact pframe_kva (by decide) (by decide)

lemma ownFrames_onePage (hn : n < 2 ^ 20) : OwnFrames (onePageView n) (onePage n).mem 2000 := by
  have hone : ∀ k < 2 ^ 19, Present (entry (onePage n).mem 2000 k) → k = n := fun k hk hp =>
    (present_onePage hn (by omega)).mp hp
  refine ⟨fun k hk hp => ?_, fun k hk hp => ?_, fun k hk hp j hj hq _ => ?_⟩
  · rw [hone k hk hp, pframe_onePage hn]
    decide
  · rw [hone k hk hp, pframe_onePage hn]
    rfl
  · rw [hone k hk hp, hone j hj hq]

theorem deallocuvm_clears_from_zero :
    (deallocuvm Kernel.small (kva 2000) 0x401000 0).Wp (onePage 1024)
      (Cleared (onePageView 1024) 2000 0x401000 0 (onePage 1024)) (fun _ _ => False) := by
  refine (deallocuvm_clears_iff (rep_onePage _ (by decide)) rfl (ownFrames_onePage (by decide))
    (by decide) (by decide)).mpr fun n hn hp => ?_
  have hlt := hn.2
  rw [show (0x401000 : UInt32).toNat = 4198400 from rfl] at hlt
  obtain rfl := (present_onePage (by decide) (by omega)).mp hp
  rw [pframe_onePage (by decide)]
  exact ⟨.inr (by decide), Kernel.small.lo_le.trans (by decide), by decide⟩

theorem deallocuvm_skips_mapped_page :
    Rep Kernel.small (onePage 1024) (onePageView 1024) ∧ (onePageView 1024).own 2000 = .dir ∧
      OwnFrames (onePageView 1024) (onePage 1024).mem 2000 ∧
      ¬ (deallocuvm Kernel.small (kva 2000) 0x401000 0x1000).Wp (onePage 1024)
        (Cleared (onePageView 1024) 2000 0x401000 0x1000 (onePage 1024)) (fun _ _ => False) := by
  have h := rep_onePage Kernel.small (n := 1024) (by decide)
  have hown := ownFrames_onePage (n := 1024) (by decide)
  refine ⟨h, rfl, hown, fun hw => ?_⟩
  have hp := (present_onePage (n := 1024) (by decide) (by decide)).mpr rfl
  have hm := (doomed_of_cleared h rfl hown (by decide) (by decide) hw (n := 1024)
    ⟨by decide, by decide⟩ hp).1
  obtain ⟨-, -, -, ⟨i, -, hi, htab⟩ | hmod⟩ := (mem_doomed (by decide)).mp hm
  · obtain rfl : i = 0 := by omega
    exact htab rfl
  · exact absurd hmod (by decide)

end Xv6.Vm
