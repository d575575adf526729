import Xv6.Vm.Dealloc

namespace Xv6.Vm

open Lib View

variable {ld : Kernel} {m m' : Mem} {A B C : View} {pd f g n i : ℕ} {l : List ℕ} {p : Page}

namespace View

def Holds (A : View) (pd g : ℕ) : Prop := g = pd ∨ ∃ i < 1024, A.tab pd i = some g

instance : Decidable (A.Holds pd g) := inferInstanceAs (Decidable (_ ∨ _))

def retire (A : View) (pd : ℕ) (mem : ℕ → Page) : View :=
  { A with
    own := fun g => if A.Holds pd g then .lost else A.own g
    page := fun g => if A.Holds pd g then mem g else A.page g }

lemma retire_own : (A.retire pd m.mem).own g = if A.Holds pd g then .lost else A.own g := rfl

lemma retire_page : (A.retire pd m.mem).page g = if A.Holds pd g then m.mem g else A.page g := rfl

end View

namespace Rep

lemma own_of_holds (h : Rep ld m A) (hd : A.own pd = .dir) (hg : A.Holds pd g) :
    A.own g = .dir ∧ g = pd ∨ ∃ i, A.own g = .table pd i := by
  rcases hg with rfl | ⟨i, hi, ht⟩
  · exact .inl ⟨hd, rfl⟩
  · exact .inr ⟨i, h.own_tab pd hd i hi g ht⟩

lemma retire (h : Rep ld m A) (hd : A.own pd = .dir) : Rep ld m (A.retire pd m.mem) := by
  have hback : ∀ g o, (A.retire pd m.mem).own g = o → o ≠ .lost → ¬ A.Holds pd g ∧ A.own g = o := by
    intro g o hg ho
    rw [retire_own] at hg
    split_ifs at hg with hh
    · exact absurd hg.symm ho
    · exact ⟨hh, hg⟩
  have hkeep : ∀ g, (∀ i, A.own g ≠ .table pd i) → A.own g ≠ .dir →
    (A.retire pd m.mem).own g = A.own g := by
    intro g ht hne
    rw [retire_own, if_neg]
    intro hh
    rcases h.own_of_holds hd hh with ⟨ho, -⟩ | ⟨i, hi⟩
    · exact hne ho
    · exact ht i hi
  refine h.update rfl rfl (fun _ _ => rfl) (fun g => ⟨fun hg => (hback g _ hg (by simp)).2, fun hg => ?_⟩)
    (fun g hg => h.range g fun hn => ?_) (fun q hq => ?_) (fun g hg => ?_)
    (h.rest_eq ⟨rfl, rfl, rfl, rfl⟩)
  · exact (hkeep g (by simp [hg]) (by simp [hg])).trans hg
  · exact hg ((hkeep g (by simp [hn]) (by simp [hn])).trans hn)
  · obtain ⟨hh, hq'⟩ := hback q _ hq (by simp)
    refine h.dir_congr m hq' (fun g i hg => hkeep g (fun j hj => ?_) (by simp [hg])) rfl
      (fun _ _ _ => rfl)
    rw [hg] at hj
    injection hj with hqp
    exact hh (.inl hqp)
  · rw [retire_own] at hg
    rw [retire_page]
    split_ifs at hg ⊢ with hh
    · rfl
    · exact h.page g hg

end Rep

namespace View

def gives (A : View) (l : List ℕ) : View := l.foldl (fun A g => A.give g) A

lemma gives_cons : A.gives (g :: l) = (A.give g).gives l := rfl

lemma gives_own : (A.gives l).own g = if g ∈ l then .free else A.own g := by
  induction l generalizing A with
  | nil => rfl
  | cons x l ih =>
    rw [gives_cons, ih, give_own, assign_apply]
    by_cases hl : g ∈ l
    · simp [hl]
    · simp [hl]

lemma gives_rest : (A.gives l).tab = A.tab ∧ (A.gives l).ent = A.ent ∧ (A.gives l).page = A.page ∧
    (A.gives l).calls = A.calls ∧ (A.gives l).deny = A.deny ∧ (A.gives l).trace = A.trace := by
  induction l generalizing A with
  | nil => exact ⟨rfl, rfl, rfl, rfl, rfl, rfl⟩
  | cons x l ih => exact ih (A := A.give x)

end View

def tableFrames (p : Page) : ℕ → List ℕ
  | 0 => []
  | n + 1 =>
    if Present (p.word (1024 - (n + 1))) then pframe (p.word (1024 - (n + 1))) :: tableFrames p n
      else tableFrames p n

lemma mem_tableFrames (hn : n ≤ 1024) : g ∈ tableFrames p n ↔
    ∃ i < 1024, 1024 - n ≤ i ∧ Present (p.word i) ∧ pframe (p.word i) = g := by
  induction n with
  | zero =>
    refine iff_of_false List.not_mem_nil ?_
    rintro ⟨i, h1, h2, -⟩
    omega
  | succ n ih =>
    have hsplit : (∃ i < 1024, 1024 - (n + 1) ≤ i ∧ Present (p.word i) ∧ pframe (p.word i) = g) ↔
        (Present (p.word (1024 - (n + 1))) ∧ pframe (p.word (1024 - (n + 1))) = g) ∨
          ∃ i < 1024, 1024 - n ≤ i ∧ Present (p.word i) ∧ pframe (p.word i) = g := by
      constructor
      · rintro ⟨i, h1, h2, hi⟩
        by_cases he : i = 1024 - (n + 1)
        · exact .inl (he ▸ hi)
        · exact .inr ⟨i, h1, by omega, hi⟩
      · rintro (hi | ⟨i, h1, h2, hi⟩)
        · exact ⟨_, by omega, le_rfl, hi⟩
        · exact ⟨i, h1, by omega, hi⟩
    rw [hsplit, tableFrames, ← ih (by omega)]
    split_ifs with hp
    · rw [List.mem_cons]
      exact or_congr_left (eq_comm.trans (and_iff_right hp).symm)
    · rw [or_iff_right fun hc => hp hc.1]

lemma nodup_tableFrames (hn : n ≤ 1024)
    (hinj : ∀ i < 1024, ∀ j < 1024, Present (p.word i) → Present (p.word j) →
    pframe (p.word i) = pframe (p.word j) → i = j) : (tableFrames p n).Nodup := by
  induction n with
  | zero => exact List.nodup_nil
  | succ n ih =>
    rw [tableFrames]
    split_ifs with hp
    · refine List.nodup_cons.mpr ⟨fun hm => ?_, ih (by omega)⟩
      obtain ⟨i, h1, h2, hi, he⟩ := (mem_tableFrames (by omega)).mp hm
      have := hinj i h1 (1024 - (n + 1)) (by omega) hi hp he
      omega
    · exact ih (by omega)

lemma freeTables_wp (hn : n ≤ 1024) (h : Rep ld m A) (hpd : A.own pd = .lost) (hp : A.page pd = p)
    (hown : ∀ g ∈ tableFrames p n, A.own g = .lost ∧ g ≠ pd) (hnd : (tableFrames p n).Nodup) :
    (freeTables ld (kva pd) n).Wp m (fun _ m' => Rep ld m' (A.gives (tableFrames p n)))
    (fun _ _ => False) := by
  induction n generalizing m A with
  | zero => exact .pure h
  | succ n ih =>
    rw [freeTables]
    refine .bind (.get ?_)
    have hword : m.word (kva pd) (NPDENTRIES - (n + 1)) = p.word (1024 - (n + 1)) := by
      rw [Mem.word, Mem.page, frame_kva (h.lt_of_eq hpd (by simp)), ← hp, h.page pd (by rw [hpd]; rfl)]
    rw [hword]
    rw [tableFrames] at hown hnd ⊢
    by_cases hpr : Present (p.word (1024 - (n + 1)))
    · rw [if_pos hpr] at hown hnd ⊢
      rw [if_pos (show _ ≠ _ from hpr), p2v_PTE_ADDR]
      obtain ⟨hg, hgp⟩ := hown _ List.mem_cons_self
      obtain ⟨hlo, hlt⟩ := h.range _ (by rw [hg]; simp)
      obtain ⟨hng, hnd⟩ := List.nodup_cons.mp hnd
      refine .bind (kfree_wp h (by rw [hg]; rfl) hlo hlt fun m1 h1 => ?_)
      rw [gives_cons]
      refine ih (by omega) h1 ?_ hp (fun g hm => ?_) hnd
      · rw [give_own, assign_of_ne hgp.symm, hpd]
      · obtain ⟨ho, hne⟩ := hown g (List.mem_cons_of_mem _ hm)
        rw [give_own, assign_of_ne, ho]
        · exact ⟨rfl, hne⟩
        · rintro rfl
          exact hng hm
    · rw [if_neg hpr] at hown hnd ⊢
      rw [if_neg (show ¬ (_ ≠ _) from hpr)]
      exact ih (by omega) h hpd hp hown hnd

def View.Part (A : View) (pd g : ℕ) : Prop :=
  A.Holds pd g ∨ ∃ n < 2 ^ 19, Present (A.ent pd n) ∧ pframe (A.ent pd n) = g

structure Dropped (pd : ℕ) (A B : View) : Prop where
  freed : ∀ g, A.Part pd g → B.own g = .free
  kept : ∀ g, ¬ A.Part pd g → B.own g = A.own g
  other : ∀ q, q ≠ pd → B.ent q = A.ent q ∧ B.tab q = A.tab q
  page : ∀ g, ¬ A.Part pd g → B.page g = A.page g
  calls : B.calls = A.calls
  deny : B.deny = A.deny
  trace : B.trace = A.trace

lemma Rep.mem_tableFrames (h : Rep ld m A) (hd : A.own pd = .dir) :
    g ∈ tableFrames (m.mem pd) 1024 ↔ ∃ i < 1024, A.tab pd i = some g := by
  rw [Vm.mem_tableFrames le_rfl]
  refine exists_congr fun i => and_congr_right fun hi => ?_
  rw [h.tab pd hd i hi, table, pde]
  split_ifs with hp
  · simp [hp]
  · simp [hp]

lemma Rep.nodup_tableFrames (h : Rep ld m A) (hd : A.own pd = .dir) :
    (tableFrames (m.mem pd) 1024).Nodup := by
  have htab : ∀ i < 1024, Present ((m.mem pd).word i) →
    A.own (pframe ((m.mem pd).word i)) = .table pd i := fun i hi hp => by
    refine h.own_tab pd hd i hi _ ?_
    rw [h.tab pd hd i hi, table, pde, if_pos hp]
  refine Vm.nodup_tableFrames le_rfl fun i hi j hj hp hq he => ?_
  have ho := htab i hi hp
  rw [he, htab j hj hq] at ho
  injection ho with _ hji
  exact hji.symm

def View.drop (A : View) (pd : ℕ) (mem : ℕ → Page) (l : List ℕ) : View :=
    ((A.retire pd mem).gives l).give pd

lemma Rep.drop_own (h : Rep ld m A) (hd : A.own pd = .dir) :
    (A.drop pd m.mem (tableFrames (m.mem pd) 1024)).own g = if A.Holds pd g then .free else A.own g := by
  rw [drop, give_own, assign_apply, gives_own, retire_own]
  by_cases hg : g = pd
  · rw [if_pos hg, if_pos (show A.Holds pd g from .inl hg)]
  · have hiff : g ∈ tableFrames (m.mem pd) 1024 ↔ A.Holds pd g := by
      rw [h.mem_tableFrames hd]
      exact ⟨.inr, fun hh => hh.resolve_left hg⟩
    rw [if_neg hg, if_congr hiff rfl rfl]
    split_ifs <;> rfl

lemma View.drop_rest : (A.drop pd m.mem l).tab = A.tab ∧ (A.drop pd m.mem l).ent = A.ent ∧
    (∀ g, ¬ A.Holds pd g → (A.drop pd m.mem l).page g = A.page g) ∧ (A.drop pd m.mem l).calls = A.calls ∧
    (A.drop pd m.mem l).deny = A.deny ∧ (A.drop pd m.mem l).trace = A.trace := by
  obtain ⟨h1, h2, h3, h4, h5, h6⟩ : ((A.retire pd m.mem).gives l).tab = _ ∧ _ := gives_rest
  refine ⟨h1, h2, fun g hg => ?_, h4, h5, h6⟩
  rw [drop, give_page, h3, retire_page, if_neg hg]

lemma dropDir_wp (h : Rep ld m A) (hd : A.own pd = .dir) :
    (do freeTables ld (kva pd) NPDENTRIES; kfree ld (kva pd)).Wp m (fun _ m' =>
      Rep ld m' (A.drop pd m.mem (tableFrames (m.mem pd) 1024))) (fun _ _ => False) := by
  have h1 := h.retire hd
  have hpd : (A.retire pd m.mem).own pd = .lost := if_pos (.inl rfl)
  have hmem : ∀ g ∈ tableFrames (m.mem pd) 1024, (A.retire pd m.mem).own g = .lost ∧ g ≠ pd :=
    fun g hg => by
    obtain ⟨i, hi, ht⟩ := (h.mem_tableFrames hd).mp hg
    refine ⟨if_pos (.inr ⟨i, hi, ht⟩), ?_⟩
    rintro rfl
    rw [h.own_tab g hd i hi g ht] at hd
    cases hd
  refine (freeTables_wp le_rfl h1 hpd (if_pos (.inl rfl)) hmem (h.nodup_tableFrames hd)).seq
    fun _ m1 h2 => ?_
  have ho : ((A.retire pd m.mem).gives (tableFrames (m.mem pd) 1024)).own pd = .lost := by
    rw [gives_own, if_neg fun hm => (hmem pd hm).2 rfl, hpd]
  obtain ⟨hlo, hlt⟩ := h2.range pd (by rw [ho]; simp)
  exact kfree_wp h2 (by rw [ho]; rfl) hlo hlt fun m2 h3 => h3

lemma Rep.mem_frames_all (h : Rep ld m A) (hd : A.own pd = .dir) :
    g ∈ A.frames pd (A.doomed pd KERNBASE 0) ↔ ∃ n < 2 ^ 19, Present (A.ent pd n) ∧
    pframe (A.ent pd n) = g := by
  have htop : npages KERNBASE = 2 ^ 19 := by decide
  rw [mem_frames]
  refine exists_congr fun n => ?_
  rw [mem_doomed (by decide), htop]
  refine ⟨fun ⟨hm, hp⟩ => ⟨hm.1, hp⟩,
    fun ⟨hn, hp⟩ => ⟨⟨hn, h.tab_ne_none hd (by omega) hp.1, Nat.zero_le n, .inr ?_⟩, hp⟩⟩
  exact Nat.zero_le _

lemma freevm_wp (h : Rep ld m A) (hd : A.own pd = .dir)
    (hown : ∀ n < 2 ^ 19, Present (A.ent pd n) → A.own (pframe (A.ent pd n)) = .page pd n) :
    (freevm ld (kva pd)).Wp m (fun _ m' => ∃ B, Dropped pd A B ∧ Rep ld m' B) (fun _ _ => False) := by
  have htop : npages KERNBASE = 2 ^ 19 := by decide
  have hnd : (A.doomed pd KERNBASE 0).Nodup := doomed_nodup (by decide)
  have hpart : ∀ g, A.Part pd g ↔ A.Holds pd g ∨ g ∈ A.frames pd (A.doomed pd KERNBASE 0) := fun g => by
    rw [View.Part, h.mem_frames_all hd]
  have hnot : ∀ g, A.Holds pd g → g ∉ A.frames pd (A.doomed pd KERNBASE 0) := fun g hg hm => by
    obtain ⟨n, hn, hp, rfl⟩ := (h.mem_frames_all hd).mp hm
    rcases h.own_of_holds hd hg with ⟨ho, -⟩ | ⟨i, ho⟩ <;> rw [hown n hn hp] at ho <;> cases ho
  rw [freevm, if_neg (kva_ne_zero (h.dir_lt hd))]
  refine (deallocuvm_label_wp h hd (by decide) (by decide) fun n _ hn hp => hown n (by omega) hp).seq ?_
  rintro - m1 ⟨-, h1⟩
  obtain ⟨htab, hpage, hcalls, hdeny, htrace⟩ : (A.unmap pd (A.doomed pd KERNBASE 0)).tab = A.tab ∧
    _ := unmap_rest
  have hU : ∀ g, (A.unmap pd (A.doomed pd KERNBASE 0)).own g = _ := fun g => unmap_own hnd
  have hUd : (A.unmap pd (A.doomed pd KERNBASE 0)).own pd = .dir := by
    rw [hU, if_neg (hnot pd (.inl rfl)), hd]
  have hholds : ∀ g, (A.unmap pd (A.doomed pd KERNBASE 0)).Holds pd g ↔ A.Holds pd g := fun g => by
    rw [View.Holds, View.Holds, htab]
  refine (dropDir_wp h1 hUd).imp fun _ m2 h2 => ⟨_, ?_, h2⟩
  obtain ⟨hd1, hd2, hd3, hd4, hd5, hd6⟩ :
    ((A.unmap pd (A.doomed pd KERNBASE 0)).drop pd m1.mem (tableFrames (m1.mem pd) 1024)).tab = _ ∧
    _ := drop_rest
  refine ⟨fun g hg => ?_, fun g hg => ?_, fun q hq => ?_, fun g hg => ?_, hd4.trans hcalls,
    hd5.trans hdeny, hd6.trans htrace⟩
  · rw [h1.drop_own hUd, if_congr (hholds g) rfl rfl, hU]
    split_ifs with h3 h4
    · rfl
    · rfl
    · exact absurd ((hpart g).mp hg) (not_or.mpr ⟨h3, h4⟩)
  · rw [hpart, not_or] at hg
    rw [h1.drop_own hUd, if_congr (hholds g) rfl rfl, if_neg hg.1, hU, if_neg hg.2]
  · rw [hd1, hd2, htab, unmap_ent_of_ne hq]
    exact ⟨rfl, rfl⟩
  · rw [hpart, not_or] at hg
    rw [hd3 g (mt (hholds g).mp hg.1), hpage]

end Xv6.Vm
