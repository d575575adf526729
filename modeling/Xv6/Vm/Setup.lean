import Xv6.Vm.Exhaust

namespace Xv6.Vm

open Lib View

variable {ld : Kernel} {m m' : Mem} {A B C : View} {pd f n k i s : ℕ} {l : List ℕ} {perm pa w : UInt32}

namespace View

structure Supply (A : View) (s : ℕ) : Prop where
  mono : ∀ i j, i ≤ j → A.deny i = true → A.deny j = true
  refuses : ∀ j, A.Refuses j ↔ s ≤ j

lemma Supply.starved_iff (h : A.Supply s) : A.Starved ↔ s = 0 := by
  rw [View.starved_iff, h.refuses, Nat.le_zero]

lemma Supply.of_eq (h : A.Supply s) (hd : B.deny = A.deny) (hc : B.calls = A.calls)
    (hf : B.free = A.free) : B.Supply s := by
  refine ⟨fun i j hij hi => ?_, fun j => ?_⟩
  · rw [hd] at hi ⊢
    exact h.mono i j hij hi
  · rw [← h.refuses, Refuses, Refuses, hd, hc, hf]

lemma Supply.called (h : A.Supply 0) : A.called.Supply 0 := by
  refine ⟨h.mono, fun j => iff_of_true ?_ (Nat.zero_le j)⟩
  rcases (h.refuses 0).mpr le_rfl with hd | hl
  · exact .inl (h.mono _ _ (by rw [called_calls]; omega) hd)
  · exact .inr (by rw [called_free]; omega)

lemma Supply.take {p : Page} (h : A.Supply s) (hs : ¬ A.Starved) (hf : A.free = f :: l) :
    ∃ t, (A.take f p).Supply t ∧ t + 1 = s := by
  have hpos : s ≠ 0 := fun hz => hs (h.starved_iff.mpr hz)
  refine ⟨s - 1, ⟨h.mono, fun j => ?_⟩, by omega⟩
  rw [(Served.one .data hs hf p).shift, h.refuses, List.length_singleton]
  omega

def ntab (A : View) (pd : ℕ) : ℕ := ((Finset.range 1024).filter fun i => A.tab pd i ≠ none).card

lemma ntab_congr (h : B.tab pd = A.tab pd) : B.ntab pd = A.ntab pd := by
  rw [ntab, ntab, h]

lemma ntab_mktab (hi : i < 1024) (h : A.tab pd i = none) : (A.mktab pd i f).ntab pd = A.ntab pd + 1 := by
  have hset : ((Finset.range 1024).filter fun j => (A.mktab pd i f).tab pd j ≠ none) =
      insert i ((Finset.range 1024).filter fun j => A.tab pd j ≠ none) := by
    ext j
    rw [Finset.mem_insert, Finset.mem_filter, Finset.mem_filter, mktab_tab, assign_self, assign_apply]
    split_ifs with hj
    · simp [hj, hi]
    · simp [hj]
  rw [ntab, hset, Finset.card_insert_of_notMem, ntab]
  simp [h]

end View

structure Tabled (pd : ℕ) (A B : View) : Prop extends Adds pd A B where
  sound : B.Sound
  took : ∀ g, A.own g = .free → B.own g = .free ∨ ∃ i < 1024, B.own g = .table pd i ∧ B.tab pd i = some g
  supply : ∀ s, A.Supply s → ∃ t, B.Supply t ∧ t + B.ntab pd = s + A.ntab pd

lemma View.Sound.tabled (h : A.Sound) : Tabled pd A A :=
    ⟨.refl pd A, h, fun _ hg => .inl hg, fun s hs => ⟨s, hs, rfl⟩⟩

lemma Tabled.trans (h : Tabled pd A B) (h' : Tabled pd B C) : Tabled pd A C := by
  refine ⟨h.toAdds.trans h'.toAdds, h'.sound, fun g hg => ?_, fun s hs => ?_⟩
  · rcases h.took g hg with hB | ⟨i, hi, hB, ht⟩
    · exact h'.took g hB
    · exact .inr ⟨i, hi, (h'.own g (by simp [hB])).trans hB, (h'.tab i (by simp [ht])).trans ht⟩
  · obtain ⟨t, ht, he⟩ := h.supply s hs
    obtain ⟨u, hu, he'⟩ := h'.supply t ht
    exact ⟨u, hu, he'.trans he⟩

lemma View.Sound.set (h : A.Sound) : (A.set pd n w).Sound := ⟨h.nodup, h.mem_free⟩

lemma View.Sound.called (h : A.Sound) : A.called.Sound := ⟨h.nodup, h.mem_free⟩

lemma View.Sound.tabled_set (h : A.Sound) : Tabled pd A (A.set pd n w) :=
  ⟨.of_eq rfl rfl (fun q hq => by rw [set_ent, assign_of_ne hq]) rfl rfl, h.set, fun _ hg => .inl hg,
    fun s hs => ⟨s, hs.of_eq rfl rfl rfl, rfl⟩⟩

lemma View.Sound.tabled_called (h : A.Sound) (hs : A.Starved) : Tabled pd A A.called := by
  refine ⟨.of_eq rfl rfl (fun _ _ => rfl) rfl rfl, h.called, fun _ hg => .inl hg, fun s hsup => ?_⟩
  obtain rfl := hsup.starved_iff.mp hs
  exact ⟨0, hsup.called, rfl⟩

lemma View.Sound.tabled_install (h : A.Sound) (hi : A.install pd i = some B) (hlt : i < 1024) :
    Tabled pd A B := by
  have hc := h.installed hi
  refine ⟨hc.toAdds, hc.sound, fun g hg => (hc.took g hg).imp_right fun ht => ⟨i, hlt, ht⟩,
    fun s hs => ?_⟩
  rcases install_cases hi with ⟨-, rfl⟩ | ⟨f, l, htab, hst, hfree, rfl⟩
  · exact ⟨s, hs, rfl⟩
  · obtain ⟨t, ht, he⟩ := hs.take (p := Page.fill 0) hst hfree
    refine ⟨t, ht.of_eq rfl rfl rfl, ?_⟩
    have hn : (A.take f (Page.fill 0)).ntab pd = A.ntab pd := ntab_congr rfl
    rw [ntab_mktab hlt (show (A.take f (Page.fill 0)).tab pd i = none from htab), hn]
    omega

structure Short (pd lo hi : ℕ) (B : View) : Prop where
  missing : ∃ j, lo ≤ j ∧ j < hi ∧ B.tab pd (j / 1024) = none
  empty : ∀ t, B.Supply t → t = 0

lemma View.supply_called_of_starved {t : ℕ} (hs : A.Starved) (h : A.called.Supply t) : t = 0 := by
  rw [← h.starved_iff]
  exact hs.imp (fun hd => h.mono _ _ (by rw [called_calls]; omega) hd) fun hf => hf

structure Ranged (pd n k : ℕ) (A : View) (r : Bool × View) : Prop where
  tabled : Tabled pd A r.2
  tables : ∀ i, r.2.tab pd i ≠ none → A.tab pd i ≠ none ∨ ∃ j, n ≤ j ∧ j < n + k ∧ i = j / 1024
  done : r.1 = true → ∀ j, n ≤ j → j < n + k → r.2.tab pd (j / 1024) ≠ none
  failed : r.1 = false → Short pd n (n + k) r.2

lemma View.Sound.mapPage (h : A.Sound) (hn : n < 2 ^ 20) (w : UInt32) :
    Ranged pd n 1 A (A.mapPage pd n w) := by
  rw [View.mapPage]
  cases hi : A.install pd (n / 1024) with
  | some B =>
    have ht := h.tabled_install hi (by omega)
    have htab : B.tab pd (n / 1024) ≠ none := by
      rcases install_cases hi with ⟨hne, rfl⟩ | ⟨f, l, -, -, -, rfl⟩
      · exact hne
      · rw [mktab_tab, assign_self, assign_self]
        simp
    refine ⟨ht.trans ht.sound.tabled_set, fun i hne => ?_, fun _ j h1 h2 => ?_, fun hf => by cases hf⟩
    · rcases install_cases hi with ⟨-, rfl⟩ | ⟨f, l, -, -, -, rfl⟩
      · exact .inl hne
      · dsimp only at hne
        rw [set_tab, mktab_tab, assign_self, assign_apply] at hne
        split_ifs at hne with hin
        · exact .inr ⟨n, le_rfl, by omega, hin⟩
        · exact .inl hne
    · obtain rfl : j = n := by omega
      exact htab
  | none =>
    obtain ⟨htab, hs⟩ := install_eq_none hi
    exact ⟨h.tabled_called hs, fun i hne => .inl hne, fun hf => absurd hf Bool.false_ne_true, fun _ =>
      ⟨⟨n, le_rfl, by omega, htab⟩, fun t ht => supply_called_of_starved hs ht⟩⟩

lemma Ranged.trans {r : Bool × View} (h : Ranged pd n 1 A (true, B)) (h' : Ranged pd (n + 1) k B r) :
    Ranged pd n (k + 1) A r := by
  refine ⟨h.tabled.trans h'.tabled, fun i hne => ?_, fun hr j h1 h2 => ?_, fun hr => ?_⟩
  · rcases h'.tables i hne with hB | ⟨j, h1, h2, hj⟩
    · rcases h.tables i hB with hA | ⟨j, h1, h2, hj⟩
      · exact .inl hA
      · exact .inr ⟨j, h1, by omega, hj⟩
    · exact .inr ⟨j, by omega, by omega, hj⟩
  · by_cases hj : j = n
    · subst hj
      have hB := h.done rfl j le_rfl (by omega)
      rwa [h'.tabled.tab _ hB]
    · exact h'.done hr j (by omega) (by omega)
  · obtain ⟨⟨j, h1, h2, hj⟩, he⟩ := h'.failed hr
    exact ⟨⟨j, by omega, by omega, hj⟩, he⟩

lemma Ranged.widen (h : Ranged pd n 1 A (false, B)) : Ranged pd n (k + 1) A (false, B) := by
  obtain ⟨⟨j, h1, h2, hj⟩, he⟩ := h.failed rfl
  refine ⟨h.tabled, fun i hne => (h.tables i hne).imp_right fun ⟨j, h1, h2, hj⟩ => ⟨j, h1, by omega, hj⟩,
    fun hr => absurd hr Bool.false_ne_true, fun _ => ⟨⟨j, h1, by omega, hj⟩, he⟩⟩

lemma View.Sound.mapRange (h : A.Sound) (hn : n + k ≤ 2 ^ 20) (perm pa : UInt32) :
    Ranged pd n k A (A.mapRange pd perm k n pa) := by
  induction k generalizing A n pa with
  | zero =>
    exact ⟨h.tabled, fun i hne => .inl hne, fun _ j h1 h2 => by omega, fun hf => by cases hf⟩
  | succ k ih =>
    have hone : Ranged pd n 1 A (A.mapPage pd n (pa ||| perm ||| PTE_P)) := h.mapPage (by omega) _
    rw [mapRange_succ]
    generalize A.mapPage pd n (pa ||| perm ||| PTE_P) = r at hone ⊢
    rcases r with ⟨_ | _, B⟩
    · exact hone.widen
    · exact hone.trans (ih hone.tabled.sound (show n + 1 + k ≤ 2 ^ 20 by omega) _)

lemma View.mapRange_ent (hr : (A.mapRange pd perm k n pa).1 = true) (j : ℕ) :
    (A.mapRange pd perm k n pa).2.ent pd j =
      if n ≤ j ∧ j < n + k then (pa + UInt32.ofNat ((j - n) * 4096)) ||| perm ||| PTE_P
      else A.ent pd j := by
  induction k generalizing A n pa with
  | zero => rw [if_neg (by omega)]; rfl
  | succ k ih =>
    rw [mapRange_succ, mapPage] at hr ⊢
    cases hi : A.install pd (n / 1024) with
    | none =>
      rw [hi] at hr
      cases hr
    | some B =>
      rw [hi] at hr
      have hent : B.ent pd j = A.ent pd j := by
        rcases install_cases hi with ⟨-, rfl⟩ | ⟨f, l, -, -, -, rfl⟩ <;> rfl
      dsimp only
      rw [ih hr, set_ent, assign_self, assign_apply, hent]
      by_cases hj : j = n
      · rw [if_neg (by omega), if_pos hj, if_pos (by omega), hj, Nat.sub_self, Nat.zero_mul,
          show UInt32.ofNat 0 = 0 from rfl, UInt32.add_zero]
      · rw [if_neg (c := j = n) hj]
        refine if_ctx_congr ⟨fun hx => by omega, fun hx => by omega⟩ (fun hx => ?_) fun _ => rfl
        rw [show j - n = 1 + (j - (n + 1)) by omega, Nat.add_mul, UInt32.ofNat_add, UInt32.add_assoc]
        rfl

namespace Kmap

def first (k : Kmap) : ℕ := k.virt.toNat / 4096

def pages (k : Kmap) : ℕ := (k.phys_end - k.phys_start).toNat / 4096

def Covers (k : Kmap) (j : ℕ) : Prop := k.first ≤ j ∧ j < k.first + k.pages

instance (k : Kmap) (j : ℕ) : Decidable (k.Covers j) := inferInstanceAs (Decidable (_ ∧ _))

def entry (k : Kmap) (j : ℕ) : UInt32 :=
  (k.phys_start + UInt32.ofNat ((j - k.first) * 4096)) ||| k.perm ||| PTE_P

structure Ok (k : Kmap) : Prop where
  virt : k.virt.toNat = k.first * 4096
  size : (k.phys_end - k.phys_start).toNat = k.pages * 4096
  pos : 0 < k.pages
  le : k.first + k.pages ≤ 2 ^ 20

end Kmap

def kentry (ks : List Kmap) (j : ℕ) : UInt32 :=
    ((ks.find? fun k => k.Covers j).map fun k => k.entry j).getD 0

def View.mapKernel (pd : ℕ) : List Kmap → View → Bool × View
  | [], A => (true, A)
  | k :: ks, A =>
    match A.mapRange pd k.perm k.pages k.first k.phys_start with
    | (true, B) => mapKernel pd ks B
    | (false, B) => (false, B)

structure KmapsOk (ks : List Kmap) : Prop where
  ok : ∀ k ∈ ks, k.Ok
  apart : ks.Pairwise fun k k' => ∀ j, k.Covers j → ¬ k'.Covers j

lemma KmapsOk.tail {x : Kmap} {ks : List Kmap} (h : KmapsOk (x :: ks)) : KmapsOk ks :=
  ⟨fun k hk => h.ok k (List.mem_cons_of_mem x hk), (List.pairwise_cons.mp h.apart).2⟩

lemma mapKernel_wp {ks : List Kmap} (hks : KmapsOk ks) (h : Rep ld m A) (hd : A.own pd = .dir)
    (hfresh : ∀ k ∈ ks, ∀ j, k.Covers j → ¬ Present (A.ent pd j)) :
    (mapKernel (kva pd) ks).Wp m (fun r m' => r = (A.mapKernel pd ks).1 ∧ Rep ld m' (A.mapKernel pd ks).2)
      (fun _ _ => False) := by
  induction ks generalizing m A with
  | nil => exact .pure ⟨rfl, h⟩
  | cons x ks ih =>
    obtain ⟨hv, hs, hpos, hle⟩ := hks.ok x List.mem_cons_self
    obtain ⟨k, hk⟩ := Nat.exists_eq_add_one.mpr hpos
    have hrange : Ranged pd x.first x.pages A (A.mapRange pd x.perm x.pages x.first x.phys_start) :=
      h.sound.mapRange hle _ _
    have hspec : (mappages (kva pd) x.virt (x.phys_end - x.phys_start) x.phys_start x.perm).Wp m
        (fun r m' => r = (A.mapRange pd x.perm x.pages x.first x.phys_start).1 ∧
          Rep ld m' (A.mapRange pd x.perm x.pages x.first x.phys_start).2) (fun _ _ => False) := by
      rw [hk] at hs ⊢
      exact mappages_wp h hd hv hs (by omega) fun j h1 h2 =>
        hfresh x List.mem_cons_self j ⟨h1, by omega⟩
    have hent : (A.mapRange pd x.perm x.pages x.first x.phys_start).1 = true → ∀ j, ¬ x.Covers j →
        (A.mapRange pd x.perm x.pages x.first x.phys_start).2.ent pd j = A.ent pd j := fun hr j hj =>
      (mapRange_ent hr j).trans (if_neg hj)
    rw [mapKernel, View.mapKernel]
    generalize A.mapRange pd x.perm x.pages x.first x.phys_start = R at hrange hspec hent ⊢
    obtain ⟨b, B⟩ := R
    refine hspec.seq ?_
    cases b with
    | false =>
      rintro r m' ⟨rfl, h'⟩
      exact .pure ⟨rfl, h'⟩
    | true =>
      rintro r m' ⟨rfl, h'⟩
      refine ih hks.tail h' (hrange.tabled.dir hd) fun k hk j hj => ?_
      have hx : ¬ x.Covers j := fun hx => (List.pairwise_cons.mp hks.apart).1 k hk j hx hj
      have hB : B.ent pd j = A.ent pd j := hent rfl j hx
      rw [hB]
      exact hfresh k (List.mem_cons_of_mem x hk) j hj

lemma View.mapKernel_ent {ks : List Kmap} (hr : (A.mapKernel pd ks).1 = true) (hks : KmapsOk ks) (j : ℕ) :
    (A.mapKernel pd ks).2.ent pd j = ((ks.find? fun k => k.Covers j).map fun k => k.entry j).getD
    (A.ent pd j) := by
  induction ks generalizing A with
  | nil => rfl
  | cons x ks ih =>
    have hent : (A.mapRange pd x.perm x.pages x.first x.phys_start).1 = true →
        (A.mapRange pd x.perm x.pages x.first x.phys_start).2.ent pd j =
          if x.Covers j then x.entry j else A.ent pd j :=
      fun hr => mapRange_ent hr j
    rw [mapKernel] at hr ⊢
    generalize A.mapRange pd x.perm x.pages x.first x.phys_start = R at hent hr ⊢
    obtain ⟨b, B⟩ := R
    cases b with
    | false => cases hr
    | true =>
      have hB : B.ent pd j = if x.Covers j then x.entry j else A.ent pd j := hent rfl
      dsimp only at hr ⊢
      rw [ih hr hks.tail, hB]
      by_cases hx : x.Covers j
      · have hnone : ks.find? (fun k => k.Covers j) = none := List.find?_eq_none.mpr fun k hk => by
          simpa using (List.pairwise_cons.mp hks.apart).1 k hk j hx
        rw [if_pos hx, hnone, List.find?_cons_of_pos (by simpa using hx)]
        rfl
      · rw [if_neg hx, List.find?_cons_of_neg (by simpa using hx)]

structure Spanned (pd : ℕ) (ks : List Kmap) (A : View) (r : Bool × View) : Prop where
  tabled : Tabled pd A r.2
  tables : ∀ i, r.2.tab pd i ≠ none → A.tab pd i ≠ none ∨ ∃ k ∈ ks, ∃ j, k.Covers j ∧ i = j / 1024
  done : r.1 = true → ∀ k ∈ ks, ∀ j, k.Covers j → r.2.tab pd (j / 1024) ≠ none
  failed : r.1 = false → (∃ k ∈ ks, ∃ j, k.Covers j ∧ r.2.tab pd (j / 1024) = none) ∧ ∀ t,
    r.2.Supply t → t = 0

lemma View.Sound.mapKernel {ks : List Kmap} (h : A.Sound) (hks : ∀ k ∈ ks, k.Ok) :
    Spanned pd ks A (A.mapKernel pd ks) := by
  induction ks generalizing A with
  | nil =>
    exact ⟨h.tabled, fun i hne => .inl hne, fun _ k hk => (List.not_mem_nil hk).elim,
      fun hf => by cases hf⟩
  | cons x ks ih =>
    have hrange : Ranged pd x.first x.pages A (A.mapRange pd x.perm x.pages x.first x.phys_start) :=
      h.mapRange (hks x List.mem_cons_self).le _ _
    rw [mapKernel]
    generalize A.mapRange pd x.perm x.pages x.first x.phys_start = R at hrange ⊢
    obtain ⟨b, B⟩ := R
    cases b with
    | false =>
      obtain ⟨⟨j, h1, h2, hj⟩, he⟩ := hrange.failed rfl
      refine ⟨hrange.tabled, fun i hne => ?_, fun hr => absurd hr Bool.false_ne_true,
        fun _ => ⟨⟨x, List.mem_cons_self, j, ⟨h1, h2⟩, hj⟩, he⟩⟩
      exact (hrange.tables i hne).imp_right fun ⟨j, h1, h2, hj⟩ =>
        ⟨x, List.mem_cons_self, j, ⟨h1, h2⟩, hj⟩
    | true =>
      have hrest := ih hrange.tabled.sound fun k hk => hks k (List.mem_cons_of_mem x hk)
      refine ⟨hrange.tabled.trans hrest.tabled, fun i hne => ?_, fun hr k hk j hj => ?_, fun hr => ?_⟩
      · rcases hrest.tables i hne with hB | ⟨k, hk, hj⟩
        · exact (hrange.tables i hB).imp_right fun ⟨j, h1, h2, hj⟩ =>
            ⟨x, List.mem_cons_self, j, ⟨h1, h2⟩, hj⟩
        · exact .inr ⟨k, List.mem_cons_of_mem x hk, hj⟩
      · rcases List.mem_cons.mp hk with rfl | hk
        · have hB := hrange.done rfl j hj.1 hj.2
          rwa [hrest.tabled.tab _ hB]
        · exact hrest.done hr k hk j hj
      · obtain ⟨⟨k, hk, hj⟩, he⟩ := hrest.failed hr
        exact ⟨⟨k, List.mem_cons_of_mem x hk, hj⟩, he⟩

lemma Kernel.data_bounds (ld : Kernel) : 2148532224 < ld.data.toNat ∧ ld.data.toNat ≤ 2151677952 ∧
    (v2p ld.data).toNat = ld.data.toNat - 2147483648 := by
  have h1 := UInt32.lt_iff_toNat_lt.mp ld.link_lt_data
  have h2 := UInt32.le_iff_toNat_le.mp ld.data_le_end
  have h3 := ld.kend_bounds
  rw [show (KERNLINK).toNat = 2148532224 from rfl] at h1
  refine ⟨h1, by omega, ?_⟩
  rw [v2p, UInt32.toNat_sub_of_le _ _ (UInt32.le_iff_toNat_le.mpr ?_)]
  · rfl
  · rw [show (KERNBASE).toNat = 2147483648 from rfl]
    omega

lemma kmap_pages (ld : Kernel) : ∃ d, ld.data.toNat = d * 4096 ∧ 524544 < d ∧ d ≤ 525312 ∧
    (kmap ld).map (fun k => (k.first, k.pages)) = [(524288, 256), (524544, d - 524544),
    (d, 581632 - d), (1040384, 8192)] ∧
    ∀ k ∈ kmap ld, k.virt.toNat = k.first * 4096 ∧ (k.phys_end - k.phys_start).toNat = k.pages *
    4096 := by
  obtain ⟨h1, h2, hv⟩ := ld.data_bounds
  have hal := ld.data_aligned
  have hlink : (v2p ld.data - v2p KERNLINK).toNat = ld.data.toNat - 2148532224 := by
    rw [UInt32.toNat_sub, hv, show (v2p KERNLINK).toNat = 1048576 from rfl]
    omega
  have hstop : (PHYSTOP - v2p ld.data).toNat = 2382364672 - ld.data.toNat := by
    rw [UInt32.toNat_sub, hv, show (PHYSTOP).toNat = 234881024 from rfl]
    omega
  have hdev : (0 - DEVSPACE).toNat = 33554432 := rfl
  have hext : (EXTMEM - 0).toNat = 1048576 := rfl
  refine ⟨ld.data.toNat / 4096, by omega, by omega, by omega, ?_, ?_⟩
  · simp only [kmap, List.map_cons, List.map_nil, Kmap.first, Kmap.pages, hlink, hstop, hdev, hext,
      List.cons.injEq,
      Prod.mk.injEq, and_true, true_and, show (KERNBASE).toNat = 2147483648 from rfl,
      show (KERNLINK).toNat = 2148532224 from rfl, show (DEVSPACE).toNat = 4261412864 from rfl]
    omega
  · simp only [kmap, List.forall_mem_cons, List.not_mem_nil, Kmap.first, Kmap.pages, hlink, hstop,
      hdev, hext,
      show (KERNBASE).toNat = 2147483648 from rfl, show (KERNLINK).toNat = 2148532224 from rfl,
      show (DEVSPACE).toNat = 4261412864 from rfl]
    exact ⟨⟨trivial, trivial⟩, ⟨trivial, by omega⟩, by omega, ⟨trivial, trivial⟩, fun k hk => hk.elim⟩

lemma kmap_ok (ld : Kernel) : KmapsOk (kmap ld) := by
  obtain ⟨d, -, h1, h2, hmap, hk⟩ := kmap_pages ld
  have hbound : ∀ p ∈ (kmap ld).map (fun k => (k.first, k.pages)), 0 < p.2 ∧ p.1 + p.2 ≤ 2 ^ 20 := by
    rw [hmap]
    simp only [List.forall_mem_cons, List.not_mem_nil]
    exact ⟨by omega, by omega, by omega, by omega, fun k hk => hk.elim⟩
  refine ⟨fun k hm => ?_, ?_⟩
  · obtain ⟨h3, h4⟩ := hbound _ (List.mem_map_of_mem hm)
    exact ⟨(hk k hm).1, (hk k hm).2, h3, h4⟩
  · have hpair : ((kmap ld).map fun k => (k.first, k.pages)).Pairwise
        fun p q => ∀ j, p.1 ≤ j ∧ j < p.1 + p.2 → ¬ (q.1 ≤ j ∧ j < q.1 + q.2) := by
      rw [hmap]
      simp only [List.pairwise_cons, List.forall_mem_cons, List.not_mem_nil, List.Pairwise.nil, and_true]
      exact ⟨⟨fun j h => by omega, fun j h => by omega, fun j h => by omega, fun x hx => hx.elim⟩,
        ⟨fun j h => by omega, fun j h => by omega, fun x hx => hx.elim⟩,
        ⟨fun j h => by omega, fun x hx => hx.elim⟩, fun x hx => hx.elim⟩
    exact List.pairwise_map.mp hpair

def kernelTables : Finset ℕ := Finset.Ico 512 568 ∪ Finset.Ico 1016 1024

lemma card_kernelTables : kernelTables.card = 64 := by
  rw [kernelTables, Finset.card_union_of_disjoint, Nat.card_Ico, Nat.card_Ico]
  rw [Finset.disjoint_left]
  intro i h1 h2
  rw [Finset.mem_Ico] at h1 h2
  omega

lemma mem_kernelTables (ld : Kernel) : i ∈ kernelTables ↔ ∃ k ∈ kmap ld, ∃ j, k.Covers j ∧
    i = j / 1024 := by
  obtain ⟨d, -, h1, h2, hmap, -⟩ := kmap_pages ld
  have hex : (∃ k ∈ kmap ld, ∃ j, k.Covers j ∧ i = j / 1024) ↔
      ∃ p ∈ (kmap ld).map (fun k => (k.first, k.pages)), ∃ j, (p.1 ≤ j ∧ j < p.1 + p.2) ∧
      i = j / 1024 := by
    simp only [List.mem_map, exists_exists_and_eq_and]
    rfl
  rw [hex, hmap, kernelTables, Finset.mem_union, Finset.mem_Ico, Finset.mem_Ico]
  simp only [List.mem_cons, List.not_mem_nil, or_false, exists_eq_or_imp, exists_eq_left]
  clear hex hmap
  constructor
  · intro hi
    by_cases h3 : i * 1024 < 524544
    · exact .inl ⟨i * 1024, by omega, by omega⟩
    by_cases h4 : i * 1024 < d
    · exact .inr (.inl ⟨i * 1024, by omega, by omega⟩)
    by_cases h5 : i * 1024 < 581632
    · exact .inr (.inr (.inl ⟨i * 1024, by omega, by omega⟩))
    · exact .inr (.inr (.inr ⟨i * 1024, by omega, by omega⟩))
  · rintro (⟨j, hj, rfl⟩ | ⟨j, hj, rfl⟩ | ⟨j, hj, rfl⟩ | ⟨j, hj, rfl⟩) <;> omega

lemma lt_of_mem_kernelTables (h : i ∈ kernelTables) : i < 1024 := by
  rw [kernelTables, Finset.mem_union, Finset.mem_Ico, Finset.mem_Ico] at h
  omega

def View.newdir (A : View) (d : ℕ) : View := (A.take d (Page.fill 0)).mkdir d

section

variable {d : ℕ}

lemma View.Sound.newdir (h : A.Sound) (hfree : A.free = d :: l) : Takes d A (A.newdir d) := by
  refine ⟨fun g hg => ?_, fun g hg => ?_, fun q hq => ?_, rfl⟩
  · have hgd := h.ne_head hfree hg
    rw [View.newdir, mkdir_own, assign_of_ne hgd, take_own, assign_of_ne hgd]
  · rw [View.newdir, mkdir_page, take_page, assign_of_ne (h.ne_head hfree hg)]
  · rw [View.newdir, mkdir_ent, mkdir_tab, assign_of_ne hq, assign_of_ne hq]
    exact ⟨rfl, rfl⟩

lemma View.newdir_supply (hs : ¬ A.Starved) (hfree : A.free = d :: l) (hsup : A.Supply s) :
    ∃ t, (A.newdir d).Supply t ∧ t + 1 = s := by
  obtain ⟨t, ht, he⟩ := hsup.take (p := Page.fill 0) hs hfree
  exact ⟨t, ht.of_eq rfl rfl rfl, he⟩

lemma View.newdir_ntab : (A.newdir d).ntab d = 0 := by
  rw [ntab, newdir, mkdir_tab, assign_self]
  simp

structure Begun (d : ℕ) (A B : View) : Prop extends Takes d A B where
  sound : B.Sound
  fresh : A.own d = .free
  dir_new : B.own d = .dir
  took : ∀ g, A.own g = .free → g = d ∨ B.own g = .free ∨ ∃ i < 1024, B.own g = .table d i ∧
    B.tab d i = some g
  newtab : ∀ j g, B.tab d j = some g → A.own g = .free
  supply : ∀ s, A.Supply s → ∃ t, B.Supply t ∧ t + B.ntab d + 1 = s

lemma Tabled.begun (ht : Tabled d (A.newdir d) B) (h : A.Sound) (hs : ¬ A.Starved)
    (hfree : A.free = d :: l) : Begun d A B := by
  have hnew := h.newdir hfree
  refine ⟨hnew.trans ht.toTakes, ht.sound, h.head hfree, ht.dir (assign_self ..), fun g hg => ?_,
    fun j g hg => ?_, fun s hsup => ?_⟩
  · by_cases hgd : g = d
    · exact .inl hgd
    · refine .inr (ht.took g ?_)
      rw [newdir, mkdir_own, assign_of_ne hgd, take_own, assign_of_ne hgd, hg]
  · rcases ht.newtab j g hg with hA | hA
    · rw [newdir, mkdir_tab, assign_self] at hA
      cases hA
    · exact hnew.free_of_free hA
  · obtain ⟨t, ht', he⟩ := newdir_supply hs hfree hsup
    obtain ⟨u, hu, he'⟩ := ht.supply t ht'
    rw [newdir_ntab] at he'
    exact ⟨u, hu, by omega⟩

end

structure Built (ld : Kernel) (d : ℕ) (A B : View) : Prop extends Begun d A B where
  ent : ∀ j, B.ent d j = kentry (kmap ld) j
  tables : ∀ i < 1024, B.tab d i ≠ none ↔ i ∈ kernelTables

structure Botched (d : ℕ) (A B : View) : Prop extends Begun d A B where
  short : B.ntab d < 64
  empty : ∀ t, B.Supply t → t = 0

lemma Built.supply_eq {d : ℕ} (h : Built ld d A B) (hs : A.Supply s) : ∃ t, B.Supply t ∧ t + 65 = s := by
  have hn : B.ntab d = 64 := by
    have hset : ((Finset.range 1024).filter fun i => B.tab d i ≠ none) = kernelTables := by
      ext i
      rw [Finset.mem_filter, Finset.mem_range]
      exact ⟨fun hi => (h.tables i hi.1).mp hi.2, fun hi =>
        ⟨lt_of_mem_kernelTables hi, (h.tables i (lt_of_mem_kernelTables hi)).mpr hi⟩⟩
    rw [ntab, hset, card_kernelTables]
  obtain ⟨t, ht, he⟩ := h.supply s hs
  exact ⟨t, ht, by omega⟩

lemma Botched.supply_lt {d : ℕ} (h : Botched d A B) (hs : A.Supply s) : 0 < s ∧ s < 65 := by
  obtain ⟨t, ht, he⟩ := h.supply s hs
  have := h.empty t ht
  have := h.short
  omega

lemma setupkvm_wp (h : Rep ld m A) : (setupkvm ld).Wp m (fun r m' =>
    (r = 0 ∧ A.Starved ∧ Rep ld m' A.called) ∨ (∃ d B, r = 0 ∧ Botched d A B ∧ Rep ld m' B) ∨
      ∃ d B, r = kva d ∧ Built ld d A B ∧ Rep ld m' B) (fun _ _ => False) := by
  refine (kalloc_wp h).seq fun r m1 hr => ?_
  rcases hr with ⟨rfl, hs, h1⟩ | ⟨d, l, hs, hfree, rfl, hd, h1⟩
  · rw [if_pos rfl]
    exact .pure (.inl ⟨rfl, hs, h1⟩)
  rw [if_neg (kva_ne_zero hd)]
  refine .bind (.modify ?_)
  rw [if_neg (by decide)]
  have hlost : ∀ p, (A.take d p).own d = .lost := fun p => assign_self ..
  have h2 := h1.setPage hd (by rw [hlost]; rfl) (Page.fill 0)
  rw [take_write] at h2
  have h3 : Rep ld _ (A.newdir d) := h2.mkdir (by rw [hlost]; rfl) (by rw [hlost]; simp) (assign_self ..)
  have hent : ∀ j, (A.newdir d).ent d j = 0 := fun j => by rw [newdir, mkdir_ent, assign_self]
  have htab : ∀ i, (A.newdir d).tab d i = none := fun i => by rw [newdir, mkdir_tab, assign_self]
  have hspan : Spanned d (kmap ld) (A.newdir d) _ := h3.sound.mapKernel (kmap_ok ld).ok
  have hbegun := hspan.tabled.begun h.sound hs hfree
  have hkent : ((A.newdir d).mapKernel d (kmap ld)).1 = true → ∀ j,
    ((A.newdir d).mapKernel d (kmap ld)).2.ent d j = _ :=
    fun hr j => mapKernel_ent hr (kmap_ok ld) j
  refine (mapKernel_wp (kmap_ok ld) h3 (assign_self ..) fun k _ j _ => by
    rw [hent]; exact not_present_zero).seq ?_
  generalize (A.newdir d).mapKernel d (kmap ld) = R at hspan hbegun hkent ⊢
  obtain ⟨b, B⟩ := R
  have honly : ∀ i, B.tab d i ≠ none → i ∈ kernelTables := fun i hi =>
    (mem_kernelTables ld).mpr ((hspan.tables i hi).resolve_left fun hne => hne (htab i))
  cases b with
  | false =>
    rintro r m' ⟨rfl, h'⟩
    obtain ⟨⟨k, hk, j, hj, hnone⟩, he⟩ := hspan.failed rfl
    refine .pure (.inr (.inl ⟨d, B, rfl, ⟨hbegun, ?_, he⟩, h'⟩))
    have hmem : j / 1024 ∈ kernelTables := (mem_kernelTables ld).mpr ⟨k, hk, j, hj, rfl⟩
    rw [← card_kernelTables]
    refine Finset.card_lt_card ((Finset.ssubset_iff_of_subset fun i hi => honly i
      (Finset.mem_filter.mp hi).2).mpr
      ⟨j / 1024, hmem, fun hi => (Finset.mem_filter.mp hi).2 hnone⟩)
  | true =>
    rintro r m' ⟨rfl, h'⟩
    refine .pure (.inr (.inr ⟨d, B, rfl, ⟨hbegun, fun j => ?_, fun i hi => ⟨honly i, fun hk => ?_⟩⟩, h'⟩))
    · have he := hkent rfl j
      rwa [hent] at he
    · obtain ⟨k, hm, j, hj, rfl⟩ := (mem_kernelTables ld).mp hk
      exact hspan.done rfl k hm j hj

end Xv6.Vm
