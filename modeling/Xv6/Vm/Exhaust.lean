import Xv6.Vm.Alloc

namespace Xv6.Vm

open Lib View

variable {ld : Kernel} {m m' : Mem} {A₀ A B C : View} {pd f n k lo hi : ℕ} {l : List ℕ} {F : Fill}

inductive Call
  | data
  | table
  deriving DecidableEq

def plan (has : ℕ → Bool) : ℕ → ℕ → List Call
  | 0, _ => []
  | k + 1, n =>
    .data :: if has (n / 1024) then plan has k (n + 1)
      else .table :: plan (assign has (n / 1024) true) k (n + 1)

namespace View

def has (A : View) (pd i : ℕ) : Bool := (A.tab pd i).isSome

def Refuses (A : View) (j : ℕ) : Prop := A.deny (A.calls + j) = true ∨ A.free.length ≤ j

instance (A : View) (j : ℕ) : Decidable (A.Refuses j) := inferInstanceAs (Decidable (_ ∨ _))

def refused (A : View) : List Call → ℕ → Option Call
  | [], _ => none
  | c :: l, j => if A.Refuses j then some c else A.refused l (j + 1)

lemma starved_iff : A.Starved ↔ A.Refuses 0 := by
  rw [Starved, Refuses, Nat.add_zero, Nat.le_zero, List.length_eq_zero_iff]

lemma refuses_shift {c : ℕ} (hd : B.deny = A.deny) (hc : B.calls = A.calls + c)
    (hl : B.free.length + c = A.free.length) (j : ℕ) : B.Refuses j ↔ A.Refuses (j + c) := by
  rw [Refuses, Refuses, hd, hc, show A.calls + c + j = A.calls + (j + c) by omega]
  exact or_congr_right (by omega)

lemma refused_shift {c : ℕ} (h : ∀ j, B.Refuses j ↔ A.Refuses (j + c)) (l : List Call) (j : ℕ) :
    B.refused l j = A.refused l (j + c) := by
  induction l generalizing j with
  | nil => rfl
  | cons x l ih =>
    rw [refused, refused, ih, show j + 1 + c = j + c + 1 by omega]
    exact if_congr (h j) rfl rfl

lemma refused_append {x : List Call} (j : ℕ) (h : ∀ i, j ≤ i → i < j + x.length → ¬ A.Refuses i)
    (l : List Call) : A.refused (x ++ l) j = A.refused l (j + x.length) := by
  induction x generalizing j with
  | nil => rfl
  | cons c x ih =>
    rw [List.cons_append, refused, if_neg (h j le_rfl (by simp)), List.length_cons, ih,
      show j + 1 + x.length = j + (x.length + 1) by omega]
    intro i h1 h2
    exact h i (by omega) (by rw [List.length_cons]; omega)

end View

structure Served (x : List Call) (A B : View) : Prop where
  deny : B.deny = A.deny
  calls : B.calls = A.calls + x.length
  free : B.free.length + x.length = A.free.length
  found : ∀ j < x.length, ¬ A.Refuses j

namespace Served

variable {x y : List Call}

lemma shift (h : Served x A B) (j : ℕ) : B.Refuses j ↔ A.Refuses (j + x.length) :=
  refuses_shift h.deny h.calls h.free j

lemma refused (h : Served x A B) (l : List Call) : A.refused (x ++ l) 0 = B.refused l 0 := by
  rw [refused_append 0 fun i _ hi => h.found i (by omega), refused_shift h.shift]

lemma one (c : Call) (hs : ¬ A.Starved) (hf : A.free = f :: l) (p : Page) :
    Served [c] A (A.take f p) := by
  refine ⟨rfl, rfl, ?_, fun j hj => ?_⟩
  · rw [take_free, hf]
    rfl
  · rw [List.length_singleton, Nat.lt_one_iff] at hj
    rw [hj, ← starved_iff]
    exact hs

lemma takeFor (hs : ¬ A.Starved) (hf : A.free = f :: l) (F : Fill) (n : ℕ) :
    Served [.data] A (A.takeFor F n f) :=
  have h := one .data hs hf (F.bytes n)
  { h with }

lemma append (h : Served x A B) (h' : Served y B C) : Served (x ++ y) A C := by
  refine ⟨h'.deny.trans h.deny, ?_, ?_, fun j hj => ?_⟩
  · rw [h'.calls, h.calls, List.length_append, Nat.add_assoc]
  · rw [← h.free, ← h'.free, List.length_append]
    omega
  · rw [List.length_append] at hj
    by_cases hx : j < x.length
    · exact h.found j hx
    · have := h'.found (j - x.length) (by omega)
      rwa [h.shift, Nat.sub_add_cancel (by omega)] at this

end Served

structure Whole (pd lo n : ℕ) (A₀ A : View) : Prop where
  mapped : ∀ k, lo ≤ k → k < n → Present (A.ent pd k)
  kept : ∀ g, A₀.own g = .free → A.own g ≠ .lost

structure Hurt (pd lo n : ℕ) (A₀ A : View) : Prop where
  unmapped : ∃ k, lo ≤ k ∧ k < n ∧ ¬ Present (A.ent pd k)
  lost : ∃ g, A₀.own g = .free ∧ A.own g = .lost

lemma Whole.refl (pd n : ℕ) (A : View) : Whole pd n n A A :=
  ⟨fun k h1 h2 => by omega, fun g hg => by rw [hg]; simp⟩

lemma Hurt.step (h : Hurt pd lo n A₀ A) (hg : Grown F pd n (n + 1) A B) : Hurt pd lo (n + 1) A₀ B := by
  obtain ⟨k, h1, h2, hk⟩ := h.unmapped
  obtain ⟨g, hg0, hgl⟩ := h.lost
  refine ⟨⟨k, h1, by omega, ?_⟩, g, hg0, ?_⟩
  · rwa [hg.outside k (by omega)]
  · rw [hg.own g (by simp [hgl]), hgl]

lemma Whole.mapped_step (h : Whole pd lo n A₀ A) (hg : Grown F pd n (n + 1) A B)
    (hp : Present (B.ent pd n))
    (hl : ∀ g, B.own g = .lost → A.own g = .lost) : Whole pd lo (n + 1) A₀ B := by
  refine ⟨fun k h1 h2 => ?_, fun g hg0 hgl => h.kept g hg0 (hl g hgl)⟩
  by_cases hk : k = n
  · rwa [hk]
  · rw [hg.outside k (by omega)]
    exact h.mapped k h1 (by omega)

inductive Pass (pd n k : ℕ) (A B : View) : Prop
  | mapped (hp : Present (B.ent pd n)) (hl : ∀ g, B.own g = .lost → A.own g = .lost) (x : List Call)
      (hx : Served x A B) (hplan : plan (A.has pd) (k + 1) n = x ++ plan (B.has pd) k (n + 1))
  | forgotten (hp : B.ent pd n = A.ent pd n) (hl : ∃ g, A.own g = .free ∧ B.own g = .lost)
      (h₀ : ¬ A.Refuses 0) (h₁ : A.Refuses 1) (hfree : B.free.length + 1 = A.free.length)
      (hplan : plan (A.has pd) (k + 1) n =
        .data :: .table :: plan (assign (A.has pd) (n / 1024) true) k (n + 1))

lemma plan_of_some {has : ℕ → Bool} (h : has (n / 1024) = true) :
    plan has (k + 1) n = .data :: plan has k (n + 1) := by
  rw [plan, if_pos h]

lemma plan_of_none {has : ℕ → Bool} (h : has (n / 1024) = false) :
    plan has (k + 1) n = .data :: .table :: plan (assign has (n / 1024) true) k (n + 1) := by
  rw [plan, if_neg (by simp [h])]

lemma AllocStep.lost_of_mapped (hA : A.Sound) (hf : A.free = f :: l) {g : ℕ}
    (hi : (A.takeFor F n f).install pd (n / 1024) = some C)
    (hg : ((C.set pd n (F.entry n f)).label f (.page pd n)).own g = .lost) : A.own g = .lost := by
  have hc := (hA.takeFor hf n).installed hi
  rw [label_own, assign_apply] at hg
  split_ifs at hg with hgf
  have hown : (A.takeFor F n f).own g = A.own g := by rw [takeFor_own, assign_of_ne hgf]
  rw [set_own] at hg
  by_cases hfree : A.own g = .free
  · rcases hc.took g (hown.trans hfree) with hC | ⟨hC, -⟩ <;> simp [hC] at hg
  · rwa [hc.own g (by rwa [hown]), hown] at hg

lemma AllocStep.pass (h : AllocStep F pd n A B) (hA : A.Sound) (k : ℕ) : Pass pd n k A B := by
  cases h with
  | @mapped f l C hs hf hi =>
    have hp : Present (((C.set pd n (F.entry n f)).label f (.page pd n)).ent pd n) := by
      rw [label_ent, set_ent, assign_self, assign_self]
      exact F.present n f
    have hlost := fun g => AllocStep.lost_of_mapped (g := g) hA hf hi
    have hone := Served.takeFor hs hf F n
    cases htab : A.tab pd (n / 1024) with
    | some g =>
      obtain rfl : A.takeFor F n f = C := by
        rw [install_some (show (A.takeFor F n f).tab pd (n / 1024) = some g from htab)] at hi
        exact Option.some.inj hi
      refine .mapped hp hlost [.data] { hone with } ?_
      exact plan_of_some (by rw [has, htab]; rfl)
    | none =>
      have htab' : (A.takeFor F n f).tab pd (n / 1024) = none := htab
      have hs' : ¬ (A.takeFor F n f).Starved := fun hs' => by
        rw [install_starved htab' hs'] at hi
        cases hi
      cases hfree : (A.takeFor F n f).free with
      | nil => exact absurd (.inr hfree) hs'
      | cons f' l' =>
        rw [install_fresh htab' hs' hfree] at hi
        cases hi
        have htwo := hone.append (Served.one .table hs' hfree (Page.fill 0))
        refine .mapped hp hlost [.data, .table] { htwo with } ?_
        have hhas : has (((((A.takeFor F n f).take f' (Page.fill 0)).mktab pd (n / 1024) f').set pd
          n (F.entry n f)).label f
            (.page pd n)) pd = assign (A.has pd) (n / 1024) true := by
          funext i
          rw [has, label_tab, set_tab, mktab_tab, assign_self, assign_apply, assign_apply]
          split_ifs <;> rfl
        rw [hhas]
        exact plan_of_none (by rw [has, htab]; rfl)
  | @forgotten f l hs hf hi =>
    have hone := Served.takeFor hs hf F n
    have htab : A.tab pd (n / 1024) = none := by
      by_contra hne
      obtain ⟨g, hg⟩ := Option.ne_none_iff_exists'.mp hne
      rw [install_some (show (A.takeFor F n f).tab pd (n / 1024) = some g from hg)] at hi
      cases hi
    have hs' : (A.takeFor F n f).Starved := by
      by_contra hs'
      cases hfree : (A.takeFor F n f).free with
      | nil => exact hs' (.inr hfree)
      | cons f' l' =>
        rw [install_fresh (show (A.takeFor F n f).tab pd (n / 1024) = none from htab) hs' hfree] at hi
        cases hi
    refine .forgotten rfl ⟨f, hA.head hf, assign_self ..⟩ (hone.found 0 (by simp)) ?_ hone.free
      (plan_of_none (by rw [has, htab]; rfl))
    exact (hone.shift 0).mp (starved_iff.mp hs')

namespace View

def firstRefused (A : View) (pd lo hi : ℕ) : Option Call := A.refused (plan (A.has pd) (hi - lo) lo) 0

lemma firstRefused_starved (hs : A.Starved) (hn : n < hi) : A.firstRefused pd n hi = some .data := by
  rw [firstRefused, show hi - n = hi - (n + 1) + 1 by omega, plan, refused, if_pos (starved_iff.mp hs)]

lemma firstRefused_end : A.firstRefused pd n n = none := by
  rw [firstRefused, Nat.sub_self]
  rfl

end View

def Status (pd lo hi : ℕ) (A₀ : View) (n : ℕ) (A : View) : Prop :=
  A.firstRefused pd n hi = A₀.firstRefused pd lo hi ∧ Whole pd lo n A₀ A ∨
    A₀.firstRefused pd lo hi = some .table ∧ Hurt pd lo n A₀ A

lemma Status.step (h : Status pd lo hi A₀ n A) (hstep : AllocStep F pd n A B) (hA : A.Sound)
    (hg : Grown F pd lo n A₀ A)
    (hnew : ¬ Present (A₀.ent pd n)) (hlo : lo ≤ n) (hn : n < hi) (hlt : n < 2 ^ 20) :
    Status pd lo hi A₀ (n + 1) B := by
  have hgrow := hstep.grown hA hlt
  rcases h with ⟨hr, hw⟩ | ⟨hr, hh⟩
  · have hk : hi - n = hi - (n + 1) + 1 := by omega
    rcases hstep.pass hA (hi - (n + 1)) with ⟨hp, hl, x, hx, hplan⟩
      | ⟨hp, ⟨g, hg1, hg2⟩, h0, h1, -, hplan⟩
    · refine .inl ⟨?_, hw.mapped_step hgrow hp hl⟩
      rw [← hr, firstRefused, firstRefused, hk, hplan, hx.refused]
    · refine .inr ⟨?_, ⟨n, hlo, by omega, ?_⟩, g, hg.free_of_free hg1, hg2⟩
      · rw [← hr, firstRefused, hk, hplan, refused, if_neg h0, refused, if_pos h1]
      · rwa [hp, hg.outside n (by omega)]
  · exact .inr ⟨hr, hh.step hgrow⟩

structure AllOrNothing (A : View) (pd : ℕ) (oldsz newsz : UInt32) (m : Mem) (r : UInt32)
    (m' : Mem) : Prop where
  ret : r = newsz ∨ r = 0
  success : r ≠ 0 → ∃ l, FreeList m' l ∧ ∀ n, InRange oldsz newsz n → ∃ f ∈ A.free, f ∉ l ∧
    Present (entry m'.mem pd n) ∧ Writable (entry m'.mem pd n) ∧ User (entry m'.mem pd n) ∧
    pframe (entry m'.mem pd n) = f ∧ m'.mem f = Page.fill 0
  distinct : r ≠ 0 → ∀ n k, InRange oldsz newsz n → InRange oldsz newsz k →
    pframe (entry m'.mem pd n) = pframe (entry m'.mem pd k) → n = k
  failure : r = 0 → (∀ n, InRange oldsz newsz n → ¬ Present (entry m'.mem pd n)) ∧
    ∃ l, FreeList m' l ∧ ∀ f ∈ A.free, f ∈ l ∨ ∃ i < 1024, table m'.mem pd i = some f
  other : ∀ q, A.own q = .dir → ∀ n < 2 ^ 20, (q = pd → ¬ InRange oldsz newsz n) →
    entry m'.mem q n = entry m.mem q n

section

variable {oldsz newsz r : UInt32}

lemma userEntry_spec (hf : f < NFRAMES) :
    Present (userEntry f) ∧ Writable (userEntry f) ∧ User (userEntry f) ∧ pframe (userEntry f) = f := by
  have hal := aligned_v2p_kva hf
  exact ⟨present_entry _ _, (writable_entry hal).mpr (by decide), (user_entry hal).mpr (by decide),
    pframe_userEntry hf⟩

lemma Grown.entry_other {q : ℕ} (h : Rep ld m A) (hg : Grown .user pd lo hi A B) (h' : Rep ld m' C)
    (hC : ∀ q, A.own q = .dir → C.own q = .dir)
    (hent : ∀ n, ¬ (lo ≤ n ∧ n < hi) → C.ent pd n = B.ent pd n)
    (hother : ∀ q, q ≠ pd → C.ent q = B.ent q) (hq : A.own q = .dir) (hn : n < 2 ^ 20)
    (hr : q = pd → ¬ (lo ≤ n ∧ n < hi)) : entry m'.mem q n = entry m.mem q n := by
  rw [← h'.ent q (hC q hq) n hn, ← h.ent q hq n hn]
  by_cases hqp : q = pd
  · subst hqp
    rw [hent n (hr rfl), hg.outside n (hr rfl)]
  · rw [hother q hqp, (hg.other q hqp).1]

lemma allOrNothing_success (h : Rep ld m A) (hd : A.own pd = .dir) (hlt : newsz < KERNBASE)
    (hle : oldsz ≤ newsz) (hfresh : ∀ n, InRange oldsz newsz n → ¬ Present (entry m.mem pd n))
    (hg : Grown .user pd (npages oldsz) (npages newsz) A B)
    (hw : Whole pd (npages oldsz) (npages newsz) A B)
    (h' : Rep ld m' B) : AllOrNothing A pd oldsz newsz m newsz m' := by
  have hle' := UInt32.le_trans hle (UInt32.le_of_lt hlt)
  have hnp := npages_le (UInt32.le_of_lt hlt)
  have hdir : ∀ q, A.own q = .dir → B.own q = .dir := fun q => hg.dir
  have hent : ∀ n, InRange oldsz newsz n → entry m'.mem pd n = B.ent pd n ∧
    ¬ Present (A.ent pd n) := fun n hn => by
    obtain ⟨h1, h2⟩ := (inRange_iff hle').mp hn
    exact ⟨(h'.ent pd (hdir pd hd) n
    (by omega)).symm, by rw [h.ent pd hd n (by omega)]; exact hfresh n hn⟩
  refine ⟨.inl rfl, fun _ => ⟨B.free, h'.freeList, fun n hn => ?_⟩, fun _ n k hn hk he => ?_,
    fun hz => ⟨fun n hn => ?_, ?_⟩, fun q hq n hn hr => ?_⟩
  · obtain ⟨h1, h2⟩ := (inRange_iff hle').mp hn
    rw [(hent n hn).1]
    rcases hg.inside n h1 h2 (hw.mapped n h1 h2) with hp | ⟨g, hgf, hgo, he, hz⟩
    · exact absurd hp (hent n hn).2
    · have hu := userEntry_spec (h'.lt_of_eq hgo (by simp))
      rw [he]
      refine ⟨g, (h.mem_free g).mpr hgf, fun hm => ?_, hu.1, hu.2.1, hu.2.2.1, hu.2.2.2, ?_⟩
      · rw [(h'.mem_free g).mp hm] at hgo
        cases hgo
      · rw [← h'.page g (by rw [hgo]; rfl), hz]
        rfl
  · obtain ⟨h1, h2⟩ := (inRange_iff hle').mp hn
    obtain ⟨h3, h4⟩ := (inRange_iff hle').mp hk
    rw [(hent n hn).1, (hent k hk).1] at he
    have ho := hg.own_frame h' h1 (hent n hn).2 (hw.mapped n h1 h2)
    rw [he, hg.own_frame h' h3 (hent k hk).2 (hw.mapped k h3 h4)] at ho
    injection ho with _ hkn
    exact hkn.symm
  · rw [hz] at hn
    exact absurd hn.2 (by simp)
  · refine ⟨B.free, h'.freeList, fun f hf => ?_⟩
    have hf' := (h.mem_free f).mp hf
    rcases hg.took f hf' with hB | hB | ⟨i, hi, hB, ht⟩ | ⟨n, -, h2, -⟩
    · exact .inl ((h'.mem_free f).mpr hB)
    · exact absurd hB (hw.kept f hf')
    · exact .inr ⟨i, hi, by rw [← h'.tab pd (hdir pd hd) i hi, ht]⟩
    · rw [hz, npages, UInt32.toNat_zero] at h2
      omega
  · exact hg.entry_other h h' hdir (fun _ _ => rfl) (fun _ _ => rfl) hq hn fun hqp => mt
      (inRange_iff hle').mpr (hr hqp)

section

variable {m1 : Mem} (h1 : Rep ld m1 B) (hd : B.own pd = .dir) (hle : newsz ≤ KERNBASE)
  (hn : n ≤ npages newsz)
    (hmapped : ∀ k, npages oldsz ≤ k → k < n → Present (B.ent pd k))
include h1 hd hle hn hmapped

lemma Grown.mem_doomed (hlo : npages oldsz ≤ k) (hk : k < n) : k ∈ B.called.doomed pd newsz oldsz := by
  have hnp := npages_le hle
  have htab : ∀ k, npages oldsz ≤ k → k < n → B.tab pd (k / 1024) ≠ none := fun k h1' h2 =>
    h1.tab_ne_none hd (by omega) (hmapped k h1' h2)
  exact (View.mem_doomed hle).mpr
    ⟨by omega, htab k hlo hk, hlo, reached_of_present (htab _ le_rfl (by omega)) hlo⟩

lemma Grown.unmapped (hrest : ∀ k, npages oldsz ≤ k → n ≤ k → k < npages newsz →
    ¬ Present (B.ent pd k)) (hlo : npages oldsz ≤ k) (hk : k < npages newsz) :
    ¬ Present ((B.called.unmap pd (B.called.doomed pd newsz oldsz)).ent pd k) := by
  rw [unmap_ent]
  split_ifs with hc
  · exact not_present_zero
  · intro hp
    by_cases hkn : k < n
    · exact hc ⟨Grown.mem_doomed h1 hd hle hn hmapped hlo hkn, hp⟩
    · exact hrest k hlo (by omega) hk hp

end

lemma Grown.own_unmap {m1 : Mem} (h1 : Rep ld m1 B) (hle : newsz ≤ KERNBASE)
    (hg : Grown .user pd (npages oldsz) n A B)
    (hnew : ∀ k, npages oldsz ≤ k → k < npages newsz → ¬ Present (A.ent pd k))
    (hf : ∀ k, npages oldsz ≤ k → B.own f ≠ .page pd k) :
    (B.called.unmap pd (B.called.doomed pd newsz oldsz)).own f = B.own f := by
  rw [unmap_own (doomed_nodup hle), if_neg]
  · rfl
  intro hm
  obtain ⟨k, hk, hp, rfl⟩ := mem_frames.mp hm
  obtain ⟨h2, -, h3, -⟩ := (View.mem_doomed hle).mp hk
  exact hf k h3 (hg.own_frame h1 h3 (hnew k h3 h2) hp)

lemma allOrNothing_failure (h : Rep ld m A) (hd : A.own pd = .dir) (hlt : newsz < KERNBASE)
    (hle : oldsz ≤ newsz) (hfresh : ∀ n, InRange oldsz newsz n → ¬ Present (entry m.mem pd n))
    (hn : n < npages newsz) (hg : Grown .user pd (npages oldsz) n A B)
    (hw : Whole pd (npages oldsz) n A B) {m1 : Mem} (h1 : Rep ld m1 B)
    (h' : Rep ld m' (B.called.unmap pd (B.called.doomed pd newsz oldsz))) :
    AllOrNothing A pd oldsz newsz m 0 m' := by
  have hle' := UInt32.le_trans hle (UInt32.le_of_lt hlt)
  have hle2 := UInt32.le_of_lt hlt
  have hnp := npages_le hle2
  have hnew : ∀ k, npages oldsz ≤ k → k < npages newsz → ¬ Present (A.ent pd k) := fun k h2 h3 => by
    rw [h.ent pd hd k (by omega)]
    exact hfresh k ((inRange_iff hle').mpr ⟨h2, h3⟩)
  have hdir : ∀ q, A.own q = .dir → (B.called.unmap pd (B.called.doomed pd newsz oldsz)).own q =
    .dir := fun q hq =>
    (hg.own_unmap h1 hle2 hnew (by simp [hg.dir hq])).trans (hg.dir hq)
  have hmem : ∀ k, npages oldsz ≤ k → k < n → k ∈ B.called.doomed pd newsz oldsz := fun k h2 h3 =>
    Grown.mem_doomed h1 (hg.dir hd) hle2 hn.le hw.mapped h2 h3
  refine ⟨.inr rfl, fun hz => absurd rfl hz, fun hz => absurd rfl hz,
    fun _ => ⟨fun k hk => ?_, _, h'.freeList, fun f hf => ?_⟩, fun q hq k hk hr => ?_⟩
  · obtain ⟨h2, h3⟩ := (inRange_iff hle').mp hk
    rw [← h'.ent pd (hdir pd hd) k (by omega)]
    exact Grown.unmapped h1 (hg.dir hd) hle2 hn.le hw.mapped (fun k h2 h3 h4 => by
      rw [hg.outside k (by omega)]
      exact hnew k h2 h4) h2 h3
  · have hf' := (h.mem_free f).mp hf
    rcases hg.took f hf' with hB | hB | ⟨i, hi, hB, ht⟩ | ⟨k, h2, h3, hB, he, -⟩
    · exact .inl ((h'.mem_free f).mpr ((hg.own_unmap h1 hle2 hnew (by simp [hB])).trans hB))
    · exact absurd hB (hw.kept f hf')
    · refine .inr ⟨i, hi, ?_⟩
      rw [← h'.tab pd (hdir pd hd) i hi, unmap_rest.1]
      exact ht
    · have hu := userEntry_spec (h1.lt_of_eq hB (by simp))
      refine .inl ((h'.mem_free f).mpr ?_)
      rw [unmap_own (doomed_nodup hle2), if_pos]
      refine mem_frames.mpr ⟨k, hmem k h2 h3, ?_⟩
      rw [called_ent, he]
      exact ⟨hu.1, hu.2.2.2⟩
  · refine hg.entry_other h h' hdir (fun j hj => ?_) (fun q hq => unmap_ent_of_ne hq) hq hk
      fun hqp hx => ?_
    · rw [unmap_ent, if_neg]
      · rfl
      rintro ⟨hm, hp⟩
      obtain ⟨h2, -, h3, -⟩ := (mem_doomed hle2).mp hm
      rw [called_ent, hg.outside j hj] at hp
      exact hnew j h3 h2 hp
    · exact hr hqp ((inRange_iff hle').mpr ⟨hx.1, hx.2.trans hn⟩)

lemma Hurt.not_success (hd : B.own pd = .dir) (hle : oldsz ≤ newsz) (hlt : newsz < KERNBASE)
    (hh : Hurt pd (npages oldsz) (npages newsz) A B) (h' : Rep ld m' B) :
    ¬ AllOrNothing A pd oldsz newsz m newsz m' := by
  intro hc
  obtain ⟨k, h1, h2, hk⟩ := hh.unmapped
  have hnp := npages_le (UInt32.le_of_lt hlt)
  have hne : newsz ≠ 0 := by
    rintro rfl
    rw [npages, UInt32.toNat_zero] at h2
    omega
  obtain ⟨l, -, hl⟩ := hc.success hne
  obtain ⟨f, -, -, hp, -⟩ := hl k ((inRange_iff (UInt32.le_trans hle (UInt32.le_of_lt hlt))).mpr ⟨h1, h2⟩)
  rw [← h'.ent pd hd k (by omega)] at hp
  exact hk hp

lemma Hurt.not_failure (h : Rep ld m A) (hd : C.own pd = .dir) (hh : Hurt pd lo n A B)
    (hlost : ∀ f, B.own f = .lost → C.own f = .lost) (h' : Rep ld m' C) :
    ¬ AllOrNothing A pd oldsz newsz m 0 m' := by
  intro hc
  obtain ⟨g, hg, hgl⟩ := hh.lost
  have hC := hlost g hgl
  obtain ⟨-, l, hl, hall⟩ := hc.failure rfl
  rcases hall g ((h.mem_free g).mpr hg) with hm | ⟨i, hi, ht⟩
  · rw [hl.unique h'.freeList, h'.mem_free, hC] at hm
    cases hm
  · rw [← h'.tab pd hd i hi] at ht
    rw [h'.own_tab pd hd i hi g ht] at hC
    cases hC

section

variable (h : Rep ld m A) (hd : A.own pd = .dir) (hle : oldsz ≤ newsz) (hlt : newsz < KERNBASE)
include h hd hle hlt

lemma Rep.not_present (hfresh : ∀ n, InRange oldsz newsz n → ¬ Present (entry m.mem pd n))
    (h1 : npages oldsz ≤ k) (h2 : k < npages newsz) : ¬ Present (A.ent pd k) := by
  have hnp := npages_le (UInt32.le_of_lt hlt)
  rw [h.ent pd hd k (by omega)]
  exact hfresh k ((inRange_iff (UInt32.le_trans hle (UInt32.le_of_lt hlt))).mpr ⟨h1, h2⟩)

lemma allocuvm_status (hfresh : ∀ n, InRange oldsz newsz n → ¬ Present (entry m.mem pd n)) :
    (allocuvm ld (kva pd) oldsz newsz).Wp m 
      (AllocEnd ld pd oldsz newsz (Status pd (npages oldsz) (npages newsz) A) A) (fun _ _ => False) := by
  have hnp := npages_le (UInt32.le_of_lt hlt)
  refine allocuvm_wp hle hlt (fun n B C m1 h1 h2 hB hg hs hstep => ?_) h hd
    (fun k => h.not_present hd hle hlt hfresh) (.inl ⟨rfl, Whole.refl pd _ A⟩)
  exact hs.step hstep hB.sound hg (h.not_present hd hle hlt hfresh h1 h2) h1 h2 (by omega)

lemma not_allOrNothing_of_table (hfresh : ∀ n, InRange oldsz newsz n → ¬ Present (entry m.mem pd n))
    (ht : A.firstRefused pd (npages oldsz) (npages newsz) = some .table) :
    ¬ (allocuvm ld (kva pd) oldsz newsz).Wp m (AllOrNothing A pd oldsz newsz m) (fun _ _ => False) := by
  intro hw
  have hle' := UInt32.le_of_lt hlt
  rcases (hw.and (allocuvm_status h hd hle hlt hfresh)).outcome with ⟨r, m', hc, hr⟩ | ⟨-, -, hf, -⟩
  · rcases hr with ⟨B, rfl, hs, hg, h'⟩ | ⟨n, B, m1, rfl, -, hn, hst, hs, hg, hB, h'⟩
    · rcases hs with ⟨hr, -⟩ | ⟨-, hh⟩
      · rw [ht, firstRefused_end] at hr
        cases hr
      · exact hh.not_success (hg.dir hd) hle hlt h' hc
    · rcases hs with ⟨hr, -⟩ | ⟨-, hh⟩
      · rw [ht, firstRefused_starved hst hn] at hr
        cases hr
      · have hkeep : ∀ f, (∀ k, npages oldsz ≤ k → B.own f ≠ .page pd k) → _ := fun f =>
          hg.own_unmap hB hle' fun k => h.not_present hd hle hlt hfresh
        refine hh.not_failure h ?_ (fun f hf => ?_) h' hc
        · exact (hkeep pd (by simp [hg.dir hd])).trans (hg.dir hd)
        · exact (hkeep f (by simp [hf])).trans hf
  · exact hf

end

theorem allocuvm_all_or_nothing_iff (h : Rep ld m A) (hd : A.own pd = .dir) (hle : oldsz ≤ newsz)
    (hlt : newsz < KERNBASE) (hfresh : ∀ n, InRange oldsz newsz n → ¬ Present (entry m.mem pd n)) :
    (allocuvm ld (kva pd) oldsz newsz).Wp m (AllOrNothing A pd oldsz newsz m) (fun _ _ => False) ↔
      A.firstRefused pd (npages oldsz) (npages newsz) ≠ some .table := by
  refine ⟨fun hw ht => not_allOrNothing_of_table h hd hle hlt hfresh ht hw, fun ht => ?_⟩
  refine (allocuvm_status h hd hle hlt hfresh).imp ?_
  rintro r m' (⟨B, rfl, ⟨-, hw⟩ | ⟨hr, -⟩, hg, h'⟩ | ⟨n, B, m₁, rfl, hlo, hn, -, ⟨-, hw⟩ | ⟨hr, -⟩,
    hg, hB, h'⟩)
  · exact allOrNothing_success h hd hlt hle hfresh hg hw h'
  · exact absurd hr ht
  · exact allOrNothing_failure h hd hlt hle hfresh hn hg hw hB h'
  · exact absurd hr ht

end

def emptyDir (l : List ℕ) : Mem := Mem.blank.pushed l

def emptyDirView (l : List ℕ) : View := (View.blank.mkdir 2000).given l

lemma rep_emptyDir (ld : Kernel) (hl : l.Nodup) (hr : ∀ f ∈ l, 2000 < f ∧ f < NFRAMES) :
    Rep ld (emptyDir l) (emptyDirView l) := by
  have h0 := (Rep.blank ld).mkdir (blank_data 2000) (by rw [blank_own (by decide)]; simp) rfl
  refine h0.pushed hl fun f hf => ?_
  obtain ⟨h1, h2⟩ := hr f hf
  rw [mkdir_own, assign_of_ne (by omega)]
  exact ⟨blank_data f, ld.lo_le.trans (by omega), h2⟩

lemma emptyDir_unmapped (hl : l.Nodup) (hr : ∀ f ∈ l, 2000 < f ∧ f < NFRAMES) (hn : n < 2 ^ 20) :
    entry (emptyDir l).mem 2000 n = 0 := by
  have h := rep_emptyDir Kernel.small hl hr
  have hd : (emptyDirView l).own 2000 = .dir := by
    rw [emptyDirView, given_own _ fun hm => absurd (hr _ hm).1 (by decide), mkdir_own, assign_self]
  rw [← h.ent 2000 hd n hn]
  exact h.ent_of_none hd hn (by rw [emptyDirView, (given_rest _ l).2.1]; rfl)

theorem allocuvm_all_or_nothing_two_pages :
    (allocuvm Kernel.small (kva 2000) 0 0x1000).Wp (emptyDir [2001, 2002])
      (AllOrNothing (emptyDirView [2001, 2002]) 2000 0 0x1000 (emptyDir [2001, 2002]))
      (fun _ _ => False) := by
  have hr : ∀ f ∈ [2001, 2002], 2000 < f ∧ f < NFRAMES := by decide
  refine (allocuvm_all_or_nothing_iff (rep_emptyDir _ (by decide) hr) rfl (by decide) (by decide)
    fun n hn => ?_).mpr (by decide)
  have hlt : n * 4096 < 4096 := hn.2
  rw [emptyDir_unmapped (by decide) hr (by omega)]
  exact not_present_zero

theorem allocuvm_one_page_forgotten :
    Rep Kernel.small (emptyDir [2001]) (emptyDirView [2001]) ∧ (emptyDirView [2001]).own 2000 = .dir ∧
      (∀ n, InRange 0 0x1000 n → ¬ Present (entry (emptyDir [2001]).mem 2000 n)) ∧
      ¬ (allocuvm Kernel.small (kva 2000) 0 0x1000).Wp (emptyDir [2001])
        (AllOrNothing (emptyDirView [2001]) 2000 0 0x1000 (emptyDir [2001])) (fun _ _ => False) := by
  have hr : ∀ f ∈ [2001], 2000 < f ∧ f < NFRAMES := by decide
  have hfresh : ∀ n, InRange 0 0x1000 n → ¬ Present (entry (emptyDir [2001]).mem 2000 n) := fun n hn => by
    have hlt : n * 4096 < 4096 := hn.2
    rw [emptyDir_unmapped (by decide) hr (by omega)]
    exact not_present_zero
  have h := rep_emptyDir Kernel.small (by decide) hr
  exact ⟨h, rfl, hfresh, not_allOrNothing_of_table h rfl (by decide) (by decide) hfresh (by decide)⟩

end Xv6.Vm
