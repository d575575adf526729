import Xv6.Lib.Words
import Xv6.Vm.Exhaust

namespace Xv6.Vm

open Lib View

variable {ld : Kernel} {m m' : Mem} {A₀ A B C : View} {pd f k lo hi : ℕ} {F : Fill}

structure Proc where
  sz : UInt32
  pgdir : UInt32

def switchuvm (p : Proc) : M Unit := if p.pgdir = 0 then throw (.panic .switchuvmNoPgdir) else return ()

def growproc (ld : Kernel) (p : Proc) (n : Int32) : M (Int × Proc) := do
  let sz ←
    if n.toInt > 0 then allocuvm ld p.pgdir p.sz (p.sz + n.toUInt32)
    else if n.toInt < 0 then deallocuvm ld p.pgdir p.sz (p.sz + n.toUInt32)
    else pure p.sz
  if sz = 0 ∧ n.toInt ≠ 0 then return (-1, p)
  else
    switchuvm { p with sz }
    return (0, { p with sz })

def View.LastTable (A : View) (pd lo hi : ℕ) : Prop :=
  (plan (A.has pd) (hi - lo) lo).getLast? = some .table ∧
    A.free.length + 1 = (plan (A.has pd) (hi - lo) lo).length

lemma plan_eq_nil {has : ℕ → Bool} {n : ℕ} : plan has k n = [] ↔ k = 0 := by
  cases k with
  | zero => simp [plan]
  | succ k => simp [plan]

lemma View.not_lastTable_end (n : ℕ) : ¬ A.LastTable pd n n := by
  rw [LastTable, Nat.sub_self]
  rintro ⟨h, -⟩
  cases h

lemma View.not_lastTable_of_nil {n : ℕ} (h : A.free = []) (hn : n < hi) : ¬ A.LastTable pd n hi := by
  rw [LastTable, show hi - n = hi - (n + 1) + 1 by omega, plan, h]
  rintro ⟨hlast, hlen⟩
  rw [List.length_nil, List.length_cons, Nat.add_right_cancel_iff, eq_comm,
    List.length_eq_zero_iff] at hlen
  rw [hlen] at hlast
  cases hlast

lemma Served.lastTable {x l : List Call} (h : Served x A B) :
    ((x ++ l).getLast? = some .table ∧ A.free.length + 1 = (x ++ l).length) ↔
      l.getLast? = some .table ∧ B.free.length + 1 = l.length := by
  have hfree := h.free
  cases l with
  | nil =>
    refine iff_of_false (fun hx => ?_) (by simp)
    rw [List.append_nil] at hx
    omega
  | cons c l =>
    rw [List.getLast?_append_of_ne_nil _ (by simp), List.length_append]
    exact and_congr_right fun _ => by omega

def Ending (pd lo hi : ℕ) (A₀ : View) (n : ℕ) (A : View) : Prop :=
  (∀ j, lo ≤ j → j < n → Present (A.ent pd j)) ∧ (A.LastTable pd n hi ↔ A₀.LastTable pd lo hi) ∨
    (∃ k, lo ≤ k ∧ n = k + 1 ∧ (∀ j, lo ≤ j → j < k → Present (A.ent pd j)) ∧
    ¬ Present (A.ent pd k)) ∧ A.free = [] ∧
      (n = hi ↔ A₀.LastTable pd lo hi)

lemma Ending.step {n : ℕ} (h : Ending pd lo hi A₀ n A) (hstep : AllocStep F pd n A B) (hA : A.Sound)
    (hg : Grown F pd lo n A₀ A) (hdeny : ∀ j, A₀.deny j = false) (hnew : ¬ Present (A₀.ent pd n))
    (hlo : lo ≤ n) (hn : n < hi) (hlt : n < 2 ^ 20) : Ending pd lo hi A₀ (n + 1) B := by
  have hgrow := hstep.grown hA hlt
  have hk : hi - n = hi - (n + 1) + 1 := by omega
  rcases h with ⟨hw, hl⟩ | ⟨-, hfree, -⟩
  · rcases hstep.pass hA (hi - (n + 1)) with ⟨hp, -, x, hx, hplan⟩ | ⟨hp, -, h0, h1, hfree, hplan⟩
    · refine .inl ⟨fun j h1 h2 => ?_, ?_⟩
      · by_cases hj : j = n
        · rwa [hj]
        · rw [hgrow.outside j (by omega)]
          exact hw j h1 (by omega)
      · rw [← hl, View.LastTable, View.LastTable, hk, hplan]
        exact hx.lastTable.symm
    · have hone : A.free.length = 1 := by
        rw [View.Refuses, hg.deny, hdeny, or_iff_right (by simp)] at h0 h1
        omega
      refine .inr ⟨⟨n, hlo, rfl, fun j h1 h2 => ?_, ?_⟩, List.length_eq_zero_iff.mp (by omega), ?_⟩
      · rw [hgrow.outside j (by omega)]
        exact hw j h1 h2
      · rwa [hp, hg.outside n (by omega)]
      · rw [← hl, View.LastTable, hk, hplan, hone]
        constructor
        · intro he
          rw [plan_eq_nil.mpr (show hi - (n + 1) = 0 by omega)]
          exact ⟨rfl, rfl⟩
        · rintro ⟨-, hlen⟩
          rw [List.length_cons, List.length_cons] at hlen
          have hz : (plan (assign (A.has pd) (n / 1024) true) (hi - (n + 1))
            (n + 1)).length = 0 := by omega
          have hnil := plan_eq_nil.mp (List.length_eq_zero_iff.mp hz)
          omega
  · exact absurd (.inr hfree) hstep.not_starved

def userByte (mem : ℕ → Page) (pd a : ℕ) : UInt8 := mem (pframe (entry mem pd (a / 4096))) (a % 4096)

structure Runs (ld : Kernel) (m : Mem) (A : View) (pd : ℕ) (p : Proc) : Prop where
  rep : Rep ld m A
  dir : A.own pd = .dir
  pgdir : p.pgdir = kva pd
  mapped : ∀ k, k < npages p.sz ↔ k < 2 ^ 19 ∧ Present (entry m.mem pd k)
  own : ∀ k < npages p.sz, A.own (pframe (entry m.mem pd k)) = .page pd k

def SamePage (pd : ℕ) (m m' : Mem) (k : ℕ) : Prop :=
  entry m'.mem pd k = entry m.mem pd k ∧ m'.mem (pframe (entry m.mem pd k)) = m.mem
    (pframe (entry m.mem pd k))

def SamePages (pd : ℕ) (m m' : Mem) : Prop :=
  ∀ k < 2 ^ 19, (Present (entry m'.mem pd k) ↔ Present (entry m.mem pd k)) ∧
    (Present (entry m.mem pd k) → SamePage pd m m' k)

structure Exact (pd : ℕ) (p : Proc) (n : Int32) (m : Mem) (r : Int × Proc) (m' : Mem) : Prop where
  ret : r.1 = 0 ∨ r.1 = -1
  size : r.1 = 0 → (r.2.sz.toNat : ℤ) = p.sz.toNat + n.toInt
  mapped : r.1 = 0 → ∀ k < 2 ^ 19, Present (entry m'.mem pd k) ↔ k < npages r.2.sz
  zero : r.1 = 0 → ∀ k, npages p.sz ≤ k → k < npages r.2.sz →
    m'.mem (pframe (entry m'.mem pd k)) = Page.fill 0
  bytes : r.1 = 0 → ∀ a < min p.sz.toNat r.2.sz.toNat, userByte m'.mem pd a = userByte m.mem pd a
  kept : r.1 = -1 → r.2.sz = p.sz ∧ SamePages pd m m'

section

variable {p : Proc} {n : Int32} (h : Runs ld m A pd p)

namespace Runs

include h

lemma le : p.sz ≤ KERNBASE := by
  have hn : ¬ 2 ^ 19 < npages p.sz := fun hlt => absurd ((h.mapped _).mp hlt).1 (lt_irrefl _)
  rw [UInt32.le_iff_toNat_le, show (KERNBASE).toNat = 2 ^ 19 * 4096 from rfl]
  rw [npages] at hn
  omega

lemma ent (hk : k < 2 ^ 19) : A.ent pd k = entry m.mem pd k := h.rep.ent pd h.dir k (by omega)

lemma not_present (hk : npages p.sz ≤ k) (hlt : k < 2 ^ 19) : ¬ Present (entry m.mem pd k) :=
  fun hp => absurd ((h.mapped k).mpr ⟨hlt, hp⟩) (by omega)

lemma lt (hk : k < npages p.sz) : k < 2 ^ 19 := ((h.mapped k).mp hk).1

lemma same (h' : Rep ld m' C) (hd : C.own pd = .dir) (hk : k < npages p.sz)
    (hent : C.ent pd k = A.ent pd k) (hown : C.own (pframe (A.ent pd k)) = A.own (pframe (A.ent pd k)))
    (hpage : C.page (pframe (A.ent pd k)) = A.page (pframe (A.ent pd k))) : SamePage pd m m' k := by
  have hlt := h.lt hk
  have ho := h.own k hk
  rw [SamePage]
  rw [← h.ent hlt] at ho ⊢
  rw [← h'.ent pd hd k (by omega), hent, ← h'.page _ (by rw [hown, ho]; rfl), hpage,
    h.rep.page _ (by rw [ho]; rfl)]
  exact ⟨rfl, rfl⟩

end Runs

lemma userByte_congr {a : ℕ} (h : SamePage pd m m' (a / 4096)) :
    userByte m'.mem pd a = userByte m.mem pd a := by
  rw [userByte, userByte, h.1, h.2]

lemma lt_npages_of_lt {a : ℕ} {sz : UInt32} (h : a < sz.toNat) : a / 4096 < npages sz := by
  rw [npages]
  omega

variable {newsz : UInt32}

include h

lemma exact_of_grown (hle : p.sz ≤ newsz) (hlt : newsz < KERNBASE)
    (hsz : (newsz.toNat : ℤ) = p.sz.toNat + n.toInt)
    (hg : Grown .user pd (npages p.sz) (npages newsz) A B)
    (hw : ∀ j, npages p.sz ≤ j → j < npages newsz → Present (B.ent pd j)) (h' : Rep ld m' B) :
    Exact pd p n m (0, { p with sz := newsz }) m' := by
  have hnp := npages_le (UInt32.le_of_lt hlt)
  have hmono := npages_mono hle
  have hd := hg.dir h.dir
  have hent : ∀ k < 2 ^ 19, entry m'.mem pd k = B.ent pd k := fun k hk => (h'.ent pd hd k (by omega)).symm
  have hsame : ∀ k < npages p.sz, SamePage pd m m' k := fun k hk => by
    have hf : A.own (pframe (A.ent pd k)) ≠ .free := by
      rw [h.ent (h.lt hk), h.own k hk]
      simp
    exact h.same h' hd hk (hg.outside k (by omega)) (hg.own _ hf) (hg.page _ hf)
  refine ⟨.inl rfl, fun _ => hsz, fun _ k hk => ?_, fun _ k h1 h2 => ?_, fun _ a ha => ?_,
    fun hr => by cases hr⟩
  · dsimp only
    by_cases hlo : k < npages p.sz
    · rw [(hsame k hlo).1]
      exact iff_of_true ((h.mapped k).mp hlo).2 (by omega)
    · by_cases hhi : k < npages newsz
      · rw [hent k hk]
        exact iff_of_true (hw k (by omega) hhi) hhi
      · rw [hent k hk, hg.outside k (by omega), h.ent hk]
        exact iff_of_false (h.not_present (by omega) hk) hhi
  · dsimp only at h2
    rw [hent k (by omega)]
    rcases hg.inside k h1 h2 (hw k h1 h2) with hp | ⟨g, -, hgo, he, hz⟩
    · rw [h.ent (by omega)] at hp
      exact absurd hp (h.not_present h1 (by omega))
    · rw [he, Fill.user.frame k g (h'.lt_of_eq hgo (by simp)), ← h'.page g (by rw [hgo]; rfl), hz]
      rfl
  · exact userByte_congr (hsame _ (lt_npages_of_lt (lt_min_iff.mp ha).1))

lemma samePages_of_failed {m1 : Mem} (hlt : newsz < KERNBASE)
    (hg : Grown .user pd (npages p.sz) hi A B) (h1 : Rep ld m1 B) (hk : k ≤ npages newsz)
    (hmapped : ∀ j, npages p.sz ≤ j → j < k → Present (B.ent pd j))
    (hrest : ∀ j, npages p.sz ≤ j → k ≤ j → j < 2 ^ 19 → ¬ Present (B.ent pd j))
    (h' : Rep ld m' (B.called.unmap pd (B.called.doomed pd newsz p.sz))) : SamePages pd m m' := by
  have hle := UInt32.le_of_lt hlt
  have hnp := npages_le hle
  have hd := hg.dir h.dir
  have hnew : ∀ j, npages p.sz ≤ j → j < npages newsz → ¬ Present (A.ent pd j) := fun j h2 h3 => by
    rw [h.ent (by omega)]
    exact h.not_present h2 (by omega)
  have hown : ∀ f, (∀ j, npages p.sz ≤ j → B.own f ≠ .page pd j) → _ := fun f => hg.own_unmap h1 hle hnew
  have hd' := (hown pd (by simp [hd])).trans hd
  have hout : ∀ j, ¬ (npages p.sz ≤ j ∧ j < npages newsz) →
      (B.called.unmap pd (B.called.doomed pd newsz p.sz)).ent pd j = B.ent pd j := fun j hj => by
    rw [unmap_ent, if_neg]
    · rfl
    rintro ⟨hm, -⟩
    obtain ⟨h2, -, h3, -⟩ := (mem_doomed hle).mp hm
    exact hj ⟨h3, h2⟩
  intro j hj
  by_cases hlo : j < npages p.sz
  · have ho := h.own j hlo
    rw [← h.ent hj] at ho
    have hf : A.own (pframe (A.ent pd j)) ≠ .free := by
      rw [ho]
      simp
    have hsame := h.same h' hd' hlo ((hout j (by omega)).trans (hg.outside j (by omega)))
      ((hown _ fun i hi he => ?_).trans (hg.own _ hf)) ?_
    · exact ⟨by rw [hsame.1], fun _ => hsame⟩
    · rw [hg.own _ hf, ho] at he
      injection he with _ hji
      omega
    · rw [unmap_rest.2.1]
      exact hg.page _ hf
  · have hno := h.not_present (by omega) hj
    refine ⟨iff_of_false ?_ hno, fun hp => absurd hp hno⟩
    rw [← h'.ent pd hd' j (by omega)]
    by_cases hhi : j < npages newsz
    · exact Grown.unmapped h1 hd hle hk hmapped (fun i h2 h3 h4 => hrest i h2 h3 (by omega))
        (by omega) hhi
    · rw [hout j (by omega)]
      exact hrest j (by omega) (by omega) hj

lemma exact_of_shrunk (hlt : newsz < p.sz) (hsz : (newsz.toNat : ℤ) = p.sz.toNat + n.toInt)
    (h' : Rep ld m' (A.unmap pd (A.doomed pd p.sz newsz))) :
    Exact pd p n m (0, { p with sz := newsz }) m' := by
  have hle := h.le
  have hmem : ∀ j, j ∈ A.doomed pd p.sz newsz ↔ npages newsz ≤ j ∧ j < npages p.sz := fun j => by
    rw [mem_doomed hle]
    refine ⟨fun hm => ⟨hm.2.2.1, hm.1⟩, fun ⟨h1, h2⟩ => ?_⟩
    have htab : ∀ j < npages p.sz, A.tab pd (j / 1024) ≠ none := fun j hj => by
      have hp := (h.mapped j).mp hj
      exact h.rep.tab_ne_none h.dir (by omega) (by rw [h.ent hp.1]; exact hp.2)
    exact ⟨h2, htab j h2, h1, reached_of_present (htab _ (by omega)) h1⟩
  have hmono := npages_mono (UInt32.le_of_lt hlt)
  have hnp := npages_le hle
  have hown : ∀ f, (∀ j, npages newsz ≤ j → A.own f ≠ .page pd j) →
      (A.unmap pd (A.doomed pd p.sz newsz)).own f = A.own f := fun f hf => by
    rw [unmap_own (doomed_nodup hle), if_neg]
    intro hm
    obtain ⟨j, hj, hp, rfl⟩ := mem_frames.mp hm
    obtain ⟨h1, h2⟩ := (hmem j).mp hj
    rw [h.ent (by omega)] at hf
    exact hf j h1 (h.own j h2)
  have hd := (hown pd (by simp [h.dir])).trans h.dir
  have hsame : ∀ k < npages newsz, SamePage pd m m' k := fun k hk => by
    refine h.same h' hd (by omega) ?_ (hown _ fun j h1 he => ?_) (by rw [unmap_rest.2.1])
    · rw [unmap_ent, if_neg]
      rintro ⟨hm, -⟩
      have := (hmem k).mp hm
      omega
    · rw [h.ent (by omega), h.own k (by omega)] at he
      injection he with _ hjk
      omega
  refine ⟨.inl rfl, fun _ => hsz, fun _ k hk => ?_, fun _ k h1 h2 => ?_, fun _ a ha => ?_,
    fun hr => by cases hr⟩
  · dsimp only
    by_cases hlo : k < npages newsz
    · rw [(hsame k hlo).1]
      exact iff_of_true ((h.mapped k).mp (by omega)).2 hlo
    · refine iff_of_false ?_ hlo
      rw [← h'.ent pd hd k (by omega), unmap_ent]
      split_ifs with hc
      · exact not_present_zero
      · intro hp
        refine hc ⟨(hmem k).mpr ⟨by omega, ?_⟩, hp⟩
        rw [h.ent hk] at hp
        exact (h.mapped k).mpr ⟨hk, hp⟩
  · dsimp only at h2
    omega
  · exact userByte_congr (hsame _ (lt_npages_of_lt (lt_min_iff.mp ha).2))

lemma switchuvm_on (sz : UInt32) (m' : Mem) : (switchuvm { p with sz }).on m' = (.ok (), m') := by
  rw [switchuvm, if_neg]
  · rfl
  · show p.pgdir ≠ 0
    rw [h.pgdir]
    exact kva_ne_zero (h.rep.dir_lt h.dir)

omit h in
lemma exact_of_samePages (h : SamePages pd m m') : Exact pd p n m (-1, p) m' := by
  have hne : (-1 : ℤ) ≠ 0 := by decide
  exact ⟨.inr rfl, fun hr => absurd hr hne, fun hr => absurd hr hne, fun hr => absurd hr hne,
    fun hr => absurd hr hne, fun _ => ⟨rfl, h⟩⟩

omit h in
lemma SamePages.refl (pd : ℕ) (m : Mem) : SamePages pd m m := fun _ _ => ⟨Iff.rfl, fun _ => ⟨rfl, rfl⟩⟩

def ended (p : Proc) (sz : UInt32) : Int × Proc := if sz = 0 then (-1, p) else (0, { p with sz })

lemma growproc_wp {Q : Int × Proc → Mem → Prop}
    (hw : 0 < n.toInt ∧ (allocuvm ld p.pgdir p.sz (p.sz + n.toUInt32)).Wp m
    (fun sz => Q (ended p sz)) (fun _ _ => False) ∨
      n.toInt < 0 ∧ (deallocuvm ld p.pgdir p.sz (p.sz + n.toUInt32)).Wp m (fun sz => Q (ended p sz))
      (fun _ _ => False)) :
    (growproc ld p n).Wp m Q (fun _ _ => False) := by
  have hn : n.toInt ≠ 0 := by
    rcases hw with ⟨hn, -⟩ | ⟨hn, -⟩ <;> omega
  have hend : ∀ sz m', Q (ended p sz) m' → (if sz = 0 ∧ n.toInt ≠ 0 then return (-1, p) else do
      switchuvm { p with sz }
      return (0, { p with sz }) : M (Int × Proc)).Wp m' Q (fun _ _ => False) := fun sz m' hq => by
    rw [ended] at hq
    by_cases hz : sz = 0
    · rw [if_pos hz] at hq
      rw [if_pos ⟨hz, hn⟩]
      exact .pure hq
    · rw [if_neg hz] at hq
      rw [if_neg fun hc => hz hc.1]
      exact .bind (.of_ok (switchuvm_on h sz m') (.pure hq))
  rw [growproc]
  rcases hw with ⟨hpos, hw⟩ | ⟨hneg, hw⟩
  · rw [if_pos hpos]
    exact hw.seq hend
  · rw [if_neg (by omega), if_pos hneg]
    exact hw.seq hend

lemma toNat_grow (hn : 0 < n.toInt) : ((p.sz + n.toUInt32).toNat : ℤ) = p.sz.toNat + n.toInt := by
  have hle := UInt32.le_iff_toNat_le.mp h.le
  rw [show (KERNBASE).toNat = 2147483648 from rfl] at hle
  have hlt := n.toUInt32.toNat_lt
  rw [UInt32.toNat_add]
  rcases toInt_cases n with ⟨h1, h2⟩ | ⟨h1, h2⟩ <;> omega

lemma growproc_over (hn : 0 < n.toInt) (hge : ¬ p.sz + n.toUInt32 < KERNBASE) :
    (growproc ld p n).Wp m (fun r m' => r = (-1, p) ∧ m' = m) (fun _ _ => False) := by
  refine growproc_wp h (.inl ⟨hn, ?_⟩)
  rw [allocuvm, if_pos (UInt32.not_lt.mp hge)]
  exact .pure ⟨if_pos rfl, rfl⟩

lemma growproc_pos (hdeny : ∀ j, A.deny j = false) (hn : 0 < n.toInt)
    (hlt : p.sz + n.toUInt32 < KERNBASE) : (growproc ld p n).Wp m (fun r m' => Exact pd p n m r m' ↔
      ¬ A.LastTable pd (npages p.sz) (npages (p.sz + n.toUInt32))) (fun _ _ => False) := by
  have hsz := toNat_grow h hn
  refine growproc_wp h (.inl ⟨hn, ?_⟩)
  generalize p.sz + n.toUInt32 = newsz at hsz hlt ⊢
  have hle : p.sz ≤ newsz := by
    rw [UInt32.le_iff_toNat_le]
    omega
  have hne : newsz ≠ 0 := by
    rintro rfl
    rw [UInt32.toNat_zero] at hsz
    omega
  have hnp := npages_le (UInt32.le_of_lt hlt)
  have hnew : ∀ j, npages p.sz ≤ j → j < npages newsz → ¬ Present (A.ent pd j) := fun j h1 h2 => by
    rw [h.ent (by omega)]
    exact h.not_present h1 (by omega)
  have hspec := allocuvm_wp (I := Ending pd (npages p.sz) (npages newsz) A) hle hlt
    (fun k B C m1 h1 h2 hB hg hs hstep => hs.step hstep hB.sound hg hdeny (hnew k h1 h2) h1 h2
    (by omega)) h.rep h.dir hnew (.inl ⟨fun j h1 h2 => by omega, Iff.rfl⟩)
  rw [← h.pgdir] at hspec
  refine hspec.imp ?_
  rintro r m' (⟨B, rfl, hs, hg, h'⟩ | ⟨k, B, m1, rfl, h1, h2, hst, hs, hg, hB, h'⟩)
  · rw [ended, if_neg hne]
    rcases hs with ⟨hw, hl⟩ | ⟨⟨k, hlo, hk, -, hno⟩, -, hl⟩
    · refine iff_of_true (exact_of_grown h hle hlt hsz hg hw h') ?_
      rw [← hl]
      exact not_lastTable_end _
    · refine iff_of_false (fun hc => hno ?_) fun hc => hc (hl.mp rfl)
      rw [h'.ent pd (hg.dir h.dir) k (by omega)]
      refine (hc.mapped rfl k (by omega)).mpr ?_
      show k < npages r
      omega
  · rw [ended, if_pos rfl]
    have hnil : B.free = [] := hst.resolve_left (by rw [hg.deny, hdeny]; simp)
    have hrest : ∀ j, npages p.sz ≤ j → k ≤ j → j < 2 ^ 19 → ¬ Present (B.ent pd j) :=
      fun j h3 h4 h5 => by
      rw [hg.outside j (by omega), h.ent h5]
      exact h.not_present h3 h5
    rcases hs with ⟨hw, hl⟩ | ⟨⟨k', hlo, rfl, hw, hno⟩, -, hl⟩
    · refine iff_of_true (exact_of_samePages (samePages_of_failed h hlt hg hB h2.le hw hrest h')) ?_
      rw [← hl]
      exact not_lastTable_of_nil hnil h2
    · refine iff_of_true (exact_of_samePages (samePages_of_failed h hlt hg hB (by omega) hw
        (fun j h3 h4 h5 => ?_) h')) fun hc => by
          have := hl.mpr hc
          omega
      by_cases hj : j = k'
      · rwa [hj]
      · exact hrest j h3 (by omega) h5

lemma growproc_shrinks (hn : n.toInt < 0) : (growproc ld p n).Wp m (fun r m' =>
    ((p.sz.toNat : ℤ) + n.toInt < 0 ∧ p.sz ≤ p.sz + n.toUInt32 ∧ r = ended p p.sz ∧ m' = m) ∨
    p.sz + n.toUInt32 < p.sz ∧ ((p.sz + n.toUInt32).toNat : ℤ) = p.sz.toNat + n.toInt ∧
      r = ended p (p.sz + n.toUInt32) ∧
      Exact pd p n m (0, { p with sz := p.sz + n.toUInt32 }) m') (fun _ _ => False) := by
  have hle := UInt32.le_iff_toNat_le.mp h.le
  rw [show (KERNBASE).toNat = 2147483648 from rfl] at hle
  have hlt := n.toUInt32.toNat_lt
  have hsum : (p.sz + n.toUInt32).toNat = (p.sz.toNat + n.toUInt32.toNat) % 2 ^ 32 := UInt32.toNat_add ..
  refine growproc_wp h (.inr ⟨hn, ?_⟩)
  by_cases hwrap : (p.sz.toNat : ℤ) + n.toInt < 0
  · -- the sum wraps, and `deallocuvm` returns the old size
    have hge : p.sz ≤ p.sz + n.toUInt32 := by
      rw [UInt32.le_iff_toNat_le]
      rcases toInt_cases n with ⟨h1, h2⟩ | ⟨h1, h2⟩ <;> omega
    rw [deallocuvm, if_pos hge]
    exact .pure (.inl ⟨hwrap, hge, rfl, rfl⟩)
  have hsz : ((p.sz + n.toUInt32).toNat : ℤ) = p.sz.toNat + n.toInt := by
    rcases toInt_cases n with ⟨h1, h2⟩ | ⟨h1, h2⟩ <;> omega
  have hlt : p.sz + n.toUInt32 < p.sz := by
    rw [UInt32.lt_iff_toNat_lt]
    omega
  have hspec := deallocuvm_label_wp h.rep h.dir hlt h.le fun k h1 h2 hp => by
    rw [h.ent (h.lt h2)]
    exact h.own k h2
  rw [← h.pgdir] at hspec
  refine hspec.imp ?_
  rintro r m' ⟨rfl, h'⟩
  exact .inr ⟨hlt, hsz, rfl, exact_of_shrunk h hlt hsz h'⟩

lemma growproc_neg (hn : n.toInt < 0) :
    (growproc ld p n).Wp m (fun r m' => Exact pd p n m r m' ↔ 0 < (p.sz.toNat : ℤ) + n.toInt ∨ p.sz = 0)
      (fun _ _ => False) := by
  refine (growproc_shrinks h hn).imp ?_
  rintro r m' (⟨hwrap, -, rfl, rfl⟩ | ⟨hlt, hsz, rfl, hexact⟩)
  · by_cases hz : p.sz = 0
    · rw [ended, if_pos hz]
      exact iff_of_true (exact_of_samePages (SamePages.refl pd m')) (.inr hz)
    · rw [ended, if_neg hz]
      refine iff_of_false (fun hc => ?_) (not_or.mpr ⟨by omega, hz⟩)
      have hs : (p.sz.toNat : ℤ) = p.sz.toNat + n.toInt := hc.size rfl
      omega
  generalize p.sz + n.toUInt32 = newsz at hlt hsz hexact ⊢
  have hpos := UInt32.lt_iff_toNat_lt.mp hlt
  by_cases hz : newsz = 0
  · -- a size of 0 is taken for a failure
    subst hz
    rw [ended, if_pos rfl]
    rw [UInt32.toNat_zero] at hsz hpos
    refine iff_of_false (fun hc => ?_) (not_or.mpr ⟨by omega, fun hz => ?_⟩)
    · have hlo : 0 < npages p.sz := by
        rw [npages]
        omega
      have hp := ((h.mapped 0).mp hlo).2
      exact absurd ((hexact.mapped rfl 0 (by decide)).mp (((hc.kept rfl).2 0 (by decide)).1.mpr hp))
        (show ¬ 0 < npages 0 by decide)
    · rw [hz] at hpos
      cases hpos
  · rw [ended, if_neg hz]
    have : newsz.toNat ≠ 0 := fun h0 => hz (UInt32.toNat_inj.mp h0)
    exact iff_of_true hexact (.inl (by omega))

lemma growproc_zero (hn : n.toInt = 0) : (growproc ld p n).Wp m (fun r m' => r = (0, p) ∧ m' = m)
    (fun _ _ => False) := by
  rw [growproc, if_neg (by omega), if_neg (by omega)]
  refine .bind (.pure ?_)
  dsimp only
  rw [if_neg fun hc => hc.2 hn]
  exact .bind (.of_ok (switchuvm_on h p.sz m) (.pure ⟨rfl, rfl⟩))

lemma exact_of_zero (hn : n.toInt = 0) : Exact pd p n m (0, p) m := by
  refine ⟨.inl rfl, fun _ => by simp [hn], fun _ k hk => ?_,
    fun _ k h1 h2 => by dsimp only at h2; omega, fun _ _ _ => rfl,
    fun hr => absurd hr (show (0 : ℤ) ≠ -1 by decide)⟩
  rw [h.mapped]
  exact ⟨fun hp => ⟨hk, hp⟩, fun hp => hp.2⟩

def Grows (A : View) (pd : ℕ) (p : Proc) (n : Int32) : Prop :=
  (n.toInt < 0 → 0 < (p.sz.toNat : ℤ) + n.toInt ∨ p.sz = 0) ∧
    (0 < n.toInt → p.sz + n.toUInt32 < KERNBASE → ¬ A.LastTable pd (npages p.sz)
    (npages (p.sz + n.toUInt32)))

omit h in
theorem growproc_exact_iff (h : Runs ld m A pd p) (hdeny : ∀ j, A.deny j = false) (n : Int32) :
    (growproc ld p n).Wp m (Exact pd p n m) (fun _ _ => False) ↔ Grows A pd p n := by
  rw [Grows]
  rcases lt_trichotomy n.toInt 0 with hn | hn | hn
  · rw [(growproc_neg h hn).iff_of]
    exact ⟨fun hc => ⟨fun _ => hc, fun hp => by omega⟩, fun hc => hc.1 hn⟩
  · refine iff_of_true ((growproc_zero h hn).imp ?_) ⟨fun hp => by omega, fun hp => by omega⟩
    rintro r m' ⟨rfl, rfl⟩
    exact exact_of_zero h hn
  · by_cases hlt : p.sz + n.toUInt32 < KERNBASE
    · rw [(growproc_pos h hdeny hn hlt).iff_of]
      exact ⟨fun hc => ⟨fun hp => by omega, fun _ _ => hc⟩, fun hc => hc.2 hn hlt⟩
    · refine iff_of_true ((growproc_over h hn hlt).imp ?_) ⟨fun hp => by omega, fun _ hc => absurd hc hlt⟩
      rintro r m' ⟨rfl, rfl⟩
      exact exact_of_samePages (SamePages.refl pd m')

end

lemma runs_onePage : Runs Kernel.small (onePage 0) (onePageView 0) 2000 ⟨0x1000, kva 2000⟩ := by
  have hnp : npages 0x1000 = 1 := by decide
  refine ⟨rep_onePage _ (by decide), rfl, rfl, fun k => ?_, fun k hk => ?_⟩
  · rw [hnp]
    constructor
    · intro hk
      exact ⟨by omega, (present_onePage (by decide) (by omega)).mpr (by omega)⟩
    · rintro ⟨hk, hp⟩
      have := (present_onePage (by decide) (by omega)).mp hp
      omega
  · obtain rfl : k = 0 := by
      rw [hnp] at hk
      omega
    rw [pframe_onePage (by decide)]
    rfl

theorem growproc_exact_one_byte_less :
    (growproc Kernel.small ⟨0x1000, kva 2000⟩ (-1)).Wp (onePage 0)
    (Exact 2000 ⟨0x1000, kva 2000⟩ (-1) (onePage 0))
      (fun _ _ => False) :=
  (growproc_exact_iff runs_onePage (fun _ => rfl) (-1)).mpr
    ⟨fun _ => .inl (by decide), fun h => absurd h (by decide)⟩

theorem growproc_to_zero_fails :
    Runs Kernel.small (onePage 0) (onePageView 0) 2000 ⟨0x1000, kva 2000⟩ ∧
      ¬ (growproc Kernel.small ⟨0x1000, kva 2000⟩ (-4096)).Wp (onePage 0)
        (Exact 2000 ⟨0x1000, kva 2000⟩ (-4096) (onePage 0)) (fun _ _ => False) := by
  refine ⟨runs_onePage, fun hw => ?_⟩
  rcases (growproc_neg runs_onePage (by decide)).iff_of.mp hw with h | h
  · exact absurd h (by decide)
  · exact absurd h (by decide)

end Xv6.Vm
