import Xv6.Umalloc.FreeList

namespace Xv6.Umalloc.Heap

open Lib

variable {h h' : Heap} {base p x y n hi total fuel : ℕ} {fl l₁ l₂ lv : List ℕ}

lemma mallocLoop_scan (n : ℕ) (r : List ℕ) (prevp : ℕ)
    (hc : List.IsChain (fun x y => h.ptr x = y) (prevp :: r ++ [h.freep])) (hr : h.freep ∉ r) :
    (∃ x ∈ prevp :: r, n ≤ h.size (h.ptr x) ∧ ∀ brks fuel, r.length < fuel →
      mallocLoop n fuel h brks prevp (h.ptr prevp) =
        some ((h.take n x (h.ptr x)).1, (h.take n x (h.ptr x)).2, brks)) ∨
    (∀ y ∈ r ++ [h.freep], h.size y < n) ∧ ∀ brks fuel, mallocLoop n (fuel + r.length + 1) h brks
      prevp (h.ptr prevp) = (h.morecore fuel n brks).bind fun r =>
        if r.2.1 = 0 then some (r.1, 0, r.2.2) else mallocLoop n fuel r.1 r.2.2 r.2.1
          (r.1.ptr r.2.1) := by
  induction r generalizing prevp with
  | nil =>
    have hp : h.ptr prevp = h.freep := (List.isChain_cons_cons.mp hc).1
    by_cases hn : n ≤ h.size h.freep
    · refine .inl ⟨prevp, by simp, by rwa [hp], fun brks fuel hf => ?_⟩
      obtain ⟨fuel, rfl⟩ := Nat.exists_eq_add_one.mpr hf
      rw [mallocLoop, hp, if_pos hn]
    · refine .inr ⟨by simpa using hn, fun brks fuel => ?_⟩
      rw [List.length_nil, Nat.add_zero, mallocLoop, hp, if_neg hn, if_pos rfl]
      cases h.morecore fuel n brks <;> rfl
  | cons c r ih =>
    obtain ⟨hp, hrest⟩ := List.isChain_cons_cons.mp hc
    have hne : c ≠ h.freep := fun heq => hr (heq ▸ List.mem_cons_self)
    by_cases hn : n ≤ h.size c
    · refine .inl ⟨prevp, List.mem_cons_self, by rwa [hp], fun brks fuel hf => ?_⟩
      obtain ⟨fuel, rfl⟩ := Nat.exists_eq_add_one.mpr (Nat.zero_lt_of_lt hf)
      rw [mallocLoop, hp, if_pos hn]
    · have hstep : ∀ brks fuel, mallocLoop n (fuel + 1) h brks prevp (h.ptr prevp) =
        mallocLoop n fuel h brks c (h.ptr c) := by
        intro brks fuel
        rw [mallocLoop, hp, if_neg hn, if_neg hne]
      rcases ih c hrest fun hm => hr (List.mem_cons_of_mem _ hm) with ⟨x, hx, hfit, hloop⟩
        | ⟨hsmall, hloop⟩
      · refine .inl ⟨x, List.mem_cons_of_mem _ hx, hfit, fun brks fuel hf => ?_⟩
        obtain ⟨fuel, rfl⟩ := Nat.exists_eq_add_one.mpr (Nat.zero_lt_of_lt hf)
        rw [hstep]
        exact hloop brks fuel (by simpa using hf)
      · refine .inr ⟨List.forall_mem_cons.mpr ⟨by omega, hsmall⟩, fun brks fuel => ?_⟩
        rw [List.length_cons, ← Nat.add_assoc, hstep]
        exact hloop brks fuel

lemma FreeList.split_at (hf : FreeList h base fl) (hx : x ∈ base :: fl) (hne : h.ptr x ≠ base) :
    ∃ l₁ l₂, base :: fl = l₁ ++ x :: h.ptr x :: l₂ := by
  obtain ⟨l₁, l₂, heq⟩ := List.append_of_mem hx
  have hlink := hf.link heq
  cases l₂ with
  | nil => exact absurd hlink hne
  | cons c l₂ => exact ⟨l₁, l₂, by rw [heq, hlink]; rfl⟩

lemma FreeList.mem_of_fit (hf : FreeList h base fl) (hx : x ∈ base :: fl) (hn : 0 < h.size x) : x ∈ fl :=
  (List.mem_cons.mp hx).resolve_left fun heq => by
    rw [heq, hf.zero] at hn
    exact hn.false

lemma FreeList.remove (h' : Heap) (hf : FreeList h base fl) (heq : base :: fl = l₁ ++ x :: p :: l₂)
    (hsize : h'.size = h.size) (hptr : ∀ z, h'.ptr z = if z = x then h.ptr p else h.ptr z) :
    ∃ fl', base :: fl' = l₁ ++ x :: l₂ ∧ FreeList h' base fl' ∧ fl.Perm (p :: fl') := by
  obtain ⟨fl', hfl'⟩ : ∃ fl', base :: fl' = l₁ ++ x :: l₂ := by
    cases l₁ with
    | nil => exact ⟨l₂, by rw [(List.cons.inj heq).1]; rfl⟩
    | cons c l₁ => exact ⟨l₁ ++ x :: l₂, by rw [(List.cons.inj heq).1]; rfl⟩
  have hnd : (l₁ ++ x :: p :: l₂).Nodup := heq ▸ hf.sorted.imp ne_of_lt
  obtain ⟨-, hnd2, hdisj⟩ := List.nodup_append.mp hnd
  have hx1 : ∀ z ∈ l₁, z ≠ x := fun z hz => hdisj z hz x List.mem_cons_self
  have hx2 : ∀ z ∈ l₂, z ≠ x := fun z hz hzx =>
    (List.nodup_cons.mp hnd2).1 (hzx ▸ List.mem_cons_of_mem _ hz)
  obtain ⟨hc1, hc2⟩ := hf.chain heq
  have hc3 : List.IsChain (fun x y => h.ptr x = y) (p :: (l₂ ++ [base])) :=
    (List.isChain_cons_cons.mp hc2).2
  refine ⟨fl', hfl', ⟨?_, ?_, by rw [hsize, hf.zero]⟩, ?_⟩
  · unfold Lib.Circle
    rw [hfl', List.append_assoc]
    refine List.isChain_split.mpr ⟨chain_congr hc1 fun z hz => ?_, List.isChain_cons.mpr
      ⟨fun y hy => ?_, ?_⟩⟩
    · rw [hptr, if_neg (hx1 z hz)]
    · rw [hptr, if_pos rfl]
      exact hc3.rel_head? hy
    · exact chain_congr (List.isChain_of_isChain_cons hc3) fun z hz => by rw [hptr, if_neg (hx2 z hz)]
  · have hlen : h'.len = h.len := by
      funext z
      rw [len, len, hsize]
    rw [hfl', hlen]
    have hgaps := hf.gaps
    rw [heq] at hgaps
    exact hgaps.sublist (by simp)
  · have hperm : (base :: fl).Perm (p :: base :: fl') := by
      rw [heq, hfl', List.append_cons, List.append_cons l₁ x l₂]
      exact List.perm_middle
    exact ((hperm.trans (.swap ..)).cons_inv)

lemma FreeList.cut {q : ℕ} (h' : Heap) (hf : FreeList h base fl)
    (ht : Tiling h.len (fl ++ lv) (base + 8) hi total)
    (hp : p ∈ fl) (hn : 0 < n) (hlt : n < h.size p) (hq : q = p + 8 * (h.size p - n))
    (hptr : h'.ptr = h.ptr)
    (hsize : ∀ z, h'.size z = if z = q then n else if z = p then h.size p - n else h.size z) :
    FreeList h' base fl ∧ Tiling h'.len (q :: (fl ++ lv)) (base + 8) hi total ∧ ∀ z ∈ lv,
    h'.size z = h.size z := by
  have hlow := ht.low p (by simp [hp])
  have hnot : q ∉ fl ++ lv := ht.notMem_of_inside (x := p) (by simp [hp]) (by omega)
    (by unfold len; omega)
  have hne : ∀ z ∈ fl ++ lv, z ≠ q := fun z hz heq => hnot (heq ▸ hz)
  obtain ⟨t1, t2, hfl⟩ := List.append_of_mem hp
  have hperm : (fl ++ lv).Perm (p :: (t1 ++ t2 ++ lv)) :=
    (hfl ▸ List.perm_middle : fl.Perm (p :: (t1 ++ t2))).append_right lv
  have ht' := ht.perm hperm
  have hpn := (List.nodup_cons.mp ht'.nodup).1
  have hsame : ∀ z ∈ t1 ++ t2 ++ lv, h'.size z = h.size z := fun z hz => by
    rw [hsize, if_neg (hne z (hperm.mem_iff.mpr (List.mem_cons_of_mem _ hz))),
      if_neg (ne_of_mem_of_not_mem hz hpn)]
  have hp' : h'.size p = h.size p - n := by rw [hsize, if_neg (by omega), if_pos rfl]
  have hle : ∀ z ∈ base :: fl, h'.size z ≤ h.size z := by
    intro z hz
    rw [hsize]
    split_ifs with h1 h2
    · rcases List.mem_cons.mp hz with rfl | hz
      · omega
      · exact absurd h1 (hne z (by simp [hz]))
    · rw [h2]
      omega
    · exact le_rfl
  refine ⟨⟨hptr ▸ hf.circle, hf.gaps.imp_of_mem fun {x y} hx _ hxy => ?_, ?_⟩, ?_,
    fun z hz => hsame z (by simp [hz])⟩
  · have := hle x hx
    unfold len at *
    omega
  · have := hle base List.mem_cons_self
    rw [hf.zero] at this
    omega
  · have hq' : q = p + (h.len p - 8 * n) := by
      unfold len
      omega
    have hsplit : Tiling h'.len ((p + (h.len p - 8 * n)) :: p :: (t1 ++ t2 ++ lv))
      (base + 8) hi total := by
      refine ht'.split (by omega) (by unfold len; omega) ?_ ?_ fun z hz => by rw [len, len, hsame z hz]
      · unfold len
        omega
      · rw [← hq', len, hsize, if_pos rfl]
    rw [hq']
    exact hsplit.perm (.cons _ hperm.symm)

lemma FreeList.take (hhi : hi < 2 ^ 32) (hf : FreeList h base fl) (hx : x ∈ base :: fl) (hn : 0 < n)
    (hfit : n ≤ h.size (h.ptr x)) (ht : Tiling h.len (fl ++ lv) (base + 8) hi total) :
    ∃ q fl', (h.take n x (h.ptr x)).2 = q + 8 ∧ FreeList (h.take n x (h.ptr x)).1 base fl' ∧
    x ∈ base :: fl' ∧
      Tiling (h.take n x (h.ptr x)).1.len (q :: (fl' ++ lv)) (base + 8) hi total ∧
      (h.take n x (h.ptr x)).1.size q = n ∧ (∀ z ∈ lv, (h.take n x (h.ptr x)).1.size z = h.size z) ∧
      fl' ⊆ fl ∧ ((∀ z ∈ fl, 8 ∣ z) → 8 ∣ q) ∧ ∃ p ∈ fl, p ≤ q := by
  have hpb : h.ptr x ≠ base := fun heq => by
    rw [heq, hf.zero] at hfit
    omega
  obtain ⟨l₁, l₂, heq⟩ := hf.split_at hx hpb
  generalize hp : h.ptr x = p at *
  have hpfl : p ∈ fl := (List.mem_cons.mp (show p ∈ base :: fl by simp [heq])).resolve_left hpb
  have hend := ht.high p (by simp [hpfl])
  unfold len at hend
  unfold Heap.take
  split_ifs with hsz
  · obtain ⟨fl', hfl', hf', hperm⟩ :=
      hf.remove { h with ptr := assign h.ptr x (h.ptr p), freep := x } heq rfl fun _ => rfl
    refine ⟨p, fl', ?_, hf', by simp [hfl'], ht.perm (hperm.append_right lv), hsz, fun _ _ => rfl,
      fun z hz => ?_, fun hal => hal p hpfl, p, hpfl, le_rfl⟩
    · simp only [adv]
      omega
    · exact hperm.mem_iff.mpr (List.mem_cons_of_mem _ hz)
  · have hlt : n < h.size p := lt_of_le_of_ne hfit (Ne.symm hsz)
    have hrest : (h.size p + (2 ^ 32 - n)) % 2 ^ 32 = h.size p - n := by omega
    have hq : adv p (h.size p - n) = p + 8 * (h.size p - n) := by
      unfold adv
      omega
    simp only [assign_self, hrest, hq]
    obtain ⟨hf', ht', hsame⟩ := hf.cut { h with
      size := assign (assign h.size p (h.size p - n)) (p + 8 * (h.size p - n)) n, freep :=
        x } ht hpfl hn hlt rfl rfl
      fun _ => rfl
    refine ⟨_, fl, ?_, hf', hx, ht', assign_self .., hsame, fun _ hz => hz, fun hal => ?_, p,
      hpfl, by omega⟩
    · unfold adv
      omega
    · have := hal p hpfl
      omega

end Xv6.Umalloc.Heap
