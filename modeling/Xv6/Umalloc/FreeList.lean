import Xv6.Umalloc.Heap

namespace Xv6.Umalloc.Heap

open Lib

variable {h h' : Heap} {base bp p x y hi total fuel : ℕ} {fl l₁ l₂ lv : List ℕ}

def len (h : Heap) (x : ℕ) : ℕ := 8 * h.size x

structure FreeList (h : Heap) (base : ℕ) (fl : List ℕ) : Prop where
  circle : Circle h.ptr base fl
  gaps : (base :: fl).Pairwise fun x y => x + h.len x < y
  zero : h.size base = 0

structure Gap (h : Heap) (base bp p q : ℕ) (l₁ l₂ lv : List ℕ) (hi total : ℕ) : Prop where
  head : (l₁ ++ [p]).head? = some base
  zero : h.size base = 0
  left : List.IsChain (fun x y => h.ptr x = y) (l₁ ++ [p])
  right : List.IsChain (fun x y => h.ptr x = y) (l₂ ++ [base])
  link : h.ptr q = (l₂ ++ [base]).head (by simp)
  below : (l₁ ++ [p]).Pairwise fun x y => x + h.len x < y
  above : l₂.Pairwise fun x y => x + h.len x < y
  le : p + h.len p ≤ bp
  ge : ∀ y ∈ l₂, bp + h.len bp ≤ y
  tiles : Tiling h.len (bp :: ((l₁ ++ [p]).tail ++ l₂ ++ lv)) (base + 8) hi total

lemma adv_eq_iff {n : ℕ} (hle : x + 8 * n ≤ 2 ^ 32) (hpos : 0 < y) (hlt : y < 2 ^ 32) :
    adv x n = y ↔ x + 8 * n = y := by
  unfold adv
  omega

namespace Gap

variable {q : ℕ}

lemma ne_of_mem (hg : Gap h base bp p q l₁ l₂ lv hi total) : ∀ x ∈ l₁ ++ [p] ++ l₂, x ≠ bp := by
  have hpos := hg.tiles.pos bp List.mem_cons_self
  have hle := hg.le
  have hbelow := (List.pairwise_append.mp hg.below).2.2
  rintro x hx rfl
  rcases List.mem_append.mp hx with hx | hx
  · rcases List.mem_append.mp hx with hx | hx
    · have := hbelow x hx p (by simp)
      omega
    · obtain rfl := List.mem_singleton.mp hx
      omega
  · have := hg.ge x hx
    omega

lemma base_lt (hg : Gap h base bp p q l₁ l₂ lv hi total) : base + 8 ≤ bp :=
  hg.tiles.low bp List.mem_cons_self

lemma relink (hg : Gap h base bp p p l₁ l₂ lv hi total) :
    Gap { h with ptr := assign h.ptr bp (h.ptr p) } base bp p bp l₁ l₂ lv hi total where
  __ := hg
  left := chain_congr hg.left fun x hx => assign_of_ne (hg.ne_of_mem x (by simp [hx])) ..
  right := chain_congr hg.right fun x hx => assign_of_ne (hg.ne_of_mem x (by simp [hx])) ..
  link := by
    rw [← hg.link]
    exact assign_self ..

lemma swallow {c : ℕ} (h' : Heap) (hhi : hi ≤ 2 ^ 32)
    (hg : Gap h base bp p p l₁ (c :: l₂) lv hi total) (hc : bp + h.len bp = c)
    (hsize : ∀ x, h'.size x = if x = bp then (h.size bp + h.size c) % 2 ^ 32 else h.size x)
    (hptr : ∀ x, h'.ptr x = if x = bp then h.ptr c else h.ptr x) :
    Gap h' base bp p bp l₁ l₂ lv hi total ∧ h'.len bp = h.len bp + h.len c := by
  have hcmem : c ∈ bp :: ((l₁ ++ [p]).tail ++ c :: l₂ ++ lv) := by simp
  have hend := hg.tiles.high c hcmem
  have hlow := hg.base_lt
  have hsum : h'.len bp = h.len bp + h.len c := by
    unfold len at *
    rw [hsize, if_pos rfl]
    omega
  have hlen : ∀ x, x ≠ bp → h'.len x = h.len x := fun x hx => by rw [len, hsize, if_neg hx, len]
  have hne := hg.ne_of_mem
  have hne' : ∀ x ∈ l₁ ++ [p] ++ l₂, x ≠ bp := fun x hx => hne x (by simp at hx ⊢; tauto)
  obtain ⟨hcl, habove⟩ := List.pairwise_cons.mp hg.above
  refine ⟨{
    head := hg.head
    zero := by rw [hsize, if_neg (by omega), hg.zero]
    left := chain_congr hg.left fun x hx => by rw [hptr, if_neg (hne x (by simp [hx]))]
    right := chain_congr (List.isChain_of_isChain_cons hg.right) fun x hx => by
      rw [hptr, if_neg (hne' x (by simp [hx]))]
    link := by
      rw [hptr, if_pos rfl]
      exact hg.right.rel_head? (List.head?_eq_some_head (by simp))
    below := hg.below.imp_of_mem fun {x y} hx _ hxy => by rwa [hlen x (hne x (by simp at hx ⊢; tauto))]
    above := habove.imp_of_mem fun {x y} hx _ hxy => by rwa [hlen x (hne' x (by simp [hx]))]
    le := by
      rw [hlen p (hne p (by simp))]
      exact hg.le
    ge := fun y hy => by
      have := hcl y hy
      omega
    tiles := by
      have hperm : (bp :: ((l₁ ++ [p]).tail ++ c :: l₂ ++ lv)).Perm
        (bp :: c :: ((l₁ ++ [p]).tail ++ l₂ ++ lv)) := by
        refine .cons _ ?_
        simp only [List.append_assoc, List.cons_append]
        exact List.perm_middle
      have ht := hg.tiles.perm hperm
      have hnd := (List.nodup_cons.mp ht.nodup).1
      exact ht.merge hc hsum fun z hz => hlen z fun heq => hnd (heq ▸ List.mem_cons_of_mem _ hz) }, hsum⟩

end Gap

lemma Gap.joinNext (h0 : 0 < base) (hhi : hi ≤ 2 ^ 32) (hg : Gap h base bp p p l₁ l₂ lv hi total) :
    ∃ l2', Gap (h.joinNext bp p) base bp p bp l₁ l2' lv hi total ∧
    (∀ y ∈ l2', bp + (h.joinNext bp p).len bp < y) ∧
      h.size bp ≤ (h.joinNext bp p).size bp ∧ (∀ x, x ≠ bp → (h.joinNext bp p).size x = h.size x) ∧
      l2' ⊆ l₂ := by
  have hpos := hg.tiles.pos bp List.mem_cons_self
  have hend := hg.tiles.high bp List.mem_cons_self
  have hlow := hg.base_lt
  have hlink := hg.link
  unfold Heap.joinNext
  cases l₂ with
  | nil =>
    have hne : adv bp (h.size bp) ≠ h.ptr p := by
      rw [hlink]
      unfold len at hpos hend
      refine (adv_eq_iff (by omega) h0 (by omega)).not.mpr ?_
      omega
    rw [if_neg hne]
    exact ⟨[], hg.relink, nofun, le_rfl, fun _ _ => rfl, fun _ h => h⟩
  | cons c l₂ =>
    have hcmem : c ∈ bp :: ((l₁ ++ [p]).tail ++ c :: l₂ ++ lv) := by simp
    have hcpos := hg.tiles.pos c hcmem
    have hcend := hg.tiles.high c hcmem
    have hcge := hg.ge c List.mem_cons_self
    obtain ⟨hcl, -⟩ := List.pairwise_cons.mp hg.above
    have hptr : h.ptr p = c := hlink
    have hiff : adv bp (h.size bp) = c ↔ bp + h.len bp = c := by
      unfold len at *
      exact adv_eq_iff (by omega) (by omega) (by omega)
    rw [hptr]
    split_ifs with hadv
    · obtain ⟨hg', hsum⟩ := hg.swallow
        { h with
          size := assign h.size bp ((h.size bp + h.size c) % 2 ^ 32), ptr := assign h.ptr bp (h.ptr c) }
        hhi (hiff.mp hadv) (fun _ => rfl) fun _ => rfl
      refine ⟨l₂, hg', fun y hy => ?_, ?_, fun x hx => assign_of_ne hx .., List.subset_cons_self c l₂⟩
      · have := hcl y hy
        have := hiff.mp hadv
        omega
      · unfold len at hsum
        omega
    · have hc : bp + h.len bp ≠ c := fun heq => hadv (hiff.mpr heq)
      have hlt : bp + h.len bp < c := lt_of_le_of_ne hcge hc
      have hr := hg.relink
      rw [hptr] at hr
      refine ⟨c :: l₂, hr, fun y hy => ?_, le_rfl, fun _ _ => rfl, fun _ h => h⟩
      rcases List.mem_cons.mp hy with rfl | hy
      · exact hlt
      · exact hlt.trans (lt_of_le_of_lt (Nat.le_add_right _ _) (hcl y hy))

namespace Gap

section

variable (hg : Gap h base bp p x l₁ l₂ lv hi total)
include hg

lemma nodes (l : List ℕ) : base :: ((l₁ ++ [p]).tail ++ l) = l₁ ++ p :: l := by
  rw [← List.cons_append, List.cons_head?_tail hg.head, List.append_assoc, List.singleton_append]

lemma prev_notMem : p ∉ l₁ ∧ p ∉ l₂ ∧ p ≠ bp := by
  have hp : p ≠ bp := hg.ne_of_mem p (by simp)
  have hle := hg.le
  refine ⟨fun hm => ?_, fun hm => ?_, hp⟩
  · have := (List.pairwise_append.mp hg.below).2.2 p hm p (by simp)
    omega
  · have := hg.ge p hm
    omega

lemma prev_mem_tail (hp : p ≠ base) : p ∈ (l₁ ++ [p]).tail := by
  have hmem : p ∈ base :: (l₁ ++ [p]).tail := by
    rw [List.cons_head?_tail hg.head]
    simp
  exact (List.mem_cons.mp hmem).resolve_left hp

lemma circle {l : List ℕ} (hptr : ∀ x ∈ l₁, h'.ptr x = h.ptr x)
    (hl : List.IsChain (fun x y => h'.ptr x = y) (p :: l ++ [base])) :
    Circle h'.ptr base ((l₁ ++ [p]).tail ++ l) := by
  unfold Lib.Circle
  rw [hg.nodes, List.append_assoc, List.cons_append]
  exact List.isChain_split.mpr ⟨chain_congr hg.left hptr, hl⟩

lemma gaps {l : List ℕ} (hlen : ∀ x ∈ l₁, h'.len x = h.len x)
    (hl : (p :: l).Pairwise fun x y => x + h'.len x < y) :
    (base :: ((l₁ ++ [p]).tail ++ l)).Pairwise fun x y => x + h'.len x < y := by
  obtain ⟨h1, -, hp⟩ := List.pairwise_append.mp hg.below
  rw [hg.nodes]
  refine List.pairwise_append.mpr
    ⟨h1.imp_of_mem fun {x y} hx _ hxy => by rwa [hlen x hx], hl, fun x hx y hy => ?_⟩
  have hxp := hp x hx p (by simp)
  rw [hlen x hx]
  rcases List.mem_cons.mp hy with rfl | hy
  · exact hxp
  · have := (List.pairwise_cons.mp hl).1 y hy
    omega

end

lemma tail_chain (hg : Gap h base bp p bp l₁ l₂ lv hi total) (hptr : ∀ x, x ≠ p → h'.ptr x = h.ptr x)
    (hx : h'.ptr x = h.ptr bp) : List.IsChain (fun x y => h'.ptr x = y) (x :: (l₂ ++ [base])) := by
  refine List.isChain_cons.mpr ⟨fun y hy => ?_, ?_⟩
  · rw [List.head?_eq_some_head (by simp)] at hy
    rw [hx, hg.link]
    exact Option.mem_some_iff.mp hy
  · exact chain_congr hg.right fun x hx => hptr x (ne_of_mem_of_not_mem hx hg.prev_notMem.2.1)

lemma link_prev (h' : Heap) (hg : Gap h base bp p bp l₁ l₂ lv hi total) (hlt : p + h.len p < bp)
    (hgt : ∀ y ∈ l₂, bp + h.len bp < y) (hsize : h'.size = h.size)
    (hptr : ∀ x, h'.ptr x = if x = p then bp else h.ptr x) :
    FreeList h' base ((l₁ ++ [p]).tail ++ bp :: l₂) := by
  obtain ⟨hp1, -, hpb⟩ := hg.prev_notMem
  have hlen : h'.len = h.len := by
    funext x
    rw [len, len, hsize]
  refine ⟨hg.circle (fun x hx => ?_) ?_, hg.gaps (fun x _ => by rw [hlen]) ?_, by rw [hsize, hg.zero]⟩
  · rw [hptr, if_neg (ne_of_mem_of_not_mem hx hp1)]
  · refine List.isChain_cons_cons.mpr ⟨by rw [hptr, if_pos rfl], hg.tail_chain (fun x hx => ?_) ?_⟩
    · rw [hptr, if_neg hx]
    · rw [hptr, if_neg hpb.symm]
  · rw [hlen]
    refine List.pairwise_cons.mpr ⟨?_, List.pairwise_cons.mpr ⟨hgt, hg.above⟩⟩
    refine List.forall_mem_cons.mpr ⟨hlt, fun y hy => ?_⟩
    have := hgt y hy
    omega

lemma swallow_prev (h' : Heap) (hhi : hi ≤ 2 ^ 32) (hg : Gap h base bp p bp l₁ l₂ lv hi total)
    (heq : p + h.len p = bp) (hp : p ≠ base) (hgt : ∀ y ∈ l₂, bp + h.len bp < y)
    (hsize : ∀ x, h'.size x = if x = p then (h.size p + h.size bp) % 2 ^ 32 else h.size x)
    (hptr : ∀ x, h'.ptr x = if x = p then h.ptr bp else h.ptr x) :
    FreeList h' base ((l₁ ++ [p]).tail ++ l₂) ∧
      Tiling h'.len ((l₁ ++ [p]).tail ++ l₂ ++ lv) (base + 8) hi total ∧
      h'.len p = h.len p + h.len bp := by
  obtain ⟨hp1, hp2, hpb⟩ := hg.prev_notMem
  have hend := hg.tiles.high bp List.mem_cons_self
  have hsum : h'.len p = h.len p + h.len bp := by
    unfold len at *
    rw [hsize, if_pos rfl]
    omega
  have hlen : ∀ x, x ≠ p → h'.len x = h.len x := fun x hx => by rw [len, hsize, if_neg hx, len]
  refine ⟨⟨hg.circle (fun x hx => ?_) (hg.tail_chain (fun x hx => ?_) ?_),
    hg.gaps (fun x hx => ?_) ?_, ?_⟩, ?_, hsum⟩
  · rw [hptr, if_neg (ne_of_mem_of_not_mem hx hp1)]
  · rw [hptr, if_neg hx]
  · rw [hptr, if_pos rfl]
  · exact hlen x (ne_of_mem_of_not_mem hx hp1)
  · refine List.pairwise_cons.mpr ⟨fun y hy => ?_, hg.above.imp_of_mem fun {x y} hx _ hxy => ?_⟩
    · have := hgt y hy
      omega
    · rwa [hlen x (ne_of_mem_of_not_mem hx hp2)]
  · rw [hsize, if_neg hp.symm, hg.zero]
  · obtain ⟨t1, t2, ht⟩ := List.append_of_mem (hg.prev_mem_tail hp)
    have hperm : (bp :: ((l₁ ++ [p]).tail ++ l₂ ++ lv)).Perm (p :: bp :: (t1 ++ (t2 ++ l₂ ++ lv))) := by
      rw [ht]
      simp only [List.append_assoc, List.cons_append]
      exact (List.Perm.cons _ List.perm_middle).trans (.swap ..)
    have hmerge := (hg.tiles.perm hperm).merge heq hsum fun z hz => hlen z fun hzp =>
      (List.nodup_cons.mp (hg.tiles.perm hperm).nodup).1 (hzp ▸ List.mem_cons_of_mem _ hz)
    refine hmerge.perm ?_
    rw [ht]
    simp only [List.append_assoc, List.cons_append]
    exact List.perm_middle.symm

end Gap

lemma Gap.joinPrev (h0 : 0 < base) (hhi : hi ≤ 2 ^ 32) (hg : Gap h base bp p bp l₁ l₂ lv hi total)
    (hgt : ∀ y ∈ l₂, bp + h.len bp < y) : ∃ fl, FreeList (h.joinPrev bp p) base fl ∧ p ∈ base :: fl ∧
      Tiling (h.joinPrev bp p).len (fl ++ lv) (base + 8) hi total ∧
      (∃ q ∈ fl, h.size bp ≤ (h.joinPrev bp p).size q) ∧
      (∀ x, x ≠ p → (h.joinPrev bp p).size x = h.size x) ∧ fl ⊆ bp :: ((l₁ ++ [p]).tail ++ l₂) := by
  have hend := hg.tiles.high bp List.mem_cons_self
  have hpos := hg.tiles.pos bp List.mem_cons_self
  have hle := hg.le
  have hlow := hg.base_lt
  have hiff : adv p (h.size p) = bp ↔ p + h.len p = bp := by
    unfold len at *
    exact adv_eq_iff (by omega) (by omega) (by omega)
  unfold Heap.joinPrev
  split_ifs with hadv
  · have heq := hiff.mp hadv
    have hp : p ≠ base := by
      rintro rfl
      rw [len, hg.zero] at heq
      omega
    obtain ⟨hfl, ht, hsum⟩ := hg.swallow_prev
      { h with
        size := assign h.size p ((h.size p + h.size bp) % 2 ^ 32), ptr := assign h.ptr p (h.ptr bp) }
      hhi heq hp hgt (fun _ => rfl) fun _ => rfl
    refine ⟨_, hfl, ?_, ht, ⟨p, by simp [hg.prev_mem_tail hp], ?_⟩, fun x hx => assign_of_ne hx .., ?_⟩
    · simp [hg.prev_mem_tail hp]
    · unfold len at hsum
      omega
    · exact List.subset_cons_self ..
  · have hlt : p + h.len p < bp := lt_of_le_of_ne hle fun heq => hadv (hiff.mpr heq)
    refine ⟨_, hg.link_prev { h with ptr := assign h.ptr p bp } hlt hgt rfl fun _ => rfl, ?_, ?_,
      ⟨bp, by simp, le_rfl⟩, fun _ _ => rfl, ?_⟩
    · rw [hg.nodes]
      simp
    · refine hg.tiles.perm ?_
      simp only [List.append_assoc, List.cons_append]
      exact List.perm_middle.symm
    · intro x hx
      simp at hx ⊢
      tauto

namespace FreeList

section

variable (hf : FreeList h base fl)
include hf

lemma sorted : (base :: fl).Pairwise (· < ·) :=
  hf.gaps.imp fun h => lt_of_le_of_lt (Nat.le_add_right _ _) h

lemma chain (heq : base :: fl = l₁ ++ p :: l₂) :
    List.IsChain (fun x y => h.ptr x = y) (l₁ ++ [p]) ∧ List.IsChain (fun x y => h.ptr x = y)
    (p :: (l₂ ++ [base])) := by
  have hc : List.IsChain (fun x y => h.ptr x = y) (base :: fl ++ [base]) := hf.circle
  rw [heq, List.append_assoc] at hc
  exact List.isChain_split.mp hc

lemma link (heq : base :: fl = l₁ ++ p :: l₂) : h.ptr p = (l₂ ++ [base]).head (by simp) :=
  (hf.chain heq).2.rel_head? (List.head?_eq_some_head (by simp))

lemma base_le (hp : p ∈ base :: fl) : base ≤ p := by
  rcases List.mem_cons.mp hp with rfl | hp
  · exact le_rfl
  · exact ((List.pairwise_cons.mp hf.sorted).1 p hp).le

lemma freeStop_iff (hb : base < bp) (heq : base :: fl = l₁ ++ p :: l₂) :
    h.freeStop bp p = true ↔ p < bp ∧ ∀ y ∈ l₂, bp < y := by
  have hlink := hf.link heq
  have hbase := hf.base_le (p := p) (by simp [heq])
  have hsort := hf.sorted
  rw [heq] at hsort
  obtain ⟨hp, hl⟩ := List.pairwise_cons.mp (List.pairwise_append.mp hsort).2.1
  cases l₂ with
  | nil =>
    have hptr : h.ptr p = base := hlink
    simp only [freeStop, hptr, Bool.or_eq_true, Bool.and_eq_true, decide_eq_true_eq]
    simp
    omega
  | cons c l₂ =>
    have hptr : h.ptr p = c := hlink
    have hpc := hp c List.mem_cons_self
    have hcl := (List.pairwise_cons.mp hl).1
    simp only [freeStop, hptr, Bool.or_eq_true, Bool.and_eq_true, decide_eq_true_eq]
    constructor
    · intro hs
      have hlt : p < bp ∧ bp < c := by omega
      exact ⟨hlt.1, List.forall_mem_cons.mpr ⟨hlt.2, fun y hy => hlt.2.trans (hcl y hy)⟩⟩
    · rintro ⟨h1, h2⟩
      exact .inl ⟨h1, h2 c List.mem_cons_self⟩

end

end FreeList

lemma exists_split {b c : ℕ} {l : List ℕ} (hl : (c :: l).Pairwise (· < ·)) (hc : c < b) (hb : b ∉ l) :
    ∃ l₁ p l₂, c :: l = l₁ ++ p :: l₂ ∧ p < b ∧ ∀ y ∈ l₂, b < y := by
  induction l generalizing c with
  | nil => exact ⟨[], c, [], rfl, hc, nofun⟩
  | cons d l ih =>
    obtain ⟨-, hdl⟩ := List.pairwise_cons.mp hl
    have hbd : b ≠ d := fun heq => hb (heq ▸ List.mem_cons_self)
    rcases lt_or_gt_of_ne hbd with hlt | hgt
    · refine ⟨[], c, d :: l, rfl, hc, List.forall_mem_cons.mpr ⟨hlt, fun y hy => ?_⟩⟩
      exact hlt.trans ((List.pairwise_cons.mp hdl).1 y hy)
    · obtain ⟨l₁, p, l₂, heq, hp, hy⟩ := ih hdl hgt fun hm => hb (List.mem_cons_of_mem _ hm)
      exact ⟨c :: l₁, p, l₂, by rw [heq]; rfl, hp, hy⟩

lemma FreeList.gap (hf : FreeList h base fl) (ht : Tiling h.len (bp :: (fl ++ lv)) (base + 8) hi total)
    (heq : base :: fl = l₁ ++ p :: l₂) (hp : p < bp) (hl : ∀ y ∈ l₂, bp < y) :
    Gap h base bp p p l₁ l₂ lv hi total := by
  have hgaps := hf.gaps
  rw [heq, List.append_cons] at hgaps
  obtain ⟨hbelow, habove, -⟩ := List.pairwise_append.mp hgaps
  have hfl : fl = (l₁ ++ [p]).tail ++ l₂ := by
    have htail := congrArg List.tail heq
    rw [List.append_cons, List.tail_append_of_ne_nil (by simp)] at htail
    exact htail
  have hlow := ht.low bp List.mem_cons_self
  have hpos := ht.pos bp List.mem_cons_self
  refine ⟨?_, hf.zero, (hf.chain heq).1, List.isChain_of_isChain_cons (hf.chain heq).2, hf.link heq,
    hbelow, habove, ?_, fun y hy => ?_, hfl ▸ ht⟩
  · have hhead := congrArg List.head? heq
    rw [List.append_cons, List.head?_append_of_ne_nil _ (by simp)] at hhead
    exact hhead.symm
  · have hmem : p ∈ base :: fl := by simp [heq]
    rcases List.mem_cons.mp hmem with rfl | hmem
    · rw [len, hf.zero]
      omega
    · rcases ht.apart_of_mem (List.mem_cons_of_mem _
        (List.mem_append_left _ hmem)) List.mem_cons_self hp.ne with h | h
      · exact h
      · omega
  · have hmem : y ∈ fl := by simp [hfl, hy]
    have hbpy := hl y hy
    have hypos := ht.pos y (List.mem_cons_of_mem _ (List.mem_append_left _ hmem))
    rcases ht.apart_of_mem List.mem_cons_self
      (List.mem_cons_of_mem _ (List.mem_append_left _ hmem)) hbpy.ne with h | h
    · exact h
    · omega

lemma FreeList.free (h0 : 0 < base) (hhi : hi ≤ 2 ^ 32) (hf : FreeList h base fl)
    (hp : h.freep ∈ base :: fl) (ht : Tiling h.len (bp :: (fl ++ lv)) (base + 8) hi total) :
    ∃ h' fl', (∀ fuel, fl.length < fuel → h.free fuel (bp + 8) = some h') ∧ FreeList h' base fl' ∧
      h'.freep ∈ base :: fl' ∧ Tiling h'.len (fl' ++ lv) (base + 8) hi total ∧ h'.regions = h.regions ∧
      (∃ q ∈ fl', h.size bp ≤ h'.size q) ∧ (∀ x ∈ lv, h'.size x = h.size x) ∧ fl' ⊆ bp :: fl := by
  have hb := ht.low bp List.mem_cons_self
  have hpos := ht.pos bp List.mem_cons_self
  have hend := ht.high bp List.mem_cons_self
  have hnd := (List.nodup_cons.mp ht.nodup).1
  obtain ⟨l₁, q, l₂, heq, hq, hl⟩ := exists_split (b := bp) hf.sorted (by omega) fun hm => hnd
    (by simp [hm])
  obtain ⟨p, hmem, hstop, hwalk⟩ := hf.circle.walk (h.freeStop bp) hp (y := q) (by simp [heq])
    ((hf.freeStop_iff (by omega) heq).mpr ⟨hq, hl⟩)
  -- the node at which the loop ends and the ones on its sides
  obtain ⟨l₁, l₂, heq⟩ := List.append_of_mem hmem
  obtain ⟨hpb, hl⟩ := (hf.freeStop_iff (by omega) heq).mp hstop
  obtain ⟨l2', hg, hgt, hsz, hsame, hsub⟩ := (hf.gap ht heq hpb hl).joinNext h0 hhi
  obtain ⟨fl', hf', hpm, ht', ⟨r, hr, hrs⟩, hsame', hsub'⟩ := hg.joinPrev h0 hhi hgt
  have hfl : fl = (l₁ ++ [p]).tail ++ l₂ := by
    have htail := congrArg List.tail heq
    rw [List.append_cons, List.tail_append_of_ne_nil (by simp)] at htail
    exact htail
  refine ⟨{ (h.joinNext bp p).joinPrev bp p with freep := p }, fl', fun fuel hfuel => ?_,
    ⟨hf'.circle, hf'.gaps, hf'.zero⟩, hpm, ht', ?_, ⟨r, hr, hsz.trans hrs⟩, fun x hx => ?_, ?_⟩
  · have hap : (bp + 8 + (2 ^ 32 - 8)) % 2 ^ 32 = bp := by omega
    rw [Heap.free, hap, hwalk fuel hfuel]
    rfl
  · simp only [Heap.joinPrev, Heap.joinNext]
    split_ifs <;> rfl
  · have hxp : x ≠ p := by
      rintro rfl
      rcases List.mem_cons.mp hmem with rfl | hm
      · have := ht.low x (by simp [hx])
        omega
      · exact (List.nodup_append.mp (List.nodup_cons.mp ht.nodup).2).2.2 x hm x hx rfl
    have hxb : x ≠ bp := fun heq => hnd (by simp [← heq, hx])
    exact (hsame' x hxp).trans (hsame x hxb)
  · rw [hfl]
    refine fun x hx => ?_
    rcases List.mem_cons.mp (hsub' hx) with rfl | hx
    · exact List.mem_cons_self
    · rcases List.mem_append.mp hx with hx | hx
      · simp [hx]
      · simp [hsub hx]

end Xv6.Umalloc.Heap
