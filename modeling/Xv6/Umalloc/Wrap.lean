import Xv6.Umalloc.Safety

namespace Xv6.Umalloc

open Lib

namespace Heap

variable {h : Heap} {base hp p n : ℕ} {fl lv : List ℕ}

lemma Ok.below (hok : Ok h base fl lv) (htop : h.top base ≤ hp) (hhp : hp < 2 ^ 31) (hb : base < hp) :
    ∀ x ∈ base :: fl, x < hp ∧ h.size x < 2 ^ 28 := by
  refine List.forall_mem_cons.mpr ⟨⟨hb, by rw [hok.list.zero]; omega⟩, fun x hx => ?_⟩
  have hhigh := hok.tiles.high x (List.mem_append_left _ hx)
  have hpos := hok.tiles.pos x (List.mem_append_left _ hx)
  unfold len at hhigh hpos
  omega

lemma Ok.free_above {h1 : Heap} (hok : Ok h base fl lv) (hbelow : ∀ x ∈ base :: fl, x < hp)
    (hptr : h1.ptr = h.ptr)
    (hfreep : h1.freep = h.freep) (hsize : ∀ x ∈ base :: fl, h1.size x = h.size x) :
    ∃ l p, base :: fl = l ++ [p] ∧ h.ptr p = base ∧ ∀ fuel, fl.length < fuel → hp + 8 < 2 ^ 32 →
      h1.free fuel (hp + 8) = some { (h1.joinNext hp p).joinPrev hp p with freep := p } := by
  have hlen : ∀ x ∈ base :: fl, h1.len x = h.len x := fun x hx => by rw [len, len, hsize x hx]
  have hf : FreeList h1 base fl := by
    refine ⟨hptr ▸ hok.list.circle, hok.list.gaps.imp_of_mem fun {x y} hx _ hxy => ?_, ?_⟩
    · rwa [hlen x hx]
    · rw [hsize base List.mem_cons_self, hok.list.zero]
  have hb := hbelow base List.mem_cons_self
  have hlast : ∀ {l1 l2 p}, base :: fl = l1 ++ p :: l2 → h1.freeStop hp p = true → l2 = [] := by
    intro l1 l2 p heq hstop
    refine List.eq_nil_iff_forall_not_mem.mpr fun y hy => ?_
    have hgt := ((hf.freeStop_iff hb heq).mp hstop).2 y hy
    have hlt := hbelow y (by rw [heq]; simp [hy])
    omega
  obtain ⟨l, q, heq⟩ := List.eq_nil_or_concat (base :: fl) |>.resolve_left (List.cons_ne_nil _ _)
  rw [List.concat_eq_append] at heq
  have hq : q < hp := hbelow q (by rw [heq]; simp)
  obtain ⟨p, hmem, hstop, hwalk⟩ := hf.circle.walk (h1.freeStop hp) (hfreep ▸ hok.freep) (y := q)
    (by rw [heq]; simp) ((hf.freeStop_iff hb heq).mpr ⟨hq, by simp⟩)
  obtain ⟨l1, l2, heq'⟩ := List.append_of_mem hmem
  obtain rfl := hlast heq' hstop
  refine ⟨l1, p, heq', ?_, fun fuel hfuel hlt => ?_⟩
  · have hlink := hok.list.link heq'
    simpa using hlink
  · have hap : (hp + 8 + (2 ^ 32 - 8)) % 2 ^ 32 = hp := by omega
    rw [Heap.free, hap, hwalk fuel hfuel]
    rfl

lemma joinNext_wrap {h : Heap} (hhp : hp < 2 ^ 32) (hsize : h.size hp = 2 ^ 29) (hne : h.ptr p ≠ hp) :
    h.joinNext hp p = { h with ptr := assign h.ptr hp (h.ptr p) } := by
  have hadv : adv hp (h.size hp) = hp := by
    rw [hsize, adv]
    omega
  rw [joinNext, hadv, if_neg hne.symm]

lemma search_one {k r : ℕ} (hc : Circle h.ptr base fl) (hnd : (base :: fl).Nodup)
    (hp : h.freep ∈ base :: fl)
    (hk : k ∈ base :: fl) (hfit : n ≤ h.size k) (hone : ∀ y ∈ base :: fl, n ≤ h.size y → y = k)
    (hr : ∀ x, (h.take n x k).2 = r) : ∃ h', ∀ brks fuel, fl.length < fuel →
      mallocLoop n fuel h brks h.freep (h.ptr h.freep) = some (h', r, brks) := by
  rcases search n hc hnd hp with ⟨x, hx, hle, hloop⟩ | ⟨hsmall, -⟩
  · have hy := hone _ (hc.next_mem hx) hle
    refine ⟨(h.take n x k).1, fun brks fuel hf => ?_⟩
    rw [hloop brks fuel hf, hy, hr]
  · exact absurd (hsmall k hk) (by omega)

section

variable (hok : Ok h base fl lv) (hbelow : ∀ x ∈ base :: fl, x < hp ∧ h.size x < 2 ^ 28)
  (hhp : hp < 2 ^ 31)
include hok hbelow hhp

lemma search_joined (hp' : p ∈ base :: fl) (hlink : h.ptr p = base) (hend : adv p (h.size p) = hp)
    {h2 : Heap} (hptr : ∀ x, h2.ptr x = if x = p then base else if x = hp then base else h.ptr x)
    (hsize : ∀ x, h2.size x = if x = p then h.size p + 2 ^ 29 else if x = hp then 2 ^ 29 else h.size x)
    (hfreep : h2.freep = p) : ∃ h', ∀ brks fuel, fl.length < fuel →
      mallocLoop (2 ^ 29) fuel h2 brks h2.freep (h2.ptr h2.freep) = some (h', hp + 8, brks) := by
  have hlt := hbelow p hp'
  have hpos : 0 < h.size p := by
    rcases Nat.eq_zero_or_pos (h.size p) with hz | hpos
    · rw [hz, adv] at hend
      omega
    · exact hpos
  have hne : ∀ x ∈ base :: fl, x ≠ hp := fun x hx => (hbelow x hx).1.ne
  have hsp : h2.size p = h.size p + 2 ^ 29 := by rw [hsize, if_pos rfl]
  refine search_one (hok.list.circle.congr fun x hx => ?_) hok.nodup (hfreep ▸ hp') hp' (by omega)
    (fun y hy hle => ?_) fun x => ?_
  · rw [hptr, if_neg (hne x hx)]
    split_ifs with hxp
    · rw [hxp, hlink]
    · rfl
  · by_contra hyp
    rw [hsize, if_neg hyp, if_neg (hne y hy)] at hle
    have := (hbelow y hy).2
    omega
  · have hrest : (h2.size p + (2 ^ 32 - 2 ^ 29)) % 2 ^ 32 = h.size p := by omega
    rw [take, if_neg (by omega)]
    simp only [assign_self, hrest, hend]
    unfold adv
    omega

lemma search_added {l : List ℕ} (heq : base :: fl = l ++ [p]) {h2 : Heap}
    (hptr : ∀ x, h2.ptr x = if x = p then hp else if x = hp then base else h.ptr x)
    (hsize : ∀ x, h2.size x = if x = hp then 2 ^ 29 else h.size x)
    (hfreep : h2.freep = p) : ∃ h', ∀ brks fuel, fl.length + 1 < fuel →
      mallocLoop (2 ^ 29) fuel h2 brks h2.freep (h2.ptr h2.freep) = some (h', hp + 8, brks) := by
  have hp' : p ∈ base :: fl := by rw [heq]; simp
  have hne : ∀ x ∈ base :: fl, x ≠ hp := fun x hx => (hbelow x hx).1.ne
  have hsp : h2.size hp = 2 ^ 29 := by rw [hsize, if_pos rfl]
  have hnd : (base :: (fl ++ [hp])).Nodup := by
    rw [← List.cons_append]
    exact List.nodup_append.mpr ⟨hok.nodup, List.nodup_singleton _, fun x hx y hy hxy =>
      hne x hx (hxy.trans (List.mem_singleton.mp hy))⟩
  have hnp : ∀ x ∈ l, x ≠ p := fun x hx hxp => by
    have hnd := hok.nodup
    rw [heq] at hnd
    exact (List.nodup_append.mp hnd).2.2 x hx p (List.mem_singleton_self p) hxp
  have hcircle : Circle h2.ptr base (fl ++ [hp]) := by
    unfold Lib.Circle
    rw [← List.cons_append, heq, List.append_assoc, List.append_assoc, List.singleton_append]
    refine List.isChain_split.mpr ⟨?_, ?_⟩
    · refine chain_congr (hok.list.chain heq).1 fun x hx => ?_
      rw [hptr, if_neg (hnp x hx), if_neg (hne x (by rw [heq]; simp [hx]))]
    · refine List.isChain_cons_cons.mpr
        ⟨by rw [hptr, if_pos rfl], List.isChain_cons_cons.mpr ⟨?_, .singleton _⟩⟩
      rw [hptr, if_neg (hne p hp').symm, if_pos rfl]
  have hlen : (fl ++ [hp]).length = fl.length + 1 := by simp
  rw [← hlen]
  refine search_one hcircle hnd (hfreep ▸ by simp at hp' ⊢; tauto) (k := hp) (by simp) (by omega)
    (fun y hy hle => ?_) fun x => ?_
  · by_contra hyp
    rw [hsize, if_neg hyp] at hle
    have := (hbelow y (by simp at hy ⊢; tauto)).2
    omega
  · rw [take, if_pos hsp]
    unfold adv
    omega

end

lemma Ok.wrap (h0 : 0 < base) (hok : Ok h base fl lv) (htop : h.top base ≤ hp) (hhp : hp < 2 ^ 31)
    (hb : base < hp) : ∃ h' k, ∀ rest fuel, k ≤ fuel →
      Heap.mallocLoop (2 ^ 29) fuel h (some hp :: rest) h.freep (h.ptr h.freep) = some
      (h', hp + 8, rest) := by
  have hbelow := hok.below htop hhp hb
  have hne : ∀ x ∈ base :: fl, x ≠ hp := fun x hx => (hbelow x hx).1.ne
  have hadv : adv hp 1 = hp + 8 := by
    unfold adv
    omega
  have hsame : ∀ x ∈ base :: fl, (h.grow hp (2 ^ 29)).size x = h.size x := fun x hx => by
    rw [grow_size, if_neg (hne x hx)]
  have hself : (h.grow hp (2 ^ 29)).size hp = 2 ^ 29 := by rw [grow_size, if_pos rfl]
  obtain ⟨l, p, heq, hlink, hfree⟩ :
      ∃ l p, base :: fl = l ++ [p] ∧ h.ptr p = base ∧ ∀ fuel, fl.length < fuel → hp + 8 < 2 ^ 32 →
        (h.grow hp (2 ^ 29)).free fuel (hp + 8) =
          some { ((h.grow hp (2 ^ 29)).joinNext hp p).joinPrev hp p with freep := p } :=
    hok.free_above (fun x hx => (hbelow x hx).1) rfl rfl hsame
  have hp' : p ∈ base :: fl := by rw [heq]; simp
  have hnext : (h.grow hp (2 ^ 29)).ptr p ≠ hp := by
    change h.ptr p ≠ hp
    omega
  have hsp := hsame p hp'
  rw [joinNext_wrap (by omega) hself hnext, joinPrev] at hfree
  dsimp only at hfree
  rw [hsp, hself] at hfree
  obtain ⟨h2, h', hfreep, hfree', hloop'⟩ : ∃ h2 h', h2.freep = p ∧
      (∀ fuel, fl.length < fuel → (h.grow hp (2 ^ 29)).free fuel (hp + 8) = some h2) ∧ ∀ brks fuel,
      fl.length + 1 < fuel →
      Heap.mallocLoop (2 ^ 29) fuel h2 brks h2.freep (h2.ptr h2.freep) = some (h', hp + 8, brks) := by
    by_cases hend : adv p (h.size p) = hp
    · have hmod : (h.size p + 2 ^ 29) % 2 ^ 32 = h.size p + 2 ^ 29 := by
        have := (hbelow p hp').2
        omega
      let h2 : Heap := ⟨assign (assign h.ptr hp base) p base, assign (assign h.size hp (2 ^ 29)) p
        (h.size p + 2 ^ 29), p, (hp, 2 ^ 29) :: h.regions⟩
      obtain ⟨h', hloop⟩ : ∃ h', ∀ brks fuel, fl.length < fuel →
        Heap.mallocLoop (2 ^ 29) fuel h2 brks h2.freep _ = _ :=
        search_joined hok hbelow hhp hp' hlink hend (fun _ => rfl) (fun _ => rfl) rfl
      refine ⟨h2, h', rfl, fun fuel hf => ?_, fun brks fuel hf => hloop brks fuel (by omega)⟩
      rw [hfree fuel hf (by omega), if_pos hend, assign_self, hmod]
      simp only [Heap.grow, hlink, h2]
    · let h2 : Heap := ⟨assign (assign h.ptr hp base) p hp, assign h.size hp (2 ^ 29), p,
        (hp, 2 ^ 29) :: h.regions⟩
      obtain ⟨h', hloop⟩ : ∃ h', ∀ brks fuel, fl.length + 1 < fuel →
        Heap.mallocLoop (2 ^ 29) fuel h2 brks h2.freep _ = _ :=
        search_added hok hbelow hhp heq (fun _ => rfl) (fun _ => rfl) rfl
      refine ⟨h2, h', rfl, fun fuel hf => ?_, hloop⟩
      rw [hfree fuel hf (by omega), if_neg hend]
      simp only [Heap.grow, hlink, h2]
  refine ⟨h', 3 * fl.length + 5, fun rest fuel hf => ?_⟩
  rcases search (2 ^ 29) hok.list.circle hok.nodup hok.freep with ⟨x, hx, hfit, -⟩ | ⟨-, hloop⟩
  · have := (hbelow _ (hok.list.circle.next_mem hx)).2
    omega
  · obtain ⟨k, rfl⟩ := Nat.exists_eq_add_of_le' (show fl.length + 1 ≤ fuel by omega)
    have hmore : h.morecore k (2 ^ 29) (some hp :: rest) = some (h2, p, rest) := by
      rw [Heap.morecore, hadv, ← hfreep]
      exact congrArg _ (hfree' k (by omega))
    have hp0 : p ≠ 0 := by
      have := hok.list.base_le hp'
      omega
    rw [hfreep] at hloop'
    rw [← Nat.add_assoc, hloop, hmore]
    exact (if_neg hp0).trans (hloop' rest k (by omega))

lemma morecore_rest {h' : Heap} {fuel r : ℕ} {brks rest : List (Option ℕ)}
    (hm : h.morecore fuel n brks = some (h', r, rest)) : rest = brks.tail := by
  rcases brks with _ | ⟨_ | hp, brks⟩
  · cases hm
    rfl
  · cases hm
    rfl
  · obtain ⟨h', -, heq⟩ := Option.map_eq_some_iff.mp hm
    cases heq
    rfl

lemma mallocLoop_rest {h' : Heap} {fuel r prevp : ℕ} {brks rest : List (Option ℕ)}
    (hm : mallocLoop n fuel h brks prevp p = some (h', r, rest)) : rest.length ≤ brks.length := by
  induction fuel generalizing h brks prevp p with
  | zero => cases hm
  | succ fuel ih =>
    rw [mallocLoop] at hm
    split_ifs at hm with h1 h2
    · cases hm
      exact le_rfl
    · cases hc : h.morecore fuel n brks with
      | none =>
        rw [hc] at hm
        cases hm
      | some w =>
        obtain ⟨h'', r', rest'⟩ := w
        have htail := morecore_rest hc
        have hle : rest'.length ≤ brks.length := by
          rw [htail, List.length_tail]
          exact Nat.sub_le ..
        rw [hc] at hm
        dsimp only at hm
        split_ifs at hm with h3
        · cases hm
          exact hle
        · exact (ih hm).trans hle
    · exact ih hm

lemma Ok.rest_lt {h' : Heap} {fuel r : ℕ} {brks rest : List (Option ℕ)} (hok : Ok h base fl lv)
    (hsmall : ∀ x ∈ base :: fl, h.size x < n) (hb : 0 < brks.length) (hfuel : fl.length < fuel)
    (hm : Heap.mallocLoop n fuel h brks h.freep (h.ptr h.freep) = some (h', r, rest)) :
    rest.length < brks.length := by
  rcases search n hok.list.circle hok.nodup hok.freep with ⟨x, hx, hfit, -⟩ | ⟨-, hloop⟩
  · exact absurd (hsmall _ (hok.list.circle.next_mem hx)) (by omega)
  · obtain ⟨k, rfl⟩ := Nat.exists_eq_add_of_le' hfuel
    rw [Nat.succ_eq_add_one, ← Nat.add_assoc, hloop] at hm
    obtain ⟨⟨h'', r', rest'⟩, hc, hm⟩ := Option.bind_eq_some_iff.mp hm
    have htail := morecore_rest hc
    have hlt : rest'.length < brks.length := by
      rw [htail, List.length_tail]
      omega
    dsimp only at hm
    split_ifs at hm with h3
    · cases hm
      exact hlt
    · exact (mallocLoop_rest hm).trans_lt hlt

end Heap

end Xv6.Umalloc
