import Xv6.Umalloc.Search

namespace Xv6.Umalloc

open Lib

namespace Heap

variable {h h' : Heap} {base bp p x y n hi total : ℕ} {fl lv : List ℕ} {brks brks' : List (Option ℕ)}

section fuel

variable {k m ap r : ℕ}

lemma free_mono (hf : h.free k ap = some h') (hle : k ≤ m) : h.free m ap = some h' := by
  obtain ⟨p, hp, heq⟩ := Option.map_eq_some_iff.mp hf
  exact Option.map_eq_some_iff.mpr ⟨p, walk_mono hp hle, heq⟩

lemma morecore_mono {v : Heap × ℕ × List (Option ℕ)} (hm : h.morecore k n brks = some v) (hle : k ≤ m) :
    h.morecore m n brks = some v := by
  unfold morecore at hm ⊢
  split at hm
  case h_1 hp rest =>
    obtain ⟨h', hf, heq⟩ := Option.map_eq_some_iff.mp hm
    exact Option.map_eq_some_iff.mpr ⟨h', free_mono hf hle, heq⟩
  case h_2 => exact hm
  case h_3 => exact hm

lemma mallocLoop_mono {v : Heap × ℕ × List (Option ℕ)} {prevp : ℕ}
    (hm : mallocLoop n k h brks prevp p = some v)
    (hle : k ≤ m) : mallocLoop n m h brks prevp p = some v := by
  induction k generalizing m h brks prevp p with
  | zero => cases hm
  | succ k ih =>
    obtain ⟨m, rfl⟩ := Nat.exists_eq_add_one.mpr (Nat.zero_lt_of_lt hle)
    have hle := Nat.le_of_succ_le_succ hle
    rw [mallocLoop] at hm ⊢
    split_ifs at hm ⊢ with h1 h2
    · exact hm
    · cases hc : h.morecore k n brks with
      | none => rw [hc] at hm; cases hm
      | some w =>
        rw [hc] at hm
        rw [morecore_mono hc hle]
        dsimp only at hm ⊢
        split_ifs at hm ⊢ with h3
        · exact hm
        · exact ih hm hle
    · exact ih hm hle

end fuel

def top (h : Heap) (base : ℕ) : ℕ :=
  match h.regions with
  | [] => base + 8
  | (a, nu) :: _ => a + 8 * nu

def units (h : Heap) : ℕ := (h.regions.map Prod.snd).sum

structure Ok (h : Heap) (base : ℕ) (fl lv : List ℕ) : Prop where
  list : FreeList h base fl
  freep : h.freep ∈ base :: fl
  tiles : Tiling h.len (fl ++ lv) (base + 8) (h.top base) (8 * h.units)
  aligned : ∀ x ∈ fl ++ lv, 8 ∣ x
  top : h.top base < 2 ^ 32

lemma Ok.perm {lv' : List ℕ} (hok : Ok h base fl lv) (hp : lv.Perm lv') : Ok h base fl lv' :=
  ⟨hok.list, hok.freep, hok.tiles.perm (hp.append_left fl),
    fun x hx => hok.aligned x ((hp.append_left fl).mem_iff.mpr hx), hok.top⟩

lemma top_congr (hr : h'.regions = h.regions) : h'.top base = h.top base := by rw [Heap.top, Heap.top, hr]

lemma units_congr (hr : h'.regions = h.regions) : h'.units = h.units := by rw [units, units, hr]

lemma Ok.free {fl lv : List ℕ} (h0 : 0 < base) (hok : Ok h base fl (bp :: lv)) :
    ∃ h' fl', (∀ fuel, fl.length < fuel → h.free fuel (bp + 8) = some h') ∧ Ok h' base fl' lv ∧
      (∃ q ∈ fl', h.size bp ≤ h'.size q) ∧ (∀ x ∈ lv, h'.size x = h.size x) ∧ h'.regions = h.regions ∧
      fl' ⊆ bp :: fl := by
  have hperm : (fl ++ bp :: lv).Perm (bp :: (fl ++ lv)) := List.perm_middle
  obtain ⟨h', fl', hfree, hf, hp, ht, hr, hbig, hsame, hsub⟩ :=
    hok.list.free h0 hok.top.le hok.freep (hok.tiles.perm hperm)
  have hal : ∀ x ∈ bp :: (fl ++ lv), 8 ∣ x := fun x hx => hok.aligned x (hperm.mem_iff.mpr hx)
  refine ⟨h', fl', hfree, ⟨hf, hp, by rwa [top_congr hr, units_congr hr], fun x hx => ?_, ?_⟩, hbig,
    hsame, hr, hsub⟩
  swap
  · rw [top_congr hr]
    exact hok.top
  rcases List.mem_append.mp hx with hx | hx
  · refine hal x ?_
    have := hsub hx
    simp at this ⊢
    tauto
  · exact hal x (by simp [hx])

lemma le_request (n : ℕ) : n ≤ request n := by
  unfold request
  split_ifs <;> omega

lemma request_pos (n : ℕ) : 0 < request n := by
  unfold request
  split_ifs <;> omega

lemma Fresh.top_le {nu hp : ℕ} (hf : h.Fresh base nu hp) : h.top base ≤ hp := by
  obtain ⟨-, hb, hr, -⟩ := hf
  unfold Heap.top
  split
  · exact hb
  · rename_i a k rest heq
    exact hr (a, k) (by simp [heq])

lemma Ok.grow {hp : ℕ} (hok : Ok h base fl lv) (hfr : h.Fresh base (request n) hp) :
    Ok (h.grow hp (request n)) base fl (hp :: lv) := by
  have htop := hfr.top_le
  have hpos := request_pos n
  obtain ⟨hal, hb, -, hend⟩ := hfr
  have hne : ∀ x ∈ fl ++ lv, x ≠ hp := fun x hx heq => by
    have := hok.tiles.high x hx
    have := hok.tiles.pos x hx
    omega
  have hlen : ∀ x, x ≠ hp → (h.grow hp (request n)).len x = h.len x := fun x hx => by
    rw [len, grow_size, if_neg hx, len]
  have hself : (h.grow hp (request n)).len hp = 8 * request n := by rw [len, grow_size, if_pos rfl]
  have hlist : ∀ x ∈ base :: fl, x ≠ hp :=
    List.forall_mem_cons.mpr ⟨by omega, fun x hx => hne x (by simp [hx])⟩
  refine ⟨⟨hok.list.circle, hok.list.gaps.imp_of_mem fun {x y} hx _ hxy => ?_, ?_⟩, hok.freep, ?_,
    ?_, hend⟩
  · rwa [hlen x (hlist x hx)]
  · exact (assign_of_ne (hlist base List.mem_cons_self) ..).trans hok.list.zero
  · have ht : Tiling (h.grow hp (request n)).len (fl ++ lv) (base + 8) (h.top base) (8 * h.units) :=
      hok.tiles.congr fun x hx => hlen x (hne x hx)
    have hunits : 8 * (h.grow hp (request n)).units = 8 * request n + 8 * h.units := by
      simp [units, Heap.grow, Nat.mul_add]
    have hadd := ht.add hb htop (by omega)
    rw [hself] at hadd
    rw [hunits]
    exact hadd.perm List.perm_middle.symm
  · intro x hx
    rcases List.mem_cons.mp (List.perm_middle.mem_iff.mp hx) with rfl | hx
    · exact hal
    · exact hok.aligned x hx

lemma Ok.morecore {hp : ℕ} (h0 : 0 < base) (hok : Ok h base fl lv) (hfr : h.Fresh base (request n) hp) :
    ∃ h' fl', (∀ brks fuel, fl.length < fuel → h.morecore fuel n (some hp :: brks) = some
    (h', h'.freep, brks)) ∧
      Ok h' base fl' lv ∧ (∃ q ∈ fl', n ≤ h'.size q) ∧ (∀ x ∈ lv, h'.size x = h.size x) ∧
      h'.regions = (hp, request n) :: h.regions ∧ fl' ⊆ hp :: fl := by
  have hg := hok.grow hfr
  have hpos := request_pos n
  have hend := hfr.2.2.2
  have hadv : adv hp 1 = hp + 8 := by
    unfold adv
    omega
  have hnot : ∀ x ∈ lv, x ≠ hp := fun x hx heq =>
    (List.nodup_cons.mp (hg.tiles.perm List.perm_middle).nodup).1 (by simp [← heq, hx])
  obtain ⟨h', fl', hfree, hok', ⟨q, hq, hqs⟩, hsame, hr, hsub⟩ := hg.free h0
  refine ⟨h', fl', fun brks fuel hf => ?_, hok', ⟨q, hq, ?_⟩, fun x hx => ?_, hr, hsub⟩
  · rw [Heap.morecore, hadv, hfree fuel hf]
    rfl
  · rw [grow_size, if_pos rfl] at hqs
    exact (le_request n).trans hqs
  · rw [hsame x hx, grow_size, if_neg (hnot x hx)]

lemma search (n : ℕ) (hc : Circle h.ptr base fl) (hnd : (base :: fl).Nodup)
    (hp : h.freep ∈ base :: fl) :
    (∃ x ∈ base :: fl, n ≤ h.size (h.ptr x) ∧ ∀ brks fuel, fl.length < fuel →
      mallocLoop n fuel h brks h.freep (h.ptr h.freep) =
        some ((h.take n x (h.ptr x)).1, (h.take n x (h.ptr x)).2, brks)) ∨
    (∀ y ∈ base :: fl, h.size y < n) ∧ ∀ brks fuel, mallocLoop n (fuel + fl.length + 1) h brks
      h.freep (h.ptr h.freep) = (h.morecore fuel n brks).bind fun r =>
        if r.2.1 = 0 then some (r.1, 0, r.2.2) else mallocLoop n fuel r.1 r.2.2 r.2.1
          (r.1.ptr r.2.1) := by
  obtain ⟨r, hr, hperm⟩ := hc.rotate hp
  have hlen : r.length = fl.length := by simpa using hperm.length_eq
  have hnd' : (h.freep :: r).Nodup := hperm.nodup_iff.mpr hnd
  rcases mallocLoop_scan n r h.freep hr (List.nodup_cons.mp hnd').1 with
    ⟨x, hx, hfit, hloop⟩ | ⟨hsmall, hloop⟩
  · exact .inl ⟨x, hperm.mem_iff.mp hx, hfit, hlen ▸ hloop⟩
  · refine .inr ⟨fun y hy => hsmall y ?_, hlen ▸ hloop⟩
    have := hperm.mem_iff.mpr hy
    simp at this ⊢
    tauto

lemma Ok.nodup (hok : Ok h base fl lv) : (base :: fl).Nodup := hok.list.sorted.imp ne_of_lt

structure Taken (h h' : Heap) (base n q : ℕ) (fl fl' lv : List ℕ) : Prop where
  ok : Ok h' base fl' (q :: lv)
  size : h'.size q = n
  same : ∀ x ∈ lv, h'.size x = h.size x
  sub : fl' ⊆ fl
  above : ∃ p ∈ fl, p ≤ q

lemma Ok.take (hok : Ok h base fl lv) (hx : x ∈ base :: fl) (hn : 0 < n) (hfit : n ≤ h.size (h.ptr x)) :
    ∃ q fl', (h.take n x (h.ptr x)).2 = q + 8 ∧ Taken h (h.take n x (h.ptr x)).1 base n q fl fl' lv ∧
      (h.take n x (h.ptr x)).1.regions = h.regions := by
  obtain ⟨q, fl', hret, hf, hx', ht, hq, hsame, hsub, hal, hle⟩ :=
    hok.list.take hok.top hx hn hfit hok.tiles
  have hregions : (h.take n x (h.ptr x)).1.regions = h.regions := by
    unfold Heap.take
    split_ifs <;> rfl
  have hfreep : (h.take n x (h.ptr x)).1.freep = x := by
    unfold Heap.take
    split_ifs <;> rfl
  refine ⟨q, fl', hret, ⟨⟨hf, by rwa [hfreep], ?_,
    fun z hz => ?_, by rw [top_congr hregions]; exact hok.top⟩, hq, hsame, hsub, hle⟩, hregions⟩
  · rw [top_congr hregions, units_congr hregions]
    exact ht.perm List.perm_middle.symm
  · rcases List.mem_cons.mp (List.perm_middle.mem_iff.mp hz) with rfl | hz
    · exact hal fun z hz => hok.aligned z (by simp [hz])
    · refine hok.aligned z ?_
      rcases List.mem_append.mp hz with hz | hz
      · simp [hsub hz]
      · simp [hz]

lemma Ok.congr (hok : Ok h base fl lv) (hfreep : h'.freep = h.freep) (hr : h'.regions = h.regions)
    (hptr : ∀ x ∈ base :: fl, h'.ptr x = h.ptr x)
    (hsize : ∀ x ∈ base :: (fl ++ lv), h'.size x = h.size x) : Ok h' base fl lv := by
  have hlen : ∀ x ∈ base :: (fl ++ lv), h'.len x = h.len x := fun x hx => by rw [len, len, hsize x hx]
  have hsub : ∀ x ∈ base :: fl, x ∈ base :: (fl ++ lv) := fun x hx => by
    simp at hx ⊢
    tauto
  refine ⟨⟨hok.list.circle.congr hptr, hok.list.gaps.imp_of_mem fun {x y} hx _ hxy => ?_, ?_⟩, ?_,
    ?_, hok.aligned, ?_⟩
  · rwa [hlen x (hsub x hx)]
  · rw [hsize base List.mem_cons_self, hok.list.zero]
  · rw [hfreep]
    exact hok.freep
  · rw [top_congr hr, units_congr hr]
    exact hok.tiles.congr fun x hx => hlen x (List.mem_cons_of_mem _ hx)
  · rw [top_congr hr]
    exact hok.top

inductive Outcome (h : Heap) (base n : ℕ) (fl lv : List ℕ) (a : Option (Option ℕ)) : Heap → ℕ → ℕ → Prop
  | fit {h' : Heap} {q : ℕ} {fl' : List ℕ} : (∃ y ∈ fl, n ≤ h.size y) → Taken h h' base n q fl fl' lv →
      h'.regions = h.regions → Outcome h base n fl lv a h' (q + 8) 0
  | refused : (∀ y ∈ fl, h.size y < n) → a.join = none → Outcome h base n fl lv a h 0 1
  | more {h' : Heap} {hp q : ℕ} {fl' : List ℕ} : (∀ y ∈ fl, h.size y < n) → a = some (some hp) →
      Taken h h' base n q (hp :: fl) fl' lv → h'.regions = (hp, request n) :: h.regions →
      Outcome h base n fl lv a h' (q + 8) 1

lemma Ok.mallocLoop_outcome {a : Option (Option ℕ)} (h0 : 0 < base) (hok : Ok h base fl lv) (hn : 0 < n)
    (ha : ∀ hp, a = some (some hp) → h.Fresh base (request n) hp) :
    ∃ h' r c k, (∀ brks fuel, brks.head? = a → k ≤ fuel →
      mallocLoop n fuel h brks h.freep (h.ptr h.freep) = some (h', r, brks.drop c)) ∧
      Outcome h base n fl lv a h' r c := by
  rcases search n hok.list.circle hok.nodup hok.freep with ⟨x, hx, hfit, hloop⟩ | ⟨hsmall, hloop⟩
  · obtain ⟨q, fl', hret, htaken, hr⟩ := hok.take hx hn hfit
    have hmem := hok.list.mem_of_fit (hok.list.circle.next_mem hx) (by omega)
    exact ⟨_, _, 0, fl.length + 1, fun brks fuel _ hf => hret ▸ hloop brks fuel hf,
      .fit ⟨_, hmem, hfit⟩ htaken hr⟩
  have hsmall' : ∀ y ∈ fl, h.size y < n := fun y hy => hsmall y (List.mem_cons_of_mem _ hy)
  cases hj : a.join with
  | none =>
    refine ⟨h, 0, 1, fl.length + 1, fun brks fuel hb hf => ?_, .refused hsmall' hj⟩
    have hm : ∀ fuel, h.morecore fuel n brks = some (h, 0, brks.drop 1) := fun fuel => by
      rcases brks with _ | ⟨_ | hp, rest⟩
      · rfl
      · rfl
      · rw [← hb] at hj
        cases hj
    obtain ⟨k, rfl⟩ := Nat.exists_eq_add_of_le' hf
    rw [← Nat.add_assoc, hloop, hm]
    rfl
  | some hp =>
    have hap : a = some (some hp) := Option.join_eq_some_iff.mp hj
    obtain ⟨h', fl', hmore, hok', ⟨q, hq, hqn⟩, hsame, hr, hsub⟩ := hok.morecore h0 (ha hp hap)
    have hne : h'.freep ≠ 0 := by
      have := hok'.list.base_le hok'.freep
      omega
    -- the block that `morecore` added stops the second search
    rcases search n hok'.list.circle hok'.nodup hok'.freep with ⟨x, hx, hfit, hloop'⟩ | ⟨hsmall'', -⟩
    · obtain ⟨q', fl'', hret, htaken, hr'⟩ := hok'.take hx hn hfit
      obtain ⟨p, hp', hpq⟩ := htaken.above
      refine ⟨_, _, 1, fl.length + fl'.length + fl.length + 2, fun brks fuel hb hf => ?_,
        .more hsmall' hap ⟨htaken.ok, htaken.size, fun z hz => (htaken.same z hz).trans (hsame z hz),
          fun z hz => hsub (htaken.sub hz), p, hsub hp', hpq⟩ (hr'.trans hr)⟩
      obtain ⟨rest, rfl⟩ : ∃ rest, brks = some hp :: rest := by
        rw [hap] at hb
        exact ⟨brks.tail, (List.cons_head?_tail hb).symm⟩
      obtain ⟨k, rfl⟩ := Nat.exists_eq_add_of_le' (show fl.length + 1 ≤ fuel by omega)
      rw [← Nat.add_assoc, hloop, hmore rest k (by omega), ← hret]
      exact (if_neg hne).trans (hloop' rest k (by omega))
    · exact absurd (hsmall'' q (List.mem_cons_of_mem _ hq)) (by omega)

structure Served (h h' : Heap) (base n r : ℕ) (lv : List ℕ) : Prop where
  ok : (r = 0 ∧ ∃ fl, Ok h' base fl lv) ∨ ∃ q fl, r = q + 8 ∧ Ok h' base fl (q :: lv) ∧ h'.size q = n
  same : ∀ x ∈ lv, h'.size x = h.size x

lemma Outcome.served {a : Option (Option ℕ)} {r c : ℕ} (ho : Outcome h base n fl lv a h' r c)
    (hok : Ok h base fl lv) : Served h h' base n r lv := by
  cases ho with
  | fit _ ht _ => exact ⟨.inr ⟨_, _, rfl, ht.ok, ht.size⟩, ht.same⟩
  | refused => exact ⟨.inl ⟨rfl, fl, hok⟩, fun _ _ => rfl⟩
  | more _ _ ht _ => exact ⟨.inr ⟨_, _, rfl, ht.ok, ht.size⟩, ht.same⟩

lemma Ok.mallocLoop (h0 : 0 < base) (hok : Ok h base fl lv) (hn : 0 < n)
    (hb : ∀ a ∈ brks.head?, ∀ hp ∈ a, h.Fresh base (request n) hp) :
    ∃ h' r brks' k, (∀ fuel, k ≤ fuel → mallocLoop n fuel h brks h.freep (h.ptr h.freep) = some
    (h', r, brks')) ∧
      Served h h' base n r lv := by
  obtain ⟨h', r, c, k, hrun, ho⟩ :=
    hok.mallocLoop_outcome h0 hn (a := brks.head?) fun hp he => hb _ he hp rfl
  exact ⟨h', r, brks.drop c, k, fun fuel hf => hrun brks fuel rfl hf, ho.served hok⟩

end Heap

namespace State

open Heap

variable {s s' : State} {base : ℕ} {e : Event}

def blocks (s : State) : List ℕ := s.live.map Prod.fst

structure Inv (base : ℕ) (s : State) : Prop where
  heap : s.heap.freep = 0 ∧ s.heap.regions = [] ∧ s.live = [] ∨ ∃ fl, Ok s.heap base fl s.blocks
  live : ∀ b ∈ s.live, s.heap.size b.1 = nunits b.2 ∧ b.2 < 2 ^ 30

lemma step_mono {k m : ℕ} (h : s.step base k e = some s') (hle : k ≤ m) : s.step base m e = some s' := by
  unfold step at h ⊢
  split_ifs at h ⊢ with ha
  cases e with
  | malloc nbytes brks =>
    obtain ⟨r, hr, heq⟩ := Option.map_eq_some_iff.mp h
    exact Option.map_eq_some_iff.mpr ⟨r, mallocLoop_mono hr hle, heq⟩
  | free ap =>
    obtain ⟨h', hr, heq⟩ := Option.map_eq_some_iff.mp h
    exact Option.map_eq_some_iff.mpr ⟨h', free_mono hr hle, heq⟩
  | write => exact h

def Returns (base : ℕ) (s : State) (e : Event) : Prop :=
  ∃ s' k, (∀ fuel, k ≤ fuel → s.step base fuel e = some s') ∧ Inv base s'

lemma start_empty {h : Heap} (hb : base + 8 < 2 ^ 32) (hp : h.freep = 0) (hr : h.regions = []) :
    Ok (h.start base) base [] [] := by
  rw [Heap.start, if_pos hp]
  refine ⟨⟨?_, List.pairwise_singleton .., assign_self ..⟩, List.mem_cons_self, ?_, nofun, ?_⟩
  · exact List.isChain_pair.mpr (assign_self ..)
  · refine ⟨List.Pairwise.nil, nofun, nofun, nofun, ?_⟩
    simp [units, hr]
  · simpa [Heap.top, hr] using hb

lemma start_of_ok {h : Heap} {fl lv : List ℕ} (h0 : 0 < base) (hok : Ok h base fl lv) :
    h.start base = h := by
  have hne : h.freep ≠ 0 := by
    have := hok.list.base_le hok.freep
    omega
  rw [Heap.start, if_neg hne]

lemma Inv.start (h0 : 0 < base) (hb : base + 8 < 2 ^ 32) (h : Inv base s) :
    ∃ fl, Ok (s.heap.start base) base fl s.blocks ∧
    ∀ x ∈ s.blocks, (s.heap.start base).size x = s.heap.size x := by
  rcases h.heap with ⟨hp, hr, hl⟩ | ⟨fl, hok⟩
  · have hbl : s.blocks = [] := by rw [blocks, hl]; rfl
    rw [hbl]
    exact ⟨[], start_empty hb hp hr, nofun⟩
  · rw [start_of_ok h0 hok]
    exact ⟨fl, hok, fun _ _ => rfl⟩

lemma nunits_pos (n : ℕ) : 0 < nunits n := Nat.succ_pos _

lemma start_regions (h : Heap) : (h.start base).regions = h.regions := by
  unfold Heap.start
  split_ifs <;> rfl

lemma Inv.malloc {nbytes : ℕ} {brks : List (Option ℕ)} (h0 : 0 < base) (hb : base + 8 < 2 ^ 32)
    (h : Inv base s)
    (ha : s.Allowed base (.malloc nbytes brks)) : Returns base s (.malloc nbytes brks) := by
  obtain ⟨fl, hok, hsize⟩ := h.start h0 hb
  have hfresh : ∀ a ∈ brks.head?, ∀ hp ∈ a,
    (s.heap.start base).Fresh base (request (nunits nbytes)) hp := by
    intro a hm hp hhp
    rw [Fresh, start_regions]
    exact ha.2 a hm hp hhp
  obtain ⟨h', r, brks', k, hrun, hserved⟩ := hok.mallocLoop h0 (nunits_pos nbytes) hfresh
  have hsame : ∀ b ∈ s.live, h'.size b.1 = nunits b.2 ∧ b.2 < 2 ^ 30 := fun b hbl => by
    have hmem : b.1 ∈ s.blocks := List.mem_map_of_mem hbl
    rw [hserved.same _ hmem, hsize _ hmem]
    exact h.live b hbl
  refine ⟨⟨h', if r = 0 then s.live else (r - 8, nbytes) :: s.live⟩, k, fun fuel hf => ?_, ?_⟩
  · have hm : s.heap.malloc base fuel brks nbytes = some (h', r, brks') := hrun fuel hf
    rw [step, if_pos ha, hm]
    rfl
  · rcases hserved.ok with ⟨rfl, fl', hok'⟩ | ⟨q, fl', rfl, hok', hq⟩
    · exact ⟨.inr ⟨fl', hok'⟩, hsame⟩
    · rw [if_neg (by omega), Nat.add_sub_cancel]
      exact ⟨.inr ⟨fl', hok'⟩, List.forall_mem_cons.mpr ⟨⟨hq, ha.1⟩, hsame⟩⟩

lemma free_block {fl : List ℕ} {b : ℕ × ℕ} (h0 : 0 < base) (hok : Ok s.heap base fl s.blocks)
    (hb : b ∈ s.live) :
    ∃ h' fl' l, (∀ fuel, fl.length < fuel → s.heap.free fuel (b.1 + 8) = some h') ∧
      s.live.eraseP (fun c => c.1 + 8 = b.1 + 8) = l ∧ Ok h' base fl' (l.map Prod.fst) ∧ l ⊆ s.live ∧
      (∀ x ∈ l, h'.size x.1 = s.heap.size x.1) ∧ h'.regions = s.heap.regions ∧ fl' ⊆ b.1 :: fl := by
  obtain ⟨c, l1, l2, -, hc, hlive, herase⟩ :=
    List.exists_of_eraseP (p := fun c => decide (c.1 + 8 = b.1 + 8)) hb (by simp)
  have hcb : c.1 = b.1 := by simpa using hc
  have hblocks : s.blocks.Perm (b.1 :: (l1 ++ l2).map Prod.fst) := by
    rw [blocks, hlive, ← hcb, ← List.map_cons]
    exact List.perm_middle.map _
  obtain ⟨h', fl', hfree, hok', -, hsame, hr, hsub⟩ := (hok.perm hblocks).free h0
  refine ⟨h', fl', l1 ++ l2, hfree, herase, hok', fun x hx => ?_, fun x hx => hsame _
    (List.mem_map_of_mem hx), hr, hsub⟩
  rw [hlive]
  simp at hx ⊢
  tauto

lemma Inv.free {ap : ℕ} (h0 : 0 < base) (h : Inv base s) (ha : s.Allowed base (.free ap)) :
    Returns base s (.free ap) := by
  obtain ⟨b, hb, rfl⟩ := ha
  rcases h.heap with ⟨-, -, hl⟩ | ⟨fl, hok⟩
  · rw [hl] at hb
    cases hb
  obtain ⟨h', fl', l, hfree, herase, hok', hsub, hsame, -⟩ := free_block h0 hok hb
  refine ⟨⟨h', l⟩, fl.length + 1, fun fuel hf => ?_, .inr ⟨fl', hok'⟩, fun x hx => ?_⟩
  · rw [step, if_pos ⟨b, hb, rfl⟩, hfree fuel hf, herase]
    rfl
  · rw [hsame x hx]
    exact h.live x (hsub hx)

lemma store_block {fl : List ℕ} {b : ℕ × ℕ} {a : ℕ} (ptr size : ℕ)
    (hok : Ok s.heap base fl s.blocks) (hb : b ∈ s.live)
    (hsz : s.heap.size b.1 = nunits b.2) (hlt : b.1 < a) (hgt : a < b.1 + 8 * nunits b.2) :
    Ok (s.heap.store a ptr size) base fl s.blocks ∧
      ∀ x ∈ s.live, (s.heap.store a ptr size).size x.1 = s.heap.size x.1 := by
  have hmem : b.1 ∈ fl ++ s.blocks := List.mem_append_right _ (List.mem_map_of_mem hb)
  have hlow := hok.tiles.low b.1 hmem
  have hnot : a ∉ fl ++ s.blocks := hok.tiles.notMem_of_inside hmem hlt (by rwa [len, hsz])
  have hne : ∀ x ∈ base :: (fl ++ s.blocks), x ≠ a :=
    List.forall_mem_cons.mpr ⟨by omega, fun x hx heq => hnot (heq ▸ hx)⟩
  have hsize : ∀ x ∈ base :: (fl ++ s.blocks), (s.heap.store a ptr size).size x = s.heap.size x :=
    fun x hx =>
    assign_of_ne (hne x hx) ..
  refine ⟨hok.congr rfl rfl (fun x hx => ?_) hsize, fun x hx => ?_⟩
  · exact assign_of_ne (hne x (by simp at hx ⊢; tauto)) ..
  · have hx' : x.1 ∈ s.blocks := List.mem_map_of_mem hx
    exact hsize x.1 (by simp [hx'])

lemma Inv.write {a ptr size : ℕ} (h : Inv base s) (ha : s.Allowed base (.write a ptr size)) :
    Returns base s (.write a ptr size) := by
  have ⟨b, hb, hlt, hgt, _⟩ := ha
  rcases h.heap with ⟨-, -, hl⟩ | ⟨fl, hok⟩
  · rw [hl] at hb
    cases hb
  obtain ⟨hok', hsame⟩ := store_block ptr size hok hb (h.live b hb).1 hlt hgt
  refine ⟨⟨s.heap.store a ptr size, s.live⟩, 0,
    fun fuel _ => by rw [step, if_pos ha], .inr ⟨fl, hok'⟩, fun x hx => ?_⟩
  rw [hsame x hx]
  exact h.live x hx

lemma Inv.returns (h0 : 0 < base) (hb : base + 8 < 2 ^ 32) (h : Inv base s) (ha : s.Allowed base e) :
    Returns base s e := by
  cases e with
  | malloc => exact h.malloc h0 hb ha
  | free => exact h.free h0 ha
  | write => exact h.write ha

lemma Inv.step (h0 : 0 < base) (hb : base + 8 < 2 ^ 32) (h : Inv base s) (hs : Step base s e s') :
    Inv base s' := by
  obtain ⟨fuel, hs⟩ := hs
  have ha : s.Allowed base e := by
    unfold State.step at hs
    split_ifs at hs with ha
    exact ha
  obtain ⟨t, k, hrun, ht⟩ := h.returns h0 hb ha
  have heq := (step_mono hs (le_max_left fuel k)).symm.trans (hrun _ (le_max_right fuel k))
  rwa [Option.some.inj heq]

lemma inv_init (ptr size : ℕ → ℕ) : Inv base (init ptr size) := ⟨.inl ⟨rfl, rfl, rfl⟩, nofun⟩

structure Safe (base : ℕ) (s : State) (fl : List ℕ) : Prop where
  circle : s.heap.freep ≠ 0 → Circle s.heap.ptr base fl ∧ s.heap.freep ∈ base :: fl
  empty : s.heap.freep = 0 → fl = []
  order : (base :: fl).Pairwise (· < ·)
  disjoint : (fl ++ s.blocks).Pairwise (Apart fun x => 8 * s.heap.size x)
  above : ∀ x ∈ fl ++ s.blocks, base + 8 ≤ x ∧ 8 ∣ x ∧ 0 < s.heap.size x
  separate : ∀ x ∈ fl, ∀ y ∈ fl, x + 8 * s.heap.size x ≠ y
  live : ∀ b ∈ s.live, s.heap.size b.1 = nunits b.2 ∧ b.2 ≤ 8 * (nunits b.2 - 1)
  total : ((fl ++ s.blocks).map s.heap.size).sum = (s.heap.regions.map Prod.snd).sum

lemma le_nunits {n : ℕ} (h : n < 2 ^ 30) : n ≤ 8 * (nunits n - 1) := by
  unfold nunits
  omega

lemma separate_of_gaps {h : Heap} {l : List ℕ} (hg : l.Pairwise fun x y => x + h.len x < y)
    (hpos : ∀ x ∈ l, 0 < h.size x) : ∀ x ∈ l, ∀ y ∈ l, x + 8 * h.size x ≠ y := by
  intro x hx y hy heq
  have hposx := hpos x hx
  obtain ⟨l1, l2, rfl⟩ := List.append_of_mem hx
  obtain ⟨-, hx2, hx1⟩ := List.pairwise_append.mp hg
  unfold len at *
  rcases List.mem_append.mp hy with hy | hy
  · have := hx1 y hy x List.mem_cons_self
    omega
  · rcases List.mem_cons.mp hy with rfl | hy
    · omega
    · have := (List.pairwise_cons.mp hx2).1 y hy
      omega

lemma Inv.safe (h : Inv base s) (h0 : 0 < base) : ∃ fl, Safe base s fl := by
  have hlive : ∀ b ∈ s.live, s.heap.size b.1 = nunits b.2 ∧ b.2 ≤ 8 * (nunits b.2 - 1) := fun b hb =>
    ⟨(h.live b hb).1, le_nunits (h.live b hb).2⟩
  rcases h.heap with ⟨hp, hr, hl⟩ | ⟨fl, hok⟩
  · have hbl : s.blocks = [] := by rw [blocks, hl]; rfl
    refine ⟨[], fun hne => absurd hp hne, fun _ => rfl, List.pairwise_singleton .., ?_, ?_, nofun,
      hlive, ?_⟩ <;> simp [hbl, hr]
  · have hpos : ∀ x ∈ fl ++ s.blocks, 0 < s.heap.size x := fun x hx => by
      have := hok.tiles.pos x hx
      unfold len at this
      omega
    have hne : s.heap.freep ≠ 0 := by
      have := hok.list.base_le hok.freep
      omega
    have htotal := hok.tiles.total
    unfold len at htotal
    rw [List.sum_map_mul_left] at htotal
    exact ⟨fl, fun _ => ⟨hok.list.circle, hok.freep⟩, fun hz => absurd hz hne, hok.list.sorted,
      hok.tiles.apart, fun x hx => ⟨hok.tiles.low x hx, hok.aligned x hx, hpos x hx⟩,
      separate_of_gaps (List.pairwise_cons.mp hok.list.gaps).2 fun x hx => hpos x (by simp [hx]), hlive,
      Nat.eq_of_mul_eq_mul_left (by omega) htotal⟩

theorem user_heap_safety {base : ℕ} {ptr size : ℕ → ℕ} {es : List Event} {s : State} (h0 : 0 < base)
    (hb : base + 8 < 2 ^ 32) (hr : Run (Step base) (init ptr size) es s) :
    (∃ fl, Safe base s fl) ∧ ∀ e, s.Allowed base e → ∃ s' k, ∀ fuel, k ≤ fuel →
    s.step base fuel e = some s' := by
  have h : Inv base s := hr.state_invariant (inv_init ptr size) fun _ _ _ h hs => h.step h0 hb hs
  refine ⟨h.safe h0, fun e ha => ?_⟩
  obtain ⟨s', k, hrun, -⟩ := h.returns h0 hb ha
  exact ⟨s', k, hrun⟩

theorem user_heap_safety_malloc :
    ∃ s, Run (Step 16) (init (fun _ => 0) fun _ => 0) [.malloc 100 [some 4096]] s ∧
    s.live = [(36752, 100)] ∧ (∃ fl, Safe 16 s fl) ∧ ∃ s', Step 16 s (.free 36760) s' := by
  obtain ⟨s, hs, hlive⟩ : ∃ s ∈ exec (State.step 16 10) (init (fun _ => 0) fun _ => 0)
    [.malloc 100 [some 4096]], s.live = [(36752, 100)] := by decide +kernel
  have hrun : Run (Step 16) (init (fun _ => 0) fun _ => 0) [.malloc 100 [some 4096]] s :=
    (run_of_exec hs).mono fun _ _ _ h => ⟨10, h⟩
  obtain ⟨hsafe, hret⟩ := user_heap_safety (by decide) (by decide) hrun
  obtain ⟨s', k, hs'⟩ := hret (.free 36760) ⟨(36752, 100), by simp [hlive], rfl⟩
  exact ⟨s, hrun, hlive, hsafe, s', k, hs' k le_rfl⟩

end State

end Xv6.Umalloc
