import Mathlib.Tactic
import Mathlib.Data.List.Perm.Basic
import Mathlib.Algebra.BigOperators.Group.List.Basic

namespace Xv6.Lib

def Apart (len : ℕ → ℕ) (x y : ℕ) : Prop := x + len x ≤ y ∨ y + len y ≤ x

instance (len : ℕ → ℕ) : Std.Symm (Apart len) := ⟨fun _ _ h => Or.symm h⟩

structure Tiling (len : ℕ → ℕ) (bs : List ℕ) (lo hi total : ℕ) : Prop where
  apart : bs.Pairwise (Apart len)
  pos : ∀ x ∈ bs, 0 < len x
  low : ∀ x ∈ bs, lo ≤ x
  high : ∀ x ∈ bs, x + len x ≤ hi
  total : (bs.map len).sum = total

namespace Tiling

variable {len len' : ℕ → ℕ} {bs bs' : List ℕ} {lo hi total x y n : ℕ}

section

variable (h : Tiling len bs lo hi total)
include h

lemma perm (hp : bs.Perm bs') : Tiling len bs' lo hi total where
  apart := (hp.pairwise_iff fun h => Or.symm h).mp h.apart
  pos x hx := h.pos x (hp.mem_iff.mpr hx)
  low x hx := h.low x (hp.mem_iff.mpr hx)
  high x hx := h.high x (hp.mem_iff.mpr hx)
  total := by rw [← h.total, (hp.map len).sum_eq]

lemma congr (hl : ∀ x ∈ bs, len' x = len x) : Tiling len' bs lo hi total where
  apart := h.apart.imp_of_mem fun {x y} hx hy hxy => by
    unfold Apart
    rw [hl x hx, hl y hy]
    exact hxy
  pos x hx := by rw [hl x hx]; exact h.pos x hx
  low := h.low
  high x hx := by rw [hl x hx]; exact h.high x hx
  total := by rw [← h.total, List.map_congr_left hl]

lemma nodup : bs.Nodup :=
  h.apart.imp_of_mem fun {x y} hx _ hxy heq => by
    subst heq
    have := h.pos x hx
    rcases hxy with hxy | hxy <;> omega

lemma apart_of_mem (hx : x ∈ bs) (hy : y ∈ bs) (hne : x ≠ y) : Apart len x y :=
  h.apart.forall hx hy hne

lemma notMem_of_inside (hx : x ∈ bs) (h1 : x < y) (h2 : y < x + len x) : y ∉ bs := by
  intro hy
  have := h.pos y hy
  rcases h.apart_of_mem hx hy h1.ne with hxy | hxy <;> omega

end

lemma cons_iff : Tiling len (x :: bs) lo hi total ↔ (∀ y ∈ bs, Apart len x y) ∧ 0 < len x ∧ lo ≤ x ∧
    x + len x ≤ hi ∧ ∃ t, total = len x + t ∧ Tiling len bs lo hi t := by
  constructor
  · rintro ⟨h1, h2, h3, h4, h5⟩
    simp only [List.pairwise_cons, List.forall_mem_cons] at h1 h2 h3 h4
    rw [List.map_cons, List.sum_cons] at h5
    exact ⟨h1.1, h2.1, h3.1, h4.1, _, h5.symm, h1.2, h2.2, h3.2, h4.2, rfl⟩
  · rintro ⟨h1, h2, h3, h4, t, ht, h⟩
    refine ⟨List.pairwise_cons.mpr ⟨h1, h.apart⟩, List.forall_mem_cons.mpr ⟨h2, h.pos⟩,
      List.forall_mem_cons.mpr ⟨h3, h.low⟩, List.forall_mem_cons.mpr ⟨h4, h.high⟩, ?_⟩
    rw [List.map_cons, List.sum_cons, h.total, ht]

lemma mono {hi' : ℕ} (h : Tiling len bs lo hi total) (hle : hi ≤ hi') : Tiling len bs lo hi' total :=
  ⟨h.apart, h.pos, h.low, fun x hx => (h.high x hx).trans hle, h.total⟩

lemma add (h : Tiling len bs lo hi total) (hlo : lo ≤ x) (hhi : hi ≤ x) (hpos : 0 < len x) :
    Tiling len (x :: bs) lo (x + len x) (len x + total) :=
  cons_iff.mpr ⟨fun y hy => .inr ((h.high y hy).trans hhi), hpos, hlo, le_rfl, _, rfl, h.mono (by omega)⟩

lemma split (h : Tiling len (x :: bs) lo hi total) (hn : 0 < n) (hlt : n < len x)
    (hx : len' x = len x - n) (hy : len' (x + (len x - n)) = n) (hl : ∀ z ∈ bs, len' z = len z) :
    Tiling len' ((x + (len x - n)) :: x :: bs) lo hi total := by
  obtain ⟨h1, h2, h3, h4, t, ht, hbs⟩ := cons_iff.mp h
  refine cons_iff.mpr ⟨?_, by omega, by omega, by omega, len x - n + t, by omega,
    cons_iff.mpr ⟨fun z hz => ?_, by omega, h3, by omega, t, by omega, hbs.congr hl⟩⟩
  · refine List.forall_mem_cons.mpr ⟨.inr (by omega), fun z hz => ?_⟩
    have := hbs.pos z hz
    rw [Apart, hy, hl z hz]
    rcases h1 z hz with hxz | hxz <;> omega
  · rw [Apart, hx, hl z hz]
    rcases h1 z hz with hxz | hxz <;> omega

lemma merge (h : Tiling len (x :: y :: bs) lo hi total) (heq : x + len x = y)
    (hx : len' x = len x + len y)
    (hl : ∀ z ∈ bs, len' z = len z) : Tiling len' (x :: bs) lo hi total := by
  obtain ⟨h1, h2, h3, h4, t, ht, hy⟩ := cons_iff.mp h
  obtain ⟨h1', h2', -, h4', t', ht', hbs⟩ := cons_iff.mp hy
  refine cons_iff.mpr ⟨fun z hz => ?_, by omega, h3, by omega, t', by omega, hbs.congr hl⟩
  have := hbs.pos z hz
  rw [Apart, hx, hl z hz]
  rcases h1 z (List.mem_cons_of_mem _ hz) with hxz | hxz <;> rcases h1' z hz with hyz | hyz <;> omega

end Tiling

end Xv6.Lib
