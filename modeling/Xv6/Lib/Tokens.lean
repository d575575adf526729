import Mathlib.Data.List.Count
import Mathlib.Tactic

namespace Xv6.Lib

variable {A R : Type} [DecidableEq R] {l : List (A × R)} {a b : A} {r x : R}

def tally (l : List (A × R)) (r : R) : ℕ := l.countP (fun t => t.2 = r)

@[simp, grind =] lemma tally_cons : tally ((a, r) :: l) x = tally l x + if r = x then 1 else 0 := by
  simp [tally, List.countP_cons]

lemma tally_pos (h : (a, r) ∈ l) : 0 < tally l r := List.countP_pos_iff.mpr ⟨(a, r), h, by simp⟩

lemma exists_mem_of_tally_pos (h : 0 < tally l r) : ∃ a, (a, r) ∈ l := by
  obtain ⟨⟨a, r'⟩, hmem, hr⟩ := List.countP_pos_iff.mp h
  obtain rfl : r' = r := by simpa using hr
  exact ⟨a, hmem⟩

variable [DecidableEq A]

lemma tally_erase_add (h : (a, r) ∈ l) :
    tally (l.erase (a, r)) x + (if r = x then 1 else 0) = tally l x := by
  rw [← tally_cons (a := a)]
  exact ((List.perm_cons_erase h).countP_eq _).symm

lemma count_le_tally : l.count (a, r) ≤ tally l r := by
  refine List.countP_mono_left fun t _ ht => ?_
  obtain rfl : t = (a, r) := by simpa using ht
  simp

lemma notMem_erase_of_tally_le_one (h : tally l r ≤ 1) (ha : (a, r) ∈ l) : (b, r) ∉ l.erase (a, r) := by
  intro hb
  have h1 := tally_pos hb
  have h2 := tally_erase_add (x := r) ha
  rw [if_pos rfl] at h2
  omega

lemma holder_unique (h : tally l r ≤ 1) (ha : (a, r) ∈ l) (hb : (b, r) ∈ l) : a = b := by
  by_contra hne
  exact notMem_erase_of_tally_le_one h ha ((List.mem_erase_of_ne (by simpa using Ne.symm hne)).mpr hb)

def SameTokens (l l' : List (A × R)) (r : R) : Prop :=
  tally l' r = tally l r ∧ ∀ a, (a, r) ∈ l' ↔ (a, r) ∈ l

namespace SameTokens

variable {l' : List (A × R)}

omit [DecidableEq A] in
lemma refl : SameTokens l l r := ⟨rfl, fun _ => Iff.rfl⟩

omit [DecidableEq A] in
lemma cons (h : SameTokens l l' r) (hx : r ≠ x) : SameTokens l ((a, x) :: l') r := by
  refine ⟨by rw [tally_cons, if_neg hx.symm, h.1, Nat.add_zero], fun b => ?_⟩
  rw [List.mem_cons, ← h.2 b]
  simp [hx]

lemma erase (h : SameTokens l l' r) (hx : r ≠ x) : SameTokens l (l'.erase (a, x)) r := by
  refine ⟨?_, fun b => (List.mem_erase_of_ne (by simp [hx])).trans (h.2 b)⟩
  by_cases hm : (a, x) ∈ l'
  · rw [← h.1, ← tally_erase_add hm, if_neg hx.symm, Nat.add_zero]
  · rw [List.erase_of_not_mem hm, h.1]

end SameTokens

lemma mem_erase_of_two (h : 2 ≤ l.count (a, r)) : (a, r) ∈ l.erase (a, r) := by
  apply List.count_pos_iff.mp
  rw [List.count_erase_self]
  omega

end Xv6.Lib
