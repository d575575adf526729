import Mathlib.Algebra.BigOperators.Group.Finset.Basic
import Mathlib.Algebra.Order.BigOperators.Group.Finset
import Mathlib.Data.Fintype.Basic
import Xv6.Lib.Assign

namespace Xv6.Lib

variable {ι κ : Type} [Fintype ι] [DecidableEq ι] [DecidableEq κ]

lemma sum_frame (g g' : ι → ℕ) (a : ι) (h : ∀ i, i ≠ a → g' i = g i) : ∑ i, g' i + g a = ∑ i,
    g i + g' a := by
  have hrest : ∑ i ∈ Finset.univ.erase a, g' i = ∑ i ∈ Finset.univ.erase a, g i :=
    Finset.sum_congr rfl fun i hi => h i (Finset.ne_of_mem_erase hi)
  rw [← Finset.sum_erase_add _ g' (Finset.mem_univ a), ← Finset.sum_erase_add _ g
    (Finset.mem_univ a), hrest]
  omega

lemma add_le_sum {g : ι → ℕ} {a b : ι} (h : a ≠ b) : g a + g b ≤ ∑ i, g i := by
  rw [← Finset.sum_pair h]
  exact Finset.sum_le_univ_sum_of_nonneg fun _ => Nat.zero_le _

def uses (v : ι → Option κ) (k : κ) : ℕ := ∑ i, if v i = some k then 1 else 0

lemma uses_assign (v : ι → Option κ) (a : ι) (o : Option κ) (k : κ) :
    uses (assign v a o) k + (if v a = some k then 1 else 0) = uses v k + if o = some k then 1 else 0 := by
  have h := sum_frame (fun i => if v i = some k then 1 else 0)
    (fun i => if assign v a o i = some k then 1 else 0) a fun i hi => by rw [assign_of_ne hi]
  rwa [assign_self] at h

omit [DecidableEq ι] in
lemma uses_pos {v : ι → Option κ} {a : ι} {k : κ} (h : v a = some k) : 0 < uses v k := by
  refine Finset.sum_pos' (fun _ _ => Nat.zero_le _) ⟨a, Finset.mem_univ a, ?_⟩
  rw [if_pos h]
  exact Nat.one_pos

omit [DecidableEq ι] in
lemma exists_of_uses_pos {v : ι → Option κ} {k : κ} (h : 0 < uses v k) : ∃ a, v a = some k := by
  by_contra hno
  push Not at hno
  exact h.ne' (Finset.sum_eq_zero fun i _ => if_neg (hno i))

omit [DecidableEq ι] in
lemma sum_uses {σ : Type} [Fintype σ] (v : σ → ι → Option κ) (k : κ) :
    ∑ p, uses (v p) k = Finset.card {x : σ × ι | v x.1 x.2 = some k} := by
  simp only [uses, Finset.card_filter, ← Finset.univ_product_univ, Finset.sum_product]

end Xv6.Lib
