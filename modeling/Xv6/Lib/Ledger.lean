import Xv6.Lib.Assign

namespace Xv6.Lib

/-- `r i s` is the cell that slot `s` of row `i` holds, `0` if none; `used` marks the cells
below `lo` and those that a slot holds, and no others. -/
structure Ledger (lo hi n m : ℕ) (r : ℕ → ℕ → ℕ) (used : ℕ → Bool) : Prop where
  range : ∀ i < n, ∀ s < m, r i s ≠ 0 → lo ≤ r i s ∧ r i s < hi
  inj : ∀ i < n, ∀ s < m, ∀ j < n, ∀ t < m, r i s ≠ 0 → r i s = r j t → i = j ∧ s = t
  bits : ∀ b < hi, used b = true ↔ b < lo ∨ ∃ i < n, ∃ s < m, r i s = b

namespace Ledger

def upd (r : ℕ → ℕ → ℕ) (i s b : ℕ) : ℕ → ℕ → ℕ := fun j t => if j = i ∧ t = s then b else r j t

lemma upd_self (r : ℕ → ℕ → ℕ) (i s b : ℕ) : upd r i s b i s = b := by
  simp [upd]

lemma upd_of_ne (r : ℕ → ℕ → ℕ) {i s j t : ℕ} (b : ℕ) (h : ¬ (j = i ∧ t = s)) :
    upd r i s b j t = r j t := by
  simp [upd, h]

variable {lo hi n m : ℕ} {r r' : ℕ → ℕ → ℕ} {used used' : ℕ → Bool}

lemma exists_upd_iff {i s b c : ℕ} (hr : r i s ≠ c) (hb : b ≠ c) :
    (∃ j < n, ∃ t < m, upd r i s b j t = c) ↔ ∃ j < n, ∃ t < m, r j t = c := by
  refine exists_congr fun j => and_congr_right fun _ => exists_congr fun t => and_congr_right fun _ => ?_
  by_cases hjt : j = i ∧ t = s
  · rw [hjt.1, hjt.2, upd_self]
    exact iff_of_false hb hr
  · rw [upd_of_ne r b hjt]

section

variable (h : Ledger lo hi n m r used)
include h

lemma congr (hr : ∀ i < n, ∀ s < m, r' i s = r i s) (hu : ∀ b < hi, used' b = used b) :
    Ledger lo hi n m r' used' where
  range i hi' s hs := by
    rw [hr i hi' s hs]
    exact h.range i hi' s hs
  inj i hi' s hs j hj t ht := by
    rw [hr i hi' s hs, hr j hj t ht]
    exact h.inj i hi' s hs j hj t ht
  bits b hb := by
    rw [hu b hb, h.bits b hb]
    refine or_congr Iff.rfl ⟨?_, ?_⟩
    · rintro ⟨i, hi', s, hs, he⟩
      exact ⟨i, hi', s, hs, (hr i hi' s hs).trans he⟩
    · rintro ⟨i, hi', s, hs, he⟩
      exact ⟨i, hi', s, hs, (hr i hi' s hs).symm.trans he⟩

lemma lo_le_of_unused {b : ℕ} (hb : b < hi) (hu : used b = false) : lo ≤ b := by
  by_contra hlt
  have := (h.bits b hb).mpr (.inl (by omega))
  simp [hu] at this

lemma ne_of_unused {b : ℕ} (hb : b < hi) (hu : used b = false) {i s : ℕ} (hi' : i < n)
    (hs : s < m) : r i s ≠ b := by
  intro he
  have := (h.bits b hb).mpr (.inr ⟨i, hi', s, hs, he⟩)
  simp [hu] at this

lemma used_of_ref {i s : ℕ} (hi' : i < n) (hs : s < m) (hr : r i s ≠ 0) : used (r i s) = true :=
  (h.bits _ (h.range i hi' s hs hr).2).mpr (.inr ⟨i, hi', s, hs, rfl⟩)

lemma give {i s b : ℕ} (hlo : 0 < lo) (hi' : i < n) (hs : s < m) (hr : r i s = 0)
    (hb : b < hi) (hu : used b = false) : Ledger lo hi n m (upd r i s b) (assign used b true) where
  range j hj t ht hne := by
    by_cases hjt : j = i ∧ t = s
    · rw [hjt.1, hjt.2, upd_self]
      exact ⟨h.lo_le_of_unused hb hu, hb⟩
    · rw [upd_of_ne r b hjt] at hne ⊢
      exact h.range j hj t ht hne
  inj j hj t ht k hk u hku hne he := by
    by_cases hjt : j = i ∧ t = s <;> by_cases hk' : k = i ∧ u = s
    · exact ⟨hjt.1.trans hk'.1.symm, hjt.2.trans hk'.2.symm⟩
    · rw [hjt.1, hjt.2, upd_self, upd_of_ne r b hk'] at he
      exact absurd he.symm (h.ne_of_unused hb hu hk hku)
    · rw [hk'.1, hk'.2, upd_self, upd_of_ne r b hjt] at he
      exact absurd he (h.ne_of_unused hb hu hj ht)
    · rw [upd_of_ne r b hjt] at hne he
      rw [upd_of_ne r b hk'] at he
      exact h.inj j hj t ht k hk u hku hne he
  bits c hc := by
    have hlb := h.lo_le_of_unused hb hu
    by_cases hcb : c = b
    · subst hcb
      simp only [assign_self, true_iff]
      exact .inr ⟨i, hi', s, hs, upd_self r i s c⟩
    · rw [assign_of_ne hcb, h.bits c hc]
      by_cases hcl : c < lo
      · simp [hcl]
      rw [exists_upd_iff (by omega) (Ne.symm hcb)]

lemma take {i s : ℕ} (hlo : 0 < lo) (hi' : i < n) (hs : s < m) (hr : r i s ≠ 0) :
    Ledger lo hi n m (upd r i s 0) (assign used (r i s) false) where
  range j hj t ht hne := by
    by_cases hjt : j = i ∧ t = s
    · rw [hjt.1, hjt.2, upd_self] at hne
      exact absurd rfl hne
    · rw [upd_of_ne r 0 hjt] at hne ⊢
      exact h.range j hj t ht hne
  inj j hj t ht k hk u hku hne he := by
    by_cases hjt : j = i ∧ t = s
    · rw [hjt.1, hjt.2, upd_self] at hne
      exact absurd rfl hne
    by_cases hk' : k = i ∧ u = s
    · rw [hk'.1, hk'.2, upd_self] at he
      exact absurd he hne
    rw [upd_of_ne r 0 hjt] at hne he
    rw [upd_of_ne r 0 hk'] at he
    exact h.inj j hj t ht k hk u hku hne he
  bits c hc := by
    have hrange := h.range i hi' s hs hr
    by_cases hcb : c = r i s
    · subst hcb
      simp only [assign_self, Bool.false_eq_true, false_iff, not_or, not_exists, not_and]
      refine ⟨by omega, fun j hj t ht he => ?_⟩
      by_cases hjt : j = i ∧ t = s
      · rw [hjt.1, hjt.2, upd_self] at he
        exact hr he.symm
      · rw [upd_of_ne r 0 hjt] at he
        exact hjt ((h.inj i hi' s hs j hj t ht hr he.symm).imp Eq.symm Eq.symm)
    · rw [assign_of_ne hcb, h.bits c hc]
      by_cases hcl : c < lo
      · simp [hcl]
      rw [exists_upd_iff (Ne.symm hcb) (by omega)]

end

end Ledger

end Xv6.Lib
