import Xv6.Lib.Assign

namespace Xv6.Lib

variable {ι α : Type}

def pairs (d s : ℕ → ι) (n : ℕ) : List (ι × ι) := (List.range n).map (fun i => (d i, s i))

variable {d s : ℕ → ι} {p : ι × ι} {i n : ℕ}

lemma mem_pairs : p ∈ pairs d s n ↔ ∃ i < n, p = (d i, s i) := by
  simp [pairs, eq_comm]

lemma pairs_succ (d s : ℕ → ι) (n : ℕ) : pairs d s (n + 1) = pairs d s n ++ [(d n, s n)] := by
  simp [pairs, List.range_succ]

lemma pairs_succ_eq_cons (d s : ℕ → ι) (n : ℕ) :
    pairs d s (n + 1) = (d 0, s 0) :: pairs (fun i => d (i + 1)) (fun i => s (i + 1)) n := by
  simp [pairs, List.range_succ_eq_map, Function.comp_def]

lemma pairs_pairwise (R : ι × ι → ι × ι → Prop) (h : ∀ i j, i < j → j < n → R (d i, s i) (d j, s j)) :
    (pairs d s n).Pairwise R := by
  rw [pairs, List.pairwise_map]
  refine (List.pairwise_lt_range (n := n)).imp_of_mem (fun {i j} _ hj hij => ?_)
  exact h i j hij (List.mem_range.mp hj)

variable [DecidableEq ι]

def copySeq (f : ι → α) : List (ι × ι) → ι → α
  | [] => f
  | p :: l => copySeq (assign f p.1 (f p.2)) l

variable {f : ι → α} {l : List (ι × ι)} {x : ι}

lemma copySeq_snoc (f : ι → α) (l : List (ι × ι)) (p : ι × ι) :
    copySeq f (l ++ [p]) = assign (copySeq f l) p.1 (copySeq f l p.2) := by
  induction l generalizing f with
  | nil => rfl
  | cons q l ih => exact ih _

lemma copySeq_of_ne (h : ∀ p ∈ l, x ≠ p.1) : copySeq f l x = f x := by
  induction l generalizing f with
  | nil => rfl
  | cons q l ih =>
    rw [copySeq, ih (fun p hp => h p (List.mem_cons_of_mem _ hp))]
    exact assign_of_ne (h q (List.mem_cons_self ..)) ..

def copyUp (next : ι → ι) (f : ι → α) (d s : ι) : ℕ → ι → α
  | 0 => f
  | n + 1 => copyUp next (assign f d (f s)) (next d) (next s) n

lemma copySeq_of_pairwise (h : l.Pairwise (fun p q => q.1 ≠ p.1 ∧ q.2 ≠ p.1)) (hp : p ∈ l) :
    copySeq f l p.1 = f p.2 := by
  induction l generalizing f with
  | nil => cases hp
  | cons q l ih =>
    obtain ⟨hq, hl⟩ := List.pairwise_cons.mp h
    rcases List.mem_cons.mp hp with rfl | hp
    · rw [copySeq, copySeq_of_ne (fun r hr => (hq r hr).1.symm), assign_self]
    · rw [copySeq, ih hl hp, assign_of_ne (hq p hp).2]

lemma copyUp_eq (next : ι → ι) (f : ι → α) (d s : ι) (n : ℕ) :
    copyUp next f d s n = copySeq f (pairs (fun i => next^[i] d) (fun i => next^[i] s) n) := by
  induction n generalizing f d s with
  | zero => rfl
  | succ n ih =>
    rw [copyUp, ih, pairs_succ_eq_cons, copySeq]
    rfl

lemma copySeq_pairs (hd : ∀ i j, i < j → j < n → d i ≠ d j) (hi : i < n) :
    copySeq f (pairs d s n) (d i) = copySeq f (pairs d s i) (s i) := by
  induction n with
  | zero => exact absurd hi (Nat.not_lt_zero i)
  | succ n ih =>
    rw [pairs_succ, copySeq_snoc]
    rcases Nat.lt_succ_iff_lt_or_eq.mp hi with hlt | rfl
    · rw [assign_of_ne (hd i n hlt (Nat.lt_succ_self n))]
      exact ih (fun i j hij hj => hd i j hij (Nat.lt_succ_of_lt hj)) hlt
    · rw [assign_self]

lemma copySeq_shift_iff {k : ℕ} (hk : 0 < k) (hd : ∀ i j, i < j → j < n → d i ≠ d j)
    (hshift : ∀ i, i + k < n → s (i + k) = d i) (hfree : ∀ i j, i < k → j < i → i < n → s i ≠ d j) :
    (∀ i < n, copySeq f (pairs d s n) (d i) = f (s i)) ↔ ∀ i, i + k < n → f (s (i + k)) = f (s i) := by
  have hlow : ∀ i < n, i < k → copySeq f (pairs d s n) (d i) = f (s i) := by
    intro i hi hik
    rw [copySeq_pairs hd hi]
    refine copySeq_of_ne (fun p hp => ?_)
    obtain ⟨j, hj, rfl⟩ := mem_pairs.mp hp
    exact hfree i j hik hj hi
  have hstep : ∀ i, i + k < n → copySeq f (pairs d s n) (d (i + k)) = copySeq f (pairs d s n) (d i) := by
    intro i hi
    have hd' : ∀ a b, a < b → b < i + k → d a ≠ d b := fun a b hab hb => hd a b hab (hb.trans hi)
    rw [copySeq_pairs hd hi, hshift i hi, copySeq_pairs hd' (by omega), copySeq_pairs hd (by omega)]
  constructor
  · intro h i hi
    rw [← h (i + k) hi, hstep i hi, h i (by omega)]
  · intro h i
    induction i using Nat.strong_induction_on with
    | _ i ih =>
      intro hi
      by_cases hik : i < k
      · exact hlow i hi hik
      · obtain ⟨j, rfl⟩ := Nat.exists_eq_add_of_le (not_lt.mp hik)
        rw [Nat.add_comm k j] at hi ⊢
        rw [hstep j hi, ih j (by omega) (by omega), h j hi]

end Xv6.Lib
