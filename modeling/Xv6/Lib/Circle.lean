import Mathlib.Data.List.Chain
import Mathlib.Tactic

namespace Xv6.Lib

variable {α : Type} {next next' : α → α} {b e x y z : α} {l l₁ l₂ : List α}

lemma chain_congr (h : List.IsChain (fun x y => next x = y) (l ++ [e])) (hn : ∀ x ∈ l, next' x = next x) :
    List.IsChain (fun x y => next' x = y) (l ++ [e]) := by
  induction l with
  | nil => exact .singleton _
  | cons x l ih =>
    have hrest := ih (List.isChain_of_isChain_cons h) fun y hy => hn y (List.mem_cons_of_mem _ hy)
    refine List.isChain_cons.mpr ⟨fun y hy => ?_, hrest⟩
    rw [hn x List.mem_cons_self]
    exact h.rel_head? hy

def Circle (next : α → α) (b : α) (l : List α) : Prop :=
    List.IsChain (fun x y => next x = y) (b :: l ++ [b])

namespace Circle

lemma congr (h : Circle next b l) (hn : ∀ x ∈ b :: l, next' x = next x) : Circle next' b l :=
  chain_congr h hn

lemma rotate (h : Circle next b l) (hx : x ∈ b :: l) : ∃ r, Circle next x r ∧ (x :: r).Perm (b :: l) := by
  obtain ⟨l₁, l₂, heq⟩ := List.append_of_mem hx
  cases l₁ with
  | nil =>
    obtain ⟨rfl, rfl⟩ := List.cons.inj heq
    exact ⟨l, h, .refl _⟩
  | cons c l₁ =>
    obtain ⟨rfl, rfl⟩ := List.cons.inj heq
    refine ⟨l₂ ++ b :: l₁, ?_, ?_⟩
    · have hsplit : List.IsChain (fun x y => next x = y)
        ((b :: l₁) ++ x :: (l₂ ++ [b])) := by simpa [Circle] using h
      obtain ⟨h1, h2⟩ := List.isChain_split.mp hsplit
      have hjoin : List.IsChain (fun x y => next x = y) ((x :: l₂) ++ b :: (l₁ ++ [x])) :=
        List.isChain_split.mpr ⟨by simpa using h2, by simpa using h1⟩
      simpa [Circle] using hjoin
    · have hcomm : ((x :: l₂) ++ (b :: l₁)).Perm ((b :: l₁) ++ (x :: l₂)) := List.perm_append_comm
      simpa using hcomm

lemma next_mem (h : Circle next b l) (hx : x ∈ b :: l) : next x ∈ b :: l := by
  obtain ⟨r, hr, hperm⟩ := h.rotate hx
  refine hperm.mem_iff.mp ?_
  cases r with
  | nil =>
    have hx : next x = x := (List.isChain_cons_cons.mp hr).1
    rw [hx]
    exact List.mem_cons_self
  | cons c r => exact (List.isChain_cons_cons.mp hr).1 ▸ List.mem_cons_of_mem _ List.mem_cons_self

end Circle

def walk (next : α → α) (stop : α → Bool) : ℕ → α → Option α
  | 0, _ => none
  | fuel + 1, x => if stop x then some x else walk next stop fuel (next x)

lemma walk_mono {stop : α → Bool} {m n : ℕ} (h : walk next stop n x = some z) (hle : n ≤ m) :
    walk next stop m x = some z := by
  induction n generalizing m x with
  | zero => cases h
  | succ n ih =>
    obtain ⟨m, rfl⟩ := Nat.exists_eq_add_one.mpr (Nat.zero_lt_of_lt hle)
    rw [walk] at h ⊢
    split_ifs at h ⊢ with hs
    · exact h
    · exact ih h (Nat.le_of_succ_le_succ hle)

lemma walk_chain (stop : α → Bool) (h : List.IsChain (fun x y => next x = y) (x :: l ++ [e]))
    (hy : y ∈ x :: l) (hs : stop y = true) : ∃ z ∈ x :: l, stop z = true ∧ ∀ fuel, l.length < fuel →
    walk next stop fuel x = some z := by
  induction l generalizing x with
  | nil =>
    obtain rfl := List.mem_singleton.mp hy
    refine ⟨y, hy, hs, fun fuel hf => ?_⟩
    obtain ⟨fuel, rfl⟩ := Nat.exists_eq_add_one.mpr hf
    rw [walk, if_pos hs]
  | cons c l ih =>
    have hfuel : ∀ fuel, (c :: l).length < fuel → ∃ n, fuel = n + 1 ∧ l.length < n := fun fuel hf =>
      ⟨fuel - 1, by simp at hf; omega, by simp at hf; omega⟩
    cases hx : stop x with
    | true =>
      refine ⟨x, List.mem_cons_self, hx, fun fuel hf => ?_⟩
      obtain ⟨n, rfl, -⟩ := hfuel fuel hf
      rw [walk, if_pos hx]
    | false =>
      obtain ⟨hxc, hrest⟩ := List.isChain_cons_cons.mp h
      have hyc : y ∈ c :: l := (List.mem_cons.mp hy).resolve_left fun heq => by
        rw [← heq, hs] at hx
        cases hx
      obtain ⟨z, hz, hsz, hw⟩ := ih hrest hyc
      refine ⟨z, List.mem_cons_of_mem _ hz, hsz, fun fuel hf => ?_⟩
      obtain ⟨n, rfl, hn⟩ := hfuel fuel hf
      rw [walk, hx, if_neg Bool.false_ne_true, hxc]
      exact hw n hn

lemma Circle.walk (stop : α → Bool) (h : Circle next b l) (hx : x ∈ b :: l) (hy : y ∈ b :: l)
    (hs : stop y = true) :
    ∃ z ∈ b :: l, stop z = true ∧ ∀ fuel, l.length < fuel → walk next stop fuel x = some z := by
  obtain ⟨r, hr, hperm⟩ := h.rotate hx
  have hlen : r.length = l.length := by simpa using hperm.length_eq
  obtain ⟨z, hz, hsz, hw⟩ := walk_chain stop hr (hperm.mem_iff.mpr hy) hs
  exact ⟨z, hperm.mem_iff.mp hz, hsz, hlen ▸ hw⟩

end Xv6.Lib
