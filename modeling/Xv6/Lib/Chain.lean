import Xv6.Lib.Assign

namespace Xv6.Lib

variable {α : Type}

def Chain (next : α → Option α) : Option α → List α → Prop
  | x, [] => x = none
  | x, b :: l => x = some b ∧ Chain next (next b) l

def lastNode (next : α → Option α) : ℕ → α → α
  | 0, b => b
  | fuel + 1, b =>
    match next b with
    | none => b
    | some c => lastNode next fuel c

namespace Chain

variable {next next' : α → Option α} {x : Option α} {l : List α} {a b : α}

lemma congr (h : Chain next x l) (hn : ∀ b ∈ l, next' b = next b) : Chain next' x l := by
  induction l generalizing x with
  | nil => exact h
  | cons b l ih =>
    refine ⟨h.1, ?_⟩
    rw [hn b (List.mem_cons_self ..)]
    exact ih h.2 (fun c hc => hn c (List.mem_cons_of_mem _ hc))

lemma lastNode {fuel : ℕ} (h : Chain next (some a) (a :: l)) (hf : l.length ≤ fuel) :
    lastNode next fuel a = (a :: l).getLast (List.cons_ne_nil a l) := by
  induction l generalizing a fuel with
  | nil =>
    have hn : next a = none := h.2
    cases fuel with
    | zero => rfl
    | succ fuel => simp [Lib.lastNode, hn]
  | cons c l ih =>
    obtain ⟨fuel, rfl⟩ := Nat.exists_eq_add_one.mpr (Nat.zero_lt_of_lt hf)
    have hn : next a = some c := h.2.1
    rw [Lib.lastNode, hn, List.getLast_cons (List.cons_ne_nil c l)]
    exact ih ⟨rfl, h.2.2⟩ (by simpa using hf)

variable [DecidableEq α]

lemma snoc (h : Chain next x l) (hnd : l.Nodup) (hb : b ∉ l) (hnb : next b = none) (hne : l ≠ []) :
    Chain (assign next (l.getLast hne) (some b)) x (l ++ [b]) := by
  induction l generalizing x with
  | nil => exact absurd rfl hne
  | cons a l ih =>
    obtain ⟨ha, hl⟩ := List.nodup_cons.mp hnd
    have hba : b ≠ a := fun heq => hb (heq ▸ List.mem_cons_self ..)
    cases l with
    | nil => exact ⟨h.1, by simp, by simpa [Chain, assign_of_ne hba] using hnb⟩
    | cons c l =>
      refine ⟨h.1, ?_⟩
      rw [List.getLast_cons (List.cons_ne_nil c l)]
      have hlast : a ≠ (c :: l).getLast (List.cons_ne_nil c l) := fun heq => ha (heq ▸ List.getLast_mem _)
      rw [assign_of_ne hlast]
      exact ih h.2 hl (fun hm => hb (List.mem_cons_of_mem _ hm)) _

end Chain

variable [DecidableEq α]

def enqueue (first : Option α) (next : α → Option α) (fuel : ℕ) (b : α) : Option α × (α → Option α) :=
  let next := assign next b none
  match first with
  | none => (some b, next)
  | some a => (some a, assign next (lastNode next fuel a) (some b))

lemma Chain.enqueue {next : α → Option α} {first : Option α} {l : List α} {b : α} {fuel : ℕ}
    (h : Chain next first l) (hnd : l.Nodup) (hb : b ∉ l) (hf : l.length ≤ fuel) :
    Chain (enqueue first next fuel b).2 (enqueue first next fuel b).1 (l ++ [b]) := by
  have h' : Chain (assign next b none) first l :=
    h.congr (fun c hc => assign_of_ne (ne_of_mem_of_not_mem hc hb) ..)
  cases l with
  | nil =>
    obtain rfl : first = none := h
    exact ⟨rfl, assign_self ..⟩
  | cons a l =>
    obtain rfl : first = some a := h.1
    simp only [Lib.enqueue]
    rw [h'.lastNode (le_trans (Nat.le_succ _) hf)]
    exact h'.snoc hnd hb (assign_self ..) _

end Xv6.Lib
