import Mathlib.Tactic

namespace Xv6.Lib

variable {S E α β : Type}

def Yields (f : ℕ → StateT S (Except E) α) (s : S) (r : Except E (α × S)) : Prop :=
    ∃ n, ∀ k, n ≤ k → (f k).run s = r

namespace Yields

variable {f : ℕ → StateT S (Except E) α} {g : ℕ → α → StateT S (Except E) β} {s s' : S} {a : α}
  {r r' : Except E (α × S)} {t : Except E (β × S)}

lemma const {x : StateT S (Except E) α} (h : x.run s = r) : Yields (fun _ => x) s r := ⟨0, fun _ _ => h⟩

lemma of_succ (h : Yields (fun k => f (k + 1)) s r) : Yields f s r := by
  obtain ⟨n, hn⟩ := h
  refine ⟨n + 1, fun k hk => ?_⟩
  obtain ⟨k, rfl⟩ := Nat.exists_eq_add_of_le' (Nat.one_le_of_lt hk)
  exact hn k (by omega)

lemma bind (h : Yields f s (.ok (a, s'))) (hg : Yields (fun k => g k a) s' t) :
    Yields (fun k => f k >>= g k) s t := by
  obtain ⟨n, hn⟩ := h
  obtain ⟨m, hm⟩ := hg
  refine ⟨max n m, fun k hk => ?_⟩
  rw [StateT.run_bind, hn k (by omega)]
  exact hm k (by omega)

lemma bind_error {e : E} (h : Yields f s (.error e)) : Yields (fun k => f k >>= g k) s (.error e) := by
  obtain ⟨n, hn⟩ := h
  refine ⟨n, fun k hk => ?_⟩
  rw [StateT.run_bind, hn k hk]
  rfl

end Yields

end Xv6.Lib
