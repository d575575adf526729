import Xv6.Lib.Assign

namespace Xv6.Lib.Writes

variable {V : Type}

def applyWrites (d : ℕ → V) (ws : List (ℕ × V)) : ℕ → V :=
  ws.foldl (fun d w => assign d w.1 w.2) d

@[simp] lemma applyWrites_nil (d : ℕ → V) : applyWrites d [] = d := rfl

@[simp] lemma applyWrites_cons (d : ℕ → V) (w : ℕ × V) (ws : List (ℕ × V)) :
    applyWrites d (w :: ws) = applyWrites (assign d w.1 w.2) ws := rfl

lemma applyWrites_append (d : ℕ → V) (ws vs : List (ℕ × V)) :
    applyWrites d (ws ++ vs) = applyWrites (applyWrites d ws) vs := List.foldl_append

lemma applyWrites_of_notMem {d : ℕ → V} {ws : List (ℕ × V)} {x : ℕ} (h : ∀ w ∈ ws, w.1 ≠ x) :
    applyWrites d ws x = d x := by
  induction ws generalizing d with
  | nil => rfl
  | cons w ws ih =>
    rw [applyWrites_cons, ih (fun v hv => h v (List.mem_cons_of_mem _ hv)),
      assign_of_ne (Ne.symm (h w List.mem_cons_self))]

lemma applyWrites_of_mem {d : ℕ → V} {ws : List (ℕ × V)} {x : ℕ} {v : V}
    (hn : (ws.map Prod.fst).Nodup) (h : (x, v) ∈ ws) : applyWrites d ws x = v := by
  induction ws generalizing d with
  | nil => simp at h
  | cons w ws ih =>
    rw [List.map_cons, List.nodup_cons] at hn
    rcases List.mem_cons.mp h with rfl | h
    · rw [applyWrites_cons, applyWrites_of_notMem, assign_self]
      rintro u hu rfl
      exact hn.1 (List.mem_map.mpr ⟨u, hu, rfl⟩)
    · exact ih hn.2 h

end Xv6.Lib.Writes
