import Mathlib.Tactic

namespace Xv6.Lib

variable {ι α : Type} [DecidableEq ι]

/-- `Function.update` without its cast, which keeps the kernel from evaluating it. -/
def assign (f : ι → α) (a : ι) (v : α) : ι → α := fun x => if x = a then v else f x

lemma assign_apply (f : ι → α) (a x : ι) (v : α) : assign f a v x = if x = a then v else f x := rfl

@[simp] lemma assign_self (f : ι → α) (a : ι) (v : α) : assign f a v a = v := if_pos rfl

lemma assign_of_ne {a x : ι} (h : x ≠ a) (f : ι → α) (v : α) : assign f a v x = f x := if_neg h

lemma of_assign_eq {f : ι → α} {a x : ι} {v w : α} (h : assign f a v x = w) (hne : v ≠ w) :
    x ≠ a ∧ f x = w := by
  rw [assign_apply] at h
  split_ifs at h with hx
  · exact absurd h hne
  · exact ⟨hx, h⟩

@[simp] lemma assign_assign (f : ι → α) (a : ι) (v w : α) : assign (assign f a v) a w = assign f a w := by
  funext x
  unfold assign
  split_ifs <;> rfl

lemma assign_eq_self {f : ι → α} {a : ι} {v : α} (h : f a = v) : assign f a v = f := by
  funext x
  unfold assign
  split_ifs with hx
  · rw [hx, h]
  · rfl

end Xv6.Lib
