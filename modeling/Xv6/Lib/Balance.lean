import Xv6.Lib.Prog

namespace Xv6.Lib.Prog

variable {Op : Type} {Res : Op → Type} {α β S E : Type}

def counting (δ : Op → ℤ) (h : Handler Res S E) : Handler Res (S × ℤ) E := fun o t =>
  match (h o).run t.1 with
  | .ok (r, s) => .ok (r, (s, t.2 + δ o))
  | .error e => .error e

def Nets (δ : Op → ℤ) : ℤ → Prog Res α → Prop
  | d, pure _ => d = 0
  | d, op o k => ∀ r, Nets δ (d - δ o) (k r)

variable {δ : Op → ℤ} {d e : ℤ}

lemma Nets.pure (a : α) : Nets δ 0 (Pure.pure a : Prog Res α) := rfl

lemma Nets.bind {p : Prog Res α} {f : α → Prog Res β} (hp : Nets δ d p) (hf : ∀ a, Nets δ e (f a)) :
    Nets δ (d + e) (p >>= f) := by
  induction p generalizing d with
  | pure a =>
    have hd : d = 0 := hp
    rw [hd, zero_add]
    exact hf a
  | op o k ih =>
    intro r
    rw [add_sub_right_comm]
    exact ih r (hp r)

lemma Nets.seq {p : Prog Res α} {f : α → Prog Res β} (hp : Nets δ 0 p) (hf : ∀ a, Nets δ d (f a)) :
    Nets δ d (p >>= f) := by
  have := hp.bind hf
  rwa [zero_add] at this

lemma Nets.call {o : Op} (ho : δ o = d) : Nets δ d (call o : Prog Res (Res o)) :=
    fun _ => sub_eq_zero.2 ho.symm

lemma Nets.op {o : Op} {f : Res o → Prog Res α} (ho : δ o = 0) (hf : ∀ r, Nets δ d (f r)) :
    Nets δ d (Prog.call o >>= f) := fun r => by
  rw [ho, sub_zero]
  exact hf r

lemma Nets.ite {c : Prop} [Decidable c] {p q : Prog Res α} (hp : Nets δ d p) (hq : Nets δ d q) :
    Nets δ d (if c then p else q) := by
  split_ifs
  · exact hp
  · exact hq

variable {h : Handler Res S E} {p : Prog Res α} {s s' : S} {n n' : ℤ} {a : α}

lemma counting_ok {o : Op} {r : Res o} (hr : ((counting δ h) o).run (s, n) = .ok (r, (s', n'))) :
    (h o).run s = .ok (r, s') ∧ n' = n + δ o := by
  unfold counting at hr
  rw [StateT.run] at hr
  dsimp only at hr
  cases hh : (h o).run s with
  | error e =>
    rw [hh] at hr
    cases hr
  | ok x =>
    rw [hh] at hr
    cases hr
    exact ⟨rfl, rfl⟩

lemma run_op_ok {o : Op} {k : Res o → Prog Res α} (hr : ((op o k).run h).run s = .ok (a, s')) :
    ∃ r t, (h o).run s = .ok (r, t) ∧ ((k r).run h).run t = .ok (a, s') := by
  have hr : ((h o >>= fun r => (k r).run h).run s) = .ok (a, s') := hr
  rw [StateT.run_bind] at hr
  cases hh : (h o).run s with
  | error e =>
    rw [hh] at hr
    cases hr
  | ok x =>
    rw [hh] at hr
    exact ⟨x.1, x.2, rfl, hr⟩

lemma Nets.run (hp : Nets δ d p) (hr : (p.run (counting δ h)).run (s, n) = .ok (a, (s', n'))) :
    (p.run h).run s = .ok (a, s') ∧ n' = n + d := by
  induction p generalizing s n d with
  | pure b =>
    cases hr
    have hd : d = 0 := hp
    rw [hd, add_zero]
    exact ⟨rfl, rfl⟩
  | op o k ih =>
    obtain ⟨r, ⟨t, m⟩, ho, hk⟩ := run_op_ok hr
    obtain ⟨ho', rfl⟩ := counting_ok ho
    obtain ⟨hk', rfl⟩ := ih r (hp r) hk
    refine ⟨?_, by ring⟩
    show ((h o >>= fun r => (k r).run h).run s) = .ok (a, s')
    rw [StateT.run_bind, ho']
    exact hk'

end Xv6.Lib.Prog
