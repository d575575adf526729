import Xv6.Lib.Spec

/-! Programs over an interface of operations, run by any handler of the interface: weakest
preconditions, and the transfer of proofs from one handler to another that it simulates. -/

namespace Xv6.Lib

inductive Prog {Op : Type} (Res : Op → Type) (α : Type) : Type
  | pure (a : α) : Prog Res α
  | op (o : Op) (k : Res o → Prog Res α) : Prog Res α

namespace Prog

variable {Op : Type} {Res : Op → Type} {α β : Type}

def bind : Prog Res α → (α → Prog Res β) → Prog Res β
  | pure a, f => f a
  | op o k, f => op o (fun r => bind (k r) f)

instance : Monad (Prog Res) where
  pure := pure
  bind := bind

def call (o : Op) : Prog Res (Res o) := op o pure

abbrev Handler (Res : Op → Type) (S E : Type) : Type := (o : Op) → StateT S (Except E) (Res o)

variable {S E : Type}

def run (h : Handler Res S E) : Prog Res α → StateT S (Except E) α
  | pure a => Pure.pure a
  | op o k => h o >>= fun r => run h (k r)

lemma run_bind (h : Handler Res S E) (p : Prog Res α) (f : α → Prog Res β) :
    (p >>= f).run h = p.run h >>= fun a => (f a).run h := by
  induction p with
  | pure a => exact (pure_bind (m := StateT S (Except E)) a (fun a => (f a).run h)).symm
  | op o k ih =>
    rw [run, bind_assoc]
    exact congrArg (fun g => h o >>= g) (funext ih)

lemma run_bind_ok {h : Handler Res S E} {p : Prog Res α} {f : α → Prog Res β} {s s' : S} {a : α}
    (hp : (p.run h).run s = .ok (a, s')) : ((p >>= f).run h).run s = ((f a).run h).run s' := by
  rw [run_bind, StateT.run_bind, hp]
  rfl

lemma run_bind_error {h : Handler Res S E} {p : Prog Res α} {f : α → Prog Res β} {s : S} {e : E}
    (hp : (p.run h).run s = .error e) : ((p >>= f).run h).run s = .error e := by
  rw [run_bind, StateT.run_bind, hp]
  rfl

lemma run_call {h : Handler Res S E} {o : Op} {s : S} {r : Except E (Res o × S)} (ho : (h o).run s = r) :
    ((call o : Prog Res (Res o)).run h).run s = r := by
  have he : (call o : Prog Res (Res o)).run h = h o := bind_pure (h o)
  rw [he, ho]

def Wp (h : Handler Res S E) (P : S → Op → Prop) (B : E → Prop) (Q : α → S → Prop) : Prog Res α → S → Prop
  | pure a, s => Q a s
  | op o k, s => P s o ∧ Spec (h o) s (fun r s' => Wp h P B Q (k r) s') B

section

variable {h : Handler Res S E} {P : S → Op → Prop} {B : E → Prop} {s : S}

lemma wp_pure {a : α} {Q : α → S → Prop} (hq : Q a s) : Wp h P B Q (Pure.pure a) s := hq

lemma Wp.imp {p : Prog Res α} {Q Q' : α → S → Prop} (hw : Wp h P B Q p s)
    (hq : ∀ a s', Q a s' → Q' a s') : Wp h P B Q' p s := by
  induction p generalizing s with
  | pure a => exact hq a s hw
  | op o k ih => exact ⟨hw.1, hw.2.imp (fun r s' hr => ih r hr)⟩

lemma wp_bind {p : Prog Res α} {f : α → Prog Res β} {Q : β → S → Prop}
    (hw : Wp h P B (fun a s' => Wp h P B Q (f a) s') p s) : Wp h P B Q (p >>= f) s := by
  induction p generalizing s with
  | pure a => exact hw
  | op o k ih => exact ⟨hw.1, hw.2.imp (fun r s' hr => ih r hr)⟩

lemma wp_call {o : Op} {Q : Res o → S → Prop} (hp : P s o) (hs : Spec (h o) s Q B) :
    Wp h P B Q (call o) s :=
  ⟨hp, hs⟩

lemma Wp.spec {p : Prog Res α} {Q : α → S → Prop} (hw : Wp h P B Q p s) : Spec (p.run h) s Q B := by
  induction p generalizing s with
  | pure a => exact hw
  | op o k ih => exact Spec.bind (hw.2.imp (fun r s' hr => ih r hr))

end

def Matches {T : Type} (R : S → T → Prop) (short fault : E → Prop) (x : Except E (α × S))
    (y : Except E (α × T)) : Prop :=
  match y with
  | .ok (a, t) => (∃ s, x = .ok (a, s) ∧ R s t) ∨ ∃ e, x = .error e ∧ short e
  | .error e => fault e ∨ ∃ e', x = .error e' ∧ (e' = e ∨ short e')

lemma Matches.ok {T : Type} {R : S → T → Prop} {short fault : E → Prop} {x : α} {s : S} {t : T}
    (h : R s t) : Matches R short fault (.ok (x, s)) (.ok (x, t)) := .inl ⟨s, rfl, h⟩

lemma Matches.error {T : Type} {R : S → T → Prop} {short fault : E → Prop} (e : E) :
    Matches R short fault (.error e : Except E (α × S)) (.error e : Except E (α × T)) :=
    .inr ⟨e, rfl, .inl rfl⟩

def Simulates {T : Type} (h : Handler Res S E) (g : Handler Res T E) (R : S → T → Prop)
    (short fault : E → Prop) : Prop :=
  ∀ o s t, R s t → Matches R short fault ((h o).run s) ((g o).run t)

lemma Simulates.wp {T : Type} {h : Handler Res S E} {g : Handler Res T E} {R : S → T → Prop}
    {short fault : E → Prop}
    (hsim : Simulates h g R short fault) {P : T → Op → Prop} {B : E → Prop} {Q : α → T → Prop}
    {p : Prog Res α}
    {s : S} {t : T} (hR : R s t) (hB : ∀ e, fault e → ¬ B e) (hw : Wp g P B Q p t) :
    Wp h (fun s o => ∃ t, R s t ∧ P t o) (fun e => B e ∨ short e)
    (fun a s' => ∃ t', R s' t' ∧ Q a t') p s := by
  induction p generalizing s t with
  | pure a => exact ⟨t, hR, hw⟩
  | op o k ih =>
    refine ⟨⟨t, hR, hw.1⟩, ?_⟩
    have hstep := hsim o s t hR
    have hspec := hw.2
    unfold Spec at hspec ⊢
    cases hg : (g o).run t with
    | ok r =>
      rw [hg] at hstep hspec
      rcases hstep with ⟨s', hs, hR'⟩ | ⟨e, hs, he⟩
      · rw [hs]
        exact ih r.1 hR' hspec
      · rw [hs]
        exact .inr he
    | error e =>
      rw [hg] at hstep hspec
      rcases hstep with hf | ⟨e', hs, rfl | he⟩
      · exact absurd hspec (hB e hf)
      · rw [hs]
        exact .inl hspec
      · rw [hs]
        exact .inr he

end Prog

end Xv6.Lib
