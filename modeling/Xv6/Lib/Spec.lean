import Mathlib.Tactic

namespace Xv6.Lib

variable {S E α β : Type}

def Spec (m : StateT S (Except E) α) (s : S) (Q : α → S → Prop) (B : E → Prop) : Prop :=
  match m.run s with
  | .ok (a, s') => Q a s'
  | .error e => B e

namespace Spec

variable {m : StateT S (Except E) α} {s : S} {Q : α → S → Prop} {B : E → Prop}

lemma pure {a : α} (h : Q a s) : Spec (Pure.pure a) s Q B := h

lemma throw {e : E} (h : B e) : Spec (MonadExcept.throw e : StateT S (Except E) α) s Q B := h

lemma get {Q : S → S → Prop} (h : Q s s) : Spec (MonadState.get : StateT S (Except E) S) s Q B := h

lemma set {t : S} {Q : PUnit → S → Prop} (h : Q ⟨⟩ t) :
    Spec (MonadStateOf.set t : StateT S (Except E) PUnit) s Q B := h

lemma modify {f : S → S} {Q : PUnit → S → Prop} (h : Q ⟨⟩ (f s)) :
    Spec (modify f : StateT S (Except E) PUnit) s Q B := h

lemma bind {f : α → StateT S (Except E) β} {Q : β → S → Prop}
    (h : Spec m s (fun a s' => Spec (f a) s' Q B) B) : Spec (m >>= f) s Q B := by
  unfold Spec at h ⊢
  rw [StateT.run_bind]
  cases hm : m.run s with
  | error e =>
    rw [hm] at h
    exact h
  | ok r =>
    rw [hm] at h
    exact h

lemma of_bind {f : α → StateT S (Except E) β} {Q : β → S → Prop} (h : Spec (m >>= f) s Q B) :
    Spec m s (fun a s' => Spec (f a) s' Q B) B := by
  unfold Spec at h ⊢
  rw [StateT.run_bind] at h
  cases hm : m.run s with
  | error e =>
    rw [hm] at h
    exact h
  | ok r =>
    rw [hm] at h
    exact h

lemma mono {Q' : α → S → Prop} {B' : E → Prop} (h : Spec m s Q B) (hq : ∀ a s', Q a s' → Q' a s')
    (hb : ∀ e, B e → B' e) : Spec m s Q' B' := by
  unfold Spec at h ⊢
  cases hm : m.run s with
  | error e =>
    rw [hm] at h
    exact hb e h
  | ok r =>
    rw [hm] at h
    exact hq r.1 r.2 h

lemma imp {Q' : α → S → Prop} (h : Spec m s Q B) (hq : ∀ a s', Q a s' → Q' a s') : Spec m s Q' B :=
  h.mono hq (fun _ he => he)

lemma of_run_ok {a : α} {s' : S} (h : Spec m s Q B) (hr : m.run s = .ok (a, s')) : Q a s' := by
  unfold Spec at h
  rwa [hr] at h

lemma of_run_error {e : E} (h : Spec m s Q B) (hr : m.run s = .error e) : B e := by
  unfold Spec at h
  rwa [hr] at h

lemma run_ok {Q' : α → S → Prop} (h : Spec m s Q B) (h' : Spec m s Q' (fun _ => False)) :
    ∃ a s', m.run s = .ok (a, s') ∧ Q a s' := by
  cases hm : m.run s with
  | error e => exact (h'.of_run_error hm).elim
  | ok r => exact ⟨r.1, r.2, rfl, h.of_run_ok hm⟩

end Spec

end Xv6.Lib
