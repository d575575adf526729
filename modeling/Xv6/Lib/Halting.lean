import Mathlib.Tactic

namespace Xv6.Lib

variable {S E α β : Type}

abbrev Act (S E : Type) := ExceptT E (StateM S)

namespace Act

def on (m : Act S E α) (s : S) : Except E α × S := (ExceptT.run m).run s

@[simp] lemma on_pure (a : α) (s : S) : (pure a : Act S E α).on s = (.ok a, s) := rfl

@[simp] lemma on_get (s : S) : (get : Act S E S).on s = (.ok s, s) := rfl

@[simp] lemma on_modify (f : S → S) (s : S) : (modify f : Act S E PUnit).on s = (.ok ⟨⟩, f s) := rfl

lemma on_bind_ok {m : Act S E α} {f : α → Act S E β} {s s' : S} {a : α} (h : m.on s = (.ok a, s')) :
    (m >>= f).on s = (f a).on s' := by
  simp only [on] at h ⊢
  simp only [ExceptT.run_bind, StateT.run_bind, h]
  rfl

lemma on_bind_error {m : Act S E α} {f : α → Act S E β} {s s' : S} {e : E} (h : m.on s = (.error e, s')) :
    (m >>= f).on s = (.error e, s') := by
  simp only [on] at h ⊢
  simp only [ExceptT.run_bind, StateT.run_bind, h]
  rfl

def Wp (m : Act S E α) (s : S) (Q : α → S → Prop) (B : E → S → Prop) : Prop :=
  match m.on s with
  | (.ok a, s') => Q a s'
  | (.error e, s') => B e s'

namespace Wp

variable {m : Act S E α} {s s' : S} {Q Q' : α → S → Prop} {B B' : E → S → Prop}

lemma of_ok {a : α} (h : m.on s = (.ok a, s')) (hq : Q a s') : m.Wp s Q B := by
  rw [Wp, h]
  exact hq

lemma of_error {e : E} (h : m.on s = (.error e, s')) (hb : B e s') : m.Wp s Q B := by
  rw [Wp, h]
  exact hb

lemma ok {a : α} (hw : m.Wp s Q B) (h : m.on s = (.ok a, s')) : Q a s' := by
  rwa [Wp, h] at hw

lemma error {e : E} (hw : m.Wp s Q B) (h : m.on s = (.error e, s')) : B e s' := by
  rwa [Wp, h] at hw

lemma pure {a : α} (h : Q a s) : (Pure.pure a : Act S E α).Wp s Q B := h

lemma throw {e : E} (h : B e s) : (MonadExcept.throw e : Act S E α).Wp s Q B := h

lemma get {Q : S → S → Prop} (h : Q s s) : (MonadState.get : Act S E S).Wp s Q B := h

lemma set {t : S} {Q : PUnit → S → Prop} (h : Q ⟨⟩ t) : (MonadStateOf.set t : Act S E PUnit).Wp s Q B := h

lemma modify {f : S → S} {Q : PUnit → S → Prop} (h : Q ⟨⟩ (f s)) :
    (MonadStateOf.modifyGet (fun s => (PUnit.unit, f s)) : Act S E PUnit).Wp s Q B := h

lemma bind {f : α → Act S E β} {Q : β → S → Prop} (h : m.Wp s (fun a t => (f a).Wp t Q B) B) :
    (m >>= f).Wp s Q B := by
  rcases hm : m.on s with ⟨a | e, t⟩
  · rw [Wp, on_bind_error hm]
    exact h.error hm
  · rw [Wp, on_bind_ok hm]
    exact h.ok hm

lemma mono (h : m.Wp s Q B) (hq : ∀ a t, Q a t → Q' a t) (hb : ∀ e t, B e t → B' e t) : m.Wp s Q' B' := by
  rcases hm : m.on s with ⟨e | a, t⟩
  · exact of_error hm (hb e t (h.error hm))
  · exact of_ok hm (hq a t (h.ok hm))

lemma imp (h : m.Wp s Q B) (hq : ∀ a t, Q a t → Q' a t) : m.Wp s Q' B := h.mono hq (fun _ _ hb => hb)

lemma and (h : m.Wp s Q B) (h' : m.Wp s Q' B') :
    m.Wp s (fun a t => Q a t ∧ Q' a t) (fun e t => B e t ∧ B' e t) := by
  rcases hm : m.on s with ⟨e | a, t⟩
  · exact of_error hm ⟨h.error hm, h'.error hm⟩
  · exact of_ok hm ⟨h.ok hm, h'.ok hm⟩

lemma reached (h : m.Wp s Q B) : m.Wp s (fun a t => m.on s = (.ok a, t) ∧ Q a t) B := by
  rcases hm : m.on s with ⟨e | a, t⟩
  · exact of_error hm (h.error hm)
  · exact of_ok hm ⟨rfl, h.ok hm⟩

lemma outcome (h : m.Wp s Q B) : (∃ a t, Q a t) ∨ ∃ e t, B e t := by
  rcases hm : m.on s with ⟨e | a, t⟩
  · exact .inr ⟨e, t, h.error hm⟩
  · exact .inl ⟨a, t, h.ok hm⟩

lemma iff_of {c : Prop} (h : m.Wp s (fun a t => Q a t ↔ c) (fun _ _ => False)) :
    m.Wp s Q (fun _ _ => False) ↔ c := by
  rcases hm : m.on s with ⟨e | a, t⟩
  · exact (h.error hm).elim
  · exact ⟨fun hq => (h.ok hm).mp (hq.ok hm), fun hc => of_ok hm ((h.ok hm).mpr hc)⟩

lemma seq {f : α → Act S E β} {R : β → S → Prop} (h : m.Wp s Q B) (hf : ∀ a t, Q a t → (f a).Wp t R B) :
    (m >>= f).Wp s R B :=
  (h.imp hf).bind

end Wp

-- the rules above are to be used, not the outcome of the computation
attribute [irreducible] Wp

end Act

end Xv6.Lib
