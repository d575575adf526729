import Mathlib.Data.List.Induction
import Mathlib.Tactic

namespace Xv6.Lib

variable {S E : Type}

inductive Run (step : S → E → S → Prop) (init : S) : List E → S → Prop
  | nil : Run step init [] init
  | snoc {es : List E} {s s' : S} {e : E} : Run step init es s → step s e s' →
      Run step init (es ++ [e]) s'

namespace Run

variable {step : S → E → S → Prop} {init : S}

lemma invariant {P : List E → S → Prop} (h0 : P [] init)
    (hs : ∀ es s e s', Run step init es s → P es s → step s e s' → P (es ++ [e]) s')
    {es : List E} {s : S} (h : Run step init es s) : P es s := by
  induction h with
  | nil => exact h0
  | snoc hr he ih => exact hs _ _ _ _ hr ih he

lemma state_invariant {P : S → Prop} (h0 : P init) (hs : ∀ s e s', P s → step s e s' → P s')
    {es : List E} {s : S} (h : Run step init es s) : P s :=
  invariant (P := fun _ s => P s) h0 (fun _ s e s' _ hp he => hs s e s' hp he) h

lemma mono {step' : S → E → S → Prop} (hm : ∀ s e s', step s e s' → step' s e s')
    {es : List E} {s : S} (h : Run step init es s) : Run step' init es s := by
  induction h with
  | nil => exact .nil
  | snoc _ he ih => exact .snoc ih (hm _ _ _ he)

lemma cons {es : List E} {e : E} {t s : S} (he : step init e t) (h : Run step t es s) :
    Run step init (e :: es) s := by
  induction h with
  | nil => exact .snoc .nil he
  | snoc _ hs ih => exact .snoc ih hs

lemma split {es fs : List E} {s : S} (h : Run step init (es ++ fs) s) : ∃ t, Run step init es t ∧
    Run step t fs s := by
  induction fs using List.reverseRecOn generalizing s with
  | nil =>
    rw [List.append_nil] at h
    exact ⟨s, h, .nil⟩
  | append_singleton fs e ih =>
    rw [← List.append_assoc] at h
    generalize hg : es ++ fs ++ [e] = gs at h
    cases h with
    | nil => simp at hg
    | snoc hr he =>
      obtain ⟨rfl, rfl⟩ := List.append_inj' hg rfl |>.imp id (fun h => List.singleton_inj.mp h)
      obtain ⟨t, h1, h2⟩ := ih hr
      exact ⟨t, h1, .snoc h2 he⟩

lemma eq_of_nil {s : S} (h : Run step init [] s) : s = init := by
  generalize hes : ([] : List E) = es at h
  cases h with
  | nil => rfl
  | snoc => simp at hes

lemma one {e : E} {s : S} (h : Run step init [e] s) : step init e s := by
  generalize hes : [e] = es at h
  cases h with
  | nil => cases hes
  | @snoc es' t _ e' hr he =>
    have happ : es' ++ [e'] = [] ++ [e] := hes.symm
    obtain ⟨rfl, heq⟩ := List.append_inj' happ rfl
    obtain rfl := List.singleton_inj.mp heq
    rwa [hr.eq_of_nil] at he

end Run

def exec (step : S → E → Option S) (s : S) : List E → Option S
  | [] => some s
  | e :: es => (step s e).bind (fun s' => exec step s' es)

lemma exec_append (step : S → E → Option S) (s : S) (es fs : List E) :
    exec step s (es ++ fs) = (exec step s es).bind (fun s' => exec step s' fs) := by
  induction es generalizing s with
  | nil => rfl
  | cons e es ih =>
    simp only [List.cons_append, exec, Option.bind_assoc]
    cases step s e with
    | none => rfl
    | some s' => exact ih s'

lemma run_of_exec {step : S → E → Option S} {s s' : S} {es : List E} (h : exec step s es = some s') :
    Run (fun s e s' => step s e = some s') s es s' := by
  induction es using List.reverseRecOn generalizing s' with
  | nil =>
    cases h
    exact .nil
  | append_singleton es e ih =>
    rw [exec_append] at h
    obtain ⟨t, ht, he⟩ := Option.bind_eq_some_iff.mp h
    refine .snoc (ih ht) ?_
    simpa [exec] using he

end Xv6.Lib
