import Mathlib.Data.List.Infix
import Mathlib.Tactic

/-! The pattern matcher of `grep.c`. A C string is the list of its bytes before the NUL, so that a
test for `'\0'` is one for the empty list. -/

namespace Xv6.Grep

abbrev star : UInt8 := 42
abbrev dollar : UInt8 := 36
abbrev dot : UInt8 := 46
abbrev caret : UInt8 := 94

mutual

def matchhere (re text : List UInt8) : Bool :=
  match re with
  | [] => true
  | c :: re =>
    match re with
    | 42 :: re => matchstar c re text
    | re =>
      if c = dollar ∧ re = [] then text.isEmpty
      else
        match text with
        | [] => false
        | t :: text => if c = dot ∨ c = t then matchhere re text else false
termination_by (re.length, text.length, 0)

def matchstar (c : UInt8) (re text : List UInt8) : Bool :=
  if matchhere re text then true
  else
    match text with
    | [] => false
    | t :: text => if t = c ∨ c = dot then matchstar c re text else false
termination_by (re.length, text.length, 1)

end

def matchLoop (re : List UInt8) : List UInt8 → Bool
  | [] => matchhere re []
  | t :: text => if matchhere re (t :: text) then true else matchLoop re text

def matchRe (re text : List UInt8) : Bool :=
  match re with
  | 94 :: re => matchhere re text
  | re => matchLoop re text

/-- What a pattern means: the least relation closed under the rules for its forms, `c*` first and a
last `$` next. -/
inductive Matches : List UInt8 → List UInt8 → Prop
  | empty (t : List UInt8) : Matches [] t
  | star (c : UInt8) (r t : List UInt8) (k : ℕ) (hk : k ≤ t.length) (hc : ∀ x ∈ t.take k, x = c ∨ c = dot)
      (hr : Matches r (t.drop k)) : Matches (c :: star :: r) t
  | last : Matches [dollar] []
  | char (c d : UInt8) (r t : List UInt8) (hstar : ∀ r', r ≠ Grep.star :: r') (hlast : c :: r ≠ [dollar])
      (hc : c = dot ∨ c = d) (hr : Matches r t) : Matches (c :: r) (d :: t)

variable {c d : UInt8} {re r text t : List UInt8}

lemma matches_star_iff :
    Matches (c :: star :: r) t ↔ ∃ k ≤ t.length, (∀ x ∈ t.take k, x = c ∨ c = dot) ∧
    Matches r (t.drop k) := by
  constructor
  · intro h
    cases h with
    | star c r t k hk hc hr => exact ⟨k, hk, hc, hr⟩
    | char c d r t hstar hlast hc hr => exact absurd rfl (hstar _)
  · rintro ⟨k, hk, hc, hr⟩
    exact .star c r t k hk hc hr

lemma matches_last_iff : Matches [dollar] t ↔ t = [] := by
  constructor
  · intro h
    cases h with
    | last => rfl
    | char c d r t hstar hlast hc hr => exact absurd rfl hlast
  · rintro rfl
    exact .last

lemma matches_char_iff (hstar : ∀ r', r ≠ star :: r') (hlast : c :: r ≠ [dollar]) :
    Matches (c :: r) t ↔ ∃ d t', t = d :: t' ∧ (c = dot ∨ c = d) ∧ Matches r t' := by
  constructor
  · intro h
    cases h with
    | star c r t k hk hc hr => exact absurd rfl (hstar _)
    | last => exact absurd rfl hlast
    | char c d r t hstar hlast hc hr => exact ⟨d, t, rfl, hc, hr⟩
  · rintro ⟨d, t', rfl, hc, hr⟩
    exact .char c d r t' hstar hlast hc hr

lemma matchstar_iff (h : ∀ t, matchhere re t = true ↔ Matches re t) :
    matchstar c re t = true ↔ Matches (c :: star :: re) t := by
  rw [matches_star_iff]
  induction t with
  | nil =>
    rw [matchstar]
    simp [h]
  | cons d t ih =>
    rw [matchstar]
    constructor
    · intro hm
      by_cases hhere : matchhere re (d :: t) = true
      · exact ⟨0, Nat.zero_le _, fun x hx => absurd hx List.not_mem_nil, (h _).mp hhere⟩
      · rw [if_neg hhere] at hm
        split_ifs at hm with hd
        obtain ⟨k, hk, hc, hr⟩ := ih.mp hm
        refine ⟨k + 1, Nat.succ_le_succ hk, fun x hx => ?_, hr⟩
        rcases List.mem_cons.mp hx with rfl | hx
        · exact hd
        · exact hc x hx
    · rintro ⟨k, hk, hc, hr⟩
      cases k with
      | zero =>
        have hhere : matchhere re (d :: t) = true := (h _).mpr hr
        rw [if_pos hhere]
      | succ k =>
        have htail : matchstar c re t = true :=
          ih.mpr ⟨k, Nat.succ_le_succ_iff.mp hk, fun x hx => hc x (List.mem_cons_of_mem _ hx), hr⟩
        rw [if_pos (hc d (List.mem_cons_self ..)), htail, ite_self]

lemma matchhere_star : matchhere (c :: star :: r) text = matchstar c r text := by
  rw [matchhere.eq_def]
  rfl

lemma matchhere_last : matchhere [dollar] text = text.isEmpty := by
  rw [matchhere.eq_def]
  rfl

lemma matchhere_char (hstar : ∀ r', r ≠ star :: r') (hlast : c :: r ≠ [dollar]) :
    matchhere (c :: r) text = match text with
      | [] => false
      | t :: text => if c = dot ∨ c = t then matchhere r text else false := by
  have hno : ¬ (c = dollar ∧ r = []) := fun h => hlast (by rw [h.1, h.2])
  rw [matchhere.eq_def]
  simp only [hno, if_false]

lemma matchhere_iff (re text : List UInt8) : matchhere re text = true ↔ Matches re text := by
  -- on the length of the pattern: after `c*` it is shorter by two, after a character by one
  induction hn : re.length using Nat.strong_induction_on generalizing re text with
  | _ n ih =>
    subst hn
    cases re with
    | nil =>
      rw [matchhere.eq_def]
      exact ⟨fun _ => .empty text, fun _ => rfl⟩
    | cons c r =>
      by_cases hstar : ∃ r', r = star :: r'
      · obtain ⟨r, rfl⟩ := hstar
        rw [matchhere_star]
        exact matchstar_iff (fun t => ih r.length (by simp only [List.length_cons]; omega) r t rfl)
      by_cases hlast : c :: r = [dollar]
      · rw [hlast, matchhere_last, matches_last_iff]
        exact List.isEmpty_iff
      push Not at hstar
      rw [matchhere_char hstar hlast, matches_char_iff hstar hlast]
      have ihr := fun t => ih r.length (Nat.lt_succ_self _) r t rfl
      cases text with
      | nil => simp
      | cons d t =>
        simp only
        split_ifs with hc
        · rw [ihr]
          refine ⟨fun h => ⟨d, t, rfl, hc, h⟩, ?_⟩
          rintro ⟨d', t', he, -, h⟩
          cases he
          exact h
        · refine ⟨False.elim, ?_⟩
          rintro ⟨d', t', he, hc', -⟩
          cases he
          exact absurd hc' hc

lemma matchLoop_iff (re text : List UInt8) : matchLoop re text = true ↔ ∃ s, s <:+ text ∧
    Matches re s := by
  induction text with
  | nil => simp [matchLoop, matchhere_iff]
  | cons t text ih =>
    rw [matchLoop]
    split_ifs with h
    · exact ⟨fun _ => ⟨_, List.suffix_rfl, (matchhere_iff _ _).mp h⟩, fun _ => rfl⟩
    · rw [ih]
      constructor
      · rintro ⟨s, hs, hm⟩
        exact ⟨s, hs.trans (List.suffix_cons t text), hm⟩
      · rintro ⟨s, hs, hm⟩
        rcases List.suffix_cons_iff.mp hs with rfl | hs
        · exact absurd ((matchhere_iff _ _).mpr hm) h
        · exact ⟨s, hs, hm⟩

theorem match_iff_matches (re text : List UInt8) :
    matchRe re text = true ↔
      (∃ r, re = caret :: r ∧ Matches r text) ∨ (∀ r, re ≠ caret :: r) ∧ ∃ s, s <:+ text ∧
      Matches re s := by
  by_cases hcaret : ∃ r, re = caret :: r
  · obtain ⟨r, rfl⟩ := hcaret
    have hmatch : matchRe (caret :: r) text = matchhere r text := rfl
    rw [hmatch, matchhere_iff]
    constructor
    · exact fun h => .inl ⟨r, rfl, h⟩
    · rintro (⟨r', he, h⟩ | ⟨hno, -⟩)
      · cases he
        exact h
      · exact absurd rfl (hno r)
  · push Not at hcaret
    have hmatch : matchRe re text = matchLoop re text := by
      unfold matchRe
      split
      · rename_i r
        exact absurd rfl (hcaret r)
      · rfl
    rw [hmatch, matchLoop_iff]
    constructor
    · exact fun h => .inr ⟨hcaret, h⟩
    · rintro (⟨r', he, -⟩ | ⟨-, h⟩)
      · exact absurd he (hcaret r')
      · exact h

end Xv6.Grep
