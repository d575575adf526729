import Xv6.Lib.Assign

namespace Xv6.Lib

variable {α : Type}

def Linked (next prev : Option α → Option α) : Option α → List α → Option α → Prop
  | x, [], y => next x = y ∧ prev y = x
  | x, b :: l, y => next x = some b ∧ prev (some b) = x ∧ Linked next prev (some b) l y

namespace Linked

variable {next prev next' prev' : Option α → Option α} {x y : Option α} {l l₁ l₂ : List α} {b : α}

lemma congr (h : Linked next prev x l y) (hx : next' x = next x)
    (hn : ∀ b ∈ l, next' (some b) = next (some b))
    (hp : ∀ b ∈ l, prev' (some b) = prev (some b)) (hy : prev' y = prev y) :
    Linked next' prev' x l y := by
  induction l generalizing x with
  | nil => exact ⟨hx.trans h.1, hy.trans h.2⟩
  | cons b l ih =>
    refine ⟨hx.trans h.1, (hp b (List.mem_cons_self ..)).trans h.2.1,
      ih h.2.2 (hn b (List.mem_cons_self ..)) ?_ ?_⟩
    · exact fun c hc => hn c (List.mem_cons_of_mem _ hc)
    · exact fun c hc => hp c (List.mem_cons_of_mem _ hc)

lemma append_cons_iff :
    Linked next prev x (l₁ ++ b :: l₂) y ↔ Linked next prev x l₁ (some b) ∧
    Linked next prev (some b) l₂ y := by
  induction l₁ generalizing x with
  | nil => simp [Linked, and_assoc]
  | cons a l₁ ih => simp [Linked, ih, and_assoc]

lemma reverse (h : Linked next prev x l y) : Linked prev next y l.reverse x := by
  induction l generalizing x with
  | nil => exact ⟨h.2, h.1⟩
  | cons b l ih =>
    rw [List.reverse_cons]
    exact append_cons_iff.mpr ⟨ih h.2.2, h.2.1, h.1⟩

lemma prev_next (h : Linked next prev x l y) : prev (next x) = x ∧ ∀ b ∈ l,
    prev (next (some b)) = some b := by
  induction l generalizing x with
  | nil => exact ⟨by rw [h.1, h.2], fun b hb => absurd hb List.not_mem_nil⟩
  | cons b l ih =>
    obtain ⟨h1, h2⟩ := ih h.2.2
    refine ⟨by rw [h.1, h.2.1], fun c hc => ?_⟩
    rcases List.mem_cons.mp hc with rfl | hc
    · exact h1
    · exact h2 c hc

lemma iterate (h : Linked next prev x l y) :
    (List.range l.length).map (fun i => next^[i + 1] x) = l.map some ∧ next^[l.length + 1] x = y := by
  induction l generalizing x with
  | nil => exact ⟨rfl, h.1⟩
  | cons b l ih =>
    obtain ⟨h1, h2⟩ := ih h.2.2
    have hstep : ∀ k, next^[k + 1] x = next^[k] (some b) :=
      fun k => by rw [Function.iterate_succ_apply, h.1]
    refine ⟨?_, by rw [List.length_cons, hstep]; exact h2⟩
    rw [List.length_cons, List.range_succ_eq_map, List.map_cons, List.map_map, List.map_cons, ← h1]
    congr 1
    · exact h.1
    · exact List.map_congr_left (fun i _ => hstep (i + 1))

end Linked

structure Ring (next prev : Option α → Option α) (l : List α) : Prop where
  nodup : l.Nodup
  linked : Linked next prev none l none

def scan (next : Option α → Option α) (P : α → Bool) : ℕ → Option α → Option α
  | 0, _ => none
  | _ + 1, none => none
  | fuel + 1, some b => if P b then some b else scan next P fuel (next (some b))

lemma Linked.scan {next prev : Option α → Option α} {x : Option α} {l : List α} (P : α → Bool) (fuel : ℕ)
    (h : Linked next prev x l none) (hfuel : l.length < fuel) :
    scan next P fuel (next x) = l.find? P := by
  induction l generalizing x fuel with
  | nil =>
    obtain ⟨fuel, rfl⟩ := Nat.exists_eq_add_one.mpr hfuel
    rw [h.1]
    rfl
  | cons b l ih =>
    obtain ⟨fuel, rfl⟩ := Nat.exists_eq_add_one.mpr (Nat.zero_lt_of_lt hfuel)
    rw [h.1, Lib.scan, List.find?_cons, ih fuel h.2.2 (by simpa using hfuel)]
    cases P b <;> rfl

variable [DecidableEq α]

def unlink (next prev : Option α → Option α) (b : α) : (Option α → Option α) × (Option α → Option α) :=
  let prev := assign prev (next (some b)) (prev (some b))
  (assign next (prev (some b)) (next (some b)), prev)

def pushFront (next prev : Option α → Option α) (b : α) : (Option α → Option α) × (Option α → Option α) :=
  let next := assign next (some b) (next none)
  let prev := assign prev (some b) none
  let prev := assign prev (next none) (some b)
  (assign next none (some b), prev)

namespace Ring

variable {next prev : Option α → Option α} {l : List α} {b : α}

lemma unlink (h : Ring next prev l) (hb : b ∈ l) :
    Ring (unlink next prev b).1 (unlink next prev b).2 (l.erase b) := by
  refine ⟨h.nodup.erase b, ?_⟩
  obtain ⟨l₁, l₂, rfl⟩ := List.append_of_mem hb
  have hnd := h.nodup
  rw [List.nodup_append] at hnd
  obtain ⟨hnd1, hnd2, hdisj⟩ := hnd
  have hb1 : b ∉ l₁ := fun hm => hdisj b hm b (List.mem_cons_self ..) rfl
  have hb2 : b ∉ l₂ := (List.nodup_cons.mp hnd2).1
  rw [List.erase_append_right _ hb1, List.erase_cons_head]
  obtain ⟨hl, hr⟩ := Linked.append_cons_iff.mp h.linked
  -- the neighbours `u` and `v` of `b`, and the paths that end and start there
  obtain ⟨v, hv, hright⟩ : ∃ v, next (some b) = v ∧ prev v = some b ∧
      ((v = none ∧ l₂ = []) ∨ ∃ c l2', v = some c ∧ l₂ = c :: l2' ∧
      Linked next prev (some c) l2' none) := by
    cases l₂ with
    | nil => exact ⟨none, hr.1, hr.2, .inl ⟨rfl, rfl⟩⟩
    | cons c l2' => exact ⟨some c, hr.1, hr.2.1, .inr ⟨c, l2', rfl, rfl, hr.2.2⟩⟩
  obtain ⟨u, hu, hleft⟩ : ∃ u, prev (some b) = u ∧
      ((u = none ∧ l₁ = []) ∨ ∃ a l1', u = some a ∧ l₁ = l1' ++ [a] ∧ Linked next prev none l1'
      (some a)) := by
    rcases List.eq_nil_or_concat' l₁ with rfl | ⟨l1', a, rfl⟩
    · exact ⟨none, hl.2, .inl ⟨rfl, rfl⟩⟩
    · obtain ⟨h1, h2⟩ := Linked.append_cons_iff.mp hl
      exact ⟨some a, h2.2, .inr ⟨a, l1', rfl, rfl, h1⟩⟩
  have hvb : some b ≠ v := by
    rcases hright.2 with ⟨rfl, -⟩ | ⟨c, l2', rfl, rfl, -⟩
    · simp
    · rintro heq
      cases heq
      exact hb2 (List.mem_cons_self ..)
  simp only [Lib.unlink, hu, hv, assign_of_ne hvb]
  have hedge : assign next u v u = v ∧ assign prev v u v = u := ⟨assign_self .., assign_self ..⟩
  have hL : Linked (assign next u v) (assign prev v u) none l₁ v := by
    rcases hleft with ⟨rfl, rfl⟩ | ⟨a, l1', rfl, rfl, hpath⟩
    · exact hedge
    have hv' : ∀ c ∈ l1' ++ [a], some c ≠ v := by
      rcases hright.2 with ⟨rfl, -⟩ | ⟨d, l2', rfl, rfl, -⟩
      · simp
      · intro c hc heq
        exact hdisj c hc d (by simp) (Option.some.inj heq)
    have ha : ∀ c ∈ l1', c ≠ a := fun c hc heq => (List.nodup_append.mp hnd1).2.2 c hc a (by simp) heq
    refine Linked.append_cons_iff.mpr ⟨hpath.congr (assign_of_ne (by simp) ..) ?_ ?_ ?_, hedge⟩
    · exact fun c hc => assign_of_ne (by simpa using ha c hc) ..
    · exact fun c hc => assign_of_ne (hv' c (by simp [hc])) ..
    · exact assign_of_ne (hv' a (by simp)) ..
  rcases hright.2 with ⟨rfl, rfl⟩ | ⟨c, l2', rfl, rfl, hpath⟩
  · rwa [List.append_nil]
  have hu' : ∀ d ∈ c :: l2', some d ≠ u := by
    rcases hleft with ⟨rfl, -⟩ | ⟨a, l1', rfl, rfl, -⟩
    · simp
    · intro d hd heq
      cases heq
      exact hdisj a (by simp) a (List.mem_cons_of_mem _ hd) rfl
  have hc : c ∉ l2' := (List.nodup_cons.mp (List.nodup_cons.mp hnd2).2).1
  refine Linked.append_cons_iff.mpr ⟨hL, hpath.congr (assign_of_ne (hu' c (by simp)) ..) ?_ ?_ ?_⟩
  · exact fun d hd => assign_of_ne (hu' d (List.mem_cons_of_mem _ hd)) ..
  · refine fun d hd => assign_of_ne (fun heq => ?_) ..
    cases heq
    exact hc hd
  · exact assign_of_ne (by simp) ..

lemma pushFront (h : Ring next prev l) (hb : b ∉ l) :
    Ring (pushFront next prev b).1 (pushFront next prev b).2 (b :: l) := by
  refine ⟨List.nodup_cons.mpr ⟨hb, h.nodup⟩, ?_⟩
  have hnone : (none : Option α) ≠ some b := by simp
  have hne : ∀ c ∈ l, some c ≠ some b := fun c hc heq => hb (Option.some.inj heq ▸ hc)
  simp only [Lib.pushFront, assign_of_ne hnone]
  have hlink := h.linked
  cases l with
  | nil =>
    obtain ⟨hn, hp⟩ := hlink
    rw [hn]
    refine ⟨assign_self .., ?_, ?_, assign_self ..⟩
    · rw [assign_of_ne hnone.symm, assign_self]
    · rw [assign_of_ne hnone.symm, assign_self]
  | cons c l =>
    obtain ⟨hn, hp, hrest⟩ := hlink
    have hcb := hne c (List.mem_cons_self ..)
    have hc : c ∉ l := (List.nodup_cons.mp h.nodup).1
    rw [hn]
    refine ⟨assign_self .., ?_, ?_, assign_self .., ?_⟩
    · rw [assign_of_ne hcb.symm, assign_self]
    · rw [assign_of_ne hnone.symm, assign_self]
    refine hrest.congr ?_ (fun d hd => ?_) (fun d hd => ?_) ?_
    · rw [assign_of_ne (by simp), assign_of_ne hcb]
    · rw [assign_of_ne (by simp), assign_of_ne (hne d (List.mem_cons_of_mem _ hd))]
    · have hdc : some d ≠ some c := by
        rintro heq
        cases heq
        exact hc hd
      rw [assign_of_ne hdc, assign_of_ne (hne d (List.mem_cons_of_mem _ hd))]
    · rw [assign_of_ne (by simp), assign_of_ne hnone]

end Ring

end Xv6.Lib
