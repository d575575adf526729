import Xv6.Grep.Match
import Xv6.Lib.Copy

namespace Xv6.Grep

open Lib

abbrev newline : UInt8 := 10

abbrev BUFSIZE : ℕ := 1024

abbrev Buffer := ℕ → UInt8

def cstring (buf : Buffer) : ℕ → ℕ → List UInt8
  | 0, _ => []
  | fuel + 1, p => if buf p = 0 then [] else buf p :: cstring buf fuel (p + 1)

def strchr (buf : Buffer) (c : UInt8) : ℕ → ℕ → Option ℕ
  | 0, _ => none
  | fuel + 1, p => if buf p = 0 then none else if buf p = c then some p else strchr buf c fuel (p + 1)

def bytes (buf : Buffer) (p n : ℕ) : List UInt8 := (List.range n).map (fun i => buf (p + i))

def fill (buf : Buffer) (m : ℕ) (x : List UInt8) : Buffer :=
    fun i => if m ≤ i ∧ i < m + x.length then x.getD (i - m) 0 else buf i

def memmove (buf : Buffer) (dst src n : ℕ) : Buffer := copyUp (· + 1) buf dst src n

def grepLines (pattern : List UInt8) : ℕ → Buffer → ℕ → List UInt8 → Buffer × ℕ × List UInt8
  | 0, buf, p, out => (buf, p, out)
  | fuel + 1, buf, p, out =>
    match strchr buf newline BUFSIZE p with
    | none => (buf, p, out)
    | some q =>
      let buf := assign buf q 0
      if matchRe pattern (cstring buf BUFSIZE p) then
        let buf := assign buf q newline
        grepLines pattern fuel buf (q + 1) (out ++ bytes buf p (q + 1 - p))
      else grepLines pattern fuel buf (q + 1) out

structure State where
  buf : Buffer
  m : ℕ
  out : List UInt8

def grepRead (pattern : List UInt8) (s : State) (x : List UInt8) : State :=
  let m := s.m + x.length
  let buf := assign (fill s.buf s.m x) m 0
  let (buf, p, out) := grepLines pattern BUFSIZE buf 0 s.out
  let m := if p = 0 then 0 else m
  if m > 0 then ⟨memmove buf 0 p (m - p), m - p, out⟩ else ⟨buf, m, out⟩

def grep (pattern : List UInt8) (xs : List (List UInt8)) : List UInt8 :=
  (xs.foldl (grepRead pattern) ⟨fun _ => 0, 0, []⟩).out

def lines (cur : List UInt8) : List UInt8 → List (List UInt8) × List UInt8
  | [] => ([], cur)
  | b :: t => if b = newline then (cur :: (lines [] t).1, (lines [] t).2) else lines (cur ++ [b]) t

def selected (pattern : List UInt8) (ls : List (List UInt8)) : List UInt8 :=
  (ls.filter (matchRe pattern)).flatMap (· ++ [newline])

def carried (c x : List UInt8) : List UInt8 := if (lines c x).1 = [] then [] else (lines c x).2

/-- The lines of the input, each as the part that is dropped because it ends a piece without a
newline, and the part that is left; `d` is dropped already, and `c` is kept in the buffer. -/
def cuts (d c : List UInt8) : List (List UInt8) → List (List UInt8 × List UInt8)
  | [] => []
  | x :: xs =>
    match (lines c x).1 with
    | [] => cuts (d ++ (lines c x).2) [] xs
    | l :: ls => (d, l) :: ls.map (fun l => ([], l)) ++ cuts [] (lines c x).2 xs

def Fits (c : List UInt8) : List (List UInt8) → Prop
  | [] => True
  | x :: xs => x ≠ [] ∧ x.length ≤ BUFSIZE - c.length - 1 ∧ Fits (carried c x) xs

def Holds (buf : Buffer) : ℕ → List UInt8 → Prop
  | _, [] => True
  | p, b :: l => buf p = b ∧ Holds buf (p + 1) l

variable {buf buf' : Buffer} {p q m n fuel : ℕ} {c : UInt8} {cur l r t x out pattern : List UInt8}

namespace Holds

lemma append_iff : Holds buf p (l ++ r) ↔ Holds buf p l ∧ Holds buf (p + l.length) r := by
  induction l generalizing p with
  | nil => simp [Holds]
  | cons b l ih => simp [Holds, ih, and_assoc, Nat.add_assoc, Nat.add_comm 1]

lemma congr (h : Holds buf p l) (hb : ∀ i, p ≤ i → i < p + l.length → buf' i = buf i) :
    Holds buf' p l := by
  induction l generalizing p with
  | nil => trivial
  | cons b l ih =>
    rw [List.length_cons] at hb
    exact ⟨(hb p le_rfl (by omega)).trans h.1, ih h.2 (fun i h1 h2 => hb i (by omega) (by omega))⟩

lemma iff_getElem : Holds buf p l ↔ ∀ i (hi : i < l.length), buf (p + i) = l[i] := by
  induction l generalizing p with
  | nil => simp [Holds]
  | cons b l ih =>
    rw [Holds, ih]
    constructor
    · rintro ⟨h0, h⟩ i hi
      cases i with
      | zero => exact h0
      | succ i =>
        rw [show p + (i + 1) = p + 1 + i by omega]
        exact h i (by simpa using hi)
    · intro h
      refine ⟨h 0 (Nat.succ_pos _), fun i hi => ?_⟩
      rw [show p + 1 + i = p + (i + 1) by omega]
      exact h (i + 1) (Nat.succ_lt_succ hi)

lemma bytes_eq (h : Holds buf p l) : bytes buf p l.length = l := by
  refine List.ext_getElem (by simp [bytes]) (fun i h1 h2 => ?_)
  simpa [bytes] using iff_getElem.mp h i h2

lemma fill (buf : Buffer) (m : ℕ) (x : List UInt8) : Holds (fill buf m x) m x := by
  refine iff_getElem.mpr (fun i hi => ?_)
  simp [Grep.fill, hi]

lemma memmove (h : Holds buf p l) (n : ℕ) (hn : n = l.length) : Holds (memmove buf 0 p n) 0 l := by
  subst hn
  refine iff_getElem.mpr (fun i hi => ?_)
  rw [Grep.memmove, copyUp_eq, ← iff_getElem.mp h i hi]
  have hiter : ∀ a k : ℕ, (· + 1)^[k] a = a + k := fun a k => by simp
  simp only [hiter]
  refine copySeq_of_pairwise (pairs_pairwise _ (fun i j hij hj => ?_)) (mem_pairs.mpr ⟨i, hi, rfl⟩)
  omega

end Holds

structure Str (buf : Buffer) (p : ℕ) (l : List UInt8) : Prop where
  holds : Holds buf p l
  nul : buf (p + l.length) = 0
  free : ∀ b ∈ l, b ≠ 0

namespace Str

lemma tail (h : Str buf p (c :: l)) : Str buf (p + 1) l :=
  ⟨h.holds.2, by rw [Nat.add_assoc, Nat.add_comm 1]; exact h.nul,
    fun b hb => h.free b (List.mem_cons_of_mem _ hb)⟩

lemma cstring (h : Str buf p l) (hf : l.length < fuel) : cstring buf fuel p = l := by
  induction l generalizing p fuel with
  | nil =>
    obtain ⟨fuel, rfl⟩ := Nat.exists_eq_add_one.mpr hf
    exact if_pos h.nul
  | cons b l ih =>
    obtain ⟨fuel, rfl⟩ := Nat.exists_eq_add_one.mpr (Nat.zero_lt_of_lt hf)
    have hb : buf p = b := h.holds.1
    rw [Grep.cstring, hb, if_neg (h.free b (List.mem_cons_self ..)), ih h.tail (by simpa using hf)]

lemma strchr_of_notMem (h : Str buf p l) (hc : c ∉ l) : strchr buf c fuel p = none := by
  induction fuel generalizing p l with
  | zero => rfl
  | succ fuel ih =>
    rw [strchr]
    cases l with
    | nil => exact if_pos h.nul
    | cons b l =>
      have hb : buf p = b := h.holds.1
      have hne : b ≠ c := fun he => hc (he ▸ List.mem_cons_self ..)
      rw [hb, if_neg (h.free b (List.mem_cons_self ..)), if_neg hne]
      exact ih h.tail (fun hm => hc (List.mem_cons_of_mem _ hm))

lemma strchr_of_mem (h : Str buf p (l ++ c :: r)) (hc : c ∉ l) (hf : l.length < fuel) :
    strchr buf c fuel p = some (p + l.length) := by
  induction l generalizing p fuel with
  | nil =>
    obtain ⟨fuel, rfl⟩ := Nat.exists_eq_add_one.mpr hf
    have hb : buf p = c := h.holds.1
    rw [strchr, hb, if_neg (h.free c (by simp)), if_pos rfl]
    rfl
  | cons b l ih =>
    obtain ⟨fuel, rfl⟩ := Nat.exists_eq_add_one.mpr (Nat.zero_lt_of_lt hf)
    have hb : buf p = b := h.holds.1
    have hne : b ≠ c := fun he => hc (he ▸ List.mem_cons_self ..)
    rw [strchr, hb, if_neg (h.free b (by simp)), if_neg hne,
      ih h.tail (fun hm => hc (List.mem_cons_of_mem _ hm)) (by simpa using hf), List.length_cons]
    congr 1
    omega

lemma cut (h : Str buf p (l ++ c :: r)) : Str (assign buf (p + l.length) 0) p l := by
  refine ⟨(Holds.append_iff.mp h.holds).1.congr (fun i _ hi => assign_of_ne (by omega) ..),
    assign_self .., fun b hb => ?_⟩
  exact h.free b (List.mem_append_left _ hb)

lemma rest (h : Str buf p (l ++ c :: r)) (hb : ∀ i, p + l.length < i → buf' i = buf i) :
    Str buf' (p + l.length + 1) r := by
  refine ⟨(Holds.append_iff.mp h.holds).2.2.congr (fun i hi _ => hb i (by omega)), ?_,
    fun b hb => h.free b (by simp [hb])⟩
  rw [hb _ (by omega), ← h.nul, List.length_append, List.length_cons]
  congr 1
  omega

end Str

lemma lines_append (cur x y : List UInt8) : lines cur (x ++ y) =
    ((lines cur x).1 ++ (lines (lines cur x).2 y).1, (lines (lines cur x).2 y).2) := by
  induction x generalizing cur with
  | nil => rfl
  | cons b x ih =>
    rw [List.cons_append, lines, lines]
    split_ifs
    · rw [ih]
      rfl
    · exact ih _

lemma lines_of_notMem (h : newline ∉ x) : lines cur x = ([], cur ++ x) := by
  induction x generalizing cur with
  | nil => simp [lines]
  | cons b x ih =>
    have hb : b ≠ newline := fun he => h (he ▸ List.mem_cons_self ..)
    rw [lines, if_neg hb, ih (fun hm => h (List.mem_cons_of_mem _ hm))]
    simp

lemma lines_newline (h : newline ∉ l) :
    lines cur (l ++ newline :: r) = ((cur ++ l) :: (lines [] r).1, (lines [] r).2) := by
  rw [lines_append, lines_of_notMem h]
  rfl

lemma lines_cur (h : newline ∉ cur) : lines cur x = lines [] (cur ++ x) := by
  rw [lines_append, lines_of_notMem h]
  rfl

lemma newline_notMem_lines (h : newline ∉ cur) : newline ∉ (lines cur x).2 := by
  induction x generalizing cur with
  | nil => exact h
  | cons b x ih =>
    rw [lines]
    split_ifs with hb
    · exact ih List.not_mem_nil
    · refine ih (fun hm => ?_)
      rcases List.mem_append.mp hm with hm | hm
      · exact h hm
      · exact hb (List.mem_singleton.mp hm).symm

lemma lines_fst_eq_nil_iff : (lines cur x).1 = [] ↔ newline ∉ x := by
  induction x generalizing cur with
  | nil => simp [lines]
  | cons b x ih =>
    rw [lines]
    split_ifs with hb
    · simp [hb]
    · rw [ih, List.mem_cons, not_or]
      exact ⟨fun h => ⟨fun he => hb he.symm, h⟩, fun h => h.2⟩

lemma length_lines_le (cur x : List UInt8) : (lines cur x).2.length ≤ cur.length + x.length := by
  induction x generalizing cur with
  | nil => exact le_rfl
  | cons b x ih =>
    rw [lines, List.length_cons]
    split_ifs
    · have := ih []
      rw [List.length_nil] at this
      show (lines [] x).2.length ≤ _
      omega
    · have := ih (cur ++ [b])
      rw [List.length_append, List.length_singleton] at this
      omega

lemma selected_cons (ls : List (List UInt8)) : selected pattern (l :: ls) =
    (if matchRe pattern l then l ++ [newline] else []) ++ selected pattern ls := by
  unfold selected
  split_ifs with h <;> simp [h]

lemma selected_append (ls ls' : List (List UInt8)) :
    selected pattern (ls ++ ls') = selected pattern ls ++ selected pattern ls' := by
  simp [selected]

lemma grepLines_spec (pattern out : List UInt8) (h : Str buf p t) (hlen : p + t.length < BUFSIZE)
    (hfuel : t.length ≤ fuel) :
    ∃ buf' p', grepLines pattern fuel buf p out = (buf', p', out ++ selected pattern (lines [] t).1) ∧
      Str buf' p' (lines [] t).2 ∧ p' + (lines [] t).2.length = p + t.length ∧
      (p' = p ↔ newline ∉ t) := by
  induction fuel generalizing buf p t out with
  | zero =>
    obtain rfl := List.length_eq_zero_iff.mp (Nat.le_zero.mp hfuel)
    exact ⟨buf, p, by simp [grepLines, lines, selected], h, rfl, by simp⟩
  | succ fuel ih =>
    rw [grepLines]
    by_cases hn : newline ∈ t
    · obtain ⟨l, r, rfl, hl⟩ := List.eq_append_cons_of_mem hn
      rw [List.length_append, List.length_cons] at hlen hfuel
      have hcstring : cstring (assign buf (p + l.length) 0) BUFSIZE p = l := h.cut.cstring (by omega)
      -- after the newline the loop goes on with `r`, whatever has become of `l`
      have hgo : ∀ buf1 out1, Str buf1 (p + l.length + 1) r → ∃ buf' p',
          grepLines pattern fuel buf1 (p + l.length + 1) out1 =
            (buf', p', out1 ++ selected pattern (lines [] r).1) ∧
          Str buf' p' (lines [] r).2 ∧ p' + (lines [] r).2.length = p + (l ++ newline :: r).length ∧
          (p' = p ↔ newline ∉ l ++ newline :: r) := by
        intro buf1 out1 h1
        obtain ⟨buf', p', heq, hstr, hpos, -⟩ := ih out1 h1 (by omega) (by omega)
        have hshort := length_lines_le [] r
        rw [List.length_nil] at hshort
        rw [List.length_append, List.length_cons]
        refine ⟨buf', p', heq, hstr, by omega, ?_⟩
        simp only [hn, not_true_eq_false, iff_false]
        omega
      rw [h.strchr_of_mem hl (by omega), lines_newline hl, List.nil_append, selected_cons]
      simp only [hcstring]
      split_ifs with hm
      · have hq : assign (assign buf (p + l.length) 0) (p + l.length) newline = buf := by
          rw [assign_assign]
          exact assign_eq_self (Holds.append_iff.mp h.holds).2.1
        have hbytes : bytes buf p (p + l.length + 1 - p) = l ++ [newline] := by
          have hh : Holds buf p (l ++ [newline]) :=
            Holds.append_iff.mpr ⟨(Holds.append_iff.mp h.holds).1,
              (Holds.append_iff.mp h.holds).2.1, trivial⟩
          rw [show p + l.length + 1 - p = (l ++ [newline]).length by simp; omega]
          exact hh.bytes_eq
        rw [hq, hbytes]
        obtain ⟨buf', p', heq, hrest⟩ := hgo buf (out ++ (l ++ [newline])) (h.rest (fun _ _ => rfl))
        exact ⟨buf', p', by rw [heq, List.append_assoc], hrest⟩
      · obtain ⟨buf', p', heq, hrest⟩ := hgo (assign buf (p + l.length) 0) out
          (h.rest (fun i hi => assign_of_ne (Nat.ne_of_gt hi) ..))
        exact ⟨buf', p', by rw [heq, List.nil_append], hrest⟩
    · rw [h.strchr_of_notMem hn, lines_of_notMem hn]
      exact ⟨buf, p, by simp [selected], h, rfl, by simp [hn]⟩

structure Carries (s : State) (c : List UInt8) : Prop where
  m : s.m = c.length
  holds : Holds s.buf 0 c
  free : ∀ b ∈ c, b ≠ 0
  unfinished : newline ∉ c

lemma grepRead_spec (pattern : List UInt8) {s : State} {c : List UInt8} (h : Carries s c)
    (hx : ∀ b ∈ x, b ≠ 0) (hne : x ≠ [])
    (hlen : x.length ≤ BUFSIZE - c.length - 1) : Carries (grepRead pattern s x) (carried c x) ∧
      (grepRead pattern s x).out = s.out ++ selected pattern (lines c x).1 := by
  have hpos : 0 < x.length := List.length_pos_iff.mpr hne
  have hstr : Str (assign (fill s.buf s.m x) (s.m + x.length) 0) 0 (c ++ x) := by
    refine ⟨Holds.append_iff.mpr ⟨h.holds.congr (fun i _ hi => ?_), ?_⟩, ?_, fun b hb => ?_⟩
    · rw [assign_of_ne (by rw [h.m]; omega), fill, if_neg (by rw [h.m]; omega)]
    · rw [Nat.zero_add, ← h.m]
      exact (Holds.fill s.buf s.m x).congr (fun i _ hi => assign_of_ne (by omega) ..)
    · rw [h.m, List.length_append, Nat.zero_add, assign_self]
    · exact (List.mem_append.mp hb).elim (h.free b) (hx b)
  have hroom : 0 + (c ++ x).length < BUFSIZE := by
    rw [List.length_append]
    omega
  obtain ⟨buf', p', heq, hrest, hlast, hiff⟩ := grepLines_spec pattern s.out hstr hroom
    (Nat.le_of_lt (by omega) : (c ++ x).length ≤ BUFSIZE)
  rw [List.length_append, Nat.zero_add, ← lines_cur h.unfinished] at hlast
  rw [← lines_cur h.unfinished, h.m] at heq
  rw [← lines_cur h.unfinished] at hrest
  have hnil : (lines c x).1 = [] ↔ p' = 0 := by
    rw [hiff, lines_cur h.unfinished, lines_fst_eq_nil_iff]
  unfold grepRead carried
  simp only [heq, h.m]
  by_cases hp : p' = 0
  · rw [if_pos hp, if_pos (hnil.mpr hp), if_neg (lt_irrefl 0)]
    exact ⟨⟨rfl, trivial, fun b hb => absurd hb List.not_mem_nil, List.not_mem_nil⟩, rfl⟩
  · rw [if_neg hp, if_neg (fun he => hp (hnil.mp he)), if_pos (by omega)]
    have hm : c.length + x.length - p' = (lines c x).2.length := by omega
    exact ⟨⟨hm, hrest.holds.memmove _ hm, hrest.free, newline_notMem_lines h.unfinished⟩, rfl⟩

section cuts

variable {d c l : List UInt8} {x : List UInt8} {ls xs : List (List UInt8)}

lemma cuts_of_nil (h : (lines c x).1 = []) : cuts d c (x :: xs) = cuts (d ++ (lines c x).2) [] xs := by
  rw [cuts, h]

lemma cuts_of_cons (h : (lines c x).1 = l :: ls) :
    cuts d c (x :: xs) = (d, l) :: ls.map (fun l => ([], l)) ++ cuts [] (lines c x).2 xs := by
  rw [cuts, h]

lemma lines_prefix_of_nil (h : (lines c x).1 = []) : lines (d ++ c) x = ([], d ++ (lines c x).2) := by
  have hx := lines_fst_eq_nil_iff.mp h
  rw [lines_of_notMem hx, lines_of_notMem hx, List.append_assoc]

lemma lines_prefix_of_cons (h : (lines c x).1 = l :: ls) :
    lines (d ++ c) x = ((d ++ l) :: ls, (lines c x).2) := by
  induction x generalizing c with
  | nil => cases h
  | cons b x ih =>
    rw [lines] at h ⊢
    rw [lines]
    split_ifs at h ⊢ with hb
    · cases h
      rfl
    · rw [List.append_assoc]
      exact ih h

lemma cuts_map_whole : (cuts d c xs).map (fun t => t.1 ++ t.2) = (lines (d ++ c) xs.flatten).1 := by
  induction xs generalizing d c with
  | nil => rfl
  | cons x xs ih =>
    rw [List.flatten_cons, lines_append]
    cases h : (lines c x).1 with
    | nil =>
      rw [cuts_of_nil h, lines_prefix_of_nil h, ih, List.append_nil]
      rfl
    | cons l ls =>
      rw [cuts_of_cons h, lines_prefix_of_cons h, List.map_append, ih]
      simp [Function.comp_def]

lemma exists_cut_of_newline (h : newline ∈ xs.flatten) : ∃ t ∈ cuts d c xs, d.length ≤ t.1.length := by
  induction xs generalizing d c with
  | nil => cases h
  | cons x xs ih =>
    cases hl : (lines c x).1 with
    | nil =>
      rw [List.flatten_cons, List.mem_append] at h
      obtain ⟨t, ht, hle⟩ := ih (h.resolve_left (lines_fst_eq_nil_iff.mp hl))
      rw [cuts_of_nil hl]
      rw [List.length_append] at hle
      exact ⟨t, ht, by omega⟩
    | cons l ls =>
      rw [cuts_of_cons hl]
      exact ⟨(d, l), by simp, le_rfl⟩

lemma cuts_of_newlines (h : ∀ x ∈ xs, newline ∈ x) : ∀ t ∈ cuts [] c xs, t.1 = [] := by
  induction xs generalizing c with
  | nil => simp [cuts]
  | cons x xs ih =>
    cases hl : (lines c x).1 with
    | nil => exact absurd (h x (List.mem_cons_self ..)) (lines_fst_eq_nil_iff.mp hl)
    | cons l ls =>
      intro t ht
      rw [cuts_of_cons hl, List.mem_append, List.mem_cons, List.mem_map] at ht
      rcases ht with (rfl | ⟨l, -, rfl⟩) | ht
      · rfl
      · rfl
      · exact ih (fun y hy => h y (List.mem_cons_of_mem _ hy)) t ht

lemma newlines_of_cuts (hne : ∀ x ∈ xs, x ≠ []) (hend : (lines c xs.flatten).2 = [])
    (h : ∀ t ∈ cuts [] c xs, t.1 = []) : ∀ x ∈ xs, newline ∈ x := by
  induction xs generalizing c with
  | nil => simp
  | cons x xs ih =>
    rw [List.flatten_cons, lines_append] at hend
    cases hl : (lines c x).1 with
    | nil =>
      have hx := lines_fst_eq_nil_iff.mp hl
      have hpos := List.length_pos_iff.mpr (hne x (List.mem_cons_self ..))
      rw [lines_of_notMem hx] at hend
      by_cases hn : newline ∈ xs.flatten
      · rw [cuts_of_nil hl, lines_of_notMem hx] at h
        obtain ⟨t, ht, hle⟩ := exists_cut_of_newline (d := [] ++ (c ++ x)) (c := []) hn
        rw [h t ht] at hle
        simp only [List.nil_append, List.length_append, List.length_nil] at hle
        omega
      · rw [lines_of_notMem hn] at hend
        simp only [List.append_eq_nil_iff] at hend
        exact absurd hend.1.2 (hne x (List.mem_cons_self ..))
    | cons l ls =>
      rw [cuts_of_cons hl] at h
      have hrest := ih (fun y hy => hne y (List.mem_cons_of_mem _ hy)) hend
        (fun t ht => h t (List.mem_append_right _ ht))
      intro y hy
      rcases List.mem_cons.mp hy with rfl | hy
      · by_contra hn
        rw [lines_fst_eq_nil_iff.mpr hn] at hl
        cases hl
      · exact hrest y hy

lemma Fits.ne_nil (h : Fits c xs) : ∀ x ∈ xs, x ≠ [] := by
  induction xs generalizing c with
  | nil => simp
  | cons x xs ih =>
    intro y hy
    rcases List.mem_cons.mp hy with rfl | hy
    · exact h.1
    · exact ih h.2.2 y hy

lemma foldl_grepRead {s : State} (h : Carries s c) (hfit : Fits c xs)
    (hx : ∀ x ∈ xs, ∀ b ∈ x, b ≠ 0) :
    (xs.foldl (grepRead pattern) s).out = s.out ++ selected pattern ((cuts d c xs).map Prod.snd) := by
  induction xs generalizing s c d with
  | nil => simp [cuts, selected]
  | cons x xs ih =>
    obtain ⟨hne, hlen, hfit⟩ := hfit
    obtain ⟨hc, hout⟩ := grepRead_spec pattern h (hx x (List.mem_cons_self ..)) hne hlen
    have hx := fun y hy => hx y (List.mem_cons_of_mem x hy)
    cases hl : (lines c x).1 with
    | nil =>
      rw [carried, if_pos hl] at hc hfit
      rw [List.foldl_cons, ih (d := d ++ (lines c x).2) hc hfit hx, hout, hl, cuts_of_nil hl]
      simp [selected]
    | cons l ls =>
      rw [carried, if_neg (by rw [hl]; exact List.cons_ne_nil l ls)] at hc hfit
      rw [List.foldl_cons, ih (d := []) hc hfit hx, hout, hl, cuts_of_cons hl, List.map_append,
        selected_append, ← List.append_assoc]
      simp [Function.comp_def]

end cuts

lemma selected_kept {ts : List (List UInt8 × List UInt8)} (h : ∀ t ∈ ts, t.1 ≠ [] →
      matchRe pattern (t.1 ++ t.2) = false ∧ matchRe pattern t.2 = false) :
    selected pattern (ts.map Prod.snd) = selected pattern (ts.map fun t => t.1 ++ t.2) := by
  induction ts with
  | nil => rfl
  | cons t ts ih =>
    rw [List.map_cons, List.map_cons, selected_cons, selected_cons,
      ih fun u hu => h u (List.mem_cons_of_mem _ hu)]
    by_cases ht : t.1 = []
    · rw [ht, List.nil_append]
    · obtain ⟨hwhole, hkept⟩ := h t (List.mem_cons_self ..) ht
      rw [hwhole, hkept]
      rfl

lemma length_selected_nil (ts : List (List UInt8 × List UInt8)) :
    (selected [] (ts.map fun t => t.1 ++ t.2)).length =
      (selected [] (ts.map Prod.snd)).length + (ts.map (·.1.length)).sum := by
  have hall : ∀ l, matchRe [] l = true := fun l => by
    cases l <;> simp [matchRe, matchLoop, (matchhere_iff [] _).mpr (.empty _)]
  induction ts with
  | nil => rfl
  | cons t ts ih =>
    simp only [List.map_cons, selected_cons, hall, if_true, List.length_append, List.sum_cons, ih]
    omega

theorem grep_output_iff (xs : List (List UInt8)) (hnul : ∀ x ∈ xs, ∀ b ∈ x, b ≠ 0)
    (hfit : Fits [] xs) (hend : (lines [] xs.flatten).2 = []) :
    ((∀ pattern, grep pattern xs = selected pattern (lines [] xs.flatten).1) ↔
      ∀ x ∈ xs, newline ∈ x) ∧
    ∀ pattern, (∀ t ∈ cuts [] [] xs, t.1 ≠ [] →
        matchRe pattern (t.1 ++ t.2) = false ∧ matchRe pattern t.2 = false) →
      grep pattern xs = selected pattern (lines [] xs.flatten).1 := by
  have hstart : Carries ⟨fun _ => 0, 0, []⟩ [] :=
    ⟨rfl, trivial, fun b hb => absurd hb List.not_mem_nil, List.not_mem_nil⟩
  have hgrep : ∀ pattern, grep pattern xs = selected pattern ((cuts [] [] xs).map Prod.snd) :=
    fun pattern => by rw [grep, foldl_grepRead (d := []) hstart hfit hnul, List.nil_append]
  have hwhole : (lines [] xs.flatten).1 = (cuts [] [] xs).map fun t => t.1 ++ t.2 :=
    (cuts_map_whole (d := [])).symm
  refine ⟨⟨fun h => ?_, fun h pattern => ?_⟩, fun pattern h => ?_⟩
  · -- the empty pattern selects every line, so that the output tells how much has been dropped
    have hlen := congrArg List.length (h [])
    rw [hgrep, hwhole, length_selected_nil] at hlen
    have hzero := List.sum_eq_zero_iff.mp (show ((cuts [] [] xs).map (·.1.length)).sum = 0 by omega)
    refine newlines_of_cuts hfit.ne_nil hend fun t ht => List.length_eq_zero_iff.mp ?_
    exact hzero _ (List.mem_map_of_mem ht)
  · rw [hgrep, hwhole]
    exact selected_kept fun t ht hne => absurd (cuts_of_newlines h t ht) hne
  · rw [hgrep, hwhole]
    exact selected_kept h

theorem grep_output_iff_cut_line :
    grep [94, 97] [[98], [98, 10, 97, 10]] = selected [94, 97] (lines [] [98, 98, 10, 97, 10]).1 := by
  have hfit : Fits [] [[98], [98, 10, 97, 10]] := ⟨by decide, by decide, by decide, by decide, trivial⟩
  have hb : ∀ t, matchRe [94, 97] (98 :: t) = false := fun t => Bool.eq_false_iff.mpr (fun h => by
    cases (matchhere_iff [97] (98 :: t)).mp h with
    | char c d r t hstar hlast hc hr => exact absurd hc (by decide))
  refine (grep_output_iff [[98], [98, 10, 97, 10]] (by simp) hfit (by decide)).2 [94, 97]
    fun t ht hne => ?_
  rw [show cuts [] [] [[98], [98, 10, 97, 10]] = [([98], [98]), ([], [97])] by decide] at ht
  rcases List.mem_pair.mp ht with rfl | rfl
  · exact ⟨hb _, hb _⟩
  · exact absurd rfl hne

theorem grep_drops_first_piece :
    (∀ x ∈ [[97], [98, 10]], ∀ b ∈ x, b ≠ (0 : UInt8)) ∧ Fits [] [[97], [98, 10]] ∧
      (lines [] [97, 98, 10]).2 = [] ∧ grep [94, 97] [[97], [98, 10]] = [] ∧
      selected [94, 97] (lines [] [97, 98, 10]).1 = [97, 98, 10] := by
  have hfit : Fits [] [[97], [98, 10]] := ⟨by decide, by decide, by decide, by decide, trivial⟩
  have hnul : ∀ x ∈ [[97], [98, 10]], ∀ b ∈ x, b ≠ (0 : UInt8) := by simp
  have hstart : Carries ⟨fun _ => 0, 0, []⟩ [] :=
    ⟨rfl, trivial, fun b hb => absurd hb List.not_mem_nil, List.not_mem_nil⟩
  have hb : matchRe [94, 97] [98] = false := Bool.eq_false_iff.mpr (fun h => by
    cases (matchhere_iff [97] [98]).mp h with
    | char c d r t hstar hlast hc hr => exact absurd hc (by decide))
  have hab : matchRe [94, 97] [97, 98] = true := (matchhere_iff [97] [97, 98]).mpr
    (.char 97 97 [] [98] (fun r => nofun) (by decide) (.inr rfl) (.empty _))
  refine ⟨hnul, hfit, by decide, ?_, ?_⟩
  · rw [grep, foldl_grepRead (d := []) hstart hfit hnul,
      show (cuts [] [] [[97], [98, 10]]).map Prod.snd = [[98]] by decide]
    simp [selected, hb]
  · rw [show (lines [] [97, 98, 10]).1 = [[97, 98]] by decide]
    simp [selected, hab]

end Xv6.Grep
