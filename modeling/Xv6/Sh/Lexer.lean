import Mathlib.Data.List.TakeWhile
import Mathlib.Tactic

namespace Xv6.Sh

inductive Stop
  | panic (msg : String)
  | fuel
  deriving DecidableEq, Repr

abbrev Parser := StateT ℕ (Except Stop)

abbrev cLt : UInt8 := 60
abbrev cGt : UInt8 := 62
abbrev cBar : UInt8 := 124
abbrev cAmp : UInt8 := 38
abbrev cSemi : UInt8 := 59
abbrev cLpar : UInt8 := 40
abbrev cRpar : UInt8 := 41
abbrev cPlus : UInt8 := 43
abbrev cWord : UInt8 := 97

def whitespace : List UInt8 := [32, 9, 13, 10, 11]

def symbols : List UInt8 := [cLt, cBar, cGt, cAmp, cSemi, cLpar, cRpar]

def isSpace (c : UInt8) : Bool := c ∈ whitespace

def isWord (c : UInt8) : Bool := c ∉ whitespace ∧ c ∉ symbols

def char (b : List UInt8) (s : ℕ) : UInt8 := b.getD s 0

def skip (b : List UInt8) (test : UInt8 → Bool) : ℕ → ℕ → ℕ
  | 0, s => s
  | n + 1, s => if test (char b s) then skip b test n (s + 1) else s

structure Lexeme where
  ret : UInt8
  q : ℕ
  eq : ℕ
  deriving DecidableEq, Repr

def scan (b : List UInt8) (es s : ℕ) : UInt8 × ℕ :=
  let c := char b s
  if c = 0 then (0, s)
  else if c ∈ [cBar, cLpar, cRpar, cSemi, cAmp, cLt] then (c, s + 1)
  else if c = cGt then if char b (s + 1) = cGt then (cPlus, s + 2) else (cGt, s + 1)
  else (cWord, skip b isWord (es - s) s)

def gettoken (b : List UInt8) (es : ℕ) : Parser Lexeme := fun s =>
  let q := skip b isSpace (es - s) s
  let (ret, eq) := scan b es q
  .ok (⟨ret, q, eq⟩, skip b isSpace (es - eq) eq)

def peek (b : List UInt8) (es : ℕ) (toks : List UInt8) : Parser Bool := fun s =>
  let s := skip b isSpace (es - s) s
  .ok (decide (char b s ≠ 0 ∧ char b s ∈ toks), s)

inductive Token
  | word (w : List UInt8)
  | lt | gt | append | bar | amp | semi | lpar | rpar
  deriving DecidableEq, Repr

namespace Token

def code : Token → UInt8
  | word _ => cWord
  | lt => cLt
  | gt => cGt
  | append => cPlus
  | bar => cBar
  | amp => cAmp
  | semi => cSemi
  | lpar => cLpar
  | rpar => cRpar

def opens (toks : List UInt8) : Token → Bool
  | word _ => false
  | append => cGt ∈ toks
  | t => t.code ∈ toks

def single : Token → Bool
  | lt | bar | amp | semi | lpar | rpar => true
  | _ => false

end Token

/-- The string consists of the tokens, with whitespace between them; a word and `>>` reach as far as
they can. -/
inductive Spells : List UInt8 → List Token → Prop
  | nil : Spells [] []
  | space {c : UInt8} {s : List UInt8} {ts : List Token} (hc : isSpace c = true) (h : Spells s ts) :
      Spells (c :: s) ts
  | word {w s : List UInt8} {ts : List Token} (hne : w ≠ []) (hw : ∀ c ∈ w, isWord c = true)
      (hs : ∀ c ∈ s.head?, isWord c = false) (h : Spells s ts) : Spells (w ++ s) (.word w :: ts)
  | single {t : Token} {s : List UInt8} {ts : List Token} (ht : t.single = true) (h : Spells s ts) :
      Spells (t.code :: s) (t :: ts)
  | gt {s : List UInt8} {ts : List Token} (hs : s.head? ≠ some cGt) (h : Spells s ts) :
      Spells (cGt :: s) (.gt :: ts)
  | append {s : List UInt8} {ts : List Token} (h : Spells s ts) : Spells (cGt :: cGt :: s) (.append :: ts)

variable {s : List UInt8} {ts : List Token} {t : Token} {p : ℕ} {test : UInt8 → Bool}

lemma exists_spells (s : List UInt8) : ∃ ts, Spells s ts := by
  induction hn : s.length using Nat.strong_induction_on generalizing s with
  | _ n ih =>
    subst hn
    cases s with
    | nil => exact ⟨[], .nil⟩
    | cons c s =>
      by_cases hspace : isSpace c = true
      · obtain ⟨ts, h⟩ := ih s.length (by simp) s rfl
        exact ⟨ts, .space hspace h⟩
      by_cases hword : isWord c = true
      · obtain ⟨ts, h⟩ := ih ((c :: s).dropWhile isWord).length (by
          rw [List.dropWhile_cons_of_pos hword]
          exact Nat.lt_succ_of_le (List.dropWhile_suffix isWord).length_le) _ rfl
        rw [← List.takeWhile_append_dropWhile (p := isWord) (l := c :: s)]
        refine ⟨_, .word (by simp [hword]) (fun d hd => List.mem_takeWhile_imp hd) (fun d hd => ?_) h⟩
        have := List.head?_dropWhile_not isWord (c :: s)
        rw [Option.mem_def.1 hd] at this
        simpa using this
      obtain ⟨ts, h⟩ := ih s.length (by simp) s rfl
      have hsym : c ∈ symbols := by
        simp only [isSpace, isWord, decide_eq_true_eq, not_and, not_not] at hspace hword
        exact hword hspace
      by_cases hgt : c = cGt
      · subst hgt
        cases s with
        | nil => exact ⟨_, .gt (by simp) h⟩
        | cons d s =>
          by_cases hd : d = cGt
          · subst hd
            obtain ⟨us, h⟩ := ih s.length (by simp) s rfl
            exact ⟨_, .append h⟩
          · exact ⟨_, .gt (by simpa using hd) h⟩
      · have hcode : ∃ t : Token, t.single = true ∧ t.code = c := by
          simp only [symbols, List.mem_cons, List.not_mem_nil, or_false] at hsym
          rcases hsym with rfl | rfl | rfl | rfl | rfl | rfl | rfl
          · exact ⟨.lt, rfl, rfl⟩
          · exact ⟨.bar, rfl, rfl⟩
          · exact absurd rfl hgt
          · exact ⟨.amp, rfl, rfl⟩
          · exact ⟨.semi, rfl, rfl⟩
          · exact ⟨.lpar, rfl, rfl⟩
          · exact ⟨.rpar, rfl, rfl⟩
        obtain ⟨t, ht, rfl⟩ := hcode
        exact ⟨_, .single ht h⟩

lemma char_eq_headD (hp : p ≤ s.length) : char (s ++ [0]) p = (s.drop p).headD 0 := by
  rcases Nat.lt_or_ge p s.length with h | h
  · rw [List.drop_eq_getElem_cons h]
    simp [char, List.getElem?_append_left h, h]
  · have hp : p = s.length := by omega
    simp [char, hp]

lemma skip_eq (test : UInt8 → Bool) (hp : p ≤ s.length) :
    skip (s ++ [0]) test (s.length - p) p = p + ((s.drop p).takeWhile test).length := by
  generalize hn : s.length - p = n
  induction n generalizing p with
  | zero =>
    have hnil : s.drop p = [] := List.drop_eq_nil_of_le (by omega)
    simp [skip, hnil]
  | succ n ih =>
    have hlt : p < s.length := by omega
    rw [skip, char_eq_headD hp, List.drop_eq_getElem_cons hlt, List.headD_cons]
    split
    · rename_i hc
      rw [ih (p := p + 1) hlt (by omega), List.takeWhile_cons_of_pos hc, List.length_cons]
      omega
    · rename_i hc
      rw [List.takeWhile_cons_of_neg hc, List.length_nil, Nat.add_zero]

lemma drop_length_takeWhile {l : List UInt8} : l.drop (l.takeWhile test).length = l.dropWhile test := by
  have h : (l.takeWhile test ++ l.dropWhile test).drop (l.takeWhile test).length =
    l.dropWhile test := List.drop_left
  rwa [List.takeWhile_append_dropWhile] at h

lemma skip_le (test : UInt8 → Bool) (hp : p ≤ s.length) :
    skip (s ++ [0]) test (s.length - p) p ≤ s.length := by
  have hlen := (List.takeWhile_prefix test (l := s.drop p)).length_le
  rw [List.length_drop] at hlen
  rw [skip_eq test hp]
  omega

lemma drop_skip (test : UInt8 → Bool) (hp : p ≤ s.length) :
    s.drop (skip (s ++ [0]) test (s.length - p) p) = (s.drop p).dropWhile test := by
  rw [skip_eq test hp, ← List.drop_drop, drop_length_takeWhile]

structure At (s : List UInt8) (p : ℕ) (ts : List Token) : Prop where
  le : p ≤ s.length
  spells : Spells (s.drop p) ts

structure Located (s : List UInt8) (q e : ℕ) (w : List UInt8) : Prop where
  le : q ≤ s.length
  split : s.drop q = w ++ s.drop e
  eq : e = q + w.length
  word : ∀ c ∈ w, isWord c = true
  after : ∀ c ∈ (s.drop e).head?, isWord c = false

lemma isWord_symbol {c : UInt8} (h : c ∈ symbols) : isWord c = false := by simp [isWord, h]

lemma isSpace_of_isWord {c : UInt8} (h : isWord c = true) : isSpace c = false := by
  simp only [isWord, decide_eq_true_eq] at h
  simp [isSpace, h.1]

lemma isSpace_code (h : t.single = true) : isSpace t.code = false := by
  cases t <;> first | decide | cases h

lemma Spells.dropWhile (h : Spells s ts) : Spells (s.dropWhile isSpace) ts := by
  induction h with
  | nil => exact .nil
  | space hc h ih => rwa [List.dropWhile_cons_of_pos hc]
  | @word w s ts hne hw hs h ih =>
    obtain ⟨c, w, rfl⟩ := List.exists_cons_of_ne_nil hne
    have hc : ¬ isSpace c = true := by simp [isSpace_of_isWord (hw c List.mem_cons_self)]
    rw [List.cons_append, List.dropWhile_cons_of_neg hc]
    exact .word hne hw hs h
  | single ht h ih =>
    rw [List.dropWhile_cons_of_neg (by simp [isSpace_code ht])]
    exact .single ht h
  | gt hs h ih =>
    rw [List.dropWhile_cons_of_neg (by decide)]
    exact .gt hs h
  | append h ih =>
    rw [List.dropWhile_cons_of_neg (by decide)]
    exact .append h

lemma At.skip (h : At s p ts) : At s (Sh.skip (s ++ [0]) isSpace (s.length - p) p) ts ∧
      ∀ c ∈ (s.drop (Sh.skip (s ++ [0]) isSpace (s.length - p) p)).head?, isSpace c = false := by
  rw [drop_skip isSpace h.le]
  refine ⟨⟨skip_le isSpace h.le, ?_⟩, fun c hc => ?_⟩
  · rw [drop_skip isSpace h.le]
    exact h.spells.dropWhile
  · have := List.head?_dropWhile_not isSpace (s.drop p)
    rw [Option.mem_def.1 hc] at this
    simpa using this

lemma Spells.nil_of_head (h : Spells s []) (hs : ∀ c ∈ s.head?, isSpace c = false) : s = [] := by
  cases h with
  | nil => rfl
  | space hc h => simp [hs _ rfl] at hc

lemma Spells.cons_cases (h : Spells s (t :: ts)) (hs : ∀ c ∈ s.head?, isSpace c = false) :
    (∃ w s', t = .word w ∧ s = w ++ s' ∧ w ≠ [] ∧ (∀ c ∈ w, isWord c = true) ∧
    (∀ c ∈ s'.head?, isWord c = false) ∧
      Spells s' ts) ∨ (∃ s', t.single = true ∧ s = t.code :: s' ∧ Spells s' ts) ∨
    (∃ s', t = .gt ∧ s = cGt :: s' ∧ s'.head? ≠ some cGt ∧ Spells s' ts) ∨
    ∃ s', t = .append ∧ s = cGt :: cGt :: s' ∧ Spells s' ts := by
  cases h with
  | space hc h => simp [hs _ rfl] at hc
  | @word w s' _ hne hw hs' h => exact .inl ⟨w, s', rfl, rfl, hne, hw, hs', h⟩
  | single ht h => exact .inr (.inl ⟨_, ht, rfl, h⟩)
  | gt hs' h => exact .inr (.inr (.inl ⟨_, rfl, rfl, hs', h⟩))
  | append h => exact .inr (.inr (.inr ⟨_, rfl, rfl, h⟩))

variable {toks : List UInt8}

lemma code_ne_zero (t : Token) : t.code ≠ 0 := by cases t <;> (dsimp only [Token.code]; decide)

lemma opens_of_single (h : t.single = true) : t.opens toks = decide (t.code ∈ toks) := by
  cases t <;> first | rfl | cases h

def starts (toks : List UInt8) (ts : List Token) : Bool := ts.head?.any (Token.opens toks)

lemma peek_spec (toks : List UInt8) (h : At s p ts) (htoks : ∀ c ∈ toks, c ∈ symbols) :
    ∃ p', (peek (s ++ [0]) s.length toks).run p = .ok (starts toks ts, p') ∧ At s p' ts ∧
      (ts = [] → p' = s.length) := by
  obtain ⟨hat, hhead⟩ := h.skip
  cases ts with
  | nil =>
    have hnil := hat.spells.nil_of_head hhead
    refine ⟨_, congrArg Except.ok (Prod.ext ?_ rfl), hat, fun _ => ?_⟩
    · simp [char_eq_headD hat.le, hnil, starts]
    · exact Nat.le_antisymm hat.le (List.drop_eq_nil_iff.1 hnil)
  | cons t ts =>
    refine ⟨_, congrArg Except.ok (Prod.ext ?_ rfl), hat, fun hnil => by cases hnil⟩
    simp only [char_eq_headD hat.le]
    rcases hat.spells.cons_cases hhead with ⟨w, s', rfl, hs, hne, hw, -⟩ | ⟨s', ht, hs, -⟩
      | ⟨s', rfl, hs, -⟩ | ⟨s', rfl, hs, -⟩ <;> rw [hs]
    · obtain ⟨c, w, rfl⟩ := List.exists_cons_of_ne_nil hne
      have hc : c ∉ toks := by
        intro hc
        have := isWord_symbol (htoks c hc)
        simp [hw c List.mem_cons_self] at this
      simp [starts, Token.opens, hc]
    · simp [starts, opens_of_single ht, code_ne_zero t]
    · simp [starts, Token.opens, Token.code, show cGt ≠ 0 by decide]
      rfl
    · simp [starts, Token.opens, show cGt ≠ 0 by decide]

lemma gettoken_nil (h : At s p []) :
    ∃ q p', (gettoken (s ++ [0]) s.length).run p = .ok (⟨0, q, q⟩, p') ∧ At s p' [] := by
  obtain ⟨hat, hhead⟩ := h.skip
  refine ⟨skip (s ++ [0]) isSpace (s.length - p) p, _, ?_, hat.skip.1⟩
  have hc : char (s ++ [0]) (skip (s ++ [0]) isSpace (s.length - p) p) = 0 := by
    rw [char_eq_headD hat.le, hat.spells.nil_of_head hhead]
    rfl
  show gettoken _ _ _ = _
  simp only [gettoken, scan, hc, if_pos]

lemma drop_succ {c : UInt8} {s' : List UInt8} (h : s.drop p = c :: s') :
    s.drop (p + 1) = s' ∧ p + 1 ≤ s.length := by
  have hlt : p < s.length := by
    by_contra hge
    rw [List.drop_eq_nil_of_le (Nat.not_lt.1 hge)] at h
    cases h
  exact ⟨by rw [← List.drop_drop, h]; rfl, hlt⟩

lemma scan_cons (hnul : (0 : UInt8) ∉ s) (h : At s p (t :: ts))
    (hhead : ∀ c ∈ (s.drop p).head?, isSpace c = false) :
    ∃ e, scan (s ++ [0]) s.length p = (t.code, e) ∧ At s e ts ∧ ∀ w, t = .word w → Located s p e w := by
  have hc := char_eq_headD h.le
  rcases h.spells.cons_cases hhead with ⟨w, s', rfl, hs, hne, hw, hs', hsp⟩ | ⟨s', ht, hs, hsp⟩
    | ⟨s', rfl, hs, hgt, hsp⟩ | ⟨s', rfl, hs, hsp⟩
  · have hskip := skip_eq isWord h.le
    have htake : (s.drop p).takeWhile isWord = w := by
      rw [hs, List.takeWhile_append_of_pos hw]
      cases s' with
      | nil => simp
      | cons d s' => simp [hs' d rfl]
    rw [htake] at hskip
    have hdrop : s.drop (p + w.length) = s' := by rw [← List.drop_drop, hs, List.drop_left]
    refine ⟨p + w.length, ?_, ⟨hskip ▸ skip_le isWord h.le, hdrop ▸ hsp⟩, ?_⟩
    · obtain ⟨c, w', rfl⟩ := List.exists_cons_of_ne_nil hne
      rw [hs, List.cons_append, List.headD_cons] at hc
      have hc0 : c ≠ 0 := by
        rintro rfl
        exact hnul (List.mem_of_mem_drop (i := p) (by simp [hs]))
      have hsym : c ∉ symbols := by
        have := hw c List.mem_cons_self
        simp only [isWord, decide_eq_true_eq] at this
        exact this.2
      have hmem : c ∉ [cBar, cLpar, cRpar, cSemi, cAmp, cLt] ∧ c ≠ cGt := by
        simp only [symbols, List.mem_cons, List.not_mem_nil, or_false, not_or] at hsym ⊢
        tauto
      rw [scan, hc, if_neg hc0, if_neg hmem.1, if_neg hmem.2, hskip]
      rfl
    · intro v hv
      cases hv
      exact ⟨h.le, by rw [hdrop, hs], rfl, hw, by rwa [hdrop]⟩
  · rw [hs, List.headD_cons] at hc
    refine ⟨p + 1, ?_, ⟨(drop_succ hs).2, (drop_succ hs).1 ▸ hsp⟩, by rintro w rfl; cases ht⟩
    have hmem : t.code ∈ [cBar, cLpar, cRpar, cSemi, cAmp,
      cLt] := by cases t <;> first | decide | cases ht
    rw [scan, hc, if_neg (code_ne_zero t), if_pos hmem]
  · rw [hs, List.headD_cons] at hc
    refine ⟨p + 1, ?_, ⟨(drop_succ hs).2, (drop_succ hs).1 ▸ hsp⟩, nofun⟩
    have hnext : char (s ++ [0]) (p + 1) ≠ cGt := by
      rw [char_eq_headD (drop_succ hs).2, (drop_succ hs).1]
      cases s' with
      | nil => decide
      | cons d s' => simpa using hgt
    rw [scan, hc, if_neg (by decide), if_neg (by decide), if_pos rfl, if_neg hnext]
    rfl
  · rw [hs, List.headD_cons] at hc
    obtain ⟨hs1, hle⟩ := drop_succ hs
    obtain ⟨hs2, hle2⟩ := drop_succ hs1
    refine ⟨p + 2, ?_, ⟨hle2, hs2 ▸ hsp⟩, nofun⟩
    have hnext : char (s ++ [0]) (p + 1) = cGt := by rw [char_eq_headD hle, hs1]; rfl
    rw [scan, hc, if_neg (by decide), if_neg (by decide), if_pos rfl, if_pos hnext]
    rfl

lemma gettoken_cons (hnul : (0 : UInt8) ∉ s) (h : At s p (t :: ts)) :
    ∃ q e p', (gettoken (s ++ [0]) s.length).run p = .ok (⟨t.code, q, e⟩, p') ∧ At s p' ts ∧
      ∀ w, t = .word w → Located s q e w := by
  obtain ⟨hat, hhead⟩ := h.skip
  obtain ⟨e, hscan, he, hw⟩ := scan_cons hnul hat hhead
  refine ⟨_, e, _, ?_, he.skip.1, hw⟩
  show gettoken _ _ _ = _
  simp only [gettoken, hscan]

end Xv6.Sh
