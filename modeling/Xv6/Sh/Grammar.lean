import Xv6.Lib.Fuel
import Xv6.Sh.Parser

namespace Xv6.Sh

open Lib

abbrev Word := List UInt8

inductive Tree
  | exec (argv : List Word)
  | redir (cmd : Tree) (file : Word) (mode fd : ℕ)
  | pipe (left right : Tree)
  | list (left right : Tree)
  | back (cmd : Tree)
  deriving DecidableEq, Repr

structure Redirection where
  file : Word
  mode : ℕ
  fd : ℕ

def Tree.wrap (t : Tree) (rs : List Redirection) : Tree :=
    rs.foldl (fun t r => .redir t r.file r.mode r.fd) t

def Token.redirects : Token → Option (ℕ × ℕ)
  | lt => some (O_RDONLY, 0)
  | gt | append => some (O_WRONLY ||| O_CREATE, 1)
  | _ => none

/-- `redirs ::= (('<' | '>' | '>>') word)*`: the tokens `ts` are the redirections `rs` followed by
`us`. -/
inductive Redirs : List Token → List Redirection → List Token → Prop
  | nil {ts : List Token} : Redirs ts [] ts
  | cons {op : Token} {w : Word} {mode fd : ℕ} {ts us : List Token} {rs : List Redirection}
      (hop : op.redirects = some (mode, fd)) (h : Redirs ts rs us) :
      Redirs (op :: .word w :: ts) (⟨w, mode, fd⟩ :: rs) us

inductive Args : List Token → List Word → List Redirection → List Token → Prop
  | nil {ts : List Token} : Args ts [] [] ts
  | cons {w : Word} {ws : List Word} {ts us vs : List Token} {rs rs' : List Redirection}
      (hr : Redirs ts rs us) (h : Args us ws rs' vs) : Args (.word w :: ts) (w :: ws) (rs ++ rs') vs

inductive Kind
  | line | pipe | exec

inductive Derives : Kind → List Token → Tree → List Token → Prop
  | last {ts us : List Token} {t : Tree} {n : ℕ} (h : Derives .pipe ts t (List.replicate n .amp ++ us)) :
      Derives .line ts (Tree.back^[n] t) us
  | seq {ts us vs : List Token} {t u : Tree} {n : ℕ}
      (h : Derives .pipe ts t (List.replicate n .amp ++ .semi :: us)) (hu : Derives .line us u vs) :
      Derives .line ts (.list (Tree.back^[n] t) u) vs
  | one {ts us : List Token} {t : Tree} (h : Derives .exec ts t us) : Derives .pipe ts t us
  | pipe {ts us vs : List Token} {t u : Tree} (h : Derives .exec ts t (.bar :: us))
      (hu : Derives .pipe us u vs) : Derives .pipe ts (.pipe t u) vs
  | words {ts us vs : List Token} {ws : List Word} {rs rs' : List Redirection} (hr : Redirs ts rs us)
      (ha : Args us ws rs' vs) (hn : ws.length ≤ 9) :
      Derives .exec ts ((Tree.exec ws).wrap (rs ++ rs')) vs
  | block {ts us vs : List Token} {t : Tree} {rs : List Redirection}
      (h : Derives .line ts t (.rpar :: us)) (hr : Redirs us rs vs) :
      Derives .exec (.lpar :: ts) (t.wrap rs) vs

def IsLine (s : List UInt8) (t : Tree) : Prop := ∃ ts, Spells s ts ∧ Derives .line ts t []

inductive Denotes (s : List UInt8) : Cmd → Tree → Prop
  | exec {argv : List (ℕ × ℕ)} {ws : List Word}
      (h : List.Forall₂ (fun a w => Located s a.1 a.2 w) argv ws) :
      Denotes s (.exec argv) (.exec ws)
  | redir {cmd : Cmd} {t : Tree} {q e mode fd : ℕ} {w : Word} (h : Denotes s cmd t)
      (hw : Located s q e w) : Denotes s (.redir cmd q e mode fd) (.redir t w mode fd)
  | pipe {c d : Cmd} {t u : Tree} (hl : Denotes s c t) (hr : Denotes s d u) :
      Denotes s (.pipe c d) (.pipe t u)
  | list {c d : Cmd} {t u : Tree} (hl : Denotes s c t) (hr : Denotes s d u) :
      Denotes s (.list c d) (.list t u)
  | back {c : Cmd} {t : Tree} (h : Denotes s c t) : Denotes s (.back c) (.back t)

variable {s : List UInt8} {ts us : List Token} {t : Token} {p : ℕ} {cmd : Cmd} {tree : Tree}

lemma Tree.wrap_append (t : Tree) (rs rs' : List Redirection) :
    t.wrap (rs ++ rs') = (t.wrap rs).wrap rs' :=
  List.foldl_append

lemma Denotes.addArg {ws : List Word} {rs : List Redirection} {q e : ℕ} {w : Word}
    (h : Denotes s cmd ((Tree.exec ws).wrap rs)) (hw : Located s q e w) :
    Denotes s (cmd.addArg q e) ((Tree.exec (ws ++ [w])).wrap rs) := by
  induction rs using List.reverseRecOn generalizing cmd with
  | nil =>
    cases h with
    | exec h => exact .exec (List.rel_append h (.cons hw .nil))
  | append_singleton rs r ih =>
    rw [Tree.wrap_append] at h ⊢
    cases h with
    | redir h hr => exact .redir (ih h) hr

abbrev redirs (s : List UInt8) (cmd : Cmd) (k : ℕ) : Parser Cmd := parseredirs (s ++ [0]) s.length k cmd

abbrev args (s : List UInt8) (argc : ℕ) (cmd : Cmd) (k : ℕ) : Parser Cmd :=
    parseargs (s ++ [0]) s.length k argc cmd

abbrev close (s : List UInt8) (cmd : Cmd) (k : ℕ) : Parser Cmd := closeblock (s ++ [0]) s.length k cmd

def parser (s : List UInt8) : Kind → ℕ → Parser Cmd
  | .line => parseline (s ++ [0]) s.length
  | .pipe => parsepipe (s ++ [0]) s.length
  | .exec => parseexec (s ++ [0]) s.length

def Parses (s : List UInt8) (f : ℕ → Parser Cmd) (p : ℕ) (cmd : Cmd) (us : List Token) : Prop :=
  ∃ p', Yields f p (.ok (cmd, p')) ∧ At s p' us

def Goes (s : List UInt8) (f : ℕ → Parser Cmd) (p : ℕ) (f' : ℕ → Parser Cmd) (us : List Token) : Prop :=
  ∃ p', At s p' us ∧ ∀ r, Yields f' p' r → Yields f p r

section steps

lemma redirs_stop (cmd : Cmd) (h : At s p ts) (hs : starts [cLt, cGt] ts = false) :
    Parses s (redirs s cmd) p cmd ts := by
  obtain ⟨p', hp, hat, -⟩ := peek_spec [cLt, cGt] h (by simp [symbols])
  rw [hs] at hp
  exact ⟨p', .of_succ (.bind (.const hp) (.const rfl)), hat⟩

lemma starts_redirects : starts [cLt, cGt] (t :: ts) = t.redirects.isSome := by
  cases t <;> rfl

lemma args_stop (cmd : Cmd) (argc : ℕ) (h : At s p ts)
    (hs : ts = [] ∨ starts [cBar, cRpar, cAmp, cSemi] ts = true) :
    Parses s (args s argc cmd) p cmd ts := by
  obtain ⟨p', hp, hat, -⟩ := peek_spec [cBar, cRpar, cAmp, cSemi] h (by simp [symbols])
  rcases hs with rfl | hs
  · obtain ⟨q, p'', hg, hat'⟩ := gettoken_nil hat
    exact ⟨p'', .of_succ (.bind (.const hp) (.bind (.const hg) (.const rfl))), hat'⟩
  · rw [hs] at hp
    exact ⟨p', .of_succ (.bind (.const hp) (.const rfl)), hat⟩

lemma exec_words (h : At s p ts) (hs : starts [cLpar] ts = false) :
    Goes s (parser s .exec) p (fun k => redirs s (.exec []) k >>= fun c => args s 0 c k) ts := by
  obtain ⟨p', hp, hat, -⟩ := peek_spec [cLpar] h (by simp [symbols])
  rw [hs] at hp
  exact ⟨p', hat, fun r hr => .of_succ (.bind (.const hp) hr)⟩

lemma closeblock_missing (h : At s p ts) (hs : starts [cRpar] ts = false) :
    Yields (close s cmd) p (.error (.panic "syntax - missing )")) := by
  obtain ⟨p1, hp, -, -⟩ := peek_spec [cRpar] h (by simp [symbols])
  rw [hs] at hp
  exact .bind (.const hp) (.const rfl)

lemma pipe_stop (h : Parses s (parser s .exec) p cmd us) (hs : starts [cBar] us = false) :
    Parses s (parser s .pipe) p cmd us := by
  obtain ⟨p1, hy, hat⟩ := h
  obtain ⟨p2, hp, hat2, -⟩ := peek_spec [cBar] hat (by simp [symbols])
  rw [hs] at hp
  exact ⟨p2, .of_succ (.bind hy (.bind (.const hp) (.const rfl))), hat2⟩

variable (hnul : (0 : UInt8) ∉ s)
include hnul

lemma peek_token (toks : List UInt8) (h : At s p (t :: ts)) (htoks : ∀ c ∈ toks, c ∈ symbols) :
    ∃ p1 q e p2, (peek (s ++ [0]) s.length toks).run p = .ok (starts toks (t :: ts), p1) ∧
      (gettoken (s ++ [0]) s.length).run p1 = .ok (⟨t.code, q, e⟩, p2) ∧ At s p2 ts ∧ ∀ w,
      t = .word w → Located s q e w := by
  obtain ⟨p1, hp, hat, -⟩ := peek_spec toks h htoks
  obtain ⟨q, e, p2, hg, h2⟩ := gettoken_cons hnul hat
  exact ⟨p1, q, e, p2, hp, hg, h2⟩

variable (cmd) in
lemma redirs_step {w : Word} {mode fd : ℕ} (h : At s p (t :: .word w :: ts))
    (ht : t.redirects = some (mode, fd)) :
    ∃ q e, Located s q e w ∧ Goes s (redirs s cmd) p (redirs s (.redir cmd q e mode fd)) ts := by
  obtain ⟨p1, q1, e1, p2, hp, hg1, hat2, -⟩ := peek_token hnul [cLt, cGt] h (by simp [symbols])
  rw [starts_redirects, ht] at hp
  obtain ⟨q, e, p3, hg2, hat3, hw⟩ := gettoken_cons hnul hat2
  refine ⟨q, e, hw w rfl, p3, hat3, fun r hr => ?_⟩
  refine .of_succ (.bind (.const hp) (.bind (.const hg1) (.bind (.const hg2) ?_)))
  cases t <;> cases ht <;> exact hr

lemma redirs_panic (h : At s p (t :: ts)) (ht : t.redirects.isSome = true)
    (hts : ∀ w us, ts ≠ .word w :: us) :
    Yields (redirs s cmd) p (.error (.panic "missing file for redirection")) := by
  obtain ⟨p1, q1, e1, p2, hp, hg1, hat2, -⟩ := peek_token hnul [cLt, cGt] h (by simp [symbols])
  rw [starts_redirects, ht] at hp
  refine .of_succ (.bind (.const hp) (.bind (.const hg1) ?_))
  cases ts with
  | nil =>
    obtain ⟨q, p3, hg2, -⟩ := gettoken_nil hat2
    exact .bind (.const hg2) (.const rfl)
  | cons u ts =>
    obtain ⟨q, e, p3, hg2, -, -⟩ := gettoken_cons hnul hat2
    refine .bind (.const hg2) ?_
    cases u with
    | word w => exact absurd rfl (hts w ts)
    | _ => exact .const rfl

variable (cmd) in
lemma args_step {argc : ℕ} {w : Word} (h : At s p (.word w :: ts)) (hn : argc + 1 < MAXARGS) :
    ∃ q e, Located s q e w ∧
      Goes s (args s argc cmd) p (fun k => redirs s (cmd.addArg q e) k >>= fun c => args s
      (argc + 1) c k) ts := by
  obtain ⟨p1, q, e, p2, hp, hg, hat2, hw⟩ := peek_token hnul [cBar, cRpar, cAmp, cSemi] h
    (by simp [symbols])
  refine ⟨q, e, hw w rfl, p2, hat2, fun r hr => .of_succ (.bind (.const hp) (.bind (.const hg) ?_))⟩
  simp only [Token.code, if_neg (show cWord ≠ 0 by decide), ne_eq, not_true_eq_false, if_false,
    if_neg (Nat.not_le.2 hn), ge_iff_le]
  exact hr

lemma args_many {argc : ℕ} {w : Word} (h : At s p (.word w :: ts)) (hn : MAXARGS ≤ argc + 1) :
    Yields (args s argc cmd) p (.error (.panic "too many args")) := by
  obtain ⟨p1, q, e, p2, hp, hg, -⟩ := peek_token hnul [cBar, cRpar, cAmp, cSemi] h (by simp [symbols])
  refine .of_succ (.bind (.const hp) (.bind (.const hg) ?_))
  simp only [Token.code, if_neg (show cWord ≠ 0 by decide), ne_eq, not_true_eq_false, if_false,
    if_pos hn, ge_iff_le]
  exact .const rfl

lemma args_syntax {argc : ℕ} (h : At s p (t :: ts))
    (hs : starts [cBar, cRpar, cAmp, cSemi] (t :: ts) = false)
    (ht : ∀ w, t ≠ .word w) : Yields (args s argc cmd) p (.error (.panic "syntax")) := by
  obtain ⟨p1, q, e, p2, hp, hg, -⟩ := peek_token hnul [cBar, cRpar, cAmp, cSemi] h (by simp [symbols])
  rw [hs] at hp
  refine .of_succ (.bind (.const hp) (.bind (.const hg) ?_))
  cases t with
  | word w => exact absurd rfl (ht w)
  | bar | amp | semi | rpar => cases hs
  | lt | gt | append | lpar => exact .const rfl

variable (cmd) in
lemma backs_spec {n : ℕ} (h : At s p (List.replicate n .amp ++ us)) (hs : starts [cAmp] us = false) :
    Parses s (fun k => parsebacks (s ++ [0]) s.length k cmd) p (Cmd.back^[n] cmd) us := by
  induction n generalizing p cmd with
  | zero =>
    obtain ⟨p', hp, hat, -⟩ := peek_spec [cAmp] h (by simp [symbols])
    rw [List.replicate_zero, List.nil_append] at hat hp
    rw [hs] at hp
    exact ⟨p', .of_succ (.bind (.const hp) (.const rfl)), hat⟩
  | succ n ih =>
    rw [List.replicate_succ, List.cons_append] at h
    obtain ⟨p1, q, e, p2, hp, hg, hat2, -⟩ := peek_token hnul [cAmp] h (by simp [symbols])
    obtain ⟨p', hy, hat⟩ := ih (.back cmd) hat2
    exact ⟨p', .of_succ (.bind (.const hp) (.bind (.const hg) hy)), hat⟩

lemma exec_block (h : At s p (.lpar :: ts)) :
    Goes s (parser s .exec) p (fun k => parser s .line k >>= fun c => close s c k) ts := by
  obtain ⟨p1, hp1, hat1, -⟩ := peek_spec [cLpar] h (by simp [symbols])
  obtain ⟨p2, q, e, p3, hp2, hg, hat3, -⟩ := peek_token hnul [cLpar] hat1 (by simp [symbols])
  refine ⟨p3, hat3, fun r hr => ?_⟩
  exact .of_succ (.bind (.const hp1) (.of_succ (.bind (.const hp2) (.bind (.const hg) hr))))

variable (cmd) in
lemma closeblock_spec (h : At s p (.rpar :: ts)) : Goes s (close s cmd) p (redirs s cmd) ts := by
  obtain ⟨p1, q, e, p2, hp, hg, hat2, -⟩ := peek_token hnul [cRpar] h (by simp [symbols])
  exact ⟨p2, hat2, fun r hr => .bind (.const hp) (.bind (.const hg) hr)⟩

lemma pipe_step (h : Parses s (parser s .exec) p cmd (.bar :: us)) :
    Goes s (parser s .pipe) p (fun k => parser s .pipe k >>= fun right => pure (.pipe cmd right)) us := by
  obtain ⟨p1, hy, hat⟩ := h
  obtain ⟨p2, q, e, p3, hp, hg, hat3, -⟩ := peek_token hnul [cBar] hat (by simp [symbols])
  exact ⟨p3, hat3, fun r hr => .of_succ (.bind hy (.bind (.const hp) (.bind (.const hg) hr)))⟩

variable {n : ℕ}

lemma line_stop (h : Parses s (parser s .pipe) p cmd (List.replicate n .amp ++ us))
    (hs : starts [cAmp] us = false)
    (hs' : starts [cSemi] us = false) : Parses s (parser s .line) p (Cmd.back^[n] cmd) us := by
  obtain ⟨p1, hy, hat⟩ := h
  obtain ⟨p2, hb, hat2⟩ := backs_spec cmd hnul hat hs
  obtain ⟨p3, hp, hat3, -⟩ := peek_spec [cSemi] hat2 (by simp [symbols])
  rw [hs'] at hp
  exact ⟨p3, .of_succ (.bind hy (.bind hb (.bind (.const hp) (.const rfl)))), hat3⟩

lemma line_step (h : Parses s (parser s .pipe) p cmd (List.replicate n .amp ++ .semi :: us)) :
    Goes s (parser s .line) p (fun k => parser s .line k >>= fun right => pure
    (.list (Cmd.back^[n] cmd) right)) us := by
  obtain ⟨p1, hy, hat⟩ := h
  obtain ⟨p2, hb, hat2⟩ := backs_spec cmd hnul hat rfl
  obtain ⟨p3, q, e, p4, hp, hg, hat4, -⟩ := peek_token hnul [cSemi] hat2 (by simp [symbols])
  exact ⟨p4, hat4, fun r hr => .of_succ (.bind hy (.bind hb (.bind (.const hp) (.bind (.const hg) hr))))⟩

end steps

def Follow : Kind → List Token → Prop
  | .line, us => us = [] ∨ starts [cRpar] us = true
  | .pipe, us => us = [] ∨ starts [cRpar, cAmp, cSemi] us = true
  | .exec, us => us = [] ∨ starts [cBar, cRpar, cAmp, cSemi] us = true

lemma Follow.redirs (h : Follow .exec us) : starts [cLt, cGt] us = false := by
  rcases h with rfl | h
  · rfl
  · rcases us with _ | ⟨_ | _, us⟩ <;> first | rfl | cases h

lemma Follow.lpar (h : Follow .exec us) : starts [cLpar] us = false := by
  rcases h with rfl | h
  · rfl
  · rcases us with _ | ⟨_ | _, us⟩ <;> first | rfl | cases h

lemma Follow.pipe_bar (h : Follow .pipe us) : starts [cBar] us = false ∧ Follow .exec us := by
  rcases h with rfl | h
  · exact ⟨rfl, .inl rfl⟩
  · rcases us with _ | ⟨_ | _, us⟩ <;> first | exact ⟨rfl, .inr rfl⟩ | cases h

lemma Follow.line_amp (h : Follow .line us) (n : ℕ) :
    starts [cAmp] us = false ∧ starts [cSemi] us = false ∧
    Follow .pipe (List.replicate n .amp ++ us) := by
  have hend : starts [cAmp] us = false ∧ starts [cSemi] us = false ∧ Follow .pipe us := by
    rcases h with rfl | h
    · exact ⟨rfl, rfl, .inl rfl⟩
    · rcases us with _ | ⟨_ | _, us⟩ <;> first | exact ⟨rfl, rfl, .inr rfl⟩ | cases h
  refine ⟨hend.1, hend.2.1, ?_⟩
  cases n with
  | zero => exact hend.2.2
  | succ n => exact .inr rfl

lemma follow_semi {n : ℕ} : Follow .pipe (List.replicate n .amp ++ .semi :: us) := by
  cases n <;> exact .inr rfl

lemma Denotes.backs {n : ℕ} (h : Denotes s cmd tree) :
    Denotes s (Cmd.back^[n] cmd) (Tree.back^[n] tree) := by
  induction n generalizing cmd tree with
  | zero => exact h
  | succ n ih => exact ih (.back h)

section complete

variable (hnul : (0 : UInt8) ∉ s)
include hnul

lemma redirs_complete {rs : List Redirection} (hr : Redirs ts rs us) (h : At s p ts)
    (hs : starts [cLt, cGt] us = false) (hc : Denotes s cmd tree) :
    ∃ c, Parses s (redirs s cmd) p c us ∧ Denotes s c (tree.wrap rs) := by
  induction hr generalizing p cmd tree with
  | nil => exact ⟨cmd, redirs_stop cmd h hs, hc⟩
  | cons hop _ ih =>
    obtain ⟨q, e, hw, p1, hat, hstep⟩ := redirs_step cmd hnul h hop
    obtain ⟨c, ⟨p', hy, hat'⟩, hd⟩ := ih hat hs (.redir hc hw)
    exact ⟨c, ⟨p', hstep _ hy, hat'⟩, hd⟩

lemma args_complete {ws ws' : List Word} {rs rs' : List Redirection} (ha : Args ts ws' rs' us)
    (h : At s p ts) (hf : Follow .exec us) (hc : Denotes s cmd ((Tree.exec ws).wrap rs))
    (hn : ws.length + ws'.length ≤ 9) :
    ∃ c, Parses s (args s ws.length cmd) p c us ∧
    Denotes s c ((Tree.exec (ws ++ ws')).wrap (rs ++ rs')) := by
  induction ha generalizing p cmd ws rs with
  | nil => exact ⟨cmd, args_stop cmd ws.length h hf, by simpa using hc⟩
  | @cons w ws' ts us vs rs1 rs2 hr ha ih =>
    rw [List.length_cons] at hn
    have hlen : ws.length + 1 < MAXARGS := by
      have hmax : MAXARGS = 10 := rfl
      omega
    obtain ⟨q, e, hw, p1, hat, hstep⟩ := args_step cmd hnul h hlen
    have hnext : starts [cLt, cGt] us = false := by
      cases ha with
      | nil => exact hf.redirs
      | cons => rfl
    obtain ⟨c, ⟨p2, hy, hat2⟩, hd⟩ := redirs_complete hnul hr hat hnext (hc.addArg hw)
    rw [← Tree.wrap_append] at hd
    obtain ⟨c', ⟨p', hy', hat'⟩, hd'⟩ := ih hat2 hf hd (by rw [List.length_append]; simp; omega)
    rw [List.length_append, List.length_singleton] at hy'
    exact ⟨c', ⟨p', hstep _ (.bind hy hy'), hat'⟩, by simpa using hd'⟩

lemma Derives.complete {k : Kind} (hd : Derives k ts tree us) (hf : Follow k us) (h : At s p ts) :
    ∃ c, Parses s (parser s k) p c us ∧ Denotes s c tree := by
  induction hd generalizing p with
  | @last _ _ _ n _ ih =>
    obtain ⟨hamp, hsemi, hpipe⟩ := hf.line_amp n
    obtain ⟨c, hp, hc⟩ := ih hpipe h
    exact ⟨_, line_stop hnul hp hamp hsemi, hc.backs⟩
  | seq _ _ ih ihu =>
    obtain ⟨c, hp, hc⟩ := ih follow_semi h
    obtain ⟨p2, hat2, hstep⟩ := line_step hnul hp
    obtain ⟨d, ⟨p', hy', hat'⟩, hc'⟩ := ihu hf hat2
    exact ⟨_, ⟨p', hstep _ (.bind hy' (.const rfl)), hat'⟩, .list hc.backs hc'⟩
  | one _ ih =>
    obtain ⟨c, hp, hc⟩ := ih hf.pipe_bar.2 h
    exact ⟨c, pipe_stop hp hf.pipe_bar.1, hc⟩
  | pipe _ _ ih ihu =>
    obtain ⟨c, hp, hc⟩ := ih (.inr rfl) h
    obtain ⟨p2, hat2, hstep⟩ := pipe_step hnul hp
    obtain ⟨d, ⟨p', hy', hat'⟩, hc'⟩ := ihu hf hat2
    exact ⟨_, ⟨p', hstep _ (.bind hy' (.const rfl)), hat'⟩, .pipe hc hc'⟩
  | @words ts us vs ws rs rs' hr ha hn =>
    have hnext : starts [cLt, cGt] us = false ∧ starts [cLpar] us = false := by
      cases ha with
      | nil => exact ⟨hf.redirs, hf.lpar⟩
      | cons => exact ⟨rfl, rfl⟩
    have hpar : starts [cLpar] ts = false := by
      cases hr with
      | nil => exact hnext.2
      | @cons op _ _ _ _ _ _ hop _ => cases op <;> first | rfl | cases hop
    obtain ⟨p1, hat1, hstep⟩ := exec_words h hpar
    obtain ⟨c, ⟨p2, hy, hat2⟩, hd⟩ := redirs_complete hnul hr hat1 hnext.1 (Denotes.exec .nil)
    obtain ⟨c', ⟨p', hy', hat'⟩, hd'⟩ := args_complete hnul ha hat2 hf hd (by simpa using hn)
    exact ⟨c', ⟨p', hstep _ (.bind hy hy'), hat'⟩, hd'⟩
  | block _ hr ih =>
    obtain ⟨p1, hat1, hstep⟩ := exec_block hnul h
    obtain ⟨c, ⟨p2, hy, hat2⟩, hc⟩ := ih (.inr rfl) hat1
    obtain ⟨p3, hat3, hclose⟩ := closeblock_spec c hnul hat2
    obtain ⟨c', ⟨p', hy', hat'⟩, hd'⟩ := redirs_complete hnul hr hat3 hf.redirs hc
    exact ⟨c', ⟨p', hstep _ (.bind hy (hclose _ hy')), hat'⟩, hd'⟩

end complete

def Ends (s : List UInt8) (f : ℕ → Parser Cmd) (p : ℕ) (Q : Cmd → List Token → Prop) : Prop :=
  (∃ msg, Yields f p (.error (.panic msg))) ∨ ∃ c us, Parses s f p c us ∧ Q c us

namespace Ends

variable {f f' : ℕ → Parser Cmd} {g : ℕ → Cmd → Parser Cmd} {Q R : Cmd → List Token → Prop}

lemma bind (h : Ends s f p Q) (hg : ∀ c p' us, At s p' us → Q c us → Ends s (fun k => g k c) p' R) :
    Ends s (fun k => f k >>= g k) p R := by
  rcases h with ⟨msg, h⟩ | ⟨c, us, ⟨p', h, hat⟩, hq⟩
  · exact .inl ⟨msg, h.bind_error⟩
  · rcases hg c p' us hat hq with ⟨msg, h'⟩ | ⟨c', vs, ⟨p'', h', hat'⟩, hr⟩
    · exact .inl ⟨msg, h.bind h'⟩
    · exact .inr ⟨c', vs, ⟨p'', h.bind h', hat'⟩, hr⟩

lemma of_goes (hgo : Goes s f p f' ts) (h : ∀ p', At s p' ts → Ends s f' p' Q) : Ends s f p Q := by
  obtain ⟨p', hat, hstep⟩ := hgo
  rcases h p' hat with ⟨msg, h⟩ | ⟨c, us, ⟨p'', h, hat'⟩, hq⟩
  · exact .inl ⟨msg, hstep _ h⟩
  · exact .inr ⟨c, us, ⟨p'', hstep _ h, hat'⟩, hq⟩

lemma imp (h : Ends s f p Q) (himp : ∀ c us, Q c us → R c us) : Ends s f p R :=
  h.imp_right fun ⟨c, us, h, hq⟩ => ⟨c, us, h, himp c us hq⟩

end Ends

lemma Redirs.length_le {rs : List Redirection} (h : Redirs ts rs us) : us.length ≤ ts.length := by
  induction h with
  | nil => exact le_rfl
  | cons _ _ ih => simp only [List.length_cons]; omega

lemma Args.length_le {ws : List Word} {rs : List Redirection} (h : Args ts ws rs us) :
    us.length ≤ ts.length := by
  induction h with
  | nil => exact le_rfl
  | cons hr _ ih =>
    have := hr.length_le
    simp only [List.length_cons]
    omega

lemma Derives.length_le {k : Kind} (h : Derives k ts tree us) : us.length ≤ ts.length := by
  induction h with
  | last _ ih =>
    rw [List.length_append] at ih
    omega
  | seq _ _ ih ihu =>
    rw [List.length_append, List.length_cons] at ih
    omega
  | one _ ih => exact ih
  | pipe _ _ ih ihu =>
    rw [List.length_cons] at ih
    omega
  | words hr ha _ => exact ha.length_le.trans hr.length_le
  | block _ hr ih =>
    have := hr.length_le
    rw [List.length_cons] at ih ⊢
    omega

def Parsed (s : List UInt8) (k : Kind) (ts : List Token) (c : Cmd) (us : List Token) : Prop :=
  ∃ tree, Derives k ts tree us ∧ Denotes s c tree

def Sound (s : List UInt8) (k : Kind) (n : ℕ) : Prop :=
  ∀ ts p, ts.length < n → At s p ts → Ends s (parser s k) p (Parsed s k ts)

section sound

variable (hnul : (0 : UInt8) ∉ s)
include hnul

lemma redirs_sound (h : At s p ts) (hc : Denotes s cmd tree) :
    Ends s (redirs s cmd) p fun c us => ∃ rs, Redirs ts rs us ∧ Denotes s c (tree.wrap rs) := by
  induction hn : ts.length using Nat.strong_induction_on generalizing ts p cmd tree with
  | _ n ih =>
    cases hs : starts [cLt, cGt] ts with
    | false => exact .inr ⟨cmd, ts, redirs_stop cmd h hs, [], .nil, hc⟩
    | true =>
      rcases ts with _ | ⟨t, ts⟩
      · cases hs
      rw [starts_redirects] at hs
      by_cases hw : ∃ w us, ts = .word w :: us
      · obtain ⟨w, us, rfl⟩ := hw
        obtain ⟨⟨mode, fd⟩, ht⟩ := Option.isSome_iff_exists.1 hs
        obtain ⟨q, e, hloc, hgo⟩ := redirs_step cmd hnul h ht
        simp only [List.length_cons] at hn
        refine .of_goes hgo fun p' hat => (ih us.length (by omega) hat (.redir hc hloc) rfl).imp ?_
        rintro c vs ⟨rs, hr, hd⟩
        exact ⟨_, .cons ht hr, hd⟩
      · push Not at hw
        exact .inl ⟨_, redirs_panic hnul h hs hw⟩

lemma args_sound (ws : List Word) {rs : List Redirection} (h : At s p ts)
    (hc : Denotes s cmd ((Tree.exec ws).wrap rs)) (hw : ws.length ≤ 9) :
    Ends s (args s ws.length cmd) p fun c us => ∃ ws' rs', Args ts ws' rs' us ∧
    ws.length + ws'.length ≤ 9 ∧
      Denotes s c ((Tree.exec (ws ++ ws')).wrap (rs ++ rs')) := by
  induction hn : ts.length using Nat.strong_induction_on generalizing ts p cmd ws rs with
  | _ n ih =>
    by_cases hs : ts = [] ∨ starts [cBar, cRpar, cAmp, cSemi] ts = true
    · exact .inr ⟨cmd, ts, args_stop cmd ws.length h hs, [], [], .nil, hw, by simpa using hc⟩
    rcases ts with _ | ⟨t, ts⟩
    · exact absurd (.inl rfl) hs
    have hs : starts [cBar, cRpar, cAmp, cSemi] (t :: ts) = false := by simpa using hs
    by_cases hword : ∃ w, t = .word w
    swap
    · push Not at hword
      exact .inl ⟨_, args_syntax hnul h hs hword⟩
    obtain ⟨w, rfl⟩ := hword
    rcases Nat.lt_or_ge (ws.length + 1) MAXARGS with hlt | hge
    swap
    · exact .inl ⟨_, args_many hnul h hge⟩
    obtain ⟨q, e, hloc, hgo⟩ := args_step cmd hnul h hlt
    refine .of_goes hgo fun p1 hat => .bind (redirs_sound hnul hat (hc.addArg hloc)) ?_
    rintro c p2 us hat2 ⟨rs1, hr, hd⟩
    rw [← Tree.wrap_append] at hd
    have hlen := hr.length_le
    rw [List.length_cons] at hn
    have hws : (ws ++ [w]).length = ws.length + 1 := by simp
    have hrest := ih us.length (by omega) (ws ++ [w]) hat2 hd
      (by rw [hws]; exact Nat.le_of_lt_succ hlt) rfl
    rw [hws] at hrest
    refine hrest.imp ?_
    rintro c' vs ⟨ws', rs', ha, hle, hd'⟩
    exact ⟨w :: ws', rs1 ++ rs', .cons hr ha, by rw [List.length_cons]; omega, by simpa using hd'⟩

variable {n : ℕ}

lemma exec_sound (hline : Sound s .line n) : Sound s .exec (n + 1) := by
  intro ts p hn h
  by_cases hpar : ∃ us, ts = .lpar :: us
  · obtain ⟨us, rfl⟩ := hpar
    rw [List.length_cons] at hn
    refine .of_goes (exec_block hnul h) fun p1 hat1 => .bind (hline us p1 (by omega) hat1) ?_
    rintro c p2 vs hat2 ⟨tree, hd, hc⟩
    by_cases hclose : ∃ us, vs = .rpar :: us
    · obtain ⟨us, rfl⟩ := hclose
      refine .of_goes (closeblock_spec c hnul hat2) fun p3 hat3 => (redirs_sound hnul hat3 hc).imp ?_
      rintro c' ws ⟨rs, hr, hd'⟩
      exact ⟨_, .block hd hr, hd'⟩
    · refine .inl ⟨_, closeblock_missing hat2 ?_⟩
      rcases vs with _ | ⟨_ | _, vs⟩ <;> first | rfl | exact absurd ⟨vs, rfl⟩ hclose
  · have hs : starts [cLpar] ts = false := by
      rcases ts with _ | ⟨_ | _, ts⟩ <;> first | rfl | exact absurd ⟨ts, rfl⟩ hpar
    refine .of_goes (exec_words h hs) fun p1 hat1 => .bind (redirs_sound hnul hat1 (Denotes.exec .nil)) ?_
    rintro c p2 us hat2 ⟨rs, hr, hd⟩
    refine (args_sound hnul [] hat2 hd (by simp)).imp ?_
    rintro c' vs ⟨ws', rs', ha, hle, hd'⟩
    exact ⟨_, .words hr ha (by simpa using hle), by simpa using hd'⟩

lemma pipe_sound (hexec : Sound s .exec (n + 1)) (hpipe : Sound s .pipe n) : Sound s .pipe (n + 1) := by
  intro ts p hn h
  rcases hexec ts p hn h with ⟨msg, hy⟩ | ⟨c, us, hp, tree, hd, hc⟩
  · exact .inl ⟨msg, .of_succ hy.bind_error⟩
  by_cases hbar : ∃ vs, us = .bar :: vs
  · obtain ⟨vs, rfl⟩ := hbar
    have hlen := hd.length_le
    rw [List.length_cons] at hlen
    refine .of_goes (pipe_step hnul hp) fun p2 hat2 => .bind (hpipe vs p2 (by omega) hat2) ?_
    rintro d p' ws hat' ⟨u, hu, hc'⟩
    exact .inr ⟨_, ws, ⟨p', .const rfl, hat'⟩, _, .pipe hd hu, .pipe hc hc'⟩
  · have hs : starts [cBar] us = false := by
      rcases us with _ | ⟨_ | _, us⟩ <;> first | rfl | exact absurd ⟨us, rfl⟩ hbar
    exact .inr ⟨c, us, pipe_stop hp hs, tree, .one hd, hc⟩

omit hnul in
lemma exists_amps (ts : List Token) : ∃ n us, ts = List.replicate n .amp ++ us ∧
    starts [cAmp] us = false := by
  induction ts with
  | nil => exact ⟨0, [], rfl, rfl⟩
  | cons t ts ih =>
    by_cases ht : t = .amp
    · obtain ⟨n, us, rfl, hs⟩ := ih
      exact ⟨n + 1, us, by rw [ht]; rfl, hs⟩
    · exact ⟨0, t :: ts, rfl, by cases t <;> first | rfl | exact absurd rfl ht⟩

lemma line_sound (hpipe : Sound s .pipe (n + 1)) (hline : Sound s .line n) : Sound s .line (n + 1) := by
  intro ts p hn h
  rcases hpipe ts p hn h with ⟨msg, hy⟩ | ⟨c, us, hp, tree, hd, hc⟩
  · exact .inl ⟨msg, .of_succ hy.bind_error⟩
  obtain ⟨m, vs, rfl, hamp⟩ := exists_amps us
  by_cases hsemi : ∃ ws, vs = .semi :: ws
  · obtain ⟨ws, rfl⟩ := hsemi
    have hlen := hd.length_le
    rw [List.length_append, List.length_cons] at hlen
    refine .of_goes (line_step hnul hp) fun p2 hat2 => .bind (hline ws p2 (by omega) hat2) ?_
    rintro d p' xs hat' ⟨u, hu, hc'⟩
    exact .inr ⟨_, xs, ⟨p', .const rfl, hat'⟩, _, .seq hd hu, .list hc.backs hc'⟩
  · have hs : starts [cSemi] vs = false := by
      rcases vs with _ | ⟨_ | _, vs⟩ <;> first | rfl | exact absurd ⟨vs, rfl⟩ hsemi
    exact .inr ⟨_, vs, line_stop hnul hp hamp hs, _, .last hd, hc.backs⟩

lemma parser_sound (n : ℕ) (k : Kind) : Sound s k n := by
  induction n generalizing k with
  | zero => exact fun ts p hn => absurd hn (Nat.not_lt_zero _)
  | succ n ih =>
    have hexec := exec_sound hnul (ih .line)
    have hpipe := pipe_sound hnul hexec (ih .pipe)
    cases k with
    | exec => exact hexec
    | pipe => exact hpipe
    | line => exact line_sound hnul hpipe (ih .line)

end sound

end Xv6.Sh
