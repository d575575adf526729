import Xv6.Sh.Grammar

namespace Xv6.Sh

open Lib

def Cmd.read (b : List UInt8) : Cmd → Tree
  | exec argv => .exec (argv.map fun a => cstring b a.1)
  | redir cmd file _ mode fd => .redir (cmd.read b) (cstring b file) mode fd
  | pipe left right => .pipe (left.read b) (right.read b)
  | list left right => .list (left.read b) (right.read b)
  | back cmd => .back (cmd.read b)

def Cmd.ends : Cmd → List ℕ
  | exec argv => argv.map Prod.snd
  | redir cmd _ efile _ _ => cmd.ends ++ [efile]
  | pipe left right | list left right => left.ends ++ right.ends
  | back cmd => cmd.ends

lemma nulterminate_eq (c : Cmd) (b : List UInt8) :
    nulterminate c b = c.ends.foldl (fun b e => b.set e 0) b := by
  induction c generalizing b with
  | exec argv => simp only [nulterminate, Cmd.ends, List.foldl_map]
  | redir cmd file efile mode fd ih => simp [nulterminate, Cmd.ends, ih]
  | pipe l r ihl ihr => simp only [nulterminate, Cmd.ends, List.foldl_append, ihl, ihr]
  | list l r ihl ihr => simp only [nulterminate, Cmd.ends, List.foldl_append, ihl, ihr]
  | back c ih => exact ih b

lemma foldl_set_getElem? (es : List ℕ) (b : List UInt8) (i : ℕ) :
    (es.foldl (fun b e => b.set e 0) b)[i]? = if i ∈ es ∧ i < b.length then some 0 else b[i]? := by
  induction es generalizing b with
  | nil => simp
  | cons e es ih =>
    rw [List.foldl_cons, ih, List.length_set, List.getElem?_set]
    grind

variable {s b : List UInt8} {q e : ℕ} {w : Word} {cmd : Cmd} {tree : Tree}

lemma Located.le_length (h : Located s q e w) : e ≤ s.length := by
  have hlen := congrArg List.length h.split
  rw [List.length_append, List.length_drop, List.length_drop] at hlen
  have heq := h.eq
  have hle := h.le
  omega

lemma Located.getElem? (h : Located s q e w) {i : ℕ} (hi : i < w.length) : s[q + i]? = w[i]? := by
  rw [← List.getElem?_drop, h.split, List.getElem?_append_left hi]

lemma Located.end_ne {q' e' : ℕ} {w' : Word} (h : Located s q e w) (h' : Located s q' e' w') {i : ℕ}
    (hi : i < w.length) : q + i ≠ e' := by
  rintro rfl
  have hc := h.getElem? hi
  rw [List.getElem?_eq_getElem hi] at hc
  have hword := h.word _ (List.getElem_mem hi)
  have hafter := h'.after w[i] (by rw [List.head?_drop, hc]; rfl)
  rw [hafter] at hword
  cases hword

lemma cstring_eq (h : Located s q e w) (hw : (0 : UInt8) ∉ w) (hsame : ∀ i < w.length, b[q + i]? = w[i]?)
    (hz : b[e]? = some 0) : cstring b q = w := by
  have hsplit : b.drop q = w ++ 0 :: b.drop (e + 1) := by
    apply List.ext_getElem?
    intro i
    rw [List.getElem?_drop]
    rcases Nat.lt_trichotomy i w.length with hi | rfl | hi
    · rw [hsame i hi, List.getElem?_append_left hi]
    · rw [← h.eq, hz]
      simp
    · obtain ⟨j, rfl⟩ := Nat.exists_eq_add_of_lt hi
      rw [List.getElem?_append_right (by omega), show w.length + j + 1 - w.length = j + 1 by omega,
        List.getElem?_cons_succ, List.getElem?_drop, h.eq]
      congr 1
      omega
  rw [cstring, hsplit, List.takeWhile_append_of_pos, List.takeWhile_cons_of_neg (by simp),
    List.append_nil]
  intro c hc
  have hne : c ≠ 0 := fun h0 => hw (h0 ▸ hc)
  simpa using hne

lemma Denotes.ends (h : Denotes s cmd tree) : ∀ e ∈ cmd.ends, ∃ q w, Located s q e w := by
  induction h with
  | exec h =>
    induction h with
    | nil => simp [Cmd.ends]
    | cons hw _ ih =>
      intro e he
      rcases List.mem_cons.1 he with rfl | he
      · exact ⟨_, _, hw⟩
      · exact ih e he
  | redir _ hw ih =>
    intro e he
    rcases List.mem_append.1 he with he | he
    · exact ih e he
    · exact ⟨_, _, List.mem_singleton.1 he ▸ hw⟩
  | pipe _ _ ihl ihr | list _ _ ihl ihr =>
    intro e he
    rcases List.mem_append.1 he with he | he
    · exact ihl e he
    · exact ihr e he
  | back _ ih => exact ih

lemma Denotes.read_eq {es : List ℕ} (h : Denotes s cmd tree) (hsub : cmd.ends ⊆ es)
    (hb : ∀ q e w, Located s q e w → e ∈ es → cstring b q = w) : cmd.read b = tree := by
  induction h with
  | exec h =>
    refine congrArg Tree.exec ?_
    induction h with
    | nil => rfl
    | cons hw _ ih =>
      obtain ⟨hend, hsub⟩ := List.cons_subset.1 hsub
      rw [List.map_cons, hb _ _ _ hw hend, ih hsub]
  | redir _ hw ih =>
    obtain ⟨hsub, hend⟩ := List.append_subset.1 hsub
    rw [Cmd.read, ih hsub, hb _ _ _ hw (hend (List.mem_singleton_self _))]
  | pipe _ _ ihl ihr | list _ _ ihl ihr =>
    obtain ⟨hl, hr⟩ := List.append_subset.1 hsub
    rw [Cmd.read, ihl hl, ihr hr]
  | back _ ih => rw [Cmd.read, ih hsub]

lemma read_nulterminate (hnul : (0 : UInt8) ∉ s) (h : Denotes s cmd tree) :
    cmd.read (nulterminate cmd (s ++ [0])) = tree := by
  refine h.read_eq (List.Subset.refl _) fun q e w hw he => ?_
  rw [nulterminate_eq]
  refine cstring_eq hw (fun h0 => ?_) (fun i hi => ?_) ?_
  · have hmem : (0 : UInt8) ∈ s.drop q := by rw [hw.split]; exact List.mem_append_left _ h0
    exact hnul (List.mem_of_mem_drop hmem)
  · have hout : q + i ∉ cmd.ends := by
      intro hin
      obtain ⟨q', w', h'⟩ := h.ends _ hin
      exact hw.end_ne h' hi rfl
    have hlt : q + i < s.length := by
      have := hw.le_length
      have := hw.eq
      omega
    rw [foldl_set_getElem?, if_neg (fun hin => hout hin.1), List.getElem?_append_left hlt, hw.getElem? hi]
  · have := hw.le_length
    rw [foldl_set_getElem?, if_pos ⟨he, by rw [List.length_append, List.length_singleton]; omega⟩]

lemma At.eq_nil {us : List Token} (h : At s s.length us) : us = [] := by
  have hsp := h.spells
  rw [List.drop_length] at hsp
  generalize hl : ([] : List UInt8) = l at hsp
  cases hsp with
  | nil => rfl
  | word hne => exact absurd (List.append_eq_nil_iff.1 hl.symm).1 hne
  | space | single | gt | append => cases hl

lemma parsecmd_ok {us : List Token} {k p : ℕ}
    (hrun : (parseline (s ++ [0]) s.length k).run 0 = .ok (cmd, p)) (hat : At s p us) :
    parsecmd s k = if us = [] then .ok (cmd, nulterminate cmd (s ++ [0])) else .error
    (.panic "syntax") := by
  obtain ⟨p', hp, hat', hend⟩ := peek_spec [] hat (by simp)
  have hiff : p' = s.length ↔ us = [] := by
    refine ⟨fun h => ?_, hend⟩
    subst h
    exact hat'.eq_nil
  unfold parsecmd
  simp only [hrun, bind, Except.bind, hp]
  by_cases hus : us = []
  · rw [if_pos hus]
    simp [hiff.2 hus, pure, Except.pure]
  · rw [if_neg hus]
    have hne : p' ≠ s.length := fun h => hus (hiff.1 h)
    simp [hne, throw, throwThe, MonadExceptOf.throw]

lemma parsecmd_error {k : ℕ} {e : Stop} (hrun : (parseline (s ++ [0]) s.length k).run 0 = .error e) :
    parsecmd s k = .error e := by
  unfold parsecmd
  simp only [hrun]
  rfl

theorem parsecmd_accepts_grammar (s : List UInt8) (hnul : (0 : UInt8) ∉ s) :
    ∃ r, (∃ n, ∀ k, n ≤ k → parsecmd s k = r) ∧
      (∀ tree, IsLine s tree ↔ ∃ cmd b, r = .ok (cmd, b) ∧ cmd.read b = tree) ∧
      ((¬ ∃ tree, IsLine s tree) ↔ ∃ msg, r = .error (.panic msg)) := by
  obtain ⟨ts, hts⟩ := exists_spells s
  have hstart : ∀ {ts}, Spells s ts → At s 0 ts := fun h => ⟨Nat.zero_le _, h⟩
  -- a derivation determines the result
  have hcomplete : ∀ tree, IsLine s tree → ∃ n cmd b, (∀ k, n ≤ k → parsecmd s k = .ok (cmd, b)) ∧
    cmd.read b = tree := by
    rintro tree ⟨us, hus, hd⟩
    obtain ⟨c, ⟨p, ⟨n, hn⟩, hat⟩, hc⟩ := hd.complete hnul (.inl rfl) (hstart hus)
    exact ⟨n, c, _, fun k hk => parsecmd_ok (hn k hk) hat, read_nulterminate hnul hc⟩
  obtain ⟨r, n, hr, hcases⟩ : ∃ r n, (∀ k, n ≤ k → parsecmd s k = r) ∧
      ((∃ msg, r = .error (.panic msg)) ∨ ∃ cmd b, r = .ok (cmd, b) ∧ IsLine s (cmd.read b)) := by
    rcases parser_sound hnul _ .line ts 0 (Nat.lt_succ_self _) (hstart hts) with
      ⟨msg, n, hn⟩ | ⟨c, us, ⟨p, ⟨n, hn⟩, hat⟩, tree, hd, hc⟩
    · exact ⟨_, n, fun k hk => parsecmd_error (hn k hk), .inl ⟨msg, rfl⟩⟩
    · refine ⟨_, n, fun k hk => parsecmd_ok (hn k hk) hat, ?_⟩
      by_cases hus : us = []
      · subst hus
        exact .inr ⟨c, _, if_pos rfl, ts, hts, by rwa [read_nulterminate hnul hc]⟩
      · exact .inl ⟨_, if_neg hus⟩
  have hiff : ∀ tree, IsLine s tree ↔ ∃ cmd b, r = .ok (cmd, b) ∧ cmd.read b = tree := by
    intro tree
    constructor
    · intro hl
      obtain ⟨m, cmd, b, hm, hread⟩ := hcomplete tree hl
      exact ⟨cmd, b, (hr (max n m) (by omega)).symm.trans (hm (max n m) (by omega)), hread⟩
    · rintro ⟨cmd, b, rfl, rfl⟩
      rcases hcases with ⟨msg, h⟩ | ⟨cmd', b', h, hl⟩
      · cases h
      · cases h
        exact hl
  refine ⟨r, ⟨n, hr⟩, hiff, fun hno => ?_, ?_⟩
  · rcases hcases with h | ⟨cmd, b, -, hl⟩
    · exact h
    · exact absurd ⟨_, hl⟩ hno
  · rintro ⟨msg, rfl⟩ ⟨tree, hl⟩
    obtain ⟨cmd, b, h, -⟩ := (hiff tree).1 hl
    cases h

example : (parsecmd [97, 32, 62, 62, 98, 59, 40, 124, 41, 38] 20).map (·.1) =
    .ok (.list (.redir (.exec [(0, 1)]) 4 5 0x201 1)
    (.back (.pipe (.exec []) (.exec [])))) := by decide +kernel

theorem parsecmd_accepts_grammar_redirection :
    ∃ n cmd b, (∀ k, n ≤ k → parsecmd [97, 32, 62, 98] k = .ok (cmd, b)) ∧
      cmd.read b = .redir (.exec [[97]]) [98] (O_WRONLY ||| O_CREATE) 1 := by
  obtain ⟨r, ⟨n, hn⟩, hiff, -⟩ := parsecmd_accepts_grammar [97, 32, 62, 98] (by simp)
  have hspells : Spells [97, 32, 62, 98] [.word [97], .gt, .word [98]] := by
    refine .word (w := [97]) (by simp) (List.forall_mem_singleton.2 rfl) (by rintro c ⟨⟩; rfl) ?_
    refine .space rfl (.gt (by decide) ?_)
    exact .word (w := [98]) (by simp) (List.forall_mem_singleton.2 rfl) (by simp) .nil
  have hline : Derives .line [.word [97], .gt, .word [98]]
    (.redir (.exec [[97]]) [98] (O_WRONLY ||| O_CREATE) 1) [] :=
    .last (n := 0) (.one (.words .nil (.cons (.cons rfl .nil) .nil) (by simp)))
  obtain ⟨cmd, b, rfl, hread⟩ := (hiff _).1 ⟨_, hspells, hline⟩
  exact ⟨n, cmd, b, hn, hread⟩

end Xv6.Sh
