import Xv6.Lib.Run

namespace Xv6.Console

open Lib

abbrev INPUT_BUF : ℕ := 128

abbrev NL : UInt8 := 10
abbrev CR : UInt8 := 13
abbrev DEL : UInt8 := 127
abbrev CTRL_D : UInt8 := 4
abbrev CTRL_H : UInt8 := 8
abbrev CTRL_P : UInt8 := 16
abbrev CTRL_U : UInt8 := 21

inductive Act
  | key (c : UInt8)
  | take (p : ℕ) (c : UInt8)
  deriving DecidableEq

def takes (acts : List Act) : List UInt8 :=
  acts.filterMap fun
    | .key _ => none
    | .take _ c => some c

structure Editor where
  committed : List UInt8
  line : List UInt8
  taken : ℕ
  deriving DecidableEq

namespace Editor

def init : Editor := ⟨[], [], 0⟩

def held (a : Editor) : ℕ := a.committed.length + a.line.length - a.taken

def append (a : Editor) (c : UInt8) : Editor :=
  if c = NL ∨ c = CTRL_D ∨ a.held + 1 = INPUT_BUF then
    { a with committed := a.committed ++ (a.line ++ [c]), line := [] }
  else { a with line := a.line ++ [c] }

def key (a : Editor) (c : UInt8) : Editor :=
  if c = CTRL_P then a
  else if c = CTRL_U then { a with line := [] }
  else if c = CTRL_H ∨ c = DEL then { a with line := a.line.dropLast }
  else if c ≠ 0 ∧ a.held < INPUT_BUF then a.append (if c = CR then NL else c)
  else a

def step (a : Editor) : Act → Option Editor
  | .key c => some (a.key c)
  | .take _ c => if a.committed[a.taken]? = some c then some { a with taken := a.taken + 1 } else none

structure Inv (a : Editor) : Prop where
  taken : a.taken ≤ a.committed.length
  held : a.held ≤ INPUT_BUF
  room : a.line ≠ [] → a.held < INPUT_BUF
  newline : NL ∉ a.line

variable {a a' : Editor}

lemma Inv.init : Inv init := ⟨le_rfl, Nat.zero_le _, fun h => absurd rfl h, List.not_mem_nil⟩

lemma Inv.append (h : Inv a) {c : UInt8} (hroom : a.held < INPUT_BUF) : Inv (a.append c) := by
  have ht := h.taken
  unfold Editor.append
  split_ifs with hc
  · refine ⟨?_, ?_, fun hne => absurd rfl hne, List.not_mem_nil⟩
    · simp only [List.length_append]
      omega
    · simp only [Editor.held, List.length_append, List.length_singleton, List.length_nil] at hroom ⊢
      omega
  · simp only [not_or] at hc
    have hheld : Editor.held { a with line := a.line ++ [c] } = a.held + 1 := by
      simp only [Editor.held, List.length_append, List.length_singleton]
      omega
    refine ⟨ht, ?_, fun _ => ?_, ?_⟩
    · rw [hheld]
      omega
    · rw [hheld]
      omega
    · simp only [List.mem_append, List.mem_singleton, not_or]
      exact ⟨h.newline, fun hn => hc.1 hn.symm⟩

lemma Inv.erase (h : Inv a) {l : List UInt8} (hl : l.Sublist a.line) : Inv { a with line := l } := by
  have hlen := hl.length_le
  have hheld : Editor.held { a with line := l } ≤ a.held := by
    simp only [Editor.held]
    omega
  refine ⟨h.taken, hheld.trans h.held, fun hne => hheld.trans_lt (h.room ?_), fun hn => h.newline
    (hl.subset hn)⟩
  rintro hnil
  rw [hnil, List.sublist_nil] at hl
  exact hne hl

lemma Inv.key (h : Inv a) (c : UInt8) : Inv (a.key c) := by
  unfold Editor.key
  split_ifs with h1 h2 h3 h4
  · exact h
  · exact h.erase (List.nil_sublist _)
  · exact h.erase (List.dropLast_sublist _)
  · exact h.append h4.2
  · exact h.append h4.2
  · exact h

lemma Inv.take (h : Inv a) (hlt : a.taken < a.committed.length) :
    Inv { a with taken := a.taken + 1 } := by
  have hheld : Editor.held { a with taken := a.taken + 1 } + 1 = a.held := by
    simp only [Editor.held]
    omega
  refine ⟨hlt, ?_, fun hne => ?_, h.newline⟩
  · have := h.held
    omega
  · have := h.room hne
    omega

lemma taken_lt {c : UInt8} (h : a.committed[a.taken]? = some c) : a.taken < a.committed.length :=
  (List.getElem?_eq_some_iff.mp h).1

lemma Inv.step (h : Inv a) {act : Act} (hs : a.step act = some a') : Inv a' := by
  cases act with
  | key c =>
    cases hs
    exact h.key c
  | take p c =>
    obtain ⟨hc, heq⟩ := Option.ite_none_right_eq_some.mp hs
    cases heq
    exact h.take (taken_lt hc)

lemma committed_prefix (a : Editor) (c : UInt8) : a.committed <+: (a.key c).committed := by
  unfold Editor.key Editor.append
  split_ifs <;> first | exact List.prefix_append _ _ | exact List.prefix_rfl

lemma taken_key (a : Editor) (c : UInt8) : (a.key c).taken = a.taken := by
  unfold Editor.key Editor.append
  split_ifs <;> rfl

structure Serves (acts : List Act) (a : Editor) : Prop where
  inv : Inv a
  takes : takes acts = a.committed.take a.taken

lemma takes_snoc_key (acts : List Act) (c : UInt8) :
    Console.takes (acts ++ [.key c]) = Console.takes acts := by
  simp [Console.takes, List.filterMap_append]

lemma takes_snoc_take (acts : List Act) (p : ℕ) (c : UInt8) :
    Console.takes (acts ++ [.take p c]) = Console.takes acts ++ [c] := by
  simp [Console.takes, List.filterMap_append]

lemma Serves.step {acts : List Act} (h : Serves acts a) {act : Act} (hs : a.step act = some a') :
    Serves (acts ++ [act]) a' := by
  refine ⟨h.inv.step hs, ?_⟩
  cases act with
  | key c =>
    cases hs
    obtain ⟨l, hl⟩ := committed_prefix a c
    rw [takes_snoc_key, h.takes, taken_key, ← hl, List.take_append_of_le_length h.inv.taken]
  | take p c =>
    obtain ⟨hc, heq⟩ := Option.ite_none_right_eq_some.mp hs
    cases heq
    rw [takes_snoc_take, h.takes, List.take_add_one, hc]
    rfl

lemma Serves.run {acts : List Act} (h : exec Editor.step Editor.init acts = some a) : Serves acts a :=
  (run_of_exec h).invariant (P := Serves) ⟨.init, rfl⟩ fun _ _ _ _ _ hs he => hs.step he

end Editor

end Xv6.Console
