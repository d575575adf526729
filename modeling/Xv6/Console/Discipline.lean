import Xv6.Console.Input

namespace Xv6.Console

open Lib

lemma toNat_ofNat_sub {a b : ℕ} (hle : b ≤ a) (hlt : a < b + 2 ^ 32) :
    (UInt32.ofNat a - UInt32.ofNat b).toNat = a - b := by
  rw [UInt32.toNat_sub, UInt32.toNat_ofNat', UInt32.toNat_ofNat']
  omega

structure Matches (i : Input) (a : Editor) : Prop where
  fifo : Fifo INPUT_BUF i.buf i.r i.e (a.committed ++ a.line) (a.committed.take a.taken)
  w : i.w = UInt32.ofNat a.committed.length

namespace Matches

variable {i : Input} {a : Editor}

lemma length_take (hi : a.Inv) : (a.committed.take a.taken).length = a.taken := by
  rw [List.length_take, Nat.min_eq_left hi.taken]

lemma held_lt (hi : a.Inv) : a.committed.length + a.line.length ≤ a.taken + INPUT_BUF := by
  have := hi.held
  simp only [Editor.held] at this
  omega

section

variable (h : Matches i a) (hi : a.Inv)
include h hi

lemma count_e : (i.e - i.r).toNat = a.held := by
  rw [h.fifo.count, length_take hi, List.length_append]
  rfl

lemma count_w : (i.w - i.r).toNat = a.committed.length - a.taken := by
  have hb := held_lt hi
  rw [h.w, h.fifo.out_count, length_take hi]
  exact toNat_ofNat_sub hi.taken (by simp only [INPUT_BUF] at hb; omega)

lemma count_line : (i.e - i.w).toNat = a.line.length := by
  have hb := held_lt hi
  have ht := hi.taken
  rw [h.w, h.fifo.in_count, List.length_append, toNat_ofNat_sub (by omega)
    (by simp only [INPUT_BUF] at hb; omega)]
  omega

lemma e_eq_w : i.e = i.w ↔ a.line = [] := by
  constructor
  · intro he
    have hc := h.count_line hi
    rw [he, UInt32.sub_self] at hc
    exact List.length_eq_zero_iff.mp hc.symm
  · intro hz
    rw [h.fifo.in_count, h.w, hz, List.append_nil]

lemma r_eq_w : i.r = i.w ↔ a.taken = a.committed.length := by
  constructor
  · intro he
    have hc := h.count_w hi
    have ht := hi.taken
    rw [he, UInt32.sub_self, UInt32.toNat_zero] at hc
    omega
  · intro he
    rw [h.fifo.out_count, length_take hi, h.w, he]

end

lemma init : Matches .init .init := ⟨.empty (by decide) (by decide), rfl⟩

lemma erase {c l : List UInt8} {x : UInt8} {t : ℕ} (h : Matches i ⟨c, l ++ [x], t⟩) :
    Matches { i with e := i.e - 1 } ⟨c, l, t⟩ ∧ i.buf ((i.e - 1).toNat % INPUT_BUF) = x := by
  have hf : Fifo INPUT_BUF i.buf i.r i.e (c ++ l ++ [x]) (c.take t) := by
    rw [List.append_assoc]
    exact h.fifo
  have hle : (c.take t).length ≤ (c ++ l).length := by
    rw [List.length_take, List.length_append]
    omega
  exact ⟨⟨hf.unput hle, h.w⟩, hf.last hle⟩

lemma kill {c l : List UInt8} {t : ℕ} (h : Matches i ⟨c, l, t⟩) (hi : Editor.Inv ⟨c, l, t⟩) :
    Matches { i with e := Input.killLoop i.buf i.w l.length i.e } ⟨c, [], t⟩ := by
  induction l using List.reverseRecOn generalizing i with
  | nil => exact h
  | append_singleton l x ih =>
    obtain ⟨herase, hx⟩ := h.erase
    have hne : i.e ≠ i.w := fun he => by
      have := (h.e_eq_w hi).mp he
      simp at this
    have hnl : i.buf ((i.e - 1).toNat % INPUT_BUF) ≠ NL := fun he => by
      rw [hx] at he
      exact hi.newline (by simp [he])
    rw [List.length_append, List.length_singleton, Input.killLoop, if_pos ⟨hne, hnl⟩]
    exact ih herase (hi.erase (List.sublist_append_left _ _))

lemma store (h : Matches i a) (hi : a.Inv) (hroom : a.held < INPUT_BUF) (c : UInt8) :
    Matches (i.store c).1 (a.append c) := by
  have ht := hi.taken
  have hlt : (a.committed ++ a.line).length < (a.committed.take a.taken).length + INPUT_BUF := by
    rw [length_take hi, List.length_append]
    simp only [Editor.held] at hroom
    omega
  have hput := h.fifo.put c hlt
  have hfull := hput.full_iff
  rw [length_take hi, List.length_append, List.length_append, List.length_singleton] at hfull
  have hiff : i.e + 1 = i.r + UInt32.ofNat INPUT_BUF ↔ a.held + 1 = INPUT_BUF := by
    rw [hfull]
    simp only [Editor.held]
    omega
  rw [List.append_assoc] at hput
  unfold Input.store Editor.append
  simp only [hiff]
  split_ifs
  · refine ⟨?_, ?_⟩
    · rw [List.take_append_of_le_length ht, List.append_nil]
      exact hput
    · exact hput.in_count
  · exact ⟨hput, h.w⟩

lemma backspace (h : Matches i a) (hi : a.Inv) :
    Matches i.backspace { a with line := a.line.dropLast } := by
  obtain ⟨c, l, t⟩ := a
  unfold Input.backspace
  rcases List.eq_nil_or_concat' l with rfl | ⟨l, x, rfl⟩
  · rw [if_neg (not_not.mpr ((h.e_eq_w hi).mpr rfl))]
    exact h
  · rw [if_pos (fun he => by simpa using (h.e_eq_w hi).mp he), List.dropLast_concat]
    exact h.erase.1

lemma intr (h : Matches i a) (hi : a.Inv) (c : UInt8) : Matches (i.intr c).1 (a.key c) := by
  unfold Input.intr Editor.key
  rw [h.count_e hi]
  generalize (if c = CR then NL else c) = x
  split_ifs with h1 h2 h3 h4
  · exact h
  · rw [h.count_line hi]
    exact kill h hi
  · exact backspace h hi
  · exact h.store hi h4.2 x
  · exact h

lemma take (h : Matches i a) (hi : a.Inv) (hne : i.r ≠ i.w) :
    a.committed[a.taken]? = some (i.buf (i.r.toNat % INPUT_BUF)) ∧
      Matches { i with r := i.r + 1 } { a with taken := a.taken + 1 } := by
  have ht := hi.taken
  have hlt : a.taken < a.committed.length := lt_of_le_of_ne ht fun he => hne ((h.r_eq_w hi).mpr he)
  have hget := h.fifo.get (by rw [length_take hi, List.length_append]; omega)
  have hc : a.committed[a.taken]? = some (i.buf (i.r.toNat % INPUT_BUF)) := by
    have hheld := h.fifo.held a.taken (length_take hi).le (by rw [List.length_append]; omega)
    rw [List.getElem?_append_left hlt] at hheld
    rw [hheld, h.fifo.out_count, length_take hi, Fifo.toNat_ofNat_mod h.fifo.dvd]
  refine ⟨hc, ?_, h.w⟩
  rw [List.take_add_one, hc]
  exact hget

end Matches

namespace Input

variable {i : Input} {c : UInt8}

lemma store_w (h : (i.store c).2 = false) : (i.store c).1.r = i.r ∧ (i.store c).1.w = i.w := by
  unfold store at *
  simp only at h ⊢
  split_ifs at h ⊢
  exact ⟨rfl, rfl⟩

lemma backspace_w (i : Input) : i.backspace.r = i.r ∧ i.backspace.w = i.w := by
  unfold backspace
  split_ifs <;> exact ⟨rfl, rfl⟩

lemma intr_w (h : (i.intr c).2 = false) : (i.intr c).1.r = i.r ∧ (i.intr c).1.w = i.w := by
  unfold intr at *
  split_ifs at h ⊢
  · exact ⟨rfl, rfl⟩
  · exact ⟨rfl, rfl⟩
  · exact backspace_w i
  · exact store_w h
  · exact store_w h
  · exact ⟨rfl, rfl⟩

lemma intr_erase (h : c = CTRL_H ∨ c = DEL ∨ c = CTRL_U) :
    (i.intr c).2 = false ∧ (i.intr c).1 = { i with e := (i.intr c).1.e } := by
  have hback : i.backspace = { i with e := i.backspace.e } := by
    unfold backspace
    split_ifs <;> rfl
  rcases h with rfl | rfl | rfl
  · exact ⟨rfl, hback⟩
  · exact ⟨rfl, hback⟩
  · exact ⟨rfl, rfl⟩

end Input

namespace Editor

lemma key_erase {a : Editor} {c : UInt8} (h : c = CTRL_H ∨ c = DEL ∨ c = CTRL_U) :
    (a.key c).committed = a.committed ∧ (a.key c).line.length ≤ a.line.length := by
  rcases h with rfl | rfl | rfl
  · exact ⟨rfl, (List.dropLast_sublist _).length_le⟩
  · exact ⟨rfl, (List.dropLast_sublist _).length_le⟩
  · exact ⟨rfl, Nat.zero_le _⟩

end Editor

namespace State

variable {s s' : State} {p q : ℕ}

structure Inv (s : State) (a : Editor) : Prop where
  acts : exec Editor.step .init s.acts = some a
  input : Matches s.input a
  asleep : ∀ p, (s.reader p).pc = .asleep → s.input.r = s.input.w

lemma Inv.editor {a : Editor} (h : Inv s a) : a.Inv := (Editor.Serves.run h.acts).inv

lemma Inv.init : Inv init .init := ⟨rfl, .init, fun _ hp => by cases hp⟩

lemma exec_snoc {acts : List Act} {a a' : Editor} {act : Act} (h : exec Editor.step .init acts = some a)
    (hs : a.step act = some a') : exec Editor.step .init (acts ++ [act]) = some a' := by
  rw [exec_append, h]
  simpa [exec] using hs

lemma Inv.frame {a : Editor} (h : Inv s a) (hacts : s'.acts = s.acts) (hinput : s'.input = s.input)
    (hpc : ∀ q, (s'.reader q).pc = .asleep → (s.reader q).pc = .asleep) : Inv s' a := by
  refine ⟨by rw [hacts]; exact h.acts, by rw [hinput]; exact h.input, fun q hq => ?_⟩
  rw [hinput]
  exact h.asleep q (hpc q hq)

lemma wake_ne (pc : Pc) : pc.wake ≠ .asleep := by cases pc <;> simp [Pc.wake]

section

variable {a : Editor} (h : Inv s a)
include h

lemma Inv.getc (c : UInt8) : Inv (s.getc c) (a.key c) := by
  have hm := h.input.intr h.editor c
  have hx := exec_snoc h.acts (show a.step (.key c) = some (a.key c) from rfl)
  unfold State.getc
  cases hw : (s.input.intr c).2 with
  | true =>
    refine ⟨hx, hm, fun q hq => ?_⟩
    exact absurd hq (wake_ne _)
  | false =>
    refine ⟨hx, hm, fun q hq => ?_⟩
    obtain ⟨hr, hw'⟩ := Input.intr_w hw
    have := h.asleep q hq
    simp only [Bool.false_eq_true, if_false, hr, hw']
    exact this

lemma Inv.take (hne : s.input.r ≠ s.input.w) (p : ℕ) :
    Inv (s.take p (s.input.buf (s.input.r.toNat % INPUT_BUF))) { a with taken := a.taken + 1 } := by
  obtain ⟨hc, hm⟩ := h.input.take h.editor hne
  refine ⟨exec_snoc h.acts ?_, hm, fun q hq => absurd (h.asleep q hq) hne⟩
  rw [Editor.step, if_pos hc]

lemma Inv.set {x : Reader} (hx : x.pc ≠ .asleep) : Inv (s.set p x) a := by
  refine h.frame rfl rfl fun q hq => ?_
  rw [set_reader] at hq
  split_ifs at hq with hqp
  · exact absurd hq hx
  · exact hq

lemma Inv.hold (l : Option Holder) : Inv (s.hold l) a := h.frame rfl rfl fun _ hq => hq

lemma Inv.ret (p : ℕ) (v : Int32) : Inv (s.ret p v) a :=
  (h.hold none).set (by simp)

lemma Inv.copy (hp : (s.reader p).pc ≠ .asleep) (c : UInt8) : Inv (s.copy p c) a := by
  unfold State.copy
  exact h.set hp

lemma Inv.deliver (hne : s.input.r ≠ s.input.w) (p : ℕ) :
    ∃ t, Inv (s.deliver p (s.input.buf (s.input.r.toNat % INPUT_BUF))) { a with taken := t } := by
  have htake := h.take hne p
  have hawake : (s.reader p).pc ≠ .asleep := fun hp => hne (h.asleep p hp)
  generalize s.input.buf (s.input.r.toNat % INPUT_BUF) = c at *
  unfold State.deliver
  split_ifs with hd hn hnl
  · rw [UInt32.add_sub_cancel]
    exact ⟨_, h.ret p _⟩
  · exact ⟨_, htake.ret p _⟩
  · exact ⟨_, (htake.copy hawake c).ret p _⟩
  · exact ⟨_, (htake.copy hawake c).set (by simp)⟩

lemma Inv.next (hs : s.next p = some s') : ∃ t, Inv s' { a with taken := t } := by
  unfold State.next at hs
  split at hs
  · cases hs
  · cases hs
  · obtain ⟨-, heq⟩ := Option.ite_none_right_eq_some.mp hs
    cases heq
    exact ⟨_, (h.hold _).set (by simp)⟩
  · obtain ⟨-, heq⟩ := Option.ite_none_right_eq_some.mp hs
    cases heq
    exact ⟨_, (h.hold _).set (by simp)⟩
  · split_ifs at hs <;> cases hs
    · exact ⟨_, h.set (by simp)⟩
    · exact ⟨_, h.ret p _⟩
  · split_ifs at hs with hrw hk <;> cases hs
    · exact ⟨_, h.ret p _⟩
    · -- the process falls asleep on an empty buffer
      exact ⟨_, h.acts, h.input, fun _ _ => hrw⟩
    · exact h.deliver hrw p

lemma Inv.step {e : Event} (hs : Step s e s') :
    ∃ a', Inv s' a' ∧ a.committed <+: a'.committed := by
  cases e with
  | read p n =>
    obtain ⟨-, heq⟩ := Option.ite_none_right_eq_some.mp hs
    cases heq
    exact ⟨a, h.set (by simp), List.prefix_rfl⟩
  | kill p =>
    cases hs
    exact ⟨a, h.set (wake_ne _), List.prefix_rfl⟩
  | next p =>
    obtain ⟨t, ht⟩ := h.next hs
    exact ⟨_, ht, List.prefix_rfl⟩
  | getc c =>
    obtain ⟨-, heq⟩ := Option.ite_none_right_eq_some.mp hs
    cases heq
    exact ⟨_, h.getc c, Editor.committed_prefix a c⟩
  | interrupt | done =>
    obtain ⟨-, heq⟩ := Option.ite_none_right_eq_some.mp hs
    cases heq
    exact ⟨a, h.hold _, List.prefix_rfl⟩

end

lemma Inv.run {es : List Event} (hrun : Run Step State.init es s) : ∃ a, Inv s a :=
  hrun.state_invariant (P := fun s => ∃ a, Inv s a) ⟨_, .init⟩ fun _ _ _ ⟨_, h⟩ hs =>
    let ⟨a', h', _⟩ := h.step hs
    ⟨a', h'⟩

theorem console_line_discipline (es : List Event) (s : State) (hrun : Run Step init es s) :
    ((s.input.w - s.input.r).toNat ≤ (s.input.e - s.input.r).toNat ∧
    (s.input.e - s.input.r).toNat ≤ INPUT_BUF) ∧
    (s.input.e = s.input.r + UInt32.ofNat INPUT_BUF → s.input.w = s.input.e) ∧
    (∀ c, c = CTRL_H ∨ c = DEL ∨ c = CTRL_U → ∀ s', Step s (.getc c) s' →
      s'.input = { s.input with e := s'.input.e } ∧
      (s'.input.e - s.input.w).toNat ≤ (s.input.e - s.input.w).toNat) ∧
    (s.lock = none → s.input.r ≠ s.input.w → ∀ p, (s.reader p).pc ≠ .asleep) ∧
    ∃ a, exec Editor.step .init s.acts = some a ∧ takes s.acts <+: a.committed ∧
      a.committed = takes s.acts ++ Fifo.pending INPUT_BUF s.input.buf s.input.r s.input.w := by
  obtain ⟨a, h⟩ := Inv.run hrun
  have hi := h.editor
  have hm := h.input
  have htakes := (Editor.Serves.run h.acts).takes
  refine ⟨⟨?_, ?_⟩, fun hfull => ?_, fun c hc s' hs => ?_, fun _ hne p hp => hne (h.asleep p hp), a,
    h.acts, ?_, ?_⟩
  · rw [hm.count_w hi, hm.count_e hi, Editor.held]
    omega
  · rw [hm.count_e hi]
    exact hi.held
  · -- a full buffer has no line in progress
    rw [hm.fifo.full_iff, Matches.length_take hi, List.length_append] at hfull
    refine ((hm.e_eq_w hi).mpr ?_).symm
    by_contra hne
    have := hi.room hne
    simp only [Editor.held] at this
    omega
  · obtain ⟨-, heq⟩ := Option.ite_none_right_eq_some.mp hs
    obtain ⟨hw, he⟩ := Input.intr_erase (i := s.input) hc
    have hinput : s'.input = (s.input.intr c).1 := by
      cases heq
      simp [State.getc, hw]
    have hm' := hm.intr hi c
    have hc' := Editor.key_erase (a := a) hc
    have hline := hm'.count_line (hi.key c)
    rw [hinput]
    refine ⟨he, ?_⟩
    rw [he] at hline
    rw [hline, hm.count_line hi]
    exact hc'.2
  · rw [htakes]
    exact List.take_prefix _ _
  · have hf := hm.fifo.before (by rw [Matches.length_take hi]; exact hi.taken)
    rw [htakes, hm.w]
    exact hf.ins_eq

def typing : List Event :=
  [.read 0 2, .next 0, .next 0, .next 0, .interrupt, .getc 97, .getc CTRL_H, .getc 98, .getc CR, .done,
    .next 0, .next 0, .next 0, .next 0]

theorem console_line_discipline_typing : ∃ s, Run Step init typing s ∧ (s.reader 0).dst = [98, NL] ∧
    ∃ a : Editor, a.committed = [98, NL] ∧ takes s.acts <+: a.committed := by
  obtain ⟨s, hs, hdst, hacts⟩ : ∃ s ∈ exec State.step init typing, (s.reader 0).dst = [98, NL] ∧
    (exec Editor.step .init s.acts).map Editor.committed = some [98, NL] := by decide +kernel
  have hrun := run_of_exec hs
  obtain ⟨-, -, -, -, a, ha, htakes, -⟩ := console_line_discipline typing s hrun
  rw [ha] at hacts
  exact ⟨s, hrun, hdst, a, Option.some.inj hacts, htakes⟩

end State

end Xv6.Console
