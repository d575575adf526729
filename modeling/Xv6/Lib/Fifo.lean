import Xv6.Lib.Assign

namespace Xv6.Lib

variable {α : Type} {n : ℕ} {data : ℕ → α} {r w : UInt32} {ins outs : List α}

structure Fifo (n : ℕ) (data : ℕ → α) (r w : UInt32) (ins outs : List α) : Prop where
  dvd : n ∣ 2 ^ 32
  lt : n < 2 ^ 32
  out_count : r = UInt32.ofNat outs.length
  in_count : w = UInt32.ofNat ins.length
  le : outs.length ≤ ins.length
  cap : ins.length ≤ outs.length + n
  taken : outs = ins.take outs.length
  held : ∀ k, outs.length ≤ k → k < ins.length → ins[k]? = some (data (k % n))

namespace Fifo

lemma toNat_ofNat_mod (hn : n ∣ 2 ^ 32) (k : ℕ) : (UInt32.ofNat k).toNat % n = k % n := by
  rw [UInt32.toNat_ofNat', Nat.mod_mod_of_dvd _ hn]

lemma count (h : Fifo n data r w ins outs) : (w - r).toNat = ins.length - outs.length := by
  have hle := h.le
  have hcap := h.cap
  have hlt := h.lt
  rw [UInt32.toNat_sub, h.in_count, h.out_count, UInt32.toNat_ofNat', UInt32.toNat_ofNat']
  omega

lemma count_le (h : Fifo n data r w ins outs) : (w - r).toNat ≤ n := by
  rw [h.count]
  have := h.cap
  omega

lemma eq_iff (h : Fifo n data r w ins outs) : r = w ↔ outs.length = ins.length := by
  have hc := h.count
  have hle := h.le
  constructor
  · rintro rfl
    rw [UInt32.sub_self, UInt32.toNat_zero] at hc
    omega
  · intro he
    rw [h.out_count, h.in_count, he]

lemma full_iff (h : Fifo n data r w ins outs) : w = r + UInt32.ofNat n ↔
    ins.length = outs.length + n := by
  have hc := h.count
  have hle := h.le
  have hn : (UInt32.ofNat n).toNat = n := UInt32.toNat_ofNat_of_lt' h.lt
  constructor
  · rintro rfl
    rw [UInt32.add_comm, UInt32.add_sub_cancel, hn] at hc
    omega
  · intro he
    rw [h.in_count, h.out_count, he, UInt32.ofNat_add]

lemma empty (hn : n ∣ 2 ^ 32) (hlt : n < 2 ^ 32) : Fifo n data 0 0 [] [] :=
  ⟨hn, hlt, rfl, rfl, le_rfl, Nat.zero_le _, rfl, fun k _ hk => absurd hk (Nat.not_lt_zero k)⟩

lemma put (h : Fifo n data r w ins outs) (x : α) (hroom : ins.length < outs.length + n) :
    Fifo n (assign data (w.toNat % n) x) r (w + 1) (ins ++ [x]) outs := by
  have hle := h.le
  have hw : w.toNat % n = ins.length % n := by rw [h.in_count, toNat_ofNat_mod h.dvd]
  refine ⟨h.dvd, h.lt, h.out_count, ?_, ?_, ?_, ?_, fun k hk hk' => ?_⟩
  · rw [h.in_count, List.length_append, UInt32.ofNat_add]
    rfl
  · rw [List.length_append]
    omega
  · rw [List.length_append, List.length_singleton]
    omega
  · rw [List.take_append_of_le_length hle]
    exact h.taken
  · rw [List.length_append, List.length_singleton] at hk'
    rcases Nat.lt_succ_iff_lt_or_eq.mp hk' with hlt | rfl
    · -- two places less than `n` apart do not coincide
      have hne : k % n ≠ w.toNat % n := by
        rw [hw]
        intro he
        have hdvd : n ∣ ins.length - k := (Nat.modEq_iff_dvd' hlt.le).mp he
        have := Nat.le_of_dvd (by omega) hdvd
        omega
      rw [List.getElem?_append_left hlt, assign_of_ne hne]
      exact h.held k hk hlt
    · rw [← hw, assign_self, List.getElem?_append_right le_rfl, Nat.sub_self]
      rfl

lemma get (h : Fifo n data r w ins outs) (hne : outs.length < ins.length) :
    Fifo n data (r + 1) w ins (outs ++ [data (r.toNat % n)]) := by
  have hcap := h.cap
  have hr : r.toNat % n = outs.length % n := by rw [h.out_count, toNat_ofNat_mod h.dvd]
  refine ⟨h.dvd, h.lt, ?_, h.in_count, ?_, ?_, ?_, fun k hk => h.held k (by simp at hk; omega)⟩
  · rw [h.out_count, List.length_append, UInt32.ofNat_add]
    rfl
  · rw [List.length_append, List.length_singleton]
    omega
  · rw [List.length_append, List.length_singleton]
    omega
  · rw [List.length_append, List.length_singleton, List.take_add_one, ← h.taken, h.held _ le_rfl hne, hr]
    rfl

lemma before {l : List α} (h : Fifo n data r w (ins ++ l) outs) (hle : outs.length ≤ ins.length) :
    Fifo n data r (UInt32.ofNat ins.length) ins outs := by
  have hcap := h.cap
  have htaken := h.taken
  rw [List.length_append] at hcap
  rw [List.take_append_of_le_length hle] at htaken
  refine ⟨h.dvd, h.lt, h.out_count, rfl, hle, by omega, htaken, fun k hk hk' => ?_⟩
  rw [← List.getElem?_append_left hk']
  exact h.held k hk (by rw [List.length_append]; omega)

lemma unput {x : α} (h : Fifo n data r w (ins ++ [x]) outs) (hle : outs.length ≤ ins.length) :
    Fifo n data r (w - 1) ins outs := by
  have hw : w - 1 = UInt32.ofNat ins.length := by
    rw [h.in_count, List.length_append, List.length_singleton, UInt32.ofNat_add]
    exact UInt32.add_sub_cancel ..
  rw [hw]
  exact h.before hle

lemma last {x : α} (h : Fifo n data r w (ins ++ [x]) outs) (hle : outs.length ≤ ins.length) :
    data ((w - 1).toNat % n) = x := by
  have hlast := h.held ins.length hle (by rw [List.length_append]; exact Nat.lt_succ_self _)
  rw [List.getElem?_append_right le_rfl, Nat.sub_self] at hlast
  rw [(h.unput hle).in_count, toNat_ofNat_mod h.dvd]
  exact (Option.some.inj hlast).symm

def pending (n : ℕ) (data : ℕ → α) (r w : UInt32) : List α :=
  (List.range (w - r).toNat).map (fun k => data ((r + UInt32.ofNat k).toNat % n))

lemma ins_eq (h : Fifo n data r w ins outs) : ins = outs ++ pending n data r w := by
  have hle := h.le
  rw [← List.take_append_drop outs.length ins, ← h.taken]
  congr 1
  apply List.ext_getElem?
  intro k
  rw [List.getElem?_drop, pending, List.getElem?_map, h.count]
  by_cases hk : outs.length + k < ins.length
  · rw [h.held _ (Nat.le_add_right _ _) hk, List.getElem?_range (by omega), Option.map_some, h.out_count,
      ← UInt32.ofNat_add, toNat_ofNat_mod h.dvd]
  · rw [List.getElem?_eq_none (by omega), List.getElem?_eq_none (by rw [List.length_range]; omega),
      Option.map_none]

end Fifo

end Xv6.Lib
