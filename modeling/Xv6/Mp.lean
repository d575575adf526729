import Mathlib.Tactic

namespace Xv6.Mp

abbrev Table := ℕ → UInt8

abbrev NCPU : ℕ := 8

abbrev HEADER : ℕ := 44

abbrev MPPROC : UInt8 := 0
abbrev MPBUS : UInt8 := 1
abbrev MPIOAPIC : UInt8 := 2
abbrev MPIOINTR : UInt8 := 3
abbrev MPLINTR : UInt8 := 4
abbrev MPBOOT : UInt8 := 2

def length (t : Table) : ℕ := (t 4).toNat + 256 * (t 5).toNat

def sum (t : Table) (len : ℕ) : UInt8 := ((List.range len).map t).foldl (· + ·) 0

def mpconfig (t : Table) : Bool :=
  (List.range 4).map t = [80, 67, 77, 80] ∧ (t 6 = 1 ∨ t 6 = 4) ∧ sum t (length t) = 0

/-- The variables of `mpinit`; `writes` lists the `i` for which `cpus[i].id` has been written, and
`reads` the offsets of the entry bytes that have been read. -/
structure State where
  p : ℕ
  ismp : Bool
  ncpu : ℕ
  bcpu : ℕ
  ioapicid : UInt8
  writes : List ℕ
  reads : List ℕ

def State.init : State := ⟨HEADER, true, 0, 0, 0, [], []⟩

def body (t : Table) (s : State) : State :=
  if t s.p = MPPROC then
    { s with
      ismp := if s.ncpu ≠ (t (s.p + 1)).toNat then false else s.ismp
      bcpu := if t (s.p + 3) &&& MPBOOT ≠ 0 then s.ncpu else s.bcpu
      ncpu := s.ncpu + 1, p := s.p + 20
      writes := s.writes ++ [s.ncpu], reads := s.reads ++ [s.p, s.p + 1, s.p + 3] }
  else if t s.p = MPIOAPIC then
    { s with ioapicid := t (s.p + 1), p := s.p + 8, reads := s.reads ++ [s.p, s.p + 1] }
  else if t s.p = MPBUS ∨ t s.p = MPIOINTR ∨
    t s.p = MPLINTR then { s with p := s.p + 8, reads := s.reads ++ [s.p] }
  else { s with ismp := false, reads := s.reads ++ [s.p] }

def iter (t : Table) (s : State) : State := if s.p < length t then body t s else s

def ncpuAfter (s : State) : ℕ := if s.ismp then s.ncpu else 1

def Ends (t : Table) : Prop := ∃ n, length t ≤ ((iter t)^[n] State.init).p

structure InBounds (t : Table) (s : State) : Prop where
  writes : ∀ i ∈ s.writes, i < NCPU
  reads : ∀ i ∈ s.reads, i < length t
  ncpu : length t ≤ s.p → ncpuAfter s ≤ NCPU

def size? (type : UInt8) : Option ℕ :=
  if type = MPPROC then some 20 else if type ≤ MPLINTR then some 8 else none

def entriesFrom (t : Table) : ℕ → ℕ → List ℕ
  | 0, _ => []
  | fuel + 1, i =>
    if i < length t then
      i :: (match size? (t i) with
        | some k => entriesFrom t fuel (i + k)
        | none => [])
    else []

def entries (t : Table) : List ℕ := entriesFrom t (length t) HEADER

def processors (t : Table) (is : List ℕ) : ℕ := is.countP (fun i => t i = MPPROC)

def Fits (t : Table) (i : ℕ) : Prop :=
  (t i = MPPROC → i + 3 < length t) ∧ (t i = MPIOAPIC → i + 1 < length t)

lemma size?_eq_none {type : UInt8} : size? type = none ↔ ¬ type ≤ MPLINTR := by
  unfold size?
  split
  · rename_i h
    simp [h]
  · split <;> simp [*]

lemma le_lintr {type : UInt8} (h : type ≤ MPLINTR) :
    type = MPPROC ∨ type = MPBUS ∨ type = MPIOAPIC ∨ type = MPIOINTR ∨ type = MPLINTR := by
  rw [UInt8.le_iff_toNat_le] at h
  simp only [← UInt8.toNat_inj]
  change type.toNat ≤ 4 at h
  change type.toNat = 0 ∨ type.toNat = 1 ∨ type.toNat = 2 ∨ type.toNat = 3 ∨ type.toNat = 4
  omega

def used (type : UInt8) : List ℕ :=
  if type = MPPROC then [0, 1, 3] else if type = MPIOAPIC then [0, 1] else [0]

structure Passed (t : Table) (s s' : State) (k : ℕ) : Prop where
  p : s'.p = s.p + k
  ncpu : s'.ncpu = s.ncpu + if t s.p = MPPROC then 1 else 0
  writes : s'.writes = s.writes ++ if t s.p = MPPROC then [s.ncpu] else []
  reads : s'.reads = s.reads ++ (used (t s.p)).map (s.p + ·)

lemma body_known {t : Table} {s : State} {k : ℕ} (h : size? (t s.p) = some k) :
    Passed t s (body t s) k := by
  have hle : t s.p ≤ MPLINTR := by
    by_contra hle
    rw [size?_eq_none.2 hle] at h
    exact nomatch h
  rcases le_lintr hle with ht | ht | ht | ht | ht <;> rw [ht] at h <;> cases h <;> unfold body <;>
    rw [ht] <;>
    constructor <;> simp [ht, used, show MPBUS ≠ MPPROC by decide, show MPBUS ≠ MPIOAPIC by decide,
      show MPIOAPIC ≠ MPPROC by decide, show MPIOINTR ≠ MPPROC by decide,
      show MPIOINTR ≠ MPIOAPIC by decide,
      show MPLINTR ≠ MPPROC by decide, show MPLINTR ≠ MPIOAPIC by decide]

lemma body_unknown {t : Table} {s : State} (h : size? (t s.p) = none) :
    body t s = { s with ismp := false, reads := s.reads ++ [s.p] } := by
  have hle := size?_eq_none.1 h
  have hne : ∀ type ≤ MPLINTR, t s.p ≠ type := fun type ht he => hle (he ▸ ht)
  simp [body, hne MPPROC (by decide), hne MPIOAPIC (by decide), hne MPBUS (by decide),
    hne MPIOINTR (by decide), hne MPLINTR (by decide)]

lemma size?_pos {type : UInt8} {k : ℕ} (h : size? type = some k) : 0 < k := by
  unfold size? at h
  split_ifs at h <;> cases h <;> decide

lemma iter_of_lt {t : Table} {s : State} (h : s.p < length t) : iter t s = body t s := if_pos h

lemma iterate_of_le {t : Table} {s : State} (h : length t ≤ s.p) (n : ℕ) : (iter t)^[n] s = s :=
  Function.iterate_fixed (show iter t s = s from if_neg (Nat.not_lt.2 h)) n

lemma entriesFrom_of_le {t : Table} {i : ℕ} (h : length t ≤ i) (fuel : ℕ) :
    entriesFrom t fuel i = [] := by
  cases fuel with
  | zero => rfl
  | succ fuel => exact if_neg (Nat.not_lt.2 h)

lemma entriesFrom_known {t : Table} {i k : ℕ} (h : i < length t) (hk : size? (t i) = some k) (fuel : ℕ) :
    entriesFrom t (fuel + 1) i = i :: entriesFrom t fuel (i + k) := by
  simp only [entriesFrom, if_pos h, hk]

lemma entriesFrom_unknown {t : Table} {i : ℕ} (h : i < length t) (hk : size? (t i) = none) (fuel : ℕ) :
    entriesFrom t (fuel + 1) i = [i] := by
  simp only [entriesFrom, if_pos h, hk]

lemma iterate_unknown {t : Table} {s : State} (h : s.p < length t) (hk : size? (t s.p) = none) (n : ℕ) :
    ((iter t)^[n] s).p = s.p ∧ ((iter t)^[n] s).writes = s.writes ∧
      ∀ i ∈ ((iter t)^[n] s).reads, i ∈ s.reads ∨ i = s.p := by
  induction n with
  | zero => exact ⟨rfl, rfl, fun i hi => .inl hi⟩
  | succ n ih =>
    obtain ⟨hp, hw, hr⟩ := ih
    rw [Function.iterate_succ_apply', iter_of_lt (by rwa [hp]), body_unknown (by rwa [hp])]
    refine ⟨hp, hw, fun i hi => ?_⟩
    rcases List.mem_append.1 hi with hi | hi
    · exact hr i hi
    · exact .inr ((List.mem_singleton.1 hi).trans hp)

lemma ends_from_iff (t : Table) (fuel : ℕ) (s : State) (hf : length t ≤ s.p + fuel) :
    (∃ n, length t ≤ ((iter t)^[n] s).p) ↔ ∀ i ∈ entriesFrom t fuel s.p, t i ≤ MPLINTR := by
  induction fuel generalizing s with
  | zero => exact ⟨fun _ i hi => (nomatch hi), fun _ => ⟨0, hf⟩⟩
  | succ fuel ih =>
    rcases Nat.lt_or_ge s.p (length t) with hlt | hge
    swap
    · rw [entriesFrom_of_le hge]
      exact ⟨fun _ i hi => (nomatch hi), fun _ => ⟨0, hge⟩⟩
    cases hk : size? (t s.p) with
    | none =>
      rw [entriesFrom_unknown hlt hk]
      constructor
      · rintro ⟨n, hn⟩
        rw [(iterate_unknown hlt hk n).1] at hn
        omega
      · intro hall
        exact absurd (hall s.p (List.mem_singleton_self _)) (size?_eq_none.1 hk)
    | some k =>
      have hp : (iter t s).p = s.p + k := by rw [iter_of_lt hlt, (body_known hk).p]
      have hrest := ih (iter t s) (by have := size?_pos hk; omega)
      rw [entriesFrom_known hlt hk, List.forall_mem_cons, ← hp, ← hrest]
      constructor
      · rintro ⟨n, hn⟩
        refine ⟨?_, ?_⟩
        · by_contra hle
          rw [size?_eq_none.2 hle] at hk
          exact nomatch hk
        · cases n with
          | zero => exact absurd hlt (Nat.not_lt.2 hn)
          | succ n => exact ⟨n, hn⟩
      · rintro ⟨-, n, hn⟩
        exact ⟨n + 1, hn⟩

theorem mpinit_ends_iff (t : Table) : Ends t ↔ ∀ i ∈ entries t, t i ≤ MPLINTR :=
  ends_from_iff t (length t) State.init (Nat.le_add_left _ _)

def unknownEntry : Table := fun i =>
  ([80, 67, 77, 80, 45, 0, 4, 154].getD i 0) + (if i = 44 then 5 else 0)

theorem mpinit_loops_on_unknown_entry : mpconfig unknownEntry = true ∧ ¬ Ends unknownEntry := by
  refine ⟨by decide +kernel, ?_⟩
  rintro ⟨n, hn⟩
  rw [(iterate_unknown (by decide) (by decide) n).1] at hn
  exact absurd hn (by decide)

lemma fits_iff {t : Table} {i : ℕ} (h : i < length t) : Fits t i ↔ ∀ d ∈ used (t i),
    i + d < length t := by
  unfold Fits used
  split
  · rename_i ht
    simp only [ht, List.forall_mem_cons,
      show MPPROC ≠ MPIOAPIC by decide, List.not_mem_nil, IsEmpty.forall_iff,
      forall_const, and_true]
    omega
  · rename_i ht
    split
    · rename_i ht'
      simp [ht', h, show MPIOAPIC ≠ MPPROC by decide]
    · simp [*]

lemma forall_iterate_iff {t : Table} {s : State} {P : State → Prop} :
    (∀ n, P ((iter t)^[n] s)) ↔ P s ∧ ∀ n, P ((iter t)^[n] (iter t s)) := by
  refine ⟨fun h => ⟨h 0, fun n => h (n + 1)⟩, fun h n => ?_⟩
  cases n with
  | zero => exact h.1
  | succ n => exact h.2 n

lemma ncpuAfter_le {s : State} (h : s.ncpu ≤ NCPU) : ncpuAfter s ≤ NCPU := by
  unfold ncpuAfter
  split
  · exact h
  · decide

lemma inBounds_from_iff (t : Table) (fuel : ℕ) (s : State) (hf : length t ≤ s.p + fuel)
    (hn : s.ncpu ≤ NCPU) (hw : ∀ i ∈ s.writes, i < NCPU) (hr : ∀ i ∈ s.reads, i < length t) :
    (∀ n, InBounds t ((iter t)^[n] s)) ↔
      s.ncpu + processors t (entriesFrom t fuel s.p) ≤ NCPU ∧ ∀ i ∈ entriesFrom t fuel s.p, Fits t i := by
  induction fuel generalizing s with
  | zero =>
    refine iff_of_true (fun n => ?_) ⟨hn, fun i hi => nomatch hi⟩
    rw [iterate_of_le hf]
    exact ⟨hw, hr, fun _ => ncpuAfter_le hn⟩
  | succ fuel ih =>
    have hhere : InBounds t s := ⟨hw, hr, fun _ => ncpuAfter_le hn⟩
    rcases Nat.lt_or_ge s.p (length t) with hlt | hge
    swap
    · rw [entriesFrom_of_le hge]
      refine iff_of_true (fun n => ?_) ⟨hn, fun i hi => nomatch hi⟩
      rwa [iterate_of_le hge]
    cases hk : size? (t s.p) with
    | none =>
      have hne : ∀ type ≤ MPLINTR, t s.p ≠ type := fun type ht he => size?_eq_none.1 hk (he ▸ ht)
      rw [entriesFrom_unknown hlt hk]
      refine iff_of_true (fun n => ?_) ⟨?_, ?_⟩
      · obtain ⟨hp, hw', hr'⟩ := iterate_unknown hlt hk n
        refine ⟨by rwa [hw'], fun i hi => ?_, fun hend => absurd hlt (Nat.not_lt.2 (hp ▸ hend))⟩
        rcases hr' i hi with hi | rfl
        · exact hr i hi
        · exact hlt
      · simpa [processors, hne MPPROC (by decide)] using hn
      · simp [Fits, hne MPPROC (by decide), hne MPIOAPIC (by decide)]
    | some k =>
      have hpass : Passed t s (iter t s) k := by
        rw [iter_of_lt hlt]
        exact body_known hk
      rw [entriesFrom_known hlt hk, List.forall_mem_cons, forall_iterate_iff, and_iff_right hhere]
      have hcount : processors t (s.p :: entriesFrom t fuel (s.p + k)) =
          (if t s.p = MPPROC then 1 else 0) + processors t (entriesFrom t fuel (s.p + k)) := by
        simp [processors, List.countP_cons, Nat.add_comm]
      rw [hcount, ← Nat.add_assoc, ← hpass.ncpu, ← hpass.p]
      by_cases hfit : Fits t s.p ∧ (iter t s).ncpu ≤ NCPU
      · obtain ⟨hfit, hncpu⟩ := hfit
        have hw' : ∀ i ∈ (iter t s).writes, i < NCPU := by
          intro i hi
          rw [hpass.writes, List.mem_append] at hi
          rcases hi with hi | hi
          · exact hw i hi
          · rw [hpass.ncpu] at hncpu
            split at hi <;> simp_all
        have hr' : ∀ i ∈ (iter t s).reads, i < length t := by
          intro i hi
          rw [hpass.reads, List.mem_append, List.mem_map] at hi
          rcases hi with hi | ⟨d, hd, rfl⟩
          · exact hr i hi
          · exact (fits_iff hlt).1 hfit d hd
        have hfuel : length t ≤ (iter t s).p + fuel := by
          have hpos := size?_pos hk
          have hp := hpass.p
          omega
        rw [ih (iter t s) hfuel hncpu hw' hr', and_iff_right hfit]
      · -- the round itself leaves the bounds
        refine iff_of_false (fun hall => hfit ⟨?_, ?_⟩) (fun h => hfit ⟨h.2.1, by omega⟩)
        · rw [fits_iff hlt]
          intro d hd
          apply (hall 0).reads
          rw [Function.iterate_zero_apply, hpass.reads, List.mem_append, List.mem_map]
          exact .inr ⟨d, hd, rfl⟩
        · rw [hpass.ncpu]
          split
          · rename_i ht
            apply (hall 0).writes
            rw [Function.iterate_zero_apply, hpass.writes, if_pos ht]
            simp
          · exact hn

theorem mpinit_in_bounds_iff (t : Table) :
    (∀ n, InBounds t ((iter t)^[n] State.init)) ↔
      processors t (entries t) ≤ NCPU ∧ ∀ i ∈ entries t, Fits t i := by
  have h := inBounds_from_iff t (length t) State.init (Nat.le_add_left _ _) (Nat.zero_le _)
    (fun i hi => nomatch hi) (fun i hi => nomatch hi)
  rwa [show State.init.ncpu = 0 from rfl, Nat.zero_add] at h

def nineProcessors : Table := fun i =>
  ([80, 67, 77, 80, 224, 0, 4, 200].getD i 0) + (if 44 ≤ i ∧ i % 20 = 5 then UInt8.ofNat
    ((i - 44) / 20) else 0)

theorem mpinit_writes_past_cpus :
    mpconfig nineProcessors = true ∧
      let s := (iter nineProcessors)^[9] State.init
      length nineProcessors ≤ s.p ∧ NCPU ∈ s.writes ∧ ncpuAfter s = NCPU + 1 := by
  decide +kernel

end Xv6.Mp
