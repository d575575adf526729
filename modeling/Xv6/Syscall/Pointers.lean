import Xv6.Lib.Words
import Xv6.Syscall.Args

namespace Xv6.Syscall

open Fs Lib

variable {p : Uproc}

lemma fetchint_reads (hsz : p.sz.toNat < KERNBASE) (addr : UInt32) :
    ∀ a ∈ (fetchint p addr).1, a < p.sz := by
  intro a ha
  unfold fetchint at ha
  split_ifs at ha with h
  · cases ha
  · simp only [not_or, ge_iff_le, gt_iff_lt, UInt32.not_le, UInt32.not_lt] at h
    rw [UInt32.lt_iff_toNat_lt, UInt32.le_iff_toNat_le, UInt32.toNat_add] at h
    have hfour : (4 : UInt32).toNat = 4 := rfl
    have hend : addr.toNat + 4 ≤ p.sz.toNat := by simp only [KERNBASE] at hsz; omega
    have hk : ∃ k < 4, a = addr + UInt32.ofNat k := by
      simp only [List.mem_cons, List.not_mem_nil, or_false] at ha
      rcases ha with rfl | rfl | rfl | rfl
      · exact ⟨0, by omega, by simp⟩
      · exact ⟨1, by omega, rfl⟩
      · exact ⟨2, by omega, rfl⟩
      · exact ⟨3, by omega, rfl⟩
    obtain ⟨k, hk, rfl⟩ := hk
    rw [UInt32.lt_iff_toNat_lt, toNat_add_ofNat (by simp only [KERNBASE] at hsz; omega)]
    omega

structure StringAt (p : Uproc) (addr l : UInt32) : Prop where
  lt : addr.toNat + l.toNat < p.sz.toNat
  nul : p.mem (addr + l) = 0
  first : ∀ j < l.toNat, p.mem (addr + UInt32.ofNat j) ≠ 0

lemma fetchstrLoop_eq_some_iff {pp l : UInt32} (fuel : ℕ) {k : ℕ} (hk : pp.toNat + k < 2 ^ 32)
    (hfuel : p.sz.toNat ≤ pp.toNat + k + fuel) (hsz : p.sz.toNat < KERNBASE) :
    fetchstrLoop p pp fuel (pp + UInt32.ofNat k) = some l ↔
      k ≤ l.toNat ∧ pp.toNat + l.toNat < p.sz.toNat ∧ p.mem (pp + l) = 0 ∧
        ∀ j, k ≤ j → j < l.toNat → p.mem (pp + UInt32.ofNat j) ≠ 0 := by
  induction fuel generalizing k with
  | zero =>
    simp only [fetchstrLoop, reduceCtorEq, false_iff]
    rintro ⟨h1, h2, -, -⟩
    omega
  | succ fuel ih =>
    have hs : (pp + UInt32.ofNat k).toNat = pp.toNat + k := toNat_add_ofNat hk
    rw [fetchstrLoop]
    simp only [UInt32.lt_iff_toNat_lt, hs]
    by_cases hlt : pp.toNat + k < p.sz.toNat
    swap
    · simp only [if_neg hlt, reduceCtorEq, false_iff]
      rintro ⟨h1, h2, -, -⟩
      omega
    simp only [if_pos hlt]
    by_cases hz : p.mem (pp + UInt32.ofNat k) = 0
    · rw [if_pos hz, Option.some_inj]
      have hsub : pp + UInt32.ofNat k - pp = UInt32.ofNat k := by
        rw [UInt32.add_comm, UInt32.add_sub_cancel]
      rw [hsub]
      have hkn : (UInt32.ofNat k).toNat = k :=
        UInt32.toNat_ofNat_of_lt' (show k < UInt32.size by simp only [UInt32.size]; omega)
      constructor
      · rintro rfl
        rw [hkn]
        exact ⟨le_rfl, hlt, hz, fun j h1 h2 => by omega⟩
      · rintro ⟨h1, -, -, hfirst⟩
        have hle : ¬ k < l.toNat := fun h => hfirst k le_rfl h hz
        rw [← UInt32.toNat_inj, hkn]
        omega
    · rw [if_neg hz]
      have hnext : pp + UInt32.ofNat k + 1 = pp + UInt32.ofNat (k + 1) := by
        rw [UInt32.add_assoc, UInt32.ofNat_add]
        rfl
      simp only [KERNBASE] at hsz
      rw [hnext, ih (by omega) (by omega)]
      constructor
      · rintro ⟨h1, h2, h3, h4⟩
        refine ⟨by omega, h2, h3, fun j hj hl => ?_⟩
        rcases Nat.eq_or_lt_of_le hj with rfl | hj
        · exact hz
        · exact h4 j hj hl
      · rintro ⟨h1, h2, h3, h4⟩
        have hne : k ≠ l.toNat := by
          rintro rfl
          exact hz (by rwa [UInt32.ofNat_toNat])
        exact ⟨by omega, h2, h3, fun j hj hl => h4 j (by omega) hl⟩

lemma fetchstr_eq_some_iff (hsz : p.sz.toNat < KERNBASE) {addr l : UInt32} :
    fetchstr p addr = some l ↔ StringAt p addr l := by
  unfold fetchstr
  have hzero : addr = addr + UInt32.ofNat 0 := by simp
  have hlt : addr.toNat < 2 ^ 32 := addr.toNat_lt
  split_ifs with h
  · simp only [false_iff]
    rintro ⟨hl, -, -⟩
    rw [ge_iff_le, UInt32.le_iff_toNat_le] at h
    omega
  · conv_lhs => rw [hzero]
    nth_rewrite 1 [← hzero]
    rw [fetchstrLoop_eq_some_iff p.sz.toNat (by omega) (by omega) hsz]
    constructor
    · rintro ⟨-, h1, h2, h3⟩
      exact ⟨h1, h2, fun j hj => h3 j (Nat.zero_le j) hj⟩
    · rintro ⟨h1, h2, h3⟩
      exact ⟨Nat.zero_le _, h1, h2, fun j _ hj => h3 j hj⟩

lemma argptr_eq_some_iff (hsz : p.sz.toNat < KERNBASE) {n size : Int32} {i : UInt32} :
    argptr p n size = some i ↔ argint p n = some i ∧ i.toNat < p.sz.toNat ∧
      0 ≤ i.toNat + size.toInt ∧ i.toNat + size.toInt ≤ p.sz.toNat := by
  unfold argptr
  cases argint p n with
  | none => simp
  | some w =>
    have hadd := UInt32.toNat_add w size.toUInt32
    have hw : w.toNat < 2 ^ 32 := w.toNat_lt
    have hs : size.toUInt32.toNat < 2 ^ 32 := size.toUInt32.toNat_lt
    have hrange := toInt_cases size
    simp only [ge_iff_le, gt_iff_lt, UInt32.le_iff_toNat_le, UInt32.lt_iff_toNat_lt, KERNBASE] at *
    split_ifs with h
    · simp only [false_iff]
      rintro ⟨heq, h1, h2, h3⟩
      cases heq
      omega
    · simp only [Option.some_inj]
      constructor
      · rintro rfl
        refine ⟨rfl, ?_, ?_, ?_⟩ <;> omega
      · exact fun h => h.1

lemma touches_cons {r : UInt32 × UInt32} {l : List (UInt32 × UInt32)} {a : UInt32} :
    Touches (r :: l) a ↔ (∃ j < r.2.toNat, a = r.1 + UInt32.ofNat j) ∨ Touches l a := by
  simp [Touches]

lemma touches_append {l l' : List (UInt32 × UInt32)} {a : UInt32} :
    Touches (l ++ l') a ↔ Touches l a ∨ Touches l' a := by
  simp only [Touches, List.mem_append, or_and_right, exists_or]

lemma not_touches_nil {a : UInt32} : ¬ Touches [] a := by simp [Touches]

lemma move_length {n tot : UInt32} (off : UInt32) (h : tot < n) :
    0 < (min (n - tot) (512 - off % 512)).toNat ∧
      (min (n - tot) (512 - off % 512)).toNat ≤ n.toNat - tot.toNat := by
  rw [UInt32.lt_iff_toNat_lt] at h
  have h1 : (n - tot).toNat = n.toNat - tot.toNat :=
    UInt32.toNat_sub_of_le _ _ (by rw [UInt32.le_iff_toNat_le]; omega)
  have hmod : (off % 512).toNat = off.toNat % 512 := UInt32.toNat_mod ..
  have h512 : (512 : UInt32).toNat = 512 := rfl
  have h2 : (512 - off % 512).toNat = 512 - off.toNat % 512 := by
    rw [UInt32.toNat_sub_of_le _ _ (by rw [UInt32.le_iff_toNat_le, hmod, h512]; omega), hmod, h512]
  have hmin : min (n - tot) (512 - off % 512) =
      if n - tot ≤ 512 - off % 512 then n - tot else 512 - off % 512 := rfl
  rw [hmin]
  split_ifs with hle
  · rw [h1]
    omega
  · rw [UInt32.le_iff_toNat_le, h1, h2] at hle
    rw [h2]
    omega

lemma touches_moves {n : UInt32} (fuel : ℕ) {tot off addr a : UInt32} (hle : tot.toNat ≤ n.toNat)
    (hfuel : n.toNat ≤ tot.toNat + fuel) :
    Touches (moves n fuel tot off addr) a ↔ ∃ j < n.toNat - tot.toNat, a = addr + UInt32.ofNat j := by
  induction fuel generalizing tot off addr with
  | zero =>
    simp only [moves, not_touches_nil, false_iff, not_exists, not_and]
    intro j hj
    omega
  | succ fuel ih =>
    rw [moves]
    by_cases h : tot < n
    swap
    · rw [UInt32.lt_iff_toNat_lt] at h
      simp only [UInt32.lt_iff_toNat_lt, if_neg h, not_touches_nil, false_iff, not_exists, not_and]
      intro j hj
      omega
    rw [if_pos h]
    obtain ⟨hpos, hm⟩ := move_length off h
    generalize min (n - tot) (512 - off % 512) = m at hpos hm
    have hn : n.toNat < 2 ^ 32 := n.toNat_lt
    have htot : (tot + m).toNat = tot.toNat + m.toNat := by
      rw [UInt32.toNat_add]
      omega
    rw [touches_cons, ih (by rw [htot]; omega) (by rw [htot]; omega), htot]
    have hcomb : ∀ j, addr + m + UInt32.ofNat j = addr + UInt32.ofNat (m.toNat + j) := by
      intro j
      rw [UInt32.ofNat_add, UInt32.ofNat_toNat, UInt32.add_assoc]
    constructor
    · rintro (⟨j, hj, rfl⟩ | ⟨j, hj, rfl⟩)
      · exact ⟨j, lt_of_lt_of_le hj hm, rfl⟩
      · exact ⟨m.toNat + j, by omega, hcomb j⟩
    · rintro ⟨j, hj, rfl⟩
      by_cases hjm : j < m.toNat
      · exact .inl ⟨j, hjm, rfl⟩
      · refine .inr ⟨j - m.toNat, by omega, ?_⟩
        rw [hcomb]
        congr 2
        omega

def Within (addr : UInt32) (n : ℤ) (l : List (UInt32 × UInt32)) : Prop :=
  ∀ a, Touches l a → ∃ j : ℕ, (j : ℤ) < n ∧ a = addr + UInt32.ofNat j

lemma within_nil (addr : UInt32) (n : ℤ) : Within addr n [] := fun _ h => absurd h not_touches_nil

lemma within_moves {n m : UInt32} {off addr : UInt32} (h : m.toNat ≤ n.toNat) :
    Within addr n.toNat (moves m m.toNat 0 off addr) := by
  intro a ha
  rw [touches_moves m.toNat (Nat.zero_le _) (by simp)] at ha
  obtain ⟨j, hj, rfl⟩ := ha
  simp only [UInt32.toNat_zero, Nat.sub_zero] at hj
  exact ⟨j, by omega, rfl⟩

lemma within_one {addr m : UInt32} {n : ℤ} (h : m.toNat ≤ n) : Within addr n [(addr, m)] := by
  intro a ha
  obtain ⟨j, hj, rfl⟩ := (touches_cons.mp ha).resolve_right not_touches_nil
  exact ⟨j, lt_of_lt_of_le (by exact_mod_cast hj) h, rfl⟩

lemma Within.inside {addr : UInt32} {n : ℤ} {l : List (UInt32 × UInt32)} (h : Within addr n l)
    (hsz : p.sz.toNat < KERNBASE) (hend : addr.toNat + n ≤ p.sz.toNat) : Inside p addr n l := by
  intro a ha
  obtain ⟨j, hj, rfl⟩ := h a ha
  simp only [KERNBASE] at hsz
  rw [UInt32.lt_iff_toNat_lt, toNat_add_ofNat (by omega)]
  omega

def readCount (ip : Dinode) (off n : UInt32) : ℕ :=
  if off > ip.size ∨ off + n < off then 0 else min n.toNat (ip.size.toNat - off.toNat)

lemma readi_moves {line : UInt32} {ip : Dinode} {dst off n : UInt32} (hdev : ip.type ≠ T_DEV)
    (a : UInt32) :
    Touches (readi line ip dst off n) a ↔ ∃ j < readCount ip off n, a = dst + UInt32.ofNat j := by
  unfold readi readCount
  rw [if_neg hdev]
  split_ifs with hbad hclip
  · simp [Touches]
  · have hbad' : off.toNat ≤ ip.size.toNat ∧ ¬ (off + n).toNat < off.toNat := by
      simpa [UInt32.lt_iff_toNat_lt] using hbad
    have hclip' : ip.size.toNat < (off + n).toNat := by simpa [UInt32.lt_iff_toNat_lt] using hclip
    have hadd := UInt32.toNat_add off n
    have h1 : off.toNat < 2 ^ 32 := off.toNat_lt
    have h2 : n.toNat < 2 ^ 32 := n.toNat_lt
    have hsub : (ip.size - off).toNat = ip.size.toNat - off.toNat :=
      UInt32.toNat_sub_of_le _ _ (by rw [UInt32.le_iff_toNat_le]; omega)
    rw [touches_moves _ (Nat.zero_le _) (by simp), hsub, Nat.min_eq_right (by omega)]
    simp
  · have hbad' : off.toNat ≤ ip.size.toNat ∧ ¬ (off + n).toNat < off.toNat := by
      simpa [UInt32.lt_iff_toNat_lt] using hbad
    have hclip' : ¬ ip.size.toNat < (off + n).toNat := by simpa [UInt32.lt_iff_toNat_lt] using hclip
    have hadd := UInt32.toNat_add off n
    have h1 : off.toNat < 2 ^ 32 := off.toNat_lt
    have h2 : n.toNat < 2 ^ 32 := n.toNat_lt
    rw [touches_moves _ (Nat.zero_le _) (by simp), Nat.min_eq_left (by omega)]
    simp

lemma readi_within {line : UInt32} {ip : Dinode} {dst off : UInt32} {n : Int32} (hn : 0 ≤ n.toInt) :
    Within dst n.toInt (readi line ip dst off n.toUInt32) := by
  have hc := toInt_cases n
  have hlt : n.toUInt32.toNat < 2 ^ 32 := n.toUInt32.toNat_lt
  by_cases hdev : ip.type = T_DEV
  · unfold readi
    rw [if_pos hdev]
    split_ifs
    · unfold consoleread
      split_ifs
      · refine within_one ?_
        have hmin : min n.toUInt32 line = if n.toUInt32 ≤ line then n.toUInt32 else line := rfl
        rw [hmin]
        split_ifs with hle
        · omega
        · rw [UInt32.le_iff_toNat_le] at hle
          omega
      · exact within_nil _ _
    · exact within_nil _ _
  · intro a ha
    obtain ⟨j, hj, rfl⟩ := (readi_moves hdev a).mp ha
    refine ⟨j, ?_, rfl⟩
    unfold readCount at hj
    split_ifs at hj <;> omega

lemma fileread_within {line : UInt32} {f : OpenFile} {addr : UInt32} {n : Int32} (hn : 0 ≤ n.toInt) :
    Within addr n.toInt (fileread line f addr n) := by
  unfold fileread
  split_ifs
  · exact within_nil _ _
  · split
    · exact readi_within hn
    · exact within_nil _ _

lemma writei_within (ip : Dinode) (src off n : UInt32) : Within src n.toNat (writei ip src off n).1 := by
  unfold writei
  split_ifs
  · unfold consolewrite
    split_ifs
    · exact within_one le_rfl
    · exact within_nil _ _
  · exact within_nil _ _
  · exact within_nil _ _
  · exact within_nil _ _
  · exact within_moves le_rfl

lemma Within.shift {addr : UInt32} {i : ℕ} {m n : ℤ} {l : List (UInt32 × UInt32)}
    (h : Within (addr + UInt32.ofNat i) m l) (hle : i + m ≤ n) : Within addr n l := by
  intro a ha
  obtain ⟨j, hj, rfl⟩ := h a ha
  refine ⟨i + j, by push_cast; omega, ?_⟩
  rw [UInt32.ofNat_add, UInt32.add_assoc]

lemma filewriteLoop_within (chunk : ℕ → OpenFile) (addr : UInt32) {n : ℤ} (hn : n < 2 ^ 31)
    (fuel k : ℕ) {i : ℤ} (hi : 0 ≤ i) : Within addr n (filewriteLoop chunk addr n fuel k i) := by
  induction fuel generalizing k i with
  | zero => exact within_nil _ _
  | succ fuel ih =>
    rw [filewriteLoop]
    split_ifs with hlt
    swap
    · exact within_nil _ _
    have hmax : filewriteMax = 6656 := rfl
    have hn1 : 0 ≤ min (n - i) filewriteMax := by omega
    generalize hm : min (n - i) filewriteMax = n1 at hn1
    have hle : i + n1 ≤ n := by omega
    have htoNat : (UInt32.ofNat n1.toNat).toNat = n1.toNat :=
      UInt32.toNat_ofNat_of_lt' (show n1.toNat < UInt32.size by simp only [UInt32.size]; omega)
    have hw := writei_within (chunk k).ip (addr + UInt32.ofNat i.toNat) (chunk k).file.off
      (UInt32.ofNat n1.toNat)
    intro a ha
    rcases touches_append.mp ha with ha | ha
    · exact hw.shift (by rw [htoNat]; omega) a ha
    · split_ifs at ha
      · exact ih (k + 1) (i := i + n1) (by omega) a ha
      · exact absurd ha not_touches_nil

lemma filewrite_within {f : OpenFile} {chunk : ℕ → OpenFile} {addr : UInt32} {n : Int32} :
    Within addr n.toInt (filewrite f chunk addr n) := by
  have hc := toInt_cases n
  have hn : n.toUInt32.toNat < 2 ^ 32 := n.toUInt32.toNat_lt
  unfold filewrite
  split_ifs
  · exact within_nil _ _
  · split
    · exact filewriteLoop_within chunk addr (by omega) _ _ le_rfl
    · exact within_nil _ _

lemma sys_read_eq_some_iff {ofile : ℕ → Option OpenFile} {line addr : UInt32} {n : Int32}
    {l : List (UInt32 × UInt32)} :
    sys_read p ofile line = some (addr, n, l) ↔ ∃ f w, argfd p ofile 0 = some f ∧ argint p 2 = some w ∧
      w.toInt32 = n ∧ argptr p 1 n = some addr ∧ l = fileread line f addr n := by
  unfold sys_read
  cases hf : argfd p ofile 0 with
  | none => simp
  | some f =>
    cases hw : argint p 2 with
    | none => simp
    | some w =>
      cases ha : argptr p 1 w.toInt32 with
      | none =>
        simp only [ha, reduceCtorEq, false_iff]
        rintro ⟨f', w', -, hw', rfl, ha', -⟩
        cases hw'
        rw [ha] at ha'
        cases ha'
      | some a =>
        simp only [ha, Option.some_inj, Prod.mk.injEq]
        constructor
        · rintro ⟨rfl, rfl, rfl⟩
          exact ⟨f, w, rfl, rfl, rfl, ha, rfl⟩
        · rintro ⟨f', w', rfl, rfl, rfl, ha', rfl⟩
          rw [ha] at ha'
          cases ha'
          exact ⟨rfl, rfl, rfl⟩

def NegativeRead (p : Uproc) (ofile : ℕ → Option OpenFile) : Prop :=
  ∃ f w addr, argfd p ofile 0 = some f ∧ argint p 2 = some w ∧ argint p 1 = some addr ∧
    w.toInt32.toInt < 0 ∧ -w.toInt32.toInt ≤ addr.toNat ∧ addr.toNat < p.sz.toNat ∧
    f.file.readable = true ∧ f.file.type = .inode ∧ f.ip.type ≠ T_DEV ∧
    f.file.off.toNat < -w.toInt32.toInt ∧ f.file.off.toNat < f.ip.size.toNat

lemma readCount_pos_iff {ip : Dinode} {off : UInt32} {n : Int32} (hn : n.toInt < 0) :
    0 < readCount ip off n.toUInt32 ↔ off.toNat < -n.toInt ∧ off.toNat < ip.size.toNat := by
  have hc := toInt_cases n
  have hadd := UInt32.toNat_add off n.toUInt32
  have h1 : off.toNat < 2 ^ 32 := off.toNat_lt
  have h2 : n.toUInt32.toNat < 2 ^ 32 := n.toUInt32.toNat_lt
  unfold readCount
  simp only [gt_iff_lt, UInt32.lt_iff_toNat_lt]
  split_ifs <;> omega

lemma sys_read_inside_iff (hsz : p.sz.toNat < KERNBASE) (ofile : ℕ → Option OpenFile) (line : UInt32) :
    (∀ addr n l, sys_read p ofile line = some (addr, n, l) → Inside p addr n.toInt l) ↔
    ¬ NegativeRead p ofile := by
  constructor
  · rintro h ⟨f, w, addr, hf, hw, haddr, hneg, hle, hlt, hr, ht, hdev, hoff, hsize⟩
    have hptr : argptr p 1 w.toInt32 = some addr :=
      (argptr_eq_some_iff hsz).mpr ⟨haddr, hlt, by omega, by omega⟩
    have hin := h addr w.toInt32 _ (sys_read_eq_some_iff.mpr ⟨f, w, hf, hw, rfl, hptr, rfl⟩)
    -- the first byte already lies outside the empty buffer
    have htouch : Touches (fileread line f addr w.toInt32) addr := by
      simp only [fileread, hr, ht, Bool.true_eq_false, if_false]
      refine (readi_moves hdev addr).mpr ⟨0, (readCount_pos_iff hneg).mpr ⟨hoff, hsize⟩, by simp⟩
    have := (hin addr htouch).2.1
    omega
  · intro h addr n l hread
    obtain ⟨f, w, hf, hw, rfl, hptr, rfl⟩ := sys_read_eq_some_iff.mp hread
    obtain ⟨haddr, hlt, hpos, hend⟩ := (argptr_eq_some_iff hsz).mp hptr
    by_cases hn : 0 ≤ w.toInt32.toInt
    · exact (fileread_within hn).inside hsz hend
    -- with a negative count nothing is touched outside the condition
    have hnone : ∀ a, ¬ Touches (fileread line f addr w.toInt32) a := by
      intro a ha
      unfold fileread at ha
      split_ifs at ha with hr
      · exact not_touches_nil ha
      split at ha
      next ht =>
        by_cases hdev : f.ip.type = T_DEV
        · unfold readi consoleread at ha
          have hw' : ¬ w.toInt32.toUInt32.toInt32.toInt > 0 := by
            have hcast : w.toInt32.toUInt32.toInt32 = w.toInt32 := rfl
            rw [hcast]
            omega
          rw [if_pos hdev, if_neg hw', ite_self] at ha
          exact not_touches_nil ha
        · obtain ⟨j, hj, -⟩ := (readi_moves hdev a).mp ha
          obtain ⟨hoff, hsize⟩ := (readCount_pos_iff (by omega)).mp (Nat.zero_lt_of_lt hj)
          exact h ⟨f, w, addr, hf, hw, haddr, by omega, by omega, hlt, by simpa using hr, ht, hdev,
            hoff, hsize⟩
      next => exact not_touches_nil ha
    exact fun a ha => absurd ha (hnone a)

lemma sys_write_inside (hsz : p.sz.toNat < KERNBASE) {ofile : ℕ → Option OpenFile} {chunk : ℕ → OpenFile}
    {addr : UInt32} {n : Int32} {l : List (UInt32 × UInt32)}
    (h : sys_write p ofile chunk = some (addr, n, l)) : Inside p addr n.toInt l := by
  unfold sys_write at h
  split at h
  next f w hf hw =>
    split at h
    next a ha =>
      cases h
      exact filewrite_within.inside hsz ((argptr_eq_some_iff hsz).mp ha).2.2.2
    next => cases h
  next => cases h

lemma argptr_sound_iff (hsz : p.sz.toNat < KERNBASE) (n size : Int32) :
    (∀ ptr, argptr p n size = some ptr → 0 ≤ size.toInt ∧ ∀ k : ℕ, (k : ℤ) < size.toInt →
        (ptr + UInt32.ofNat k).toNat = ptr.toNat + k ∧ ptr + UInt32.ofNat k < p.sz) ↔
      ¬ ∃ i, argint p n = some i ∧ i < p.sz ∧ size.toInt < 0 ∧ -size.toInt ≤ i.toNat := by
  simp only [UInt32.lt_iff_toNat_lt]
  constructor
  · rintro h ⟨i, hi, hlt, hneg, hle⟩
    have := (h i ((argptr_eq_some_iff hsz).mpr ⟨hi, hlt, by omega, by omega⟩)).1
    omega
  · intro h ptr hptr
    obtain ⟨hi, hlt, hpos, hend⟩ := (argptr_eq_some_iff hsz).mp hptr
    have hsize : 0 ≤ size.toInt := by
      by_contra hneg
      exact h ⟨ptr, hi, hlt, by omega, by omega⟩
    refine ⟨hsize, fun k hk => ?_⟩
    simp only [KERNBASE] at hsz
    rw [toNat_add_ofNat (by omega)]
    omega

lemma argstr_eq_some {n : Int32} (hsz : p.sz.toNat < KERNBASE) {ptr l : UInt32}
    (h : argstr p n = some (ptr, l)) : StringAt p ptr l := by
  unfold argstr at h
  cases hi : argint p n with
  | none =>
    rw [hi] at h
    cases h
  | some addr =>
    rw [hi] at h
    obtain ⟨l', hl, heq⟩ := Option.map_eq_some_iff.mp h
    cases heq
    exact (fetchstr_eq_some_iff hsz).mp hl

theorem user_pointers_validated_iff (p : Uproc) (hsz : p.sz.toNat < KERNBASE) :
    (∀ n size : Int32,
      (∀ ptr, argptr p n size = some ptr → 0 ≤ size.toInt ∧ ∀ k : ℕ, (k : ℤ) < size.toInt →
          (ptr + UInt32.ofNat k).toNat = ptr.toNat + k ∧ ptr + UInt32.ofNat k < p.sz) ↔
        ¬ ∃ i, argint p n = some i ∧ i < p.sz ∧ size.toInt < 0 ∧ -size.toInt ≤ i.toNat) ∧
    (∀ addr, ∀ a ∈ (fetchint p addr).1, a < p.sz) ∧
    (∀ addr l, fetchstr p addr = some l ↔ StringAt p addr l) ∧
    (∀ n ptr l, argstr p n = some (ptr, l) → StringAt p ptr l) ∧
    (∀ ofile line, (∀ addr n l, sys_read p ofile line = some (addr, n, l) → Inside p addr n.toInt l) ↔
      ¬ NegativeRead p ofile) ∧
    (∀ ofile chunk addr n l, sys_write p ofile chunk = some (addr, n, l) → Inside p addr n.toInt l) :=
  ⟨argptr_sound_iff hsz, fetchint_reads hsz, fun _ _ => fetchstr_eq_some_iff hsz,
    fun _ _ _ => argstr_eq_some hsz, sys_read_inside_iff hsz, fun _ _ _ _ _ => sys_write_inside hsz⟩

def twoPageFile : OpenFile where
  file := ⟨.inode, 1, true, false, 2, 0⟩
  ip := ⟨T_FILE, 0, 0, 1, 8192, fun _ => 0⟩

def caller : Uproc where
  sz := 4096
  esp := 0
  mem a := if a = 9 ∨ a = 13 then 2 else if a = 8 then 88 else if a = 12 then 188
    else if a = 600 then 65 else 0

theorem user_pointers_validated_iff_caller : StringAt caller 600 1 ∧
    sys_read caller (fun _ => some twoPageFile) 0 = some (600, 700, [(600, 512), (1112, 188)]) ∧
      Inside caller 600 700 [(600, 512), (1112, 188)] := by
  obtain ⟨-, -, hstr, -, hread, -⟩ := user_pointers_validated_iff caller (by decide)
  have hok : sys_read caller (fun _ => some twoPageFile) 0 = some
    (600, 700, [(600, 512), (1112, 188)]) := by
    decide +kernel
  have hpos : ¬ NegativeRead caller fun _ => some twoPageFile := by
    rintro ⟨f, w, addr, -, hw, -, hneg, -⟩
    obtain rfl : 700 = w := Option.some.inj hw
    exact absurd hneg (by decide)
  exact ⟨(hstr 600 1).mp (by decide +kernel), hok, (hread _ 0).mpr hpos 600 700 _ hok⟩

def negativeCaller : Uproc where
  sz := 4096
  esp := 0
  mem a := if a = 8 then 1 else if 12 ≤ a ∧ a < 16 then 255 else 0

theorem negative_read_overruns : argptr negativeCaller 1 (-1) = some 1 ∧
    ∃ l, sys_read negativeCaller (fun _ => some twoPageFile) 0 = some (1, -1, l) ∧
      (4097, 512) ∈ l ∧ negativeCaller.sz ≤ 4097 := by
  refine ⟨by decide +kernel, _, rfl, by decide +kernel, by decide⟩

end Xv6.Syscall
