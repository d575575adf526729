import Xv6.Fs.Ownership

/-! The block allocator of `fs.c` in the code's own arithmetic: the two loops of `balloc` with their
`int` variables, and `bfree`. -/

namespace Xv6.Fs.Loops

open Lib

def bblock (sb : Superblock) (q : UInt32) : ℕ := (q + UInt32.ofNat sb.bmapstart).toNat

def searchBlock (size : UInt32) (data : Block) (b : Int32) : ℕ → Int32 → Option Int32
  | 0, _ => none
  | fuel + 1, bi =>
    if bi < Int32.ofNat BPB ∧ (b + bi).toUInt32 < size then
      if data.bit bi.toUInt32.toNat then searchBlock size data b fuel (bi + 1) else some bi
    else none

def ballocLoop : ℕ → Int32 → BlockM ℕ
  | 0, _ => throw .wild
  | fuel + 1, b => do
    let sb := (← get).sb
    if b.toUInt32 < UInt32.ofNat sb.size then do
      let bp ← bread (bblock sb (b / Int32.ofNat BPB).toUInt32)
      match searchBlock (UInt32.ofNat sb.size) bp b (BPB + 1) 0 with
      | some bi => do
        logWrite (bblock sb (b / Int32.ofNat BPB).toUInt32) (bp.setBit bi.toUInt32.toNat)
        bzero (b + bi).toUInt32.toNat
        return (b + bi).toUInt32.toNat
      | none => ballocLoop fuel (b + Int32.ofNat BPB)
    else throw (.panic .ballocOutOfBlocks)

def balloc : BlockM ℕ := ballocLoop (2 ^ 19) 0

def bfree (b : UInt32) : BlockM PUnit := do
  readsb
  let sb := (← get).sb
  let bp ← bread (bblock sb (b / UInt32.ofNat BPB))
  let bi := (b % UInt32.ofNat BPB).toNat
  if bp.bit bi then logWrite (bblock sb (b / UInt32.ofNat BPB)) (bp.clearBit bi)
  else throw (.panic .freeingFreeBlock)

def mapBlock (sb : Superblock) (b : ℕ) : ℕ := bblock sb (UInt32.ofNat (b / BPB))

def bit (st : Store) (b : ℕ) : Bool := (st.disk (mapBlock st.sb b)).bit (b % BPB)

section int

variable {m n : ℕ}

lemma toNat_ofNat_int (h : n < 2 ^ 31) : (Int32.ofNat n).toUInt32.toNat = n := by
  rw [Int32.toUInt32_ofNat', UInt32.toNat_ofNat', Nat.mod_eq_of_lt (by omega)]

lemma ofNat_int_lt (hm : m < 2 ^ 31) (hn : n < 2 ^ 31) : Int32.ofNat m < Int32.ofNat n ↔ m < n := by
  rw [Int32.lt_iff_toInt_lt, Int32.toInt_ofNat_of_lt hm, Int32.toInt_ofNat_of_lt hn, Nat.cast_lt]

lemma ofNat_int_lt_uint (hm : m < 2 ^ 31) (hn : n < 2 ^ 31) :
    (Int32.ofNat m).toUInt32 < UInt32.ofNat n ↔ m < n := by
  rw [UInt32.lt_iff_toNat_lt, toNat_ofNat_int hm, UInt32.toNat_ofNat', Nat.mod_eq_of_lt (by omega)]

lemma ofNat_int_div (h : n < 2 ^ 31) : (Int32.ofNat n / Int32.ofNat BPB).toUInt32 = UInt32.ofNat
    (n / BPB) := by
  have hd : Int32.ofNat n / Int32.ofNat BPB = Int32.ofNat (n / BPB) := by
    have hlt : n / BPB < 2 ^ 31 := (Nat.div_le_self _ _).trans_lt h
    rw [← Int32.toInt_inj, Int32.toInt_div, Int32.toInt_ofNat_of_lt h, Int32.toInt_ofNat_of_lt
      (by decide), Int32.toInt_ofNat_of_lt hlt, ← Int.ofNat_tdiv]
    generalize n / BPB = q at hlt
    exact Int.bmod_eq_of_le (by omega) (by omega)
  rw [hd, Int32.toUInt32_ofNat']

end int

inductive Searched (size : ℕ) (data : Block) (b lo : ℕ) : Option Int32 → Prop
  | found {i : ℕ} : i < BPB → b + i < size → data.bit i = false →
      (∀ j, lo ≤ j → j < i → data.bit j = true) → Searched size data b lo (some (Int32.ofNat i))
  | full : (∀ j, lo ≤ j → j < BPB → b + j < size → data.bit j = true) → Searched size data b lo none

lemma searchBlock_spec {size b : ℕ} (data : Block) (hb : b < 2 ^ 31 - BPB) (hsize : size < 2 ^ 31)
    (fuel lo : ℕ) (hlo : lo ≤ BPB) (hf : BPB < lo + fuel) :
    Searched size data b lo (searchBlock (UInt32.ofNat size) data (Int32.ofNat b) fuel
    (Int32.ofNat lo)) := by
  have hB : BPB = 4096 := rfl
  induction fuel generalizing lo with
  | zero => omega
  | succ fuel ih =>
    have hiff : Int32.ofNat lo < Int32.ofNat BPB ∧
      (Int32.ofNat b + Int32.ofNat lo).toUInt32 < UInt32.ofNat size ↔
        lo < BPB ∧ b + lo < size := by
      rw [← Int32.ofNat_add, ofNat_int_lt (by omega) (by decide), ofNat_int_lt_uint (by omega) hsize]
    rw [searchBlock, toNat_ofNat_int (by omega)]
    by_cases hc : lo < BPB ∧ b + lo < size
    · rw [if_pos (hiff.mpr hc)]
      by_cases hbit : data.bit lo = true
      · rw [if_pos hbit, show Int32.ofNat lo + 1 = Int32.ofNat (lo + 1) from (Int32.ofNat_add lo 1).symm]
        have hnext : ∀ j, lo ≤ j → (lo + 1 ≤ j → data.bit j = true) → data.bit j = true := by
          intro j hj h
          rcases Nat.eq_or_lt_of_le hj with rfl | hlt
          · exact hbit
          · exact h hlt
        generalize hr : searchBlock _ _ _ fuel _ = r
        cases hr ▸ ih (lo + 1) (by omega) (by omega) with
        | found h1 h2 h3 h4 => exact .found h1 h2 h3 fun j hj hji => hnext j hj fun h => h4 j h hji
        | full h => exact .full fun j hj hjB hjs => hnext j hj fun h' => h j h' hjB hjs
      · rw [if_neg hbit]
        exact .found hc.1 hc.2 (Bool.eq_false_iff.mpr hbit) fun j hj hji => by omega
    · rw [if_neg (mt hiff.mp hc)]
      exact .full fun j hj hjB hjs => by omega

def alloc (st : Store) (b : ℕ) : Store :=
  (st.write (mapBlock st.sb b) ((st.disk (mapBlock st.sb b)).setBit (b % BPB))).write b Block.zero

def free (st : Store) : Set ℕ := {b | b < st.sb.size ∧ bit st b = false}

lemma bit_block (st : Store) {n i : ℕ} (hi : i < BPB) :
    bit st (n * BPB + i) = (st.disk (mapBlock st.sb (n * BPB))).bit i := by
  have hB : 0 < BPB := by decide
  have hd : (n * BPB + i) / BPB = n := by
    rw [Nat.mul_comm, Nat.mul_add_div hB, Nat.div_eq_of_lt hi, Nat.add_zero]
  have hm : (n * BPB + i) % BPB = i := by rw [Nat.mul_comm, Nat.mul_add_mod, Nat.mod_eq_of_lt hi]
  rw [bit, mapBlock, mapBlock, hd, hm, Nat.mul_div_cancel _ hB]

lemma mapBlock_block (sb : Superblock) {n i : ℕ} (hi : i < BPB) :
    mapBlock sb (n * BPB + i) = mapBlock sb (n * BPB) := by
  have hB : 0 < BPB := by decide
  rw [mapBlock, mapBlock, Nat.mul_comm, Nat.mul_add_div hB, Nat.div_eq_of_lt hi, Nat.add_zero,
    Nat.mul_div_cancel_left _ hB]

lemma used_block {st : Store} {n i : ℕ} (h : ∀ c < n * BPB, c < st.sb.size → bit st c = true)
    (hi : i ≤ BPB)
    (hj : ∀ j < i, n * BPB + j < st.sb.size → (st.disk (mapBlock st.sb (n * BPB))).bit j = true) :
    ∀ c < n * BPB + i, c < st.sb.size → bit st c = true := by
  intro c hc hcs
  rcases Nat.lt_or_ge c (n * BPB) with hlt | hge
  · exact h c hlt hcs
  · obtain ⟨j, rfl⟩ := Nat.exists_eq_add_of_le hge
    have hji : j < i := by omega
    rw [bit_block st (by omega)]
    exact hj j hji hcs

lemma ballocLoop_spec {st : Store} (hsize : st.sb.size < 2 ^ 31 - BPB) (fuel n : ℕ)
    (hused : ∀ c < n * BPB, c < st.sb.size → bit st c = true) (hn : n * BPB < st.sb.size + BPB)
    (hf : st.sb.size + BPB ≤ (n + fuel) * BPB) :
    Spec (ballocLoop fuel (Int32.ofNat (n * BPB))) st
    (fun b st' => IsLeast (free st) b ∧ st' = alloc st b)
      (fun e => e = .panic .ballocOutOfBlocks ∧ free st = ∅) := by
  have hB : BPB = 4096 := rfl
  induction fuel generalizing n with
  | zero =>
    rw [Nat.add_zero] at hf
    omega
  | succ fuel ih =>
    have hlt := ofNat_int_lt_uint (m := n * BPB) (n := st.sb.size) (by omega) (by omega)
    unfold ballocLoop
    apply Spec.bind
    apply Spec.get
    by_cases hc : n * BPB < st.sb.size
    · rw [if_pos (hlt.mpr hc), ofNat_int_div (by omega)]
      apply Spec.bind
      apply bread_spec
      change Spec (match searchBlock (UInt32.ofNat st.sb.size) (st.disk (mapBlock st.sb (n * BPB)))
        (Int32.ofNat (n * BPB)) (BPB + 1) (Int32.ofNat 0) with | some bi => _ | none => _) _ _ _
      have hs : Searched st.sb.size (st.disk (mapBlock st.sb (n * BPB))) (n * BPB) 0 _ :=
        searchBlock_spec (st.disk (mapBlock st.sb (n * BPB))) (by omega) (by omega) (BPB + 1) 0
          (by omega) (by omega)
      generalize searchBlock (UInt32.ofNat st.sb.size) (st.disk (mapBlock st.sb (n * BPB)))
        (Int32.ofNat (n * BPB)) (BPB + 1) (Int32.ofNat 0) = r at hs
      cases hs with
      | @found i hi his hbit hmin =>
        have hle := used_block hused hi.le fun j hj _ => hmin j (Nat.zero_le j) hj
        have hlt31 : n * BPB + i < 2 ^ 31 := his.trans (hsize.trans (by decide))
        have hb : (Int32.ofNat (n * BPB) + Int32.ofNat i).toUInt32.toNat = n * BPB + i := by
          rw [← Int32.ofNat_add, toNat_ofNat_int hlt31]
        dsimp only
        rw [hb, toNat_ofNat_int (by omega)]
        refine ⟨⟨⟨his, ?_⟩, fun c hcf => ?_⟩, ?_⟩
        · rw [bit_block st hi, hbit]
        · by_contra hcb
          have := hle c (by omega) hcf.1
          rw [hcf.2] at this
          cases this
        · rw [alloc, mapBlock_block st.sb hi, Nat.mul_add_mod_of_lt hi]
          rfl
      | full h =>
        have hnext : Int32.ofNat (n * BPB) + Int32.ofNat BPB = Int32.ofNat ((n + 1) * BPB) := by
          rw [← Int32.ofNat_add, Nat.add_mul, Nat.one_mul]
        have hle := used_block hused le_rfl fun j hj hjs => h j (Nat.zero_le j) hj hjs
        rw [← Nat.succ_mul] at hle
        have hn' : (n + 1) * BPB < st.sb.size + BPB := by
          rw [Nat.succ_mul]
          exact Nat.add_lt_add_right hc _
        have hf' : st.sb.size + BPB ≤ (n + 1 + fuel) * BPB := by rwa [Nat.add_right_comm n 1 fuel]
        dsimp only
        rw [hnext]
        exact ih (n + 1) hle hn' hf'
    · rw [if_neg (mt hlt.mp hc)]
      refine Spec.throw ⟨rfl, Set.eq_empty_of_forall_notMem fun c hcf => ?_⟩
      exact absurd (hused c (by have := hcf.1; omega) hcf.1) (by rw [hcf.2]; decide)

lemma balloc_spec {st : Store} (hsize : st.sb.size < 2 ^ 31 - BPB) :
    Spec balloc st (fun b st' => IsLeast (free st) b ∧ st' = alloc st b)
      (fun e => e = .panic .ballocOutOfBlocks ∧ free st = ∅) := by
  have hB : BPB = 4096 := rfl
  have h0 : ∀ c < 0 * BPB, c < st.sb.size → bit st c = true := by
    rw [Nat.zero_mul]
    exact fun c hc => absurd hc (Nat.not_lt_zero c)
  have hn : 0 * BPB < st.sb.size + BPB := by
    rw [Nat.zero_mul]
    omega
  have h := ballocLoop_spec hsize (2 ^ 19) 0 h0 hn (by rw [Nat.zero_add]; omega)
  rwa [Nat.zero_mul] at h

lemma balloc_of_least {st : Store} {b : ℕ} (hsize : st.sb.size < 2 ^ 31 - BPB)
    (hb : IsLeast (free st) b) : balloc.run st = .ok (b, alloc st b) := by
  cases hr : balloc.run st with
  | error e =>
    exact absurd hb.1 (by rw [((balloc_spec hsize).of_run_error hr).2]; exact Set.notMem_empty b)
  | ok r =>
    obtain ⟨b', st'⟩ := r
    obtain ⟨hb', rfl⟩ := (balloc_spec hsize).of_run_ok hr
    rw [hb.unique hb']

lemma balloc_of_full {st : Store} (hsize : st.sb.size < 2 ^ 31 - BPB) (hf : free st = ∅) :
    balloc.run st = .error (.panic .ballocOutOfBlocks) := by
  cases hr : balloc.run st with
  | error e => rw [((balloc_spec hsize).of_run_error hr).1]
  | ok r => exact absurd ((balloc_spec hsize).of_run_ok hr).1.1 (by rw [hf]; exact Set.notMem_empty _)

lemma balloc_congr {st st2 : Store} (hsize : st.sb.size < 2 ^ 31 - BPB) (hsb : st2.sb = st.sb)
    (hbits : ∀ b < st.sb.size, bit st2 b = bit st b) :
    (balloc.run st2).map Prod.fst = (balloc.run st).map Prod.fst := by
  have hsize2 : st2.sb.size < 2 ^ 31 - BPB := hsb ▸ hsize
  have hfree : free st2 = free st := by
    ext b
    change b < st2.sb.size ∧ _ ↔ _
    rw [hsb]
    exact and_congr_right fun hb => by rw [hbits b hb]
  rcases (free st).eq_empty_or_nonempty with hf | hf
  · rw [balloc_of_full hsize hf, balloc_of_full hsize2 (hfree.trans hf)]
  · have hb : IsLeast (free st) (sInf (free st)) := ⟨Nat.sInf_mem hf, fun c hc => Nat.sInf_le hc⟩
    have hb2 : IsLeast (free st2) (sInf (free st)) := hfree.symm ▸ hb
    rw [balloc_of_least hsize hb, balloc_of_least hsize2 hb2]
    rfl

lemma mapBlock_eq {sb : Superblock} {b : ℕ} (h : sb.bmapstart + b / BPB < 2 ^ 32) :
    mapBlock sb b = sb.bblock b := by
  rw [mapBlock, bblock, Superblock.bblock, UInt32.toNat_add, UInt32.toNat_ofNat', UInt32.toNat_ofNat']
  generalize b / BPB = q at *
  omega

theorem balloc_eq {st : Store} (hsize : st.sb.size < 2 ^ 31 - BPB)
    (hmap : st.sb.bmapstart + st.sb.size / BPB < 2 ^ 32) : balloc.run st = Fs.balloc.run st := by
  have hblock : ∀ b < st.sb.size, mapBlock st.sb b = st.sb.bblock b := fun b hb =>
    mapBlock_eq ((Nat.add_le_add_left (Nat.div_le_div_right hb.le) _).trans_lt hmap)
  have hbit : ∀ b < st.sb.size, bit st b = st.bit b := fun b hb => by rw [bit, Store.bit, hblock b hb]
  have hfree : free st = {b | b < st.sb.size ∧ st.bit b = false} :=
    Set.ext fun b => and_congr_right fun hb => by rw [hbit b hb]
  have hspec : Spec Fs.balloc st (fun b st' => IsLeast (free st) b ∧ st' = st.alloc b)
      (fun e => e = .panic .ballocOutOfBlocks ∧ free st = ∅) := by
    unfold Fs.balloc
    apply Spec.bind
    apply Spec.get
    cases hf : (List.range st.sb.size).find? (fun b => !st.bit b) with
    | none =>
      refine Spec.throw ⟨rfl, Set.eq_empty_of_forall_notMem fun b hb => ?_⟩
      have hused := List.find?_eq_none.mp hf b (List.mem_range.mpr hb.1)
      rw [← hbit b hb.1, hb.2] at hused
      exact hused rfl
    | some b =>
      obtain ⟨hb, hmem, hmin⟩ := List.find?_range_eq_some.mp hf
      rw [hfree]
      refine ⟨⟨⟨List.mem_range.mp hmem, by simpa using hb⟩, fun c hc => ?_⟩, rfl⟩
      by_contra hlt
      have := hmin c (by omega)
      rw [hc.2] at this
      cases this
  cases hr : Fs.balloc.run st with
  | error e =>
    obtain ⟨rfl, hf⟩ := hspec.of_run_error hr
    exact balloc_of_full hsize hf
  | ok r =>
    obtain ⟨hb, hst⟩ := hspec.of_run_ok hr
    have halloc : alloc st r.1 = st.alloc r.1 := by rw [alloc, hblock _ hb.1.1, Store.alloc]
    rw [balloc_of_least hsize hb, halloc, ← hst]

def release (st : Store) (b : ℕ) : Store :=
  st.write (mapBlock st.sb b) ((st.disk (mapBlock st.sb b)).clearBit (b % BPB))

lemma mapBlock_toNat (sb : Superblock) (b : UInt32) :
    bblock sb (b / UInt32.ofNat BPB) = mapBlock sb b.toNat := by
  have hd : b / UInt32.ofNat BPB = UInt32.ofNat (b.toNat / BPB) := by
    rw [← UInt32.toNat_inj, UInt32.toNat_div, UInt32.toNat_ofNat_of_lt' (by decide),
      UInt32.toNat_ofNat_of_lt' ((Nat.div_le_self _ _).trans_lt b.toNat_lt)]
  rw [mapBlock, hd]

def reread (st : Store) : Store := { st with sb := Superblock.ofBlock (st.disk 1) }

lemma reread_eq {st : Store} (hsb : Superblock.ofBlock (st.disk 1) = st.sb) : reread st = st := by
  rw [reread, hsb]

lemma clear_spec (st : Store) (b : ℕ) :
    Spec (if (st.disk (mapBlock st.sb b)).bit (b % BPB) then
        logWrite (mapBlock st.sb b) ((st.disk (mapBlock st.sb b)).clearBit (b % BPB))
      else throw (.panic .freeingFreeBlock)) st (fun _ st' => bit st b = true ∧ st' = release st b)
      (fun e => e = .panic .freeingFreeBlock ∧ bit st b = false) := by
  by_cases hb : bit st b = true
  · rw [if_pos (show (st.disk (mapBlock st.sb b)).bit (b % BPB) = true from hb)]
    exact ⟨hb, rfl⟩
  · rw [if_neg (show ¬ (st.disk (mapBlock st.sb b)).bit (b % BPB) = true from hb)]
    exact Spec.throw ⟨rfl, Bool.eq_false_iff.mpr hb⟩

lemma bfree_spec (st : Store) (b : UInt32) :
    Spec (bfree b) st (fun _ st' => bit (reread st) b.toNat = true ∧ st' = release (reread st) b.toNat)
      (fun e => e = .panic .freeingFreeBlock ∧ bit (reread st) b.toNat = false) := by
  have hi : (b % UInt32.ofNat BPB).toNat = b.toNat % BPB := by
    rw [UInt32.toNat_mod, UInt32.toNat_ofNat_of_lt' (by decide)]
  unfold bfree
  apply Spec.bind
  apply Spec.modify
  change Spec _ (reread st) _ _
  generalize reread st = st
  apply Spec.bind
  apply Spec.get
  apply Spec.bind
  apply bread_spec
  dsimp only
  rw [mapBlock_toNat, hi]
  exact clear_spec st b.toNat

lemma mapBlock_inj {sb : Superblock} {b c : ℕ} (hb : b < 2 ^ 32) (hc : c < 2 ^ 32)
    (h : mapBlock sb c = mapBlock sb b) : c / BPB = b / BPB := by
  have hq : UInt32.ofNat (c / BPB) = UInt32.ofNat (b / BPB) :=
    (UInt32.add_left_inj _).mp (UInt32.toNat_inj.mp h)
  have := congrArg UInt32.toNat hq
  rwa [UInt32.toNat_ofNat_of_lt' ((Nat.div_le_self _ _).trans_lt hc),
    UInt32.toNat_ofNat_of_lt' ((Nat.div_le_self _ _).trans_lt hb)] at this

lemma mod_eq_iff {b c : ℕ} (h : c / BPB = b / BPB) : b % BPB = c % BPB ↔ b = c := by
  refine ⟨fun hm => ?_, fun he => by rw [he]⟩
  rw [← Nat.div_add_mod b BPB, ← Nat.div_add_mod c BPB, hm, h]

structure Allocated (st st' : Store) (b : ℕ) : Prop where
  sb : st'.sb = st.sb
  logged : st'.logged = st.logged ++ [mapBlock st.sb b, b]
  zero : st'.disk b = Block.zero
  bits : ∀ c < st.sb.size, bit st' c = (bit st c || decide (b = c))
  mark : ∀ i < BPB, (st'.disk (mapBlock st.sb b)).bit i =
    ((st.disk (mapBlock st.sb b)).bit i || decide (b % BPB = i))
  other : ∀ c, c ≠ mapBlock st.sb b → c ≠ b → st'.disk c = st.disk c

structure Freed (st st' : Store) (b : ℕ) : Prop where
  sb : st'.sb = st.sb
  logged : st'.logged = st.logged ++ [mapBlock st.sb b]
  bits : ∀ c < 2 ^ 32, bit st' c = (bit st c && !decide (b = c))
  mark : ∀ i < BPB, (st'.disk (mapBlock st.sb b)).bit i =
    ((st.disk (mapBlock st.sb b)).bit i && !decide (b % BPB = i))
  other : ∀ c, c ≠ mapBlock st.sb b → st'.disk c = st.disk c

lemma alloc_mapBlock {st : Store} {b : ℕ} (h : mapBlock st.sb b ≠ b) :
    (alloc st b).disk (mapBlock st.sb b) = (st.disk (mapBlock st.sb b)).setBit (b % BPB) := by
  simp [alloc, Store.write, assign, h]

lemma alloc_other {st : Store} {b c : ℕ} (h : c ≠ mapBlock st.sb b) (hb : c ≠ b) :
    (alloc st b).disk c = st.disk c := by
  simp [alloc, Store.write, assign, h, hb]

lemma allocated {st : Store} {b : ℕ} (hsize : st.sb.size < 2 ^ 31 - BPB) (hb : b < st.sb.size)
    (hmap : ∀ c < st.sb.size, mapBlock st.sb c ≠ b) : Allocated st (alloc st b) b := by
  have hB : st.sb.size < 2 ^ 32 := hsize.trans (by decide)
  refine ⟨rfl, by simp [alloc, Store.write], by simp [alloc, Store.write], fun c hc => ?_, fun i hi => ?_,
    fun c h h' => alloc_other h h'⟩
  · change ((alloc st b).disk (mapBlock st.sb c)).bit (c % BPB) = _
    by_cases hbb : mapBlock st.sb c = mapBlock st.sb b
    · have hiff := mod_eq_iff (mapBlock_inj (hb.trans hB) (hc.trans hB) hbb)
      rw [bit, hbb, alloc_mapBlock (hmap b hb), Block.bit_setBit _ _ (Nat.mod_lt _ (by decide))]
      simp only [hiff]
    · have hne : b ≠ c := by
        rintro rfl
        exact hbb rfl
      rw [alloc_other hbb (hmap c hc), decide_eq_false hne, Bool.or_false, bit]
  · rw [alloc_mapBlock (hmap b hb), Block.bit_setBit _ _ hi]

lemma release_mapBlock (st : Store) (b : ℕ) :
    (release st b).disk (mapBlock st.sb b) = (st.disk (mapBlock st.sb b)).clearBit (b % BPB) :=
    assign_self ..

lemma release_other {st : Store} {b c : ℕ} (h : c ≠ mapBlock st.sb b) :
    (release st b).disk c = st.disk c :=
  assign_of_ne h ..

lemma freed (st : Store) {b : ℕ} (hb : b < 2 ^ 32) : Freed st (release st b) b := by
  refine ⟨rfl, rfl, fun c hc => ?_, fun i hi => ?_, fun c hc => ?_⟩
  · change ((release st b).disk (mapBlock st.sb c)).bit (c % BPB) = _
    by_cases hbb : mapBlock st.sb c = mapBlock st.sb b
    · have hiff := mod_eq_iff (mapBlock_inj hb hc hbb)
      rw [bit, hbb, release_mapBlock, Block.bit_clearBit _ _ (Nat.mod_lt _ (by decide))]
      simp only [hiff]
    · have hne : b ≠ c := by
        rintro rfl
        exact hbb rfl
      rw [release_other hbb, decide_eq_false hne, Bool.not_false, Bool.and_true, bit]
  · rw [release_mapBlock, Block.bit_clearBit _ _ hi]
  · exact release_other hc

lemma release_alloc {st : Store} {b c : ℕ} (hb : bit st b = false) (hmap : mapBlock st.sb b ≠ b)
    (hc : c ≠ b) : (release (alloc st b) b).disk c = st.disk c := by
  by_cases hcm : c = mapBlock st.sb b
  · rw [hcm]
    refine (release_mapBlock (alloc st b) b).trans ?_
    change ((alloc st b).disk (mapBlock st.sb b)).clearBit _ = _
    rw [alloc_mapBlock hmap, Block.clearBit_setBit hb]
  · have hkeep : (release (alloc st b) b).disk c = (alloc st b).disk c := release_other hcm
    rw [hkeep, alloc_other hcm hc]

lemma bfree_of_used {st : Store} {b : UInt32} (hb : bit (reread st) b.toNat = true) :
    (bfree b).run st = .ok (⟨⟩, release (reread st) b.toNat) := by
  cases hr : (bfree b).run st with
  | error e => exact absurd ((bfree_spec st b).of_run_error hr).2 (by rw [hb]; decide)
  | ok r =>
    obtain ⟨u, st'⟩ := r
    rw [((bfree_spec st b).of_run_ok hr).2]

lemma bfree_of_clear {st : Store} {b : UInt32} (hb : bit (reread st) b.toNat = false) :
    (bfree b).run st = .error (.panic .freeingFreeBlock) := by
  cases hr : (bfree b).run st with
  | error e => rw [((bfree_spec st b).of_run_error hr).1]
  | ok r => exact absurd ((bfree_spec st b).of_run_ok hr).1 (by rw [hb]; decide)

theorem bfree_eq {st : Store} {b : UInt32} (hmap : (reread st).sb.bmapstart + b.toNat / BPB < 2 ^ 32) :
    (bfree b).run st = (Fs.bfree b.toNat).run st := by
  have hblock := mapBlock_eq hmap
  have hspec : Spec (Fs.bfree b.toNat) st
      (fun _ st' => bit (reread st) b.toNat = true ∧ st' = release (reread st) b.toNat)
      (fun e => e = .panic .freeingFreeBlock ∧ bit (reread st) b.toNat = false) := by
    unfold Fs.bfree
    apply Spec.bind
    apply Spec.modify
    change Spec _ (reread st) _ _
    generalize reread st = st at *
    apply Spec.bind
    apply Spec.get
    apply Spec.bind
    apply bread_spec
    rw [← hblock]
    exact clear_spec st b.toNat
  cases hr : (Fs.bfree b.toNat).run st with
  | error e =>
    obtain ⟨rfl, hb⟩ := hspec.of_run_error hr
    exact bfree_of_clear hb
  | ok r =>
    obtain ⟨hb, hst⟩ := hspec.of_run_ok hr
    rw [bfree_of_used hb, ← hst]

lemma bfree_alloc {st : Store} {b : ℕ} (hsize : st.sb.size < 2 ^ 31 - BPB)
    (hsb : Superblock.ofBlock (st.disk 1) = st.sb) (hb : b ∈ free st)
    (hmap : ∀ c < st.sb.size, mapBlock st.sb c ≠ b) (h1 : b ≠ 1) (hm1 : mapBlock st.sb b ≠ 1) :
    (bfree (UInt32.ofNat b)).run (alloc st b) = .ok (⟨⟩, release (alloc st b) b) := by
  have hlt : b < 2 ^ 32 := hb.1.trans (hsize.trans (by decide))
  have htoNat : (UInt32.ofNat b).toNat = b := UInt32.toNat_ofNat_of_lt' hlt
  have hsb1 : Superblock.ofBlock ((alloc st b).disk 1) = (alloc st b).sb := by
    rw [alloc_other hm1.symm h1.symm]
    exact hsb
  have hused : bit (alloc st b) b = true := by
    rw [(allocated hsize hb.1 hmap).bits b hb.1, decide_eq_true rfl, Bool.or_true]
  have hfree : (bfree (UInt32.ofNat b)).run (alloc st b) = .ok
    (⟨⟩, release (reread (alloc st b)) (UInt32.ofNat b).toNat) :=
    bfree_of_used (by rwa [reread_eq hsb1, htoNat])
  rwa [reread_eq hsb1, htoNat] at hfree

theorem balloc_bfree (st : Store) (hsize : st.sb.size < 2 ^ 31 - BPB)
    (hsb : Superblock.ofBlock (st.disk 1) = st.sb) :
    (∀ b, IsLeast {b | b < st.sb.size ∧ bit st b = false} b →
      ∃ st', balloc.run st = .ok (b, st') ∧ st'.logged = st.logged ++ [mapBlock st.sb b, b] ∧
        st'.disk b = Block.zero ∧ ((∀ c < st.sb.size, mapBlock st.sb c ≠ b) → Allocated st st' b)) ∧
    (∀ e, balloc.run st = .error e → e = .panic .ballocOutOfBlocks ∧ ∀ b < st.sb.size, bit st b = true) ∧
    (∀ st₂ : Store, st₂.sb = st.sb → (∀ b < st.sb.size, bit st₂ b = bit st b) →
      (balloc.run st₂).map Prod.fst = (balloc.run st).map Prod.fst) ∧
    (∀ b : UInt32, (bit st b.toNat = true → ∃ st', (bfree b).run st = .ok (⟨⟩, st') ∧
      Freed st st' b.toNat) ∧
      ((bfree b).run st = .error (.panic .freeingFreeBlock) ↔ bit st b.toNat = false)) ∧
    (∀ b st₁, balloc.run st = .ok (b, st₁) → (∀ c < st.sb.size, mapBlock st.sb c ≠ b) → b ≠ 1 →
      mapBlock st.sb b ≠ 1 → ∃ st₂, (bfree (UInt32.ofNat b)).run st₁ = .ok (⟨⟩, st₂) ∧
        (∀ c < st.sb.size, bit st₂ c = bit st c) ∧ ∀ c ≠ b, st₂.disk c = st.disk c) := by
  refine ⟨fun b hb => ?_, fun e he => ?_, fun st₂ => balloc_congr hsize, fun b => ?_,
    fun b st₁ hr hmap h1 hm1 => ?_⟩
  · exact ⟨_, balloc_of_least hsize hb, by simp [alloc, Store.write], by simp [alloc, Store.write],
      allocated hsize hb.1.1⟩
  · obtain ⟨hp, hf⟩ := (balloc_spec hsize).of_run_error he
    refine ⟨hp, fun b hb => ?_⟩
    by_contra hbit
    have hmem : b ∈ free st := ⟨hb, Bool.eq_false_iff.mpr hbit⟩
    rw [hf] at hmem
    exact hmem
  · have hspec := bfree_spec st b
    have hused : bit (reread st) b.toNat = true → _ := bfree_of_used
    have hclear : bit (reread st) b.toNat = false → _ := bfree_of_clear
    rw [reread_eq hsb] at hspec hused hclear
    exact ⟨fun hb => ⟨_, hused hb, freed st b.toNat_lt⟩, fun he => (hspec.of_run_error he).2, hclear⟩
  · obtain ⟨hb, rfl⟩ := (balloc_spec hsize).of_run_ok hr
    have hdisk := fun c (hc : c ≠ b) => release_alloc hb.1.2 (hmap b hb.1.1) hc
    refine ⟨_, bfree_alloc hsize hsb hb.1 hmap h1 hm1, fun c hc => ?_, hdisk⟩
    exact congrArg (Block.bit · (c % BPB)) (hdisk _ (hmap c hc))

def fourBlocks (used : List ℕ) : Store :=
  let sb := (((Block.zero.setWord 0 4).setWord 6 2) : Block)
  ⟨Superblock.ofBlock sb, assign (assign (fun _ => Block.zero) 1 sb) 2
    (used.foldl Block.setBit Block.zero), []⟩

lemma isLeast_free {st : Store} {b : ℕ} (hb : b < st.sb.size) (hbit : bit st b = false)
    (hmin : ∀ c < b, bit st c = true) : IsLeast (free st) b := by
  refine ⟨⟨hb, hbit⟩, fun c hc => ?_⟩
  by_contra hlt
  have hcb := hmin c (by omega)
  rw [hc.2] at hcb
  cases hcb

theorem balloc_eq_four_blocks : balloc.run (fourBlocks [0, 1]) = Fs.balloc.run (fourBlocks [0, 1]) :=
  balloc_eq (by decide +kernel) (by decide +kernel)

theorem balloc_bfree_four_blocks : ∃ st' st'' : Store, balloc.run (fourBlocks [0, 1, 2]) = .ok (3, st') ∧
    (bfree 3).run st' = .ok (⟨⟩, st'') ∧ st''.disk 2 = (fourBlocks [0, 1, 2]).disk 2 := by
  have hsb : Superblock.ofBlock ((fourBlocks [0, 1, 2]).disk 1) = (fourBlocks [0, 1, 2]).sb := by
    decide +kernel
  have h := balloc_bfree (fourBlocks [0, 1, 2]) (by decide +kernel) hsb
  obtain ⟨st', hr, -⟩ := h.1 3 (isLeast_free (by decide +kernel) (by decide +kernel) (by decide +kernel))
  obtain ⟨st'', hr', -, hdisk⟩ := h.2.2.2.2 3 st' hr (by decide +kernel) (by decide) (by decide +kernel)
  exact ⟨st', st'', hr, hr', hdisk 2 (by decide)⟩

theorem bfree_after_balloc_superblock :
    Superblock.ofBlock ((fourBlocks [0, 2]).disk 1) = (fourBlocks [0, 2]).sb ∧
    (∀ c < (fourBlocks [0, 2]).sb.size, mapBlock (fourBlocks [0, 2]).sb c ≠ 1) ∧
    ∃ st', balloc.run (fourBlocks [0, 2]) = .ok (1, st') ∧ (bfree 1).run st' = .error
    (.panic .freeingFreeBlock) := by
  refine ⟨by decide +kernel, by decide +kernel, alloc (fourBlocks [0, 2]) 1, ?_, ?_⟩
  · exact balloc_of_least (by decide +kernel)
      (isLeast_free (by decide +kernel) (by decide +kernel) (by decide +kernel))
  · exact bfree_of_clear (by decide +kernel)

end Xv6.Fs.Loops
