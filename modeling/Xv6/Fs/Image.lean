import Xv6.Fs.Writei

namespace Xv6.Fs

open Lib

def mkfsSb : Superblock where
  size := FSSIZE
  nblocks := FSSIZE - 59
  ninodes := NINODES
  nlog := LOGSIZE
  logstart := 2
  inodestart := 2 + LOGSIZE
  bmapstart := 2 + LOGSIZE + (NINODES / IPB + 1)

def Superblock.toBlock (sb : Superblock) : Block :=
  ([sb.size, sb.nblocks, sb.ninodes, sb.nlog, sb.logstart, sb.inodestart, sb.bmapstart].zipIdx).foldl
    (fun b p => b.setWord p.2 (UInt32.ofNat p.1)) Block.zero

def usedBits (used : ℕ) : Block := (List.range used).foldl Block.setBit Block.zero

def rootInode : Dinode where
  type := T_DIR
  major := 0
  minor := 0
  nlink := 1
  size := 512
  addrs := fun k => if k = 0 then 59 else 0

def rootEntries : List UInt8 :=
  [1, 0, 46, 0, 0, 0, 0, 0, 0, 0, 0, 0, 0, 0, 0, 0, 1, 0, 46, 46, 0, 0, 0, 0, 0, 0, 0, 0, 0, 0, 0, 0]

def mkfsDisk (b : ℕ) : Block :=
  if b = 1 then mkfsSb.toBlock
  else if b = mkfsSb.iblock ROOTINO then Dinode.put Block.zero (ROOTINO % IPB) rootInode
  else if b = mkfsSb.bmapstart then usedBits 60
  else if b = 59 then Block.zero.splice 0 rootEntries
  else Block.zero

def mkfsImage : Store := ⟨mkfsSb, mkfsDisk, []⟩

lemma Dinode.get_zero (s : ℕ) : Dinode.get Block.zero s = Dinode.zero := by
  simp only [Dinode.get, Dinode.zero, Block.word_zero, Block.half_zero]
  rfl

lemma mkfsSb_iblock {i : ℕ} (hi : i < NINODES) : mkfsSb.iblock i = i / IPB + 32 ∧ i / IPB < 26 :=
  ⟨rfl, Nat.div_lt_of_lt_mul (hi.trans (by decide))⟩

lemma mkfsDisk_inodes {q : ℕ} (h0 : q ≠ 0) (hq : q < 26) : mkfsDisk (q + 32) = Block.zero := by
  have h1 : mkfsSb.iblock ROOTINO = 32 := rfl
  have h2 : mkfsSb.bmapstart = 58 := rfl
  unfold mkfsDisk
  rw [if_neg (by omega), if_neg (by omega), if_neg (by omega), if_neg (by omega)]

lemma mkfsImage_inode {i : ℕ} (hi : i < NINODES) :
    mkfsImage.inode i = if i = ROOTINO then rootInode else Dinode.zero := by
  obtain ⟨hb, hlt⟩ := mkfsSb_iblock hi
  have hdm := Nat.div_add_mod i IPB
  have hmod : i % IPB < IPB := Nat.mod_lt _ (by decide)
  have hdef : mkfsImage.inode i = Dinode.get (mkfsDisk (i / IPB + 32)) (i % IPB) := rfl
  rw [hdef]
  by_cases hq : i / IPB = 0
  · have hi' : i % IPB = i := by rw [hq] at hdm; simpa using hdm
    rw [hq, show mkfsDisk (0 + 32) = Dinode.put Block.zero ROOTINO rootInode from rfl, hi']
    split_ifs with hroot
    · subst hroot
      exact Dinode.get_put_self _ (by decide) _
    · rw [Dinode.get_put_ne _ (by rwa [hi'] at hmod) hroot, Dinode.get_zero]
  · rw [mkfsDisk_inodes hq hlt, Dinode.get_zero, if_neg]
    rintro rfl
    exact hq rfl

lemma mkfsImage_root : mkfsImage.inode ROOTINO = rootInode :=
  (mkfsImage_inode (by decide)).trans (if_pos rfl)

lemma usedBits_bit {n b : ℕ} (hb : b < BPB) : (usedBits n).bit b = decide (b < n) := by
  induction n with
  | zero =>
    have : Block.zero.byte (b / 8) = 0 := by unfold Block.byte; split <;> rfl
    rw [usedBits, List.range_zero, List.foldl_nil, Block.bit, this]
    simp
  | succ n ih =>
    rw [usedBits, List.range_succ, List.foldl_append, List.foldl_cons, List.foldl_nil,
      Block.bit_setBit _ _ hb]
    rw [show (List.range n).foldl Block.setBit Block.zero = usedBits n from rfl, ih]
    rw [Bool.eq_iff_iff]
    simp only [Bool.or_eq_true, decide_eq_true_eq]
    omega

lemma mkfsImage_ref {i s : ℕ} (hi : i < NINODES) (hs : s < NSLOT) :
    ref mkfsDisk mkfsImage.inode i s = if i = ROOTINO ∧ s = 0 then 59 else 0 := by
  rw [ref, mkfsImage_inode hi]
  by_cases hroot : i = ROOTINO
  swap
  · simp [hroot, Dinode.zero]
  have hall : ∀ s < NSLOT, slotAddr mkfsDisk rootInode s = if s = 0 then 59 else 0 := by decide
  rw [if_pos hroot, if_neg (by decide), hall s hs]
  simp [hroot]

lemma mkfsImage_bit {b : ℕ} (hb : b < FSSIZE) : mkfsImage.bit b = decide (b < 60) := by
  have hb' : b < BPB := hb.trans (by decide)
  have hblock : mkfsImage.sb.bblock b = 58 := by
    rw [Superblock.bblock, Nat.div_eq_of_lt hb']
    rfl
  rw [Store.bit, hblock, Nat.mod_eq_of_lt hb']
  exact usedBits_bit hb'

lemma mkfsImage_owns : Owns mkfsImage (ref mkfsDisk mkfsImage.inode) where
  sb := by decide +kernel
  ordered := ⟨by decide, by decide, by decide, by decide⟩
  ledger := by
    have hd : mkfsSb.dstart = 59 := rfl
    refine ⟨fun i hi s hs => ?_, fun i hi s hs j hj t ht => ?_, fun b hb => ?_⟩
    · rw [mkfsImage_ref hi hs]
      split_ifs
      · exact fun _ => ⟨by decide, by decide⟩
      · exact fun h => absurd rfl h
    · rw [mkfsImage_ref hi hs, mkfsImage_ref hj ht]
      split_ifs with h1 h2
      · exact fun _ _ => ⟨h1.1.trans h2.1.symm, h1.2.trans h2.2.symm⟩
      · exact fun _ he => absurd he (by decide)
      · exact fun h => absurd rfl h
      · exact fun h => absurd rfl h
    · rw [mkfsImage_bit hb, decide_eq_true_eq, show mkfsImage.sb.dstart = 59 from rfl]
      constructor
      · intro hlt
        by_cases hb59 : b = 59
        · exact .inr ⟨ROOTINO, by decide, 0, by decide, by rw [hb59]; decide +kernel⟩
        · exact .inl (by omega)
      · rintro (hlt | ⟨i, hi, s, hs, rfl⟩)
        · omega
        · rw [mkfsImage_ref hi hs]
          split_ifs <;> decide

lemma mkfsImage_wf : Wf mkfsImage where
  holds := mkfsImage_owns
  sized i hi ht := by
    rw [mkfsImage_inode hi] at ht ⊢
    split_ifs at ht ⊢ with hroot
    · refine ⟨fun p hp => ?_, by decide⟩
      have hp' : p / BSIZE = 0 := Nat.div_eq_of_lt hp
      rw [hp']
      decide
    · exact absurd rfl ht

end Xv6.Fs
