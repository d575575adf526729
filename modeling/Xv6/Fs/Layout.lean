import Xv6.Block

namespace Xv6.Fs

open Lib

abbrev NDIRECT : ℕ := 12
abbrev NINDIRECT : ℕ := BSIZE / 4
abbrev MAXFILE : ℕ := NDIRECT + NINDIRECT
abbrev IPB : ℕ := BSIZE / 64
abbrev BPB : ℕ := BSIZE * 8
abbrev ROOTINO : ℕ := 1

abbrev T_DIR : Int16 := 1
abbrev T_FILE : Int16 := 2
abbrev T_DEV : Int16 := 3

lemma maxfile_lt : MAXFILE * BSIZE < 2 ^ 31 := by decide

lemma toNat_offset {n : ℕ} (h : n ≤ MAXFILE * BSIZE) : (UInt32.ofNat n).toNat = n :=
  UInt32.toNat_ofNat_of_lt' (h.trans_lt (by decide))

structure Superblock where
  size : ℕ
  nblocks : ℕ
  ninodes : ℕ
  nlog : ℕ
  logstart : ℕ
  inodestart : ℕ
  bmapstart : ℕ
  deriving DecidableEq

namespace Superblock

def ofBlock (b : Block) : Superblock where
  size := (b.word 0).toNat
  nblocks := (b.word 1).toNat
  ninodes := (b.word 2).toNat
  nlog := (b.word 3).toNat
  logstart := (b.word 4).toNat
  inodestart := (b.word 5).toNat
  bmapstart := (b.word 6).toNat

def iblock (sb : Superblock) (i : ℕ) : ℕ := i / IPB + sb.inodestart

def bblock (sb : Superblock) (b : ℕ) : ℕ := b / BPB + sb.bmapstart

def dstart (sb : Superblock) : ℕ := sb.bmapstart + (sb.size / BPB + 1)

lemma bmapstart_lt (sb : Superblock) : sb.bmapstart < sb.dstart :=
    Nat.lt_add_of_pos_right (Nat.succ_pos _)

structure Ordered (sb : Superblock) : Prop where
  log : 2 ≤ sb.inodestart
  inodes : sb.inodestart + (sb.ninodes / IPB + 1) ≤ sb.bmapstart
  bitmap : sb.dstart ≤ sb.size
  uint : sb.size < 2 ^ 32

variable {sb : Superblock}

lemma Ordered.lt_bmapstart (h : sb.Ordered) : sb.inodestart < sb.bmapstart := by
  have hn := h.inodes
  generalize sb.ninodes / IPB = q at hn
  omega

lemma Ordered.iblock_lt (h : sb.Ordered) {i : ℕ} (hi : i < sb.ninodes) :
    2 ≤ sb.iblock i ∧ sb.iblock i < sb.bmapstart := by
  have hl := h.log
  have hn := h.inodes
  have hd : i / IPB ≤ sb.ninodes / IPB := Nat.div_le_div_right hi.le
  rw [iblock]
  generalize i / IPB = q at hd ⊢
  omega

lemma Ordered.bblock_lt (_ : sb.Ordered) {b : ℕ} (hb : b < sb.size) :
    sb.bmapstart ≤ sb.bblock b ∧ sb.bblock b < sb.dstart := by
  have hd : b / BPB ≤ sb.size / BPB := Nat.div_le_div_right hb.le
  rw [bblock, dstart]
  generalize b / BPB = q at hd ⊢
  omega

end Superblock

structure Dinode where
  type : Int16
  major : Int16
  minor : Int16
  nlink : Int16
  size : UInt32
  addrs : Fin (NDIRECT + 1) → UInt32
  deriving DecidableEq

namespace Dinode

def zero : Dinode := ⟨0, 0, 0, 0, 0, fun _ => 0⟩

def get (b : Block) (s : ℕ) : Dinode where
  type := (b.half (32 * s)).toInt16
  major := (b.half (32 * s + 1)).toInt16
  minor := (b.half (32 * s + 2)).toInt16
  nlink := (b.half (32 * s + 3)).toInt16
  size := b.word (16 * s + 2)
  addrs := fun k => b.word (16 * s + 3 + k.val)

def putAddrs (b : Block) (s : ℕ) (addrs : Fin (NDIRECT + 1) → UInt32) : Block := fun i =>
  if h : 16 * s + 3 ≤ i.val / 4 ∧ i.val / 4 < 16 * s + 16 then
    LittleEndian.digit (addrs ⟨i.val / 4 - (16 * s + 3), by simp only [NDIRECT]; omega⟩).toNat (i.val % 4)
  else b i

def put (b : Block) (s : ℕ) (d : Dinode) : Block :=
  let b := b.setHalf (32 * s) d.type.toUInt16
  let b := b.setHalf (32 * s + 1) d.major.toUInt16
  let b := b.setHalf (32 * s + 2) d.minor.toUInt16
  let b := b.setHalf (32 * s + 3) d.nlink.toUInt16
  let b := b.setWord (16 * s + 2) d.size
  putAddrs b s d.addrs

lemma byte_putAddrs_ne (b : Block) (s : ℕ) (addrs : Fin (NDIRECT + 1) → UInt32) {i : ℕ} (hi : i < BSIZE)
    (h : ¬ (16 * s + 3 ≤ i / 4 ∧ i / 4 < 16 * s + 16)) : (putAddrs b s addrs).byte i = b.byte i := by
  simp only [Block.byte_of_lt _ hi, putAddrs, h, dite_false]

lemma word_putAddrs_self (b : Block) {s : ℕ} (hs : s < IPB) (addrs : Fin (NDIRECT + 1) → UInt32)
    (k : Fin (NDIRECT + 1)) : (putAddrs b s addrs).word (16 * s + 3 + k.val) = addrs k := by
  have hk := k.isLt
  simp only [IPB, BSIZE, NDIRECT] at hs hk
  rw [← Block.word_setWord_self b (addrs k) (k := 16 * s + 3 + k.val) (by omega)]
  apply Block.word_congr
  intro i hi
  have hlt : 4 * (16 * s + 3 + k.val) + i < BSIZE := by simp only [BSIZE]; omega
  rw [Block.byte_setWord _ _ _ hlt, if_pos (by omega), Block.byte_of_lt _ hlt, putAddrs,
    dif_pos (by simp only; omega)]
  congr 3
  ext
  simp only
  omega

lemma word_putAddrs_ne (b : Block) {s j : ℕ} (addrs : Fin (NDIRECT + 1) → UInt32) (hj : j < 128)
    (h : ¬ (16 * s + 3 ≤ j ∧ j < 16 * s + 16)) : (putAddrs b s addrs).word j = b.word j := by
  apply Block.word_congr
  intro i hi
  exact byte_putAddrs_ne _ _ _ (by simp only [BSIZE]; omega) (by omega)

lemma half_putAddrs_ne (b : Block) {s j : ℕ} (addrs : Fin (NDIRECT + 1) → UInt32) (hj : j < 256)
    (h : ¬ (16 * s + 3 ≤ j / 2 ∧ j / 2 < 16 * s + 16)) : (putAddrs b s addrs).half j = b.half j := by
  apply Block.half_congr
  intro i hi
  exact byte_putAddrs_ne _ _ _ (by simp only [BSIZE]; omega) (by omega)

lemma get_put_self (b : Block) {s : ℕ} (hs : s < IPB) (d : Dinode) : get (put b s d) s = d := by
  have hs' : s < 8 := hs
  obtain ⟨type, major, minor, nlink, size, addrs⟩ := d
  simp only [get, put, Dinode.mk.injEq]
  refine ⟨?_, ?_, ?_, ?_, ?_, funext fun k => word_putAddrs_self _ hs addrs k⟩
  all_goals simp (disch := omega) only [half_putAddrs_ne, word_putAddrs_ne, Block.half_setWord,
    Block.half_setHalf_ne, Block.half_setHalf_self, Block.word_setWord_self]
  all_goals rfl

lemma get_put_ne (b : Block) {s t : ℕ} (ht : t < IPB) (h : t ≠ s) (d : Dinode) :
    get (put b s d) t = get b t := by
  have ht' : t < 8 := ht
  simp only [get, put, Dinode.mk.injEq]
  refine ⟨?_, ?_, ?_, ?_, ?_, funext fun k => ?_⟩
  case refine_6 =>
    have hk := k.isLt
    simp only [NDIRECT] at hk
    simp (disch := omega) only [word_putAddrs_ne, Block.word_setWord_ne, Block.word_setHalf]
  all_goals simp (disch := omega) only [half_putAddrs_ne, word_putAddrs_ne, Block.half_setWord,
    Block.half_setHalf_ne, Block.word_setWord_ne, Block.word_setHalf]

end Dinode

end Xv6.Fs
