import Xv6.Fs.Lookup
import Xv6.Mkfs.Files

namespace Xv6.Mkfs

open Lib Fs

def Image.NoHoles (m : Image) : Prop :=
  ∀ i, 0 < i → i < m.freeinode → ∀ k < ((m.inode i).size.toNat + BSIZE - 1) / BSIZE,
    slotAddr m.disk (m.inode i) (dataSlot k) ≠ 0

lemma slotAddr_size (disk : Disk) (ip : Dinode) (n : UInt32) :
    slotAddr disk { ip with size := n } = slotAddr disk ip :=
  rfl

namespace Finished

variable {m : Image} {fs : List HostFile} {st : Store}

section

variable (h : Finished m fs st)
include h

lemma slotAddr_eq {i : ℕ} (h0 : 0 < i) (hi : i < fs.length + 2) (hlt : i < islots) :
    slotAddr m.disk (m.inode i) = slotAddr st.disk (st.inode i) := by
  have hk := h.keeps i h0 hi
  have hin : i < st.sb.ninodes := by rw [h.sb]; exact hlt
  have hind : slotAddr m.disk (st.inode i) = slotAddr st.disk (st.inode i) := by
    apply slotAddr_congr
    intro hr
    have hrange := h.wf.holds.indirect_range hin hk.type_ne hr
    rw [h.sb] at hrange
    exact (h.data _ hrange.1).symm
  rw [h.inode i hlt]
  split_ifs
  · rw [slotAddr_size, hind]
  · exact hind

lemma root_size (hlt : fs.length + 2 ≤ islots) :
    (m.inode ROOTINO).size.toNat = (DIRENT * (fs.length + 2) / BSIZE + 1) * BSIZE := by
  rw [h.inode _ (by decide), if_pos rfl, length_entries]
  apply UInt32.toNat_ofNat_of_lt'
  have hB : BSIZE = 512 := rfl
  have hD : DIRENT = 16 := rfl
  have hI : islots = 208 := rfl
  rw [hB, hD, show UInt32.size = 4294967296 from rfl]
  omega

lemma file_size {i : ℕ} (h0 : 0 < i) (hi : i < fs.length + 2) (hlt : i < islots)
    (hr : i ≠ ROOTINO) : (m.inode i).size.toNat = (layout fs i).length := by
  rw [h.inode i hlt, if_neg hr]
  exact (h.keeps i h0 hi).size

lemma slot_ne_zero {i k : ℕ} (h0 : 0 < i) (hi : i < fs.length + 2) (hlt : i < islots)
    (hk : k < MAXFILE) : slotAddr m.disk (m.inode i) (dataSlot k) ≠ 0 ↔
    k * BSIZE < (layout fs i).length := by
  rw [h.slotAddr_eq h0 hi hlt]
  exact (h.keeps i h0 hi).exact.slot k hk

lemma layout_le {i : ℕ} (h0 : 0 < i) (hi : i < fs.length + 2) (hlt : i < islots) :
    (layout fs i).length ≤ MAXFILE * BSIZE := by
  have hk := h.keeps i h0 hi
  rw [← hk.size]
  exact (h.wf.sized i (by rw [h.sb]; exact hlt) hk.type_ne).2

lemma root_slot_eq_zero (hlt : fs.length + 2 ≤ islots) (hm : (fs.length + 2) % 32 = 0) :
    slotAddr m.disk (m.inode ROOTINO) (dataSlot (DIRENT * (fs.length + 2) / BSIZE)) = 0 := by
  have hB : BSIZE = 512 := rfl
  have hD : DIRENT = 16 := rfl
  have hI : islots = 208 := rfl
  have hM : MAXFILE = 140 := rfl
  have hroot : ROOTINO < fs.length + 2 := by simp only [ROOTINO]; omega
  have hslot := h.slot_ne_zero (i := ROOTINO) (k := DIRENT * (fs.length + 2) / BSIZE) (by decide)
    hroot (by decide) (by rw [hB, hD, hM]; omega)
  rw [layout_root, length_entries, hB, hD] at hslot
  by_contra hne
  have := hslot.mp (by rw [hB, hD] at hne; exact hne)
  omega

lemma root_hole (hlt : fs.length + 2 ≤ islots) (hm : (fs.length + 2) % 32 = 0) : ¬ m.NoHoles := by
  intro hno
  refine hno ROOTINO (by decide) (by rw [h.freeinode]; simp only [ROOTINO]; omega) _ ?_
    (h.root_slot_eq_zero hlt hm)
  have hB : BSIZE = 512 := rfl
  rw [h.root_size hlt, hB]
  omega

lemma noHoles (hlt : fs.length + 2 ≤ islots) (hm : (fs.length + 2) % 32 ≠ 0) : m.NoHoles := by
  have hB : BSIZE = 512 := rfl
  have hD : DIRENT = 16 := rfl
  have hI : islots = 208 := rfl
  have hM : MAXFILE = 140 := rfl
  intro i h0 hi k hk
  rw [h.freeinode] at hi
  have hlt' : i < islots := by omega
  have hle := h.layout_le h0 hi hlt'
  by_cases hr : i = ROOTINO
  · subst hr
    rw [layout_root, length_entries, hD] at hle
    rw [h.root_size hlt, hB, hD] at hk
    rw [h.slot_ne_zero (by decide) hi hlt' (by rw [hM]; omega), layout_root, length_entries, hB, hD]
    omega
  · rw [h.file_size h0 hi hlt' hr, hB] at hk
    rw [hB, hM] at hle
    rw [h.slot_ne_zero h0 hi hlt' (by rw [hM]; omega), hB]
    omega

end

end Finished

def Advances {α : Type} (p : MkfsM α) : Prop :=
  ∀ m, Spec p m (fun _ m' => m.freeblock ≤ m'.freeblock ∧ m'.freeinode = m.freeinode) (fun _ => True)

namespace Advances

variable {α β : Type}

lemma pure (a : α) : Advances (Pure.pure a : MkfsM α) := fun _ => Spec.pure ⟨le_rfl, rfl⟩

lemma bind {p : MkfsM α} {f : α → MkfsM β} (hp : Advances p) (hf : ∀ a, Advances (f a)) :
    Advances (p >>= f) := by
  intro m
  refine Spec.bind ((hp m).imp fun a m' h => ?_)
  exact (hf a m').imp fun b m'' h' => ⟨h.1.trans h'.1, h'.2.trans h.2⟩

lemma ite {c : Prop} [Decidable c] {p q : MkfsM α} (hp : Advances p) (hq : Advances q) :
    Advances (if c then p else q) := by
  split_ifs
  · exact hp
  · exact hq

lemma rsect (sec : ℕ) : Advances (rsect sec) := by
  intro m
  unfold Mkfs.rsect
  refine Spec.bind (Spec.get ?_)
  split_ifs
  · exact ⟨le_rfl, rfl⟩
  · exact trivial

lemma wsect (sec : ℕ) (buf : Block) : Advances (wsect sec buf) := fun _ => ⟨le_rfl, rfl⟩

lemma assert (p : Prop) [Decidable p] : Advances (assert p) :=
  fun _ => assert_spec (fun _ => ⟨le_rfl, rfl⟩) (fun _ => trivial)

lemma nextBlock : Advances nextBlock := fun _ => ⟨Nat.le_succ _, rfl⟩

lemma rinode (i : ℕ) : Advances (rinode i) := (rsect _).bind fun _ => pure _

lemma winode (i : ℕ) (ip : Dinode) : Advances (winode i ip) := (rsect _).bind fun _ => wsect _ _

lemma addrBlock (din : Dinode) (k : ℕ) : Advances (addrBlock din k) :=
    (nextBlock.bind fun _ => pure _).ite (pure _)

lemma fileBlock (din : Dinode) (fbn : ℕ) : Advances (fileBlock din fbn) := by
  refine ite ((addrBlock _ _).bind fun _ => pure _)
    ((addrBlock _ _).bind fun din => (rsect _).bind fun ind => ?_)
  exact ite (nextBlock.bind fun _ => (wsect _ _).bind fun _ => pure _) (pure _)

lemma iappendLoop (fuel : ℕ) (din : Dinode) (off : ℕ) (p : List UInt8) :
    Advances (iappendLoop fuel din off p) := by
  induction fuel generalizing din off p with
  | zero => exact pure _
  | succ fuel ih =>
    refine ite (pure _) ((assert _).bind fun _ => (fileBlock _ _).bind fun r => (rsect _).bind
      fun _ => ?_)
    exact (wsect _ _).bind fun _ => ih _ _ _

lemma iappend (i : ℕ) (p : List UInt8) : Advances (iappend i p) :=
  (rinode _).bind fun _ => (iappendLoop _ _ _ _).bind fun _ => winode _ _

lemma copyLoop (i : ℕ) (cs : List Chunk) : Advances (copyLoop i cs) := by
  induction cs with
  | nil => exact pure _
  | cons c cs ih => exact (iappend _ _).bind fun _ => ih

end Advances

lemma addFile_advances (r : ℕ) (f : HostFile) (m : Image) :
    Spec (addFile r f) m (fun _ m' => m.freeblock ≤ m'.freeblock ∧ m'.freeinode = m.freeinode + 1)
    (fun _ => True) := by
  unfold addFile
  apply Spec.bind
  refine assert_spec (fun _ => ?_) (fun _ => trivial)
  unfold ialloc
  refine Spec.bind (Spec.bind (Spec.get (Spec.bind (Spec.modify (Spec.bind ?_)))))
  have hrest := fun inum => (Advances.iappend r (dirent inum f.target).toBytes).bind fun _ =>
    Advances.copyLoop inum f.chunks
  refine (Advances.winode _ _ _).imp fun _ m' h => Spec.pure ((hrest _ m').imp fun _ m'' h' => ?_)
  exact ⟨h.1.trans h'.1, h'.2.trans h.2⟩

lemma addFiles_advances (r : ℕ) (fs : List HostFile) (m : Image) :
    Spec (addFiles r fs) m (fun _ m' => m.freeblock ≤ m'.freeblock ∧
    m'.freeinode = m.freeinode + fs.length)
      (fun _ => True) := by
  induction fs generalizing m with
  | nil => exact ⟨le_rfl, rfl⟩
  | cons f fs ih =>
    unfold addFiles
    refine Spec.bind ((addFile_advances r f m).imp fun _ m' h => (ih m').imp fun _ m'' h' => ?_)
    refine ⟨h.1.trans h'.1, ?_⟩
    rw [h'.2, h.2, List.length_cons]
    omega

lemma addFiles_append {r : ℕ} {fs gs : List HostFile} {m : Image} {Q : PUnit → Image → Prop}
    {B : Exit → Prop} (h : Spec (addFiles r fs) m (fun _ m' => Spec (addFiles r gs) m' Q B) B) :
    Spec (addFiles r (fs ++ gs)) m Q B := by
  induction fs generalizing m with
  | nil => exact h
  | cons f fs ih =>
    rw [addFiles] at h
    rw [List.cons_append]
    rw [addFiles]
    exact Spec.bind (h.of_bind.imp fun _ _ h' => ih h')

lemma finish_bitmap (r : ℕ) (m : Image) :
    Spec (finish r) m (fun _ m' => m.freeblock ≤ m'.freeblock ∧ m'.freeinode = m.freeinode ∧
      m'.disk mkfsSb.bmapstart = usedBits m'.freeblock) (fun _ => True) := by
  unfold finish
  refine Spec.bind ((Advances.rinode r m).imp fun din m1 h1 => ?_)
  refine Spec.bind ((Advances.winode r _ m1).imp fun _ m2 h2 => ?_)
  refine Spec.bind (Spec.get ?_)
  unfold balloc
  apply Spec.bind
  refine assert_spec (fun _ => ?_) (fun _ => trivial)
  refine Spec.modify ⟨h1.1.trans h2.1, h2.2.trans h1.2, ?_⟩
  rw [sector_of_lt (by decide)]
  simp only [assign_self]

section Bits

variable {u i : ℕ}

lemma usedBits_byte_ge (hi : i < BPB) (h : i < u) : 2 ^ (i % 8) ≤ ((usedBits u).byte (i / 8)).toNat := by
  have hbit := usedBits_bit (n := u) hi
  rw [Block.bit_eq_testBit, decide_eq_true h] at hbit
  exact Nat.ge_two_pow_of_testBit hbit

lemma usedBits_byte_zero {j : ℕ} (hj : j < BSIZE) (h : u ≤ 8 * j) : (usedBits u).byte j = 0 := by
  apply UInt8.toNat_inj.mp
  apply Nat.eq_of_testBit_eq
  intro k
  rw [UInt8.toNat_zero, Nat.zero_testBit]
  by_cases hk : k < 8
  · have hbit := usedBits_bit (n := u) (b := 8 * j + k) (by simp only [BPB, BSIZE] at hj ⊢; omega)
    rw [Block.bit_eq_testBit, show (8 * j + k) / 8 = j by omega,
      show (8 * j + k) % 8 = k by omega] at hbit
    rw [hbit]
    exact decide_eq_false (by omega)
  · exact Nat.testBit_lt_two_pow
      (lt_of_lt_of_le ((usedBits u).byte j).toNat_lt (Nat.pow_le_pow_right (by decide) (by omega)))

lemma word_toNat (b : Block) (k : ℕ) :
    (b.word k).toNat = (b.byte (4 * k)).toNat + (b.byte (4 * k + 1)).toNat * 256 +
    (b.byte (4 * k + 2)).toNat * 256 ^ 2 + (b.byte (4 * k + 3)).toNat * 256 ^ 3 := by
  rw [Block.word, UInt32.toNat_ofNat_of_lt' (LittleEndian.value_lt _ 4)]
  simp [LittleEndian.value]

lemma get_size_zero (b : Block) : (Dinode.get b 0).size = b.word 2 := by
  simp only [Dinode.get, Nat.mul_zero, Nat.zero_add]

lemma get_addr_zero (b : Block) : (Dinode.get b 0).addr 0 = (b.word 3).toNat := by
  simp only [Dinode.addr, Dinode.get, Nat.mul_zero, Nat.zero_add, Nat.add_zero,
    dif_pos (show 0 < NDIRECT + 1 by decide)]

lemma word_ge (b : Block) (k : ℕ) : (b.byte (4 * k)).toNat ≤ (b.word k).toNat := by
  rw [word_toNat]
  omega

lemma word_ge_top (b : Block) (k : ℕ) : (b.byte (4 * k + 3)).toNat * 256 ^ 3 ≤ (b.word k).toNat := by
  rw [word_toNat]
  omega

lemma word_eq_zero {b : Block} {k : ℕ} (h : ∀ j, 4 * k ≤ j → j < 4 * k + 4 → b.byte j = 0) :
    (b.word k).toNat = 0 := by
  rw [word_toNat, h _ (by omega) (by omega), h _ (by omega) (by omega), h _ (by omega) (by omega),
    h _ (by omega) (by omega), UInt8.toNat_zero]
  omega

lemma slotAddr_past (disk : Disk) (ip : Dinode) : slotAddr disk ip (dataSlot MAXFILE) = 0 := by
  rw [show dataSlot MAXFILE = 141 from rfl, slotAddr, if_neg (by decide)]
  split_ifs
  · rfl
  · exact word_eq_zero fun k hk _ => dif_neg (by simp only [BSIZE, NDIRECT] at hk ⊢; omega)

lemma bitmap_hole (disk : Disk) (hu : 66 ≤ u) :
    ∃ k < ((Dinode.get (usedBits u) 0).size.toNat + BSIZE - 1) / BSIZE,
      slotAddr disk (Dinode.get (usedBits u) 0) (dataSlot k) = 0 := by
  have hB : BSIZE = 512 := rfl
  rw [get_size_zero, hB]
  by_cases hbig : 95 < u
  · refine ⟨MAXFILE, ?_, slotAddr_past _ _⟩
    have h : 2 ^ 7 ≤ ((usedBits u).byte 11).toNat := usedBits_byte_ge (i := 95) (by decide) hbig
    have hw := word_ge_top (usedBits u) 2
    rw [show 4 * 2 + 3 = 11 from rfl] at hw
    rw [show MAXFILE = 140 from rfl]
    omega
  · refine ⟨0, ?_, ?_⟩
    · have h : 2 ^ 0 ≤ ((usedBits u).byte 8).toNat := usedBits_byte_ge (i := 64) (by decide) (by omega)
      have hw := word_ge (usedBits u) 2
      rw [show 4 * 2 = 8 from rfl] at hw
      omega
    · rw [slotAddr_direct _ _ (by decide), get_addr_zero]
      exact word_eq_zero fun j h1 h2 => usedBits_byte_zero (by simp only [BSIZE]; omega) (by omega)

end Bits

-- the run of a closed program is not to be evaluated
attribute [local irreducible] zeroLoop

lemma main_spill {files : List HostFile} (h : islots < files.length + 2) :
    Spec (main files) start (fun _ m => ¬ m.NoHoles) (fun _ => True) := by
  have hI : islots = 208 := rfl
  have hlen : (files.take 206).length = 206 := by rw [List.length_take]; omega
  have hdrop : (files.drop 206).length = files.length - 206 := List.length_drop ..
  unfold main
  refine Spec.bind (makeRoot_spec.mono ?_ (fun _ _ => trivial))
  rintro r m ⟨rfl, hm⟩
  apply Spec.bind
  rw [← List.take_append_drop 206 files]
  refine addFiles_append ((hm.addFiles (files.take 206)
    (by rw [List.nil_append, hlen]; decide)).mono ?_ (fun _ _ => trivial))
  rintro ⟨⟩ m1 h1
  rw [List.nil_append] at h1
  have hcost : 66 ≤ m1.freeblock := by
    have h66 : nmeta + nblocks (DIRENT * (206 + 2)) = 66 := by decide
    rw [h1.freeblock, cost, hlen]
    omega
  refine (addFiles_advances ROOTINO (files.drop 206) m1).imp fun _ m2 h2 => ?_
  refine (finish_bitmap ROOTINO m2).imp fun _ m3 h3 hno => ?_
  obtain ⟨k, hk, hz⟩ := bitmap_hole (u := m3.freeblock) m3.disk (by omega)
  have hino : m3.inode islots = Dinode.get (usedBits m3.freeblock) 0 := by
    rw [← h3.2.2]
    rfl
  have hfree := h1.freeinode
  refine hno islots (by decide) ?_ k (by rw [hino]; exact hk) (by rw [hino]; exact hz)
  rw [h3.2.1, h2.2, hfree, hlen, hdrop]
  omega

lemma noHoles_iff {files : List HostFile} {m : Image} (hm : mkfs files = .ok m) :
    m.NoHoles ↔ files.length + 2 ≤ islots ∧ (files.length + 2) % 32 ≠ 0 := by
  by_cases hlt : files.length + 2 ≤ islots
  · obtain ⟨st, hf⟩ := Finished.of_mkfs hm hlt
    refine ⟨fun hno => ⟨hlt, fun hz => hf.root_hole hlt hz hno⟩, fun h => hf.noHoles hlt h.2⟩
  · refine iff_of_false ?_ (fun h => hlt h.1)
    exact (main_spill (not_le.mp hlt)).of_run_ok (mkfs_eq_ok.mp hm)

namespace Finished

variable {m : Image} {fs : List HostFile} {st : Store}

lemma mount_sb (h : Finished m fs st) : m.mount.sb = mkfsSb := by
  rw [Image.mount]
  simp only [h.super]
  decide +kernel

lemma mount_inode (h : Finished m fs st) (i : ℕ) : m.mount.inode i = m.inode i := by
  rw [Image.inode, Store.inode, Store.inode, h.mount_sb]
  rfl

lemma type_eq (h : Finished m fs st) {i : ℕ} (h0 : 0 < i) (hi : i < fs.length + 2) (hlt : i < islots) :
    (m.inode i).type = kind i := by
  rw [h.inode i hlt, ← (h.keeps i h0 hi).type]
  split_ifs <;> rfl

lemma full (hno : m.NoHoles) {i : ℕ} (h0 : 0 < i) (hi : i < m.freeinode) :
    Full m.disk (m.inode i) (m.inode i).size.toNat ∧ (m.inode i).size.toNat ≤ MAXFILE * BSIZE := by
  have hB : BSIZE = 512 := rfl
  refine ⟨fun p hp => hno i h0 hi _ ?_, ?_⟩
  · rw [hB]
    omega
  · by_contra hbig
    refine hno i h0 hi MAXFILE ?_ (slotAddr_past _ _)
    rw [hB] at hbig ⊢
    omega

end Finished

theorem mkfs_no_holes_iff {files : List HostFile} {m : Image} (hm : mkfs files = .ok m) :
    (m.NoHoles ↔ files.length + 2 ≤ islots ∧ (files.length + 2) % (BSIZE / DIRENT) ≠ 0) ∧
    (m.NoHoles →
      (∀ i, 0 < i → i < m.freeinode → ∀ off n, Spec (readi (m.mount.inode i) off n) m.mount
        (fun _ st => st = m.mount) (fun _ => False)) ∧
      ∀ fs name, fs.store = m.mount → Locked fs ROOTINO (m.mount.inode ROOTINO) →
        Spec ((Sys.dirlookup ROOTINO name).run handler) fs (fun _ fs' => fs'.store = m.mount)
          (fun e => e = .panic .igetNoInodes)) := by
  refine ⟨noHoles_iff hm, fun hno => ?_⟩
  have hlt := ((noHoles_iff hm).mp hno).1
  obtain ⟨st, hf⟩ := Finished.of_mkfs hm hlt
  have hino := hf.freeinode
  refine ⟨fun i h0 hi off n => ?_, fun fs name hfs hlock => ?_⟩
  · rw [hf.mount_inode]
    obtain ⟨hfull, hsize⟩ : Full m.mount.disk (m.inode i) _ ∧ _ := Finished.full hno h0 hi
    have hdev : (m.inode i).type ≠ T_DEV := by
      rw [hf.type_eq h0 (by omega) (by omega)]
      exact kind_ne_dev i
    exact (readi_spec off n hdev hfull hsize _).imp fun _ _ hr => hr.2.1
  · rw [hf.mount_inode] at hlock
    have hroot : ROOTINO < m.freeinode := by rw [hino]; simp only [ROOTINO]; omega
    have hfull := Finished.full hno (by decide) hroot
    have htype := hf.type_eq (i := ROOTINO) (by decide) (by omega) (by decide)
    rw [← hfs]
    refine dirlookup_store name hlock htype hfull.2 ?_ (by rw [hfs]; exact hfull.1)
    rw [hf.root_size hlt, show BSIZE = 32 * DIRENT from rfl, ← Nat.mul_assoc]
    exact Nat.mul_mod_left _ _

def letters : List HostFile :=
  (List.finRange 30).map fun k => ⟨[97 + UInt8.ofNat k.val], by decide +revert, []⟩

lemma letters_succeed (n : ℕ) :
    ∃ m st, mkfs (letters.take n) = .ok m ∧ Finished m (letters.take n) st := by
  have hlen : (letters.take n).length ≤ 30 := List.length_take_le' n letters
  refine exists_finished ((Nat.add_le_add_right hlen 2).trans (by decide)) ?_
  rintro e (⟨-, f, hf, hbad⟩ | ⟨-, hbig⟩ | ⟨-, hbig⟩)
  · have hok : ∀ f ∈ letters, ¬ (SLASH ∈ f.name ∨ MAXFILE * BSIZE < f.bytes.length) := by decide
    exact hok f (List.mem_of_mem_take hf) hbad
  · simp only [DIRENT, MAXFILE, NDIRECT, NINDIRECT, BSIZE] at hbig
    omega
  · have hsum : ((letters.take n).map fun f => nblocks f.bytes.length).sum = 0 := by
      have hz : ∀ f ∈ letters, nblocks f.bytes.length = 0 := by decide
      refine List.sum_eq_zero fun x hx => ?_
      obtain ⟨f, hf, rfl⟩ := List.mem_map.mp hx
      exact hz f (List.mem_of_mem_take hf)
    have hn : nmeta = 59 := rfl
    rw [cost, hsum, hn, nblocks] at hbig
    simp only [DIRENT, FSSIZE, BSIZE, NDIRECT] at hbig
    split_ifs at hbig <;> omega

theorem mkfs_no_holes_29 : ∃ m, mkfs (letters.take 29) = .ok m ∧ m.NoHoles ∧
    ∀ i, 0 < i → i < m.freeinode → ∀ off n, Spec (readi (m.mount.inode i) off n) m.mount
      (fun _ st => st = m.mount) (fun _ => False) := by
  obtain ⟨m, -, hm, -⟩ := letters_succeed 29
  have hno := (mkfs_no_holes_iff hm).1.mpr ⟨by decide, by decide⟩
  exact ⟨m, hm, hno, ((mkfs_no_holes_iff hm).2 hno).1⟩

theorem mkfs_thirty_hole : ∃ m, mkfs letters = .ok m ∧ ¬ m.NoHoles ∧
    (m.inode ROOTINO).size.toNat = 2 * BSIZE ∧ slotAddr m.disk (m.inode ROOTINO) (dataSlot 1) = 0 := by
  obtain ⟨m, st, hm, hf⟩ := letters_succeed 30
  exact ⟨m, hm, hf.root_hole (by decide) (by decide), hf.root_size (by decide), hf.root_slot_eq_zero
    (by decide) (by decide)⟩

end Xv6.Mkfs
