import Xv6.Fs.Entries
import Xv6.Mkfs.Build

namespace Xv6.Mkfs

open Lib Fs

def entries (fs : List HostFile) : List UInt8 :=
  (dirent ROOTINO DOT).toBytes ++ (dirent ROOTINO DOTDOT).toBytes ++
    (fs.zipIdx 2).flatMap (fun p => (dirent p.2 p.1.target).toBytes)

def layout (fs : List HostFile) (i : ℕ) : List UInt8 :=
  if i = ROOTINO then entries fs else (fs[i - 2]?.map HostFile.bytes).getD []

def cost (fs : List HostFile) : ℕ :=
  nmeta + nblocks (DIRENT * (fs.length + 2)) + (fs.map (fun f => nblocks f.bytes.length)).sum

lemma length_dirent (i : ℕ) (name : List UInt8) : (dirent i name).toBytes.length = DIRENT :=
  Dirent.length_toBytes (length_strncpy ..)

lemma entries_append (fs : List HostFile) (f : HostFile) :
    entries (fs ++ [f]) = entries fs ++ (dirent (fs.length + 2) f.target).toBytes := by
  simp only [entries, List.zipIdx_append, List.flatMap_append, List.append_assoc]
  simp [Nat.add_comm]

lemma length_entries (fs : List HostFile) : (entries fs).length = DIRENT * (fs.length + 2) := by
  induction fs using List.reverseRecOn with
  | nil => simp [entries, length_dirent, Nat.mul_two]
  | append_singleton fs f ih =>
    rw [entries_append, List.length_append, ih, length_dirent, List.length_append, List.length_singleton]
    ring

lemma layout_root (fs : List HostFile) : layout fs ROOTINO = entries fs := if_pos rfl

lemma layout_file {fs : List HostFile} {k : ℕ} {f : HostFile} (h : fs[k]? = some f) :
    layout fs (k + 2) = f.bytes := by
  rw [layout, if_neg (by simp only [ROOTINO]; omega), Nat.add_sub_cancel, h]
  rfl

lemma layout_append (fs : List HostFile) (f : HostFile) {i : ℕ} (hi : i ≠ ROOTINO) (h0 : 0 < i)
    (hn : i ≠ fs.length + 2) : layout (fs ++ [f]) i = layout fs i := by
  simp only [ROOTINO] at hi
  rw [layout, layout, if_neg hi, if_neg hi, List.getElem?_append]
  split_ifs with hlt
  · rfl
  · rw [List.getElem?_eq_none (l := fs) (by omega), List.getElem?_eq_none
      (by simp only [List.length_singleton]; omega)]

lemma cost_append (fs gs : List HostFile) : cost fs ≤ cost (fs ++ gs) := by
  have : nblocks (DIRENT * (fs.length + 2)) ≤ nblocks (DIRENT * ((fs ++ gs).length + 2)) := by
    apply nblocks_mono
    rw [List.length_append]
    exact Nat.mul_le_mul_left _ (by omega)
  simp only [cost, List.map_append, List.sum_append]
  omega

lemma cost_snoc (fs : List HostFile) (f : HostFile) :
    cost (fs ++ [f]) + nblocks (DIRENT * (fs.length + 2)) =
      cost fs + nblocks (DIRENT * (fs.length + 2) + DIRENT) + nblocks f.bytes.length := by
  have he : DIRENT * ((fs ++ [f]).length + 2) = DIRENT * (fs.length + 2) + DIRENT := by
    rw [List.length_append, List.length_singleton]
    ring
  simp only [cost, he, List.map_append, List.sum_append, List.map_singleton, List.sum_singleton]
  omega

def Rejects (fs : List HostFile) (e : Exit) : Prop :=
  (e = .assertion ∧ ∃ f ∈ fs, SLASH ∈ f.name ∨ MAXFILE * BSIZE < f.bytes.length) ∨
  (e = .assertion ∧ MAXFILE * BSIZE < DIRENT * (fs.length + 2)) ∨
  (e = .read ∧ FSSIZE < cost fs)

lemma Rejects.append {fs gs : List HostFile} {e : Exit} (h : Rejects fs e) : Rejects (fs ++ gs) e := by
  rcases h with ⟨he, f, hf, hbad⟩ | ⟨he, hbig⟩ | ⟨he, hfull⟩
  · exact .inl ⟨he, f, List.mem_append_left _ hf, hbad⟩
  · refine .inr (.inl ⟨he, hbig.trans_le (Nat.mul_le_mul_left _ ?_)⟩)
    rw [List.length_append]
    omega
  · exact .inr (.inr ⟨he, hfull.trans_le (cost_append fs gs)⟩)

structure Made (m : Image) (fs : List HostFile) : Prop where
  built : ∃ st, Built m st (layout fs)
  freeinode : m.freeinode = fs.length + 2
  freeblock : m.freeblock = cost fs

section

variable {m : Image} {d : ℕ → List UInt8}

lemma Built.congr {st : Store} {d' : ℕ → List UInt8} (h : Built m st d)
    (hd : ∀ i, 0 < i → i < m.freeinode → d' i = d i) : Built m st d' := by
  refine ⟨h.mirrors, h.wf, h.le, fun i h0 hi => ?_, h.free⟩
  rw [hd i h0 hi]
  exact h.keeps i h0 hi

lemma copyLoop_spec {st : Store} {i : ℕ} (h : Built m st d) (h0 : 0 < i) (hi : i < m.freeinode)
    (cs : List Chunk) : Spec (copyLoop i cs) m
      (fun _ m' => (∃ st', Built m' st' (assign d i (d i ++ cs.flatMap Chunk.bytes))) ∧
      m'.freeinode = m.freeinode ∧
        m'.freeblock + nblocks (d i).length = m.freeblock + nblocks
        (d i ++ cs.flatMap Chunk.bytes).length)
      (Stops m (d i).length (cs.flatMap Chunk.bytes).length) := by
  induction cs generalizing m d st with
  | nil =>
    refine ⟨⟨st, ?_⟩, rfl, ?_⟩
    · rw [List.flatMap_nil, List.append_nil, assign_eq_self rfl]
      exact h
    · rw [List.flatMap_nil, List.append_nil]
  | cons c cs ih =>
    have hlen : ((c :: cs).flatMap Chunk.bytes).length =
      c.bytes.length + (cs.flatMap Chunk.bytes).length := by
      rw [List.flatMap_cons, List.length_append]
    unfold copyLoop
    apply Spec.bind
    refine (h.iappend h0 hi c.ne_nil).mono ?_ ?_
    · rintro ⟨⟩ m' ⟨⟨st', h'⟩, hino, hfb⟩
      have hrec := ih h' (by rwa [hino])
      rw [assign_self, assign_assign, List.append_assoc, ← List.flatMap_cons] at hrec
      rw [List.length_append] at hfb
      refine hrec.mono ?_ ?_
      · rintro ⟨⟩ m'' ⟨hst, hino', hfb'⟩
        refine ⟨hst, hino'.trans hino, ?_⟩
        rw [List.length_append] at hfb'
        omega
      · rintro e (⟨he, hbig⟩ | ⟨he, hfull⟩)
        · rw [List.length_append] at hbig
          exact .inl ⟨he, by omega⟩
        · rw [List.length_append, Nat.add_assoc, ← hlen] at hfull
          exact .inr ⟨he, by omega⟩
    · rintro e (⟨he, hbig⟩ | ⟨he, hfull⟩)
      · exact .inl ⟨he, by omega⟩
      · have := nblocks_mono (show (d i).length + c.bytes.length ≤ (d i).length + ((c :: cs).flatMap
          Chunk.bytes).length by omega)
        exact .inr ⟨he, by omega⟩

end

namespace Made

variable {m : Image} {fs : List HostFile}

lemma addFile (h : Made m fs) (hlt : fs.length + 2 < islots) (f : HostFile) :
    Spec (addFile ROOTINO f) m (fun _ m' => Made m' (fs ++ [f])) (Rejects (fs ++ [f])) := by
  obtain ⟨⟨st, hb⟩, hino, hfb⟩ := h
  have hcost := cost_snoc fs f
  have hlen := length_entries fs
  have hkind : T_FILE = kind m.freeinode := by
    rw [kind, if_neg]
    simp only [hino, ROOTINO]
    omega
  unfold Mkfs.addFile
  apply Spec.bind
  refine assert_spec (fun _ => ?_) (fun hs => .inl ⟨rfl, f, by simp, .inl (not_not.mp hs)⟩)
  apply Spec.bind
  refine (hb.ialloc (by rwa [hino]) hkind).mono ?_ (fun _ he => he.elim)
  rintro i m1 ⟨hi, ⟨st1, h1⟩, hino1, hfb1⟩
  rw [hino] at hi
  have hroot : (assign (layout fs) i [] : ℕ → List UInt8) ROOTINO = entries fs := by
    rw [assign_of_ne (by simp only [ROOTINO]; omega), layout_root]
  have hmono := nblocks_mono (show DIRENT * (fs.length + 2) ≤ DIRENT * (fs.length + 2) + DIRENT by omega)
  apply Spec.bind
  refine (h1.iappend (i := ROOTINO) (p := (dirent i f.target).toBytes) (by decide)
    (by simp only [ROOTINO]; omega)
    (List.ne_nil_of_length_pos (by rw [length_dirent]; decide))).mono ?_ ?_
  · rintro ⟨⟩ m2 ⟨⟨st2, h2⟩, hino2, hfb2⟩
    rw [hroot] at h2 hfb2
    rw [List.length_append, length_dirent, hlen] at hfb2
    have hnew : assign (assign (layout fs) i []) ROOTINO
      (entries fs ++ (dirent i f.target).toBytes) i = [] := by
      rw [assign_of_ne (by simp only [ROOTINO]; omega), assign_self]
    refine (copyLoop_spec h2 (i := i) (by omega) (by omega) f.chunks).mono ?_ ?_
    · rintro ⟨⟩ m3 ⟨⟨st3, h3⟩, hino3, hfb3⟩
      rw [hnew, List.nil_append] at h3 hfb3
      rw [List.length_nil, nblocks_zero, Nat.add_zero] at hfb3
      refine ⟨⟨st3, h3.congr (fun j hj0 hj => ?_)⟩, ?_, ?_⟩
      · by_cases hji : j = i
        · subst hji
          rw [assign_self, hi]
          exact layout_file (by simp)
        rw [assign_of_ne hji]
        by_cases hjr : j = ROOTINO
        · rw [hjr, assign_self, layout_root, entries_append, hi]
        · rw [assign_of_ne hjr, assign_of_ne hji]
          exact layout_append fs f hjr hj0 (by omega)
      · rw [List.length_append, List.length_singleton]
        omega
      · have : (f.chunks.flatMap Chunk.bytes).length = f.bytes.length := rfl
        rw [this] at hfb3
        omega
    · rintro e (⟨he, hbig⟩ | ⟨he, hfull⟩)
      · rw [hnew, List.length_nil, Nat.zero_add] at hbig
        exact .inl ⟨he, f, by simp, .inr hbig⟩
      · rw [hnew, List.length_nil, Nat.zero_add, nblocks_zero] at hfull
        have : (f.chunks.flatMap Chunk.bytes).length = f.bytes.length := rfl
        rw [this] at hfull
        exact .inr (.inr ⟨he, by omega⟩)
  · rw [hroot, hlen, length_dirent]
    rintro e (⟨he, hbig⟩ | ⟨he, hfull⟩)
    · refine .inr (.inl ⟨he, ?_⟩)
      rw [List.length_append, List.length_singleton]
      simp only [DIRENT] at hbig ⊢
      omega
    · exact .inr (.inr ⟨he, by omega⟩)

lemma addFiles (h : Made m fs) (gs : List HostFile) (hlt : (fs ++ gs).length + 2 ≤ islots) :
    Spec (addFiles ROOTINO gs) m (fun _ m' => Made m' (fs ++ gs)) (Rejects (fs ++ gs)) := by
  induction gs generalizing m fs with
  | nil =>
    rw [List.append_nil]
    exact h
  | cons g gs ih =>
    have happ : fs ++ g :: gs = fs ++ [g] ++ gs := by simp
    rw [happ] at hlt ⊢
    unfold Mkfs.addFiles
    apply Spec.bind
    refine (h.addFile (by simp only [List.length_append, List.length_singleton] at hlt; omega) g).mono ?_
      (fun e he => he.append)
    rintro ⟨⟩ m' h'
    exact ih h' hlt

end Made

def blank : Image := ⟨assign (fun _ => Block.zero) 1 mkfsSb.toBlock, FSSIZE, 1, nmeta⟩

def blankStore : Store where
  sb := mirrorSb
  disk := assign (assign (fun _ => Block.zero) 1 mirrorSb.toBlock) mirrorSb.bmapstart (usedBits nmeta)
  logged := []

lemma zeroLoop_spec {n : ℕ} (hn : n ≤ FSSIZE) (B : Exit → Prop) :
    Spec (zeroLoop n) start (fun _ m => m = { start with len := n }) B := by
  induction n with
  | zero => exact rfl
  | succ n ih =>
    unfold zeroLoop
    apply Spec.bind
    refine (ih (by omega)).imp ?_
    rintro ⟨⟩ m rfl
    have hs : sector n = n := sector_of_lt (lt_of_lt_of_le hn (by decide))
    have hz : assign start.disk n Block.zero = start.disk := assign_eq_self rfl
    apply Spec.modify
    rw [hs]
    simp only [hz]
    rw [max_eq_right (Nat.le_succ n)]

-- the run of a closed program is not to be evaluated
attribute [local irreducible] zeroLoop

lemma blankStore_inode {i : ℕ} (hi : i < islots) : blankStore.inode i = Dinode.zero := by
  have hib := mirrorSb_ordered.iblock_lt (i := i) hi
  have h1 : mirrorSb.iblock i ≠ 1 := by omega
  have hb : mirrorSb.iblock i ≠ mirrorSb.bmapstart := by omega
  rw [Store.inode, show blankStore.sb = mirrorSb from rfl, blankStore]
  simp only [assign_of_ne hb, assign_of_ne h1]
  exact Dinode.get_zero _

lemma blankStore_bit {b : ℕ} (hb : b < FSSIZE) : blankStore.bit b = decide (b < nmeta) := by
  have hb' : b < BPB := hb.trans (by decide)
  have hblock : mirrorSb.bblock b = mirrorSb.bmapstart := by
    rw [Superblock.bblock, Nat.div_eq_of_lt hb', Nat.zero_add]
  rw [Store.bit, show blankStore.sb = mirrorSb from rfl, hblock, Nat.mod_eq_of_lt hb', blankStore]
  simp only [assign_self]
  exact usedBits_bit hb'

lemma blank_built (d : ℕ → List UInt8) : Built blank blankStore d where
  mirrors := by
    have hn : nmeta = 59 := rfl
    have hbm : mirrorSb.bmapstart = 58 := rfl
    refine ⟨rfl, rfl, rfl, fun i hi => ?_, fun c hc => ?_, fun b hb => blankStore_bit hb,
      fun c hc _ => ?_, le_rfl, by decide⟩
    · rw [blankStore_inode hi]
      have hib := (mkfsSb_iblock_lt hi).1
      rw [Image.inode, Store.inode, blank]
      simp only [assign_of_ne hib.ne']
      exact (Dinode.get_zero _).symm
    · have h1 : c ≠ 1 := by omega
      have hb : c ≠ mirrorSb.bmapstart := by omega
      simp only [blankStore, blank, assign_of_ne hb, assign_of_ne h1]
    · have h1 : c ≠ 1 := by
        have hc' : nmeta ≤ c := hc
        omega
      simp only [blank, assign_of_ne h1]
  wf := by
    have href : ∀ i < islots, ∀ s, ref blankStore.disk blankStore.inode i s = 0 := by
      intro i hi s
      rw [ref, blankStore_inode hi]
      exact if_pos rfl
    refine ⟨⟨by decide +kernel, mirrorSb_ordered, ?_⟩, fun i hi ht => ?_⟩
    · refine ⟨fun i hi s _ hr => absurd (href i hi s) hr, fun i hi s _ j _ t _ hr => absurd
        (href i hi s) hr, fun b hb => ?_⟩
      rw [blankStore_bit hb, decide_eq_true_eq]
      refine ⟨.inl, ?_⟩
      rintro (hlt | ⟨i, hi, s, -, rfl⟩)
      · exact hlt
      · rw [href i hi s]
        decide
    · rw [blankStore_inode hi] at ht
      exact absurd rfl ht
  le := by decide
  keeps i h0 hi := by
    have : i < 1 := hi
    omega
  free i _ hi := by rw [blankStore_inode hi]; rfl

lemma makeRoot_spec : Spec makeRoot start (fun r m => r = ROOTINO ∧ Made m []) (fun _ => False) := by
  have hlen : ∀ name, (dirent ROOTINO name).toBytes ≠ [] :=
    fun name => List.ne_nil_of_length_pos (by rw [length_dirent]; decide)
  unfold makeRoot
  refine Spec.bind ((zeroLoop_spec le_rfl _).imp ?_)
  rintro ⟨⟩ m rfl
  apply Spec.bind
  refine wsect_spec rfl (by decide) ?_
  rw [show ({ start with len := FSSIZE } : Image).put 1 mkfsSb.toBlock = blank from rfl]
  apply Spec.bind
  refine ((blank_built (fun _ => [])).ialloc (by decide) (by decide)).imp ?_
  rintro i m1 ⟨rfl, ⟨st1, h1⟩, hino1, hfb1⟩
  rw [show blank.freeinode = ROOTINO from rfl] at *
  apply Spec.bind
  refine assert_spec (fun _ => ?_) (fun hne => absurd rfl hne)
  apply Spec.bind
  refine (h1.iappend (i := ROOTINO) (by decide) (by rw [hino1]; decide) (hlen DOT)).mono ?_ ?_
  swap
  · rw [assign_self, length_dirent]
    rintro e (⟨-, hbig⟩ | ⟨-, hfull⟩)
    · exact absurd hbig (by decide)
    · rw [hfb1] at hfull
      exact absurd hfull (by decide)
  rintro ⟨⟩ m2 ⟨⟨st2, h2⟩, hino2, hfb2⟩
  rw [assign_self, List.nil_append, assign_assign] at h2
  rw [assign_self, List.nil_append, length_dirent, hfb1] at hfb2
  have hfb : m2.freeblock = nmeta + 1 := hfb2
  apply Spec.bind
  refine (h2.iappend (i := ROOTINO) (by decide) (by rw [hino2, hino1]; decide) (hlen DOTDOT)).mono ?_ ?_
  swap
  · rw [assign_self, length_dirent, length_dirent]
    rintro e (⟨-, hbig⟩ | ⟨-, hfull⟩)
    · exact absurd hbig (by decide)
    · rw [hfb] at hfull
      exact absurd hfull (by decide)
  rintro ⟨⟩ m3 ⟨⟨st3, h3⟩, hino3, hfb3⟩
  rw [assign_self] at h3 hfb3
  rw [List.length_append, length_dirent, length_dirent, hfb] at hfb3
  have hino : m3.freeinode = 2 := by rw [hino3, hino2, hino1]
  refine Spec.pure ⟨rfl, ⟨st3, h3.congr (fun i h0 hi => ?_)⟩, hino, ?_⟩
  · obtain rfl : i = ROOTINO := by
      simp only [ROOTINO]
      omega
    rw [assign_self, layout_root]
    exact List.append_nil _
  · have h16 : nblocks DIRENT = 1 := by decide
    have h32 : nblocks (DIRENT + DIRENT) = 1 := by decide
    have hcost : cost [] = nmeta + 1 := by decide
    omega

structure Finished (m : Image) (fs : List HostFile) (st : Store) : Prop where
  freeinode : m.freeinode = fs.length + 2
  freeblock : m.freeblock = cost fs
  super : m.disk 1 = mkfsSb.toBlock
  wf : Wf st
  sb : st.sb = mirrorSb
  keeps : ∀ i, 0 < i → i < fs.length + 2 → Keeps st i (layout fs i)
  free : ∀ i, fs.length + 2 ≤ i → i < islots → (st.inode i).type = 0
  data : ∀ c, nmeta ≤ c → st.disk c = m.disk c
  inode : ∀ i < islots, m.inode i = if i = ROOTINO then
    { st.inode i with size := UInt32.ofNat (((entries fs).length / BSIZE + 1) * BSIZE) } else st.inode i
  bitmap : m.disk mkfsSb.bmapstart = usedBits (cost fs)
  bit : ∀ b < FSSIZE, st.bit b = decide (b < cost fs)

lemma Made.finish {m : Image} {fs : List HostFile} (h : Made m fs) :
    Spec (finish ROOTINO) m (fun _ m' => ∃ st, Finished m' fs st) (fun _ => False) := by
  obtain ⟨⟨st, hb⟩, hino, hfb⟩ := h
  have hmir := hb.mirrors
  have hroot : ROOTINO < islots := by decide
  have hk := hb.keeps ROOTINO (by decide) (by rw [hino]; simp only [ROOTINO]; omega)
  have hsize := hk.size
  rw [layout_root] at hsize
  have hib := mkfsSb_iblock_lt hroot
  have hbm : mkfsSb.bmapstart = 58 := rfl
  have hnm : nmeta = 59 := rfl
  unfold Mkfs.finish
  apply Spec.bind
  refine rinode_spec hmir.len hroot ?_
  rw [← hmir.inode _ hroot, xint_toNat, hsize]
  apply Spec.bind
  refine winode_spec hmir.len hroot ?_
  rw [ofNat_xint]
  set ip : Dinode := { st.inode ROOTINO with
    size := UInt32.ofNat (((entries fs).length / BSIZE + 1) * BSIZE) } with hip
  have hupd := hmir.update hroot ip
  set m1 := m.put (mkfsSb.iblock ROOTINO)
    (Dinode.put (m.disk (mkfsSb.iblock ROOTINO)) (ROOTINO % IPB) ip) with hm1
  have hfb1 : m1.freeblock = cost fs := hfb
  apply Spec.bind
  apply Spec.get
  unfold Mkfs.balloc
  apply Spec.bind
  refine assert_spec (fun _ => ?_) (fun hbig => hbig (hupd.hi.trans_lt (by decide)))
  refine wsect_spec hupd.len (by decide) ?_
  have hdisk : ∀ c, c ≠ mkfsSb.bmapstart →
    (m1.put mkfsSb.bmapstart (usedBits m1.freeblock)).disk c = m1.disk c :=
    fun c hc => m1.put_disk_ne hc _
  refine ⟨st, hino, hfb, ?_, hb.wf, hmir.sb, fun i h0 hi => hb.keeps i h0 (by rwa [hino]),
    fun i hi hlt => hb.free i (by rwa [hino]) hlt, fun c hc => ?_, fun i hi => ?_, ?_, fun b hb' => ?_⟩
  · rw [hdisk 1 (by omega)]
    exact hupd.super
  · rw [hdisk c (by omega), hm1, m.put_disk_ne (by omega)]
    exact hmir.data c hc
  · have hlt := (mkfsSb_iblock_lt hi).2
    have h1 : (m1.put mkfsSb.bmapstart (usedBits m1.freeblock)).inode i = m1.inode i := by
      rw [Image.inode, Image.inode, Store.inode, Store.inode]
      simp only
      rw [hdisk _ hlt.ne]
    rw [h1, ← hupd.inode i hi, st.inode_update]
    split_ifs with he
    · rw [he]
    · rfl
  · rw [m1.put_disk_self, hfb1]
  · rw [hmir.bit b hb', hfb]

lemma main_spec (fs : List HostFile) (h : fs.length + 2 ≤ islots) :
    Spec (main fs) start (fun _ m => ∃ st, Finished m fs st) (Rejects fs) := by
  unfold main
  refine Spec.bind (makeRoot_spec.mono ?_ (fun _ he => he.elim))
  rintro r m ⟨rfl, hm⟩
  apply Spec.bind
  refine (hm.addFiles fs h).imp ?_
  rintro ⟨⟩ m' hm'
  exact hm'.finish.mono (fun _ _ hf => hf) (fun _ he => he.elim)

lemma mkfs_eq_ok {fs : List HostFile} {m : Image} :
    mkfs fs = .ok m ↔ (main fs).run start = .ok (⟨⟩, m) := by
  unfold mkfs
  cases h : (main fs).run start with
  | error e => simp
  | ok r => simp [Prod.ext_iff]

lemma Finished.of_mkfs {fs : List HostFile} {m : Image} (hm : mkfs fs = .ok m)
    (h : fs.length + 2 ≤ islots) : ∃ st, Finished m fs st :=
  (main_spec fs h).of_run_ok (mkfs_eq_ok.mp hm)

lemma exists_finished {fs : List HostFile} (h : fs.length + 2 ≤ islots) (hok : ∀ e, ¬ Rejects fs e) :
    ∃ m st, mkfs fs = .ok m ∧ Finished m fs st := by
  have hs := main_spec fs h
  obtain ⟨⟨⟩, m, hrun, st, hf⟩ := hs.run_ok (hs.mono (fun _ _ hq => hq) (fun e he => hok e he))
  exact ⟨m, st, mkfs_eq_ok.mpr hrun, hf⟩

end Xv6.Mkfs
