import Mathlib.Data.List.TakeWhile
import Xv6.Mkfs.Holes

namespace Xv6.Mkfs

open Lib Fs

def dirents (fs : List HostFile) : List Dirent :=
  dirent ROOTINO DOT :: dirent ROOTINO DOTDOT :: (fs.zipIdx 2).map fun p => dirent p.2 p.1.target

lemma entries_eq (fs : List HostFile) : entries fs = (dirents fs).flatMap Dirent.toBytes := by
  simp only [entries, dirents, List.flatMap_cons, List.flatMap_map, List.append_assoc]

lemma slot_flatMap {l : List Dirent} (hl : ∀ de ∈ l, de.name.length = DIRSIZ) {k : ℕ} {de : Dirent}
    (h : l[k]? = some de) : slot (l.flatMap Dirent.toBytes) k = de := by
  induction l generalizing k with
  | nil => simp at h
  | cons a l ih =>
    have ha : a.toBytes.length = DIRENT := Dirent.length_toBytes (hl a List.mem_cons_self)
    rw [slot, List.flatMap_cons]
    cases k with
    | zero =>
      obtain rfl : a = de := by simpa using h
      rw [Nat.mul_zero, List.drop_zero, ← ha, List.take_left, Dirent.ofBytes_toBytes]
    | succ k =>
      rw [Nat.mul_succ, Nat.add_comm, ← ha, List.drop_append, Nat.add_sub_cancel_left,
        List.drop_eq_nil_of_le (by omega), List.nil_append, ha]
      exact ih (fun de hde => hl de (List.mem_cons_of_mem _ hde)) (by simpa using h)

lemma slot_entries {fs : List HostFile} {k : ℕ} {de : Dirent} (h : (dirents fs)[k]? = some de) :
    slot (entries fs) k = de := by
  rw [entries_eq]
  refine slot_flatMap (fun de hde => ?_) h
  simp only [dirents, List.mem_cons, List.mem_map] at hde
  rcases hde with rfl | rfl | ⟨p, -, rfl⟩ <;> exact length_strncpy ..

lemma dirents_file {fs : List HostFile} {k : ℕ} {f : HostFile} (h : fs[k]? = some f) :
    (dirents fs)[k + 2]? = some (dirent (k + 2) f.target) := by
  simp [dirents, h, Nat.add_comm]

lemma xshort_toNat {i : ℕ} (h : i < 2 ^ 16) : (xshort i).toNat = i := by
  rw [xshort, LittleEndian.value_digit, show 256 ^ 2 = 2 ^ 16 from rfl, Nat.mod_eq_of_lt h]
  exact UInt16.toNat_ofNat_of_lt' h

def HostFile.short (f : HostFile) : List UInt8 := f.target.take DIRSIZ

lemma cstr_of_nul {n : ℕ} {t : List UInt8} (h : 0 ∉ t) : cstr n t = t.take n := by
  rw [cstr, List.takeWhile_eq_self_iff]
  intro a ha
  rw [bne_iff_ne]
  rintro rfl
  exact h (List.mem_of_mem_take ha)

lemma HostFile.cstr_target (f : HostFile) : cstr DIRSIZ f.target = f.short := by
  refine cstr_of_nul fun h => f.nul ?_
  rw [HostFile.target] at h
  split_ifs at h
  · exact List.mem_of_mem_tail h
  · exact h

lemma ref_size {disk : Disk} {v w : ℕ → Dinode} {i s : ℕ} {n : UInt32}
    (h : v i = { w i with size := n }) : ref disk v i s = ref disk w i s := by
  rw [ref, ref, h, slotAddr_size]

namespace Finished

variable {m : Image} {fs : List HostFile} {st : Store}

section

variable (h : Finished m fs st)
include h

lemma ref_eq {i s : ℕ} (hi : i < islots) : ref m.disk m.inode i s = ref st.disk st.inode i s := by
  have hin : i < st.sb.ninodes := by rw [h.sb]; exact hi
  have hframe : ref m.disk st.inode i s = ref st.disk st.inode i s :=
    h.wf.holds.ref_frame hin fun c hc _ _ => (h.data c (by rw [h.sb] at hc; exact hc)).symm
  rw [← hframe]
  by_cases hr : i = ROOTINO
  · have he := h.inode i hi
    rw [if_pos hr] at he
    exact ref_size he
  · rw [ref, ref, h.inode i hi, if_neg hr]

lemma mount_bit {b : ℕ} (hb : b < FSSIZE) : m.mount.bit b = decide (b < cost fs) := by
  have hbb : b < BPB := hb.trans (by decide)
  rw [Store.bit, h.mount_sb, Superblock.bblock, Nat.div_eq_of_lt hbb, Nat.mod_eq_of_lt hbb, Nat.zero_add]
  exact (congrArg (Block.bit · b) h.bitmap).trans (usedBits_bit hbb)

lemma ledger (hfs : fs.length + 2 ≤ NINODES) :
    Ledger nmeta FSSIZE NINODES NSLOT (ref m.mount.disk m.mount.inode) m.mount.bit := by
  have hl := h.wf.holds.ledger
  rw [h.sb] at hl
  have hle : NINODES ≤ islots := by decide
  have href : ∀ i < NINODES, ∀ s, ref m.mount.disk m.mount.inode i s = ref st.disk st.inode i s := by
    intro i hi s
    rw [← h.ref_eq (hi.trans_le hle), ref, h.mount_inode]
    rfl
  refine ⟨fun i hi s hs => ?_, fun i hi s hs j hj t ht => ?_, fun b hb => ?_⟩
  · rw [href i hi]
    exact hl.range i (hi.trans_le hle) s hs
  · rw [href i hi, href j hj]
    exact hl.inj i (hi.trans_le hle) s hs j (hj.trans_le hle) t ht
  · rw [h.mount_bit hb, ← h.bit b hb, hl.bits b hb]
    refine ⟨?_, Or.imp_right ?_⟩
    · rintro (hlt | ⟨i, hi, s, hs, he⟩)
      · exact .inl hlt
      by_cases hin : i < NINODES
      · exact .inr ⟨i, hin, s, hs, by rw [href i hin, he]⟩
      · rw [ref, if_pos (h.free i (by omega) hi)] at he
        exact .inl (by rw [← he]; decide)
    · rintro ⟨i, hi, s, hs, he⟩
      exact ⟨i, hi.trans_le hle, s, hs, by rw [← href i hi, he]⟩

lemma byteAt_eq {i p : ℕ} (h0 : 0 < i) (hi : i < fs.length + 2) (hlt : i < islots)
    (hp : p < (layout fs i).length) : byteAt m.disk (m.inode i) p = (layout fs i).getD p 0 := by
  have hk := h.keeps i h0 hi
  have hin : i < st.sb.ninodes := by rw [h.sb]; exact hlt
  have hp' : p < (st.inode i).size.toNat := by rwa [hk.size]
  obtain ⟨hfull, hsize⟩ := h.wf.sized i hin hk.type_ne
  have hslot : dataSlot (p / BSIZE) < NSLOT := by
    apply dataSlot_lt
    have hB : BSIZE = 512 := rfl
    rw [hB] at hsize ⊢
    omega
  have hrange := h.wf.holds.slot_range hin hk.type_ne hslot (hfull p hp')
  rw [h.sb] at hrange
  rw [← hk.data, contents_getD _ _ hp', byteAt, byteAt, dataAt, dataAt, h.slotAddr_eq h0 hi hlt,
    h.data _ hrange.1]

lemma contents_take {i : ℕ} (h0 : 0 < i) (hi : i < fs.length + 2) (hlt : i < islots)
    (hle : (layout fs i).length ≤ (m.inode i).size.toNat) :
    (contents m.disk (m.inode i)).take (layout fs i).length = layout fs i := by
  have hlen : ((contents m.disk (m.inode i)).take (layout fs i).length).length =
    (layout fs i).length := by
    rw [List.length_take, contents_length, Nat.min_eq_left hle]
  refine List.ext_getElem hlen fun p h1 h2 => ?_
  have hb := h.byteAt_eq h0 hi hlt h2
  rw [← contents_getD _ _ (h2.trans_le hle) 0, List.getD_eq_getElem _ _ (by rw [contents_length]; omega),
    List.getD_eq_getElem _ _ h2] at hb
  rw [List.getElem_take, hb]

lemma full_layout {i : ℕ} (h0 : 0 < i) (hi : i < fs.length + 2) (hlt : i < islots) :
    Full m.disk (m.inode i) (layout fs i).length := by
  intro p hp
  have hle := h.layout_le h0 hi hlt
  have hB : BSIZE = 512 := rfl
  have hM : MAXFILE = 140 := rfl
  rw [hB, hM] at hle
  refine (h.slot_ne_zero h0 hi hlt ?_).mpr ?_ <;> rw [hB]
  · omega
  · omega

lemma root_slot (hlt : fs.length + 2 ≤ islots) {k : ℕ} {de : Dirent} (hk : (dirents fs)[k]? = some de) :
    slot (contents m.disk (m.inode ROOTINO)) k = de := by
  have hkn : k < fs.length + 2 := by
    have := (List.getElem?_eq_some_iff.mp hk).1
    simp only [dirents, List.length_cons, List.length_map, List.length_zipIdx] at this
    omega
  have hsize := h.root_size hlt
  have hlen := length_entries fs
  have hB : BSIZE = 512 := rfl
  have hD : DIRENT = 16 := rfl
  have htake := h.contents_take (i := ROOTINO) (by decide) (by simp only [ROOTINO]; omega) (by decide)
    (by rw [layout_root, hsize, hlen, hB, hD]; omega)
  rw [layout_root, hlen] at htake
  rw [← slot_entries hk, ← htake, slot, slot, List.drop_take, List.take_take, Nat.min_eq_left]
  rw [hD]
  omega

end

end Finished

structure Fits (files : List HostFile) : Prop where
  distinct : (files.map HostFile.short).Nodup
  dots : ∀ f ∈ files, f.short ≠ DOT ∧ f.short ≠ DOTDOT
  size : ∀ f ∈ files, f.bytes.length ≤ MAXFILE * BSIZE
  inodes : files.length + 2 ≤ NINODES
  blocks : cost files ≤ FSSIZE

structure Agrees (m : Image) (files : List HostFile) : Prop where
  found : ∀ k f, files[k]? = some f → ∀ fs name, namecmp name f.target = 0 → fs.store = m.mount →
    Locked fs ROOTINO (m.mount.inode ROOTINO) →
    Spec ((Sys.dirlookup ROOTINO name).run handler) fs
      (fun r fs' => r = some (k + 2, DIRENT * (k + 2)) ∧ fs'.store = m.mount)
      (fun e => e = .panic .igetNoInodes ∧ CacheFull fs (k + 2))
  read : ∀ k f, files[k]? = some f → (m.mount.inode (k + 2)).type = T_FILE ∧
    (m.mount.inode (k + 2)).size.toNat = f.bytes.length ∧
    ∀ off n : UInt32, Spec (readi (m.mount.inode (k + 2)) off n) m.mount
      (fun r st => st = m.mount ∧ r.1 = if off.toNat ≤ f.bytes.length ∧ off.toNat + n.toNat < 2 ^ 32
        then some ((f.bytes.drop off.toNat).take n.toNat) else none) (fun _ => False)
  once : ∀ i < NINODES, ∀ s < NSLOT, ∀ j < NINODES, ∀ t < NSLOT, ref m.mount.disk m.mount.inode i s ≠ 0 →
    ref m.mount.disk m.mount.inode i s = ref m.mount.disk m.mount.inode j t → i = j ∧ s = t
  bitmap : ∀ b < FSSIZE, m.mount.bit b = true ↔
    b < nmeta ∨ ∃ i < NINODES, ∃ s < NSLOT, ref m.mount.disk m.mount.inode i s = b

lemma dirents_cases (fs : List HostFile) {j : ℕ} (hj : j < fs.length + 2) :
    ∃ i t, (dirents fs)[j]? = some (dirent i t) ∧
    (t = DOT ∨ t = DOTDOT ∨ ∃ f, fs[j - 2]? = some f ∧ 2 ≤ j ∧ t = f.target) := by
  rcases j with _ | _ | j
  · exact ⟨_, _, rfl, .inl rfl⟩
  · exact ⟨_, _, rfl, .inr (.inl rfl)⟩
  · have hf : fs[j]? = some fs[j] := List.getElem?_eq_getElem (by omega)
    exact ⟨_, _, dirents_file hf, .inr (.inr ⟨_, hf, by omega, rfl⟩)⟩

namespace Finished

variable {m : Image} {files : List HostFile} {st : Store}

lemma hits_file (h : Finished m files st) (hfit : Fits files) {k : ℕ} {f : HostFile}
    (hf : files[k]? = some f) {name : List UInt8}
    (hname : namecmp name f.target = 0) : slot (contents m.disk (m.inode ROOTINO)) (k + 2) = dirent
    (k + 2) f.target ∧ Hits (contents m.disk (m.inode ROOTINO)) name (k + 2) ∧
      ∀ j < k + 2, ¬ Hits (contents m.disk (m.inode ROOTINO)) name j := by
  have hk := (List.getElem?_eq_some_iff.mp hf).1
  have hlt : files.length + 2 ≤ islots := hfit.inodes.trans (by decide)
  have hino : files.length + 2 ≤ 200 := hfit.inodes
  have hslot := h.root_slot hlt (dirents_file hf)
  refine ⟨hslot, ?_, fun j hj => ?_⟩
  · rw [Hits, hslot]
    refine ⟨fun h0 => ?_, (namecmp_strncpy ..).mpr hname⟩
    have := congrArg UInt16.toNat h0
    rw [show (dirent (k + 2) f.target).inum = xshort (k + 2) from rfl, xshort_toNat (by omega)] at this
    simp at this
  · obtain ⟨i, t, he, ht⟩ := dirents_cases files (j := j) (by omega)
    rw [Hits, h.root_slot hlt he]
    rintro ⟨-, hcmp⟩
    -- the two entries have the same name, cut to `DIRSIZ` bytes
    have hsame : cstr DIRSIZ t = f.short := by
      rw [← f.cstr_target, ← namecmp_eq_zero_iff.mp hname]
      exact (namecmp_eq_zero_iff.mp ((namecmp_strncpy ..).mp hcmp)).symm
    obtain ⟨hdot, hdotdot⟩ := hfit.dots f (List.mem_of_getElem? hf)
    rcases ht with rfl | rfl | ⟨g, hg, hj2, rfl⟩
    · exact hdot hsame.symm
    · exact hdotdot hsame.symm
    · rw [g.cstr_target] at hsame
      have hg' : (files.map HostFile.short)[j - 2]? = some f.short := by
        rw [List.getElem?_map, hg, ← hsame]; rfl
      have hf' : (files.map HostFile.short)[k]? = some f.short := by rw [List.getElem?_map, hf]; rfl
      have := (List.getElem?_inj (by rw [List.length_map]; omega) hfit.distinct).mp (hg'.trans hf'.symm)
      omega

lemma found (h : Finished m files st) (hfit : Fits files) {k : ℕ} {f : HostFile} (hf : files[k]? = some f)
    {fs : FsState} {name : List UInt8} (hname : namecmp name f.target = 0) (hfs : fs.store = m.mount)
    (hlock : Locked fs ROOTINO (m.mount.inode ROOTINO)) :
    Spec ((Sys.dirlookup ROOTINO name).run handler) fs
      (fun r fs' => r = some (k + 2, DIRENT * (k + 2)) ∧ fs'.store = m.mount)
      (fun e => e = .panic .igetNoInodes ∧ CacheFull fs (k + 2)) := by
  have hk := (List.getElem?_eq_some_iff.mp hf).1
  have hino : files.length + 2 ≤ 200 := hfit.inodes
  have hlt : files.length + 2 ≤ islots := hfit.inodes.trans (by decide)
  have hroot : ROOTINO < files.length + 2 := by simp only [ROOTINO]; omega
  have hD : DIRENT = 16 := rfl
  have hB : BSIZE = 512 := rfl
  have hM : MAXFILE = 140 := rfl
  obtain ⟨hslot, hhit, hfirst⟩ := h.hits_file hfit hf hname
  have hfull := h.full_layout (i := ROOTINO) (by decide) hroot (by decide)
  have hdisk : fs.store.disk = m.disk := by rw [hfs]; rfl
  rw [layout_root, length_entries] at hfull
  rw [h.mount_inode] at hlock
  rw [← hdisk] at hhit hfirst hslot hfull
  have hspec := dirlookup_found (k := k + 2) hlock (h.type_eq (by decide) hroot (by decide))
    (by rw [h.root_size hlt, hD, hB]; omega) (by rw [hD, hB, hM]; omega)
    (fun p hp => hfull p (by rw [hD] at hp ⊢; omega)) hhit hfirst
  rw [hslot, show (dirent (k + 2) f.target).inum = xshort (k + 2) from rfl,
    xshort_toNat (by omega)] at hspec
  rw [← hfs]
  exact hspec

lemma read (h : Finished m files st) (hfit : Fits files) {k : ℕ} {f : HostFile}
    (hf : files[k]? = some f) :
    (m.mount.inode (k + 2)).type = T_FILE ∧ (m.mount.inode (k + 2)).size.toNat = f.bytes.length ∧
    ∀ off n : UInt32, Spec (readi (m.mount.inode (k + 2)) off n) m.mount
      (fun r st => st = m.mount ∧ r.1 = if off.toNat ≤ f.bytes.length ∧ off.toNat + n.toNat < 2 ^ 32
        then some ((f.bytes.drop off.toNat).take n.toNat) else none) (fun _ => False) := by
  have hk := (List.getElem?_eq_some_iff.mp hf).1
  have h0 : 0 < k + 2 := by omega
  have hi : k + 2 < files.length + 2 := by omega
  have hlt : k + 2 < islots := hi.trans_le (hfit.inodes.trans (by decide))
  have hne : k + 2 ≠ ROOTINO := by simp only [ROOTINO]; omega
  have hsize := h.file_size h0 hi hlt hne
  have htype := h.type_eq h0 hi hlt
  have hdata := h.contents_take h0 hi hlt hsize.ge
  have hfull : Full m.mount.disk (m.inode (k + 2)) _ := h.full_layout h0 hi hlt
  rw [kind, if_neg hne] at htype
  rw [← hsize, List.take_of_length_le (by rw [contents_length]), layout_file hf] at hdata
  rw [← hsize] at hfull
  rw [layout_file hf] at hsize
  rw [h.mount_inode]
  refine ⟨htype, hsize, fun off n => ?_⟩
  refine (readi_spec off n (by rw [htype]; decide) hfull ?_ _).imp ?_
  · rw [hsize]
    exact hfit.size f (List.mem_of_getElem? hf)
  rintro r st' ⟨-, rfl, hin, hout⟩
  refine ⟨rfl, ?_⟩
  rw [← hsize, ← hdata]
  split_ifs with hc
  · exact hin hc
  · exact hout hc

end Finished

lemma Fits.not_rejects {files : List HostFile} (hfit : Fits files)
    (hslash : ∀ f ∈ files, SLASH ∉ f.name) (e : Exit) : ¬ Rejects files e := by
  have hino : files.length + 2 ≤ 200 := hfit.inodes
  rintro (⟨-, f, hf, hbad | hbig⟩ | ⟨-, hbig⟩ | ⟨-, hbig⟩)
  · exact hslash f hf hbad
  · exact absurd (hfit.size f hf) (not_le.mpr hbig)
  · simp only [DIRENT, MAXFILE, NDIRECT, NINDIRECT, BSIZE] at hbig
    omega
  · exact absurd hfit.blocks (not_le.mpr hbig)

theorem mkfs_agrees {files : List HostFile} (hfit : Fits files) :
    (∀ m, mkfs files = .ok m → Agrees m files) ∧
    ((∀ f ∈ files, SLASH ∉ f.name) → ∃ m, mkfs files = .ok m) := by
  have hlt : files.length + 2 ≤ islots := hfit.inodes.trans (by decide)
  have hino : files.length + 2 ≤ 200 := hfit.inodes
  refine ⟨fun m hm => ?_, fun hslash => ?_⟩
  · obtain ⟨st, h⟩ := Finished.of_mkfs hm hlt
    have hl := h.ledger hfit.inodes
    refine ⟨fun k f hf fs name hname hfs hlock => ?_, fun k f hf => ?_, hl.inj, hl.bits⟩
    · exact h.found hfit hf hname hfs hlock
    · exact h.read hfit hf
  · obtain ⟨m, -, hm, -⟩ := exists_finished hlt fun e he => hfit.not_rejects hslash e he
    exact ⟨m, hm⟩

def twoFiles : List HostFile :=
  [⟨[95, 97], by decide, [⟨List.replicate BSIZE 1, by decide +kernel, List.length_replicate.le⟩,
    ⟨[2, 3], by decide, by decide⟩]⟩, ⟨[98], by decide, [⟨[4], by decide, by decide⟩]⟩]

theorem mkfs_agrees_two : Fits twoFiles ∧ ∃ m, mkfs twoFiles = .ok m ∧ Agrees m twoFiles := by
  have hfit : Fits twoFiles := ⟨by decide, by decide, by decide +kernel, by decide, by decide +kernel⟩
  obtain ⟨hagree, hok⟩ := mkfs_agrees hfit
  obtain ⟨m, hm⟩ := hok (by decide)
  exact ⟨hfit, m, hm, hagree m hm⟩

end Xv6.Mkfs
