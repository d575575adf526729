import Xv6.Fs.Image
import Xv6.Fs.Supply

namespace Xv6.Fs

open Lib

variable {st : Store} {i : ℕ}

theorem readi_writei_byte_array (h : Wf st) (hi : i < st.sb.ninodes) (ht : (st.inode i).type ≠ 0)
    (hdev : (st.inode i).type ≠ T_DEV) (off : UInt32) :
    (∀ n : UInt32,
      let size := (st.inode i).size.toNat
      (size < off.toNat ∨ 2 ^ 32 ≤ off.toNat + n.toNat →
        (readi (st.inode i) off n).run st = .ok ((none, st.inode i), st)) ∧
      (off.toNat ≤ size → off.toNat + n.toNat < 2 ^ 32 → ∃ bytes,
        (readi (st.inode i) off n).run st = .ok ((some bytes, st.inode i), st) ∧
        bytes.length = min n.toNat (size - off.toNat) ∧
        bytes = ((contents st.disk (st.inode i)).drop off.toNat).take (min n.toNat (size - off.toNat)))) ∧
    ∀ s : List UInt8, s.length < 2 ^ 32 →
      let c := contents st.disk (st.inode i)
      (c.length < off.toNat ∨ 2 ^ 32 ≤ off.toNat + s.length ∨ MAXFILE * BSIZE < off.toNat + s.length →
        (writei i (st.inode i) s off).run st = .ok ((none, st.inode i), st)) ∧
      (off.toNat ≤ c.length → off.toNat + s.length < 2 ^ 32 → off.toNat + s.length ≤ MAXFILE * BSIZE →
        need st.disk (st.inode i) off.toNat s.length ≤ st.freeSet.card → ∃ ip' st',
        (writei i (st.inode i) s off).run st = .ok ((some s.length, ip'), st') ∧
        Wf st' ∧ st'.sb = st.sb ∧ st'.inode i = ip' ∧
        contents st'.disk ip' = c.take off.toNat ++ s ++ c.drop (off.toNat + s.length) ∧
        ip'.size.toNat = max c.length (off.toNat + s.length) ∧
        ∀ j < st.sb.ninodes, j ≠ i → st'.inode j = st.inode j ∧
          ((st.inode j).type ≠ 0 → contents st'.disk (st'.inode j) = contents st.disk (st.inode j))) := by
  have hlen : (contents st.disk (st.inode i)).length = (st.inode i).size.toNat := contents_length _ _
  refine ⟨fun n => ⟨fun hc => ?_, fun h₁ h₂ => ⟨_, h.readi_run hi ht hdev ⟨h₁, h₂⟩, ?_, ?_⟩⟩,
    fun s hs => ?_⟩
  · exact h.readi_reject hi ht hdev (by unfold InFile; omega)
  · rw [List.length_take, List.length_drop, hlen]
  · rw [List.take_eq_take_iff, List.length_drop, hlen]
    omega
  · have hn : (UInt32.ofNat s.length).toNat = s.length := UInt32.toNat_ofNat_of_lt' hs
    refine ⟨fun hc => ?_, fun hoff hwrap hmax hneed => ?_⟩
    · refine h.writei_reject hi ht hdev hs (not_writable_iff.mpr ?_)
      rwa [hn, ← hlen]
    · have hW : Writable (st.inode i) off (UInt32.ofNat s.length) := by
        refine ⟨⟨?_, ?_⟩, ?_⟩
        · rwa [← hlen]
        · rwa [hn]
        · rwa [hn]
      obtain ⟨ip', st', hrun, hch⟩ := h.writei_run hi ht hdev hs hW hneed
      refine ⟨ip', st', hrun, hch.wf, hch.sb, hch.inode, hch.contents, ?_,
        fun j hj hji => ⟨hch.others j hj hji, ?_⟩⟩
      · rw [← contents_length st'.disk ip', hch.contents, length_overwrite hoff]
      · intro htj
        rw [hch.others j hj hji]
        exact hch.other_contents j hj hji htj

theorem readi_writei_byte_array_root : ∃ ip' st',
    (writei ROOTINO (mkfsImage.inode ROOTINO) [1, 2, 3] 512).run mkfsImage = .ok ((some 3, ip'), st') ∧
    Wf st' ∧ ip'.size = 515 := by
  have hroot := mkfsImage_inode (i := ROOTINO) (by decide)
  have hneed : need mkfsImage.disk (mkfsImage.inode ROOTINO) 512 3 ≤ mkfsImage.freeSet.card := by
    have hfree : 60 ∈ mkfsImage.freeSet :=
      Finset.mem_filter.mpr ⟨Finset.mem_range.mpr (by decide), by rw [mkfsImage_bit (by decide)]; decide⟩
    have hone : need mkfsImage.disk rootInode 512 3 = 1 := by decide +kernel
    rw [hroot, if_pos rfl, hone]
    exact Finset.card_pos.mpr ⟨60, hfree⟩
  obtain ⟨ip', st', hrun, hwf, -, -, -, hsize, -⟩ :=
    ((readi_writei_byte_array mkfsImage_wf (i := ROOTINO) (by decide) (by rw [hroot]; decide)
      (by rw [hroot]; decide)
      512).2 [1, 2, 3] (by decide)).2 (by rw [contents_length, hroot]; decide) (by decide)
      (by decide) hneed
  refine ⟨ip', st', hrun, hwf, ?_⟩
  rw [contents_length, hroot] at hsize
  exact UInt32.toNat_inj.mp hsize

end Xv6.Fs
