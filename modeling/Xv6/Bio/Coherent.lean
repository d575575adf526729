import Xv6.Bio.Logged
import Xv6.Bio.Lru

namespace Xv6.Logged

open Lib Bio
open Xv6.Log (Sys Stage)

structure Coherent (home : UInt32 → Prop) (X : UInt32 → Block) (pinned : UInt32 → Prop) (buf : ℕ → Buf)
    (disk : Disk) : Prop where
  unique : ∀ b < NBUF, ∀ b' < NBUF, (buf b).dev = ROOTDEV → (buf b').dev = ROOTDEV →
    (buf b).blockno = (buf b').blockno → b = b'
  dirty : ∀ b < NBUF, (buf b).dirty = true ↔ (buf b).dev = ROOTDEV ∧ pinned (buf b).blockno
  cached : ∀ k, pinned k → home k ∧ ∃ b < NBUF, (buf b).dev = ROOTDEV ∧ (buf b).blockno = k ∧
    (buf b).valid = true
  shows : ∀ b < NBUF, (buf b).dev = ROOTDEV → (buf b).valid = true → home (buf b).blockno →
    (buf b).data = X (buf b).blockno
  copies : ∀ b < NBUF, (buf b).dev = ROOTDEV → (buf b).valid = true → ¬ home (buf b).blockno →
    (buf b).data = disk (buf b).blockno.toNat
  disk : ∀ k, home k → ¬ pinned k → disk k.toNat = X k

namespace Coherent

variable {home pinned : UInt32 → Prop} {X : UInt32 → Block} {buf : ℕ → Buf} {disk : Disk} {b : ℕ}

section

variable (h : Coherent home X pinned buf disk)
include h

lemma setBusy (busy : Bool) : Coherent home X pinned (assign buf b { buf b with busy := busy }) disk := by
  have hfield : ∀ b', (assign buf b { buf b with busy := busy } b').dev = (buf b').dev ∧
      (assign buf b { buf b with busy := busy } b').blockno = (buf b').blockno ∧
      (assign buf b { buf b with busy := busy } b').valid = (buf b').valid ∧
      (assign buf b { buf b with busy := busy } b').dirty = (buf b').dirty ∧
      (assign buf b { buf b with busy := busy } b').data = (buf b').data := by
    intro b'
    unfold assign
    split_ifs with hb
    · simp [hb]
    · simp
  generalize assign buf b { buf b with busy := busy } = buf' at hfield
  cases h
  constructor <;> grind

lemma recycle {k : UInt32} {data : Block} (hclean : (buf b).dirty = false)
    (hb : b < NBUF) (hno : ∀ b' < NBUF, (buf b').dev = ROOTDEV → (buf b').blockno ≠ k) :
    Coherent home X pinned (assign buf b ⟨true, false, false, ROOTDEV, k, data⟩) disk := by
  have hbuf : ∀ b', assign buf b ⟨true, false, false, ROOTDEV, k, data⟩ b' =
      if b' = b then ⟨true, false, false, ROOTDEV, k, data⟩ else buf b' := fun _ => rfl
  generalize assign buf b ⟨true, false, false, ROOTDEV, k, data⟩ = buf' at hbuf
  obtain ⟨h1, h2, h3, h4, h5, h6⟩ := h
  refine ⟨by grind, by grind, fun k' hk' => ?_, by grind, by grind, by grind⟩
  obtain ⟨hh, b', hb', hdev, hbk, hv⟩ := h3 k' hk'
  refine ⟨hh, b', hb', ?_⟩
  have hne : b' ≠ b := by grind
  rw [hbuf, if_neg hne]
  exact ⟨hdev, hbk, hv⟩

lemma clean_of_invalid (hb : b < NBUF) (hv : (buf b).valid = false) : (buf b).dirty = false := by
  by_contra hd
  obtain ⟨hdev, hp⟩ := (h.dirty b hb).mp (by simpa using hd)
  obtain ⟨-, b', hb', hdev', hk, hv'⟩ := h.cached _ hp
  obtain rfl := h.unique b hb b' hb' hdev hdev' hk.symm
  rw [hv] at hv'
  cases hv'

lemma load (hb : b < NBUF) (hdev : (buf b).dev = ROOTDEV) (hv : (buf b).valid = false) :
    Coherent home X pinned
      (assign buf b
        { buf b with valid := true, dirty := false, data := disk (buf b).blockno.toNat }) disk := by
  have hclean := h.clean_of_invalid hb hv
  have hnp : ¬ pinned (buf b).blockno := by
    intro hp
    rw [(h.dirty b hb).mpr ⟨hdev, hp⟩] at hclean
    cases hclean
  have hbuf : ∀ b', assign buf b
    { buf b with valid := true, dirty := false, data := disk (buf b).blockno.toNat } b' =
      if b' = b then
        { buf b with valid := true, dirty := false, data := disk (buf b).blockno.toNat } else buf b' :=
    fun _ => rfl
  generalize assign buf b
    { buf b with valid := true, dirty := false, data := disk (buf b).blockno.toNat } = buf' at hbuf
  obtain ⟨h1, h2, h3, h4, h5, h6⟩ := h
  refine ⟨by grind, by grind, fun k' hk' => ?_, by grind, by grind, by grind⟩
  obtain ⟨hh, b', hb', hdev, hbk, hv⟩ := h3 k' hk'
  exact ⟨hh, b', hb', by grind⟩

lemma logWrite {data : Block} (hb : b < NBUF) (hdev : (buf b).dev = ROOTDEV)
    (hv : (buf b).valid = true) (hh : home (buf b).blockno) :
    Coherent home (assign X (buf b).blockno data) (fun k => pinned k ∨ k = (buf b).blockno)
      (assign buf b { buf b with dirty := true, data := data }) disk := by
  have hbuf : ∀ b', assign buf b { buf b with dirty := true, data := data } b' =
      if b' = b then { buf b with dirty := true, data := data } else buf b' := fun _ => rfl
  have hX : ∀ k, assign X (buf b).blockno data k = if k = (buf b).blockno then data else X k :=
    fun _ => rfl
  generalize assign buf b { buf b with dirty := true, data := data } = buf' at hbuf
  generalize assign X (buf b).blockno data = X' at hX
  obtain ⟨h1, h2, h3, h4, h5, h6⟩ := h
  refine ⟨by grind, by grind, fun k' hk' => ?_, by grind, by grind, by grind⟩
  rcases hk' with hk' | rfl
  · obtain ⟨hh', b', hb', hdev', hbk, hv'⟩ := h3 k' hk'
    exact ⟨hh', b', hb', by grind⟩
  · exact ⟨hh, b, hb, by grind⟩

lemma bwrite {data : Block} (hb : b < NBUF) (hdev : (buf b).dev = ROOTDEV)
    (hdata : home (buf b).blockno → data = X (buf b).blockno) :
    Coherent home X (fun k => pinned k ∧ k ≠ (buf b).blockno)
      (assign buf b { buf b with valid := true, dirty := false, data := data })
      (assign disk (buf b).blockno.toNat data) := by
  have hbuf : ∀ b', assign buf b { buf b with valid := true, dirty := false, data := data } b' =
      if b' = b then { buf b with valid := true, dirty := false, data := data } else buf b' :=
      fun _ => rfl
  have hdisk : ∀ k, assign disk (buf b).blockno.toNat data k =
      if k = (buf b).blockno.toNat then data else disk k := fun _ => rfl
  have hinj : ∀ k k' : UInt32, k.toNat = k'.toNat → k = k' := fun k k' => UInt32.toNat_inj.mp
  generalize assign buf b { buf b with valid := true, dirty := false, data := data } = buf' at hbuf
  generalize assign disk (buf b).blockno.toNat data = disk' at hdisk
  obtain ⟨h1, h2, h3, h4, h5, h6⟩ := h
  refine ⟨by grind, by grind, fun k' hk' => ?_, by grind, by grind, by grind⟩
  obtain ⟨hh', b', hb', hdev', hbk, hv'⟩ := h3 k' hk'.1
  exact ⟨hh', b', hb', by grind⟩

end

end Coherent

end Xv6.Logged
