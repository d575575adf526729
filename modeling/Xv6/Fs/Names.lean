import Xv6.Fs.Entries

namespace Xv6.Fs

open Lib

def Distinct (data : List UInt8) : Prop :=
  ∀ j < nslots data, ∀ k < nslots data, (slot data j).inum ≠ 0 → (slot data k).inum ≠ 0 →
    namecmp (slot data j).name (slot data k).name = 0 → j = k

def Hits (data name : List UInt8) (k : ℕ) : Prop :=
  (slot data k).inum ≠ 0 ∧ namecmp name (slot data k).name = 0

instance (data name : List UInt8) (k : ℕ) : Decidable (Hits data name k) :=
    inferInstanceAs (Decidable (_ ∧ _))

def names (data : List UInt8) (m : List UInt8) : Option ℕ :=
    (lookup data m).map (fun k => (slot data k).inum.toNat)

section

variable {data name m src : List UInt8} {j k : ℕ}

lemma lookup_eq_none_iff : lookup data m = none ↔ ∀ k < nslots data, ¬ Hits data m k := by
  simp [lookup, Hits, List.find?_eq_none]

lemma lookup_eq_some (h : lookup data m = some k) : k < nslots data ∧ Hits data m k ∧ ∀ j < k,
    ¬ Hits data m j := by
  obtain ⟨hlt, hused, hname, hfirst⟩ := lookup_some h
  exact ⟨hlt, ⟨hused, hname⟩, hfirst⟩

lemma lookup_of_first (hk : k < nslots data) (hhit : Hits data m k) (hfirst : ∀ j < k, ¬ Hits data m j) :
    lookup data m = some k := by
  have hp : ∀ j, (decide ((slot data j).inum ≠ 0 ∧ namecmp m (slot data j).name = 0) = true) ↔
    Hits data m j :=
    fun j => decide_eq_true_iff
  refine List.find?_range_eq_some.mpr ⟨(hp k).mpr hhit, List.mem_range.mpr hk, fun j hj => ?_⟩
  rw [Bool.not_eq_true', ← Bool.not_eq_true, hp]
  exact hfirst j hj

lemma exists_hits_iff : (∃ k < nslots data, Hits data m k) ↔ lookup data m ≠ none := by
  rw [Ne, lookup_eq_none_iff]
  push Not
  rfl

lemma firstFree_of_first (hk : k < nslots data) (hfree : (slot data k).inum = 0)
    (hfirst : ∀ j < k, (slot data j).inum ≠ 0) : firstFree data = k := by
  have hfind : (List.range (nslots data)).find? (fun k => (slot data k).inum = 0) = some k :=
    List.find?_range_eq_some.mpr ⟨decide_eq_true hfree, List.mem_range.mpr hk,
      fun j hj => by simpa using hfirst j hj⟩
  rw [firstFree, hfind, Option.getD_some]

lemma firstFree_of_used (h : ∀ j < nslots data, (slot data j).inum ≠ 0) :
    firstFree data = nslots data := by
  have hfind : (List.range (nslots data)).find? (fun k => (slot data k).inum = 0) = none :=
    List.find?_eq_none.mpr fun j hj => by simpa using h j (List.mem_range.mp hj)
  rw [firstFree, hfind, Option.getD_none]

namespace Distinct

variable (hd : Distinct data)

include hd

lemma hits_unique (hj : j < nslots data) (hk : k < nslots data) (h : Hits data m j)
    (h' : Hits data m k) : j = k := by
  refine hd j hj k hk h.1 h'.1 ?_
  have h1 := namecmp_eq_zero_iff.mp h.2
  have h2 := namecmp_eq_zero_iff.mp h'.2
  rw [namecmp_eq_zero_iff, ← h1, h2]

lemma lookup_eq_some_iff : lookup data m = some k ↔ k < nslots data ∧ Hits data m k := by
  refine ⟨fun h => ⟨(lookup_eq_some h).1, (lookup_eq_some h).2.1⟩, fun ⟨hlt, hhit⟩ => ?_⟩
  cases h : lookup data m with
  | none => exact absurd hhit (lookup_eq_none_iff.mp h k hlt)
  | some j =>
    obtain ⟨hj, hhit', -⟩ := lookup_eq_some h
    rw [hd.hits_unique hj hlt hhit' hhit]

end Distinct

lemma hits_setSlot (hk : k ≤ nslots data) (hsrc : src.length = DIRENT)
    (hj : j < nslots (setSlot data k src)) : Hits (setSlot data k src) m j ↔
      if j = k then (Dirent.ofBytes src).inum ≠ 0 ∧
      namecmp m (Dirent.ofBytes src).name = 0 else Hits data m j := by
  unfold Hits
  rw [slot_setSlot hk hsrc hj]
  split_ifs <;> rfl

lemma Distinct.setSlot (hd : Distinct data) (hk : k ≤ nslots data) (hsrc : src.length = DIRENT)
    (hnew : (Dirent.ofBytes src).inum ≠ 0 → ∀ j < nslots data, j ≠ k →
    ¬ Hits data (Dirent.ofBytes src).name j) : Distinct (setSlot data k src) := by
  intro i hi j hj ui uj hij
  have hlen := nslots_setSlot hk hsrc
  rw [slot_setSlot hk hsrc hi] at ui hij
  rw [slot_setSlot hk hsrc hj] at uj hij
  split_ifs at ui uj hij with h1 h2 h3
  · rw [h1, h2]
  · exact absurd ⟨uj, hij⟩ (hnew ui j (by omega) h2)
  · have hji : namecmp (Dirent.ofBytes src).name (slot data i).name = 0 := by
      rw [namecmp_eq_zero_iff] at hij ⊢
      exact hij.symm
    exact absurd ⟨ui, hji⟩ (hnew uj i (by omega) h1)
  · exact hd i (by omega) j (by omega) ui uj hij

def newEntry (name : List UInt8) (inum : ℕ) : List UInt8 :=
  Dirent.toBytes ⟨UInt16.ofNat inum, strncpy DIRSIZ name⟩

lemma length_newEntry (name : List UInt8) (inum : ℕ) : (newEntry name inum).length = DIRENT :=
  Dirent.length_toBytes (length_strncpy DIRSIZ name)

lemma ofBytes_newEntry (name : List UInt8) (inum : ℕ) :
    Dirent.ofBytes (newEntry name inum) = ⟨UInt16.ofNat inum, strncpy DIRSIZ name⟩ :=
    Dirent.ofBytes_toBytes _

def noEntry : List UInt8 := List.replicate DIRENT 0

lemma length_noEntry : noEntry.length = DIRENT := rfl

lemma inum_noEntry : (Dirent.ofBytes noEntry).inum = 0 := rfl

section Enter

variable {inum : ℕ} (hk : k ≤ nslots data) (hfree : k < nslots data → (slot data k).inum = 0)
  (hname : lookup data name = none)

include hname

lemma not_hits_of_agree (h : cstr DIRSIZ m = cstr DIRSIZ name) (hj : j < nslots data) :
    ¬ Hits data m j := by
  intro hhit
  refine lookup_eq_none_iff.mp hname j hj ⟨hhit.1, ?_⟩
  rw [namecmp_eq_zero_iff, ← h]
  exact namecmp_eq_zero_iff.mp hhit.2

include hk

lemma Distinct.enter (hd : Distinct data) : Distinct (Fs.setSlot data k (newEntry name inum)) := by
  refine hd.setSlot hk (length_newEntry name inum) (fun _ j hj _ => ?_)
  rw [ofBytes_newEntry]
  exact not_hits_of_agree hname (cstr_strncpy DIRSIZ name) hj

include hfree

lemma hits_enter (hpos : 1 ≤ inum) (hle : inum ≤ 65535)
    (hj : j < nslots (Fs.setSlot data k (newEntry name inum))) :
    Hits (Fs.setSlot data k (newEntry name inum)) m j ↔
      if cstr DIRSIZ m = cstr DIRSIZ name then j = k else j < nslots data ∧ Hits data m j := by
  have hne : UInt16.ofNat inum ≠ 0 := by
    intro h0
    have := congrArg UInt16.toNat h0
    rw [UInt16.toNat_ofNat_of_lt' (by rw [show UInt16.size = 65536 from rfl]; omega)] at this
    exact absurd this (by rw [show (0 : UInt16).toNat = 0 from rfl]; omega)
  have hlen : nslots (Fs.setSlot data k (newEntry name inum)) = _ :=
    nslots_setSlot hk (length_newEntry name inum)
  rw [hits_setSlot hk (length_newEntry name inum) hj, ofBytes_newEntry, namecmp_strncpy,
    namecmp_eq_zero_iff]
  split_ifs with h1 h2 h2
  · simp [h1, h2, hne]
  · refine ⟨fun h => absurd h.2 h2, fun h => ?_⟩
    rw [h1] at h
    exact absurd (hfree h.1) h.2.1
  · exact ⟨fun h => absurd h (not_hits_of_agree hname h2 (by omega)), fun h => absurd h h1⟩
  · exact ⟨fun h => ⟨by omega, h⟩, fun h => h.2⟩

lemma names_enter (hd : Distinct data) (hpos : 1 ≤ inum) (hle : inum ≤ 65535) :
    names (Fs.setSlot data k (newEntry name inum)) m =
      if cstr DIRSIZ m = cstr DIRSIZ name then some inum else names data m := by
  have hsrc := length_newEntry name inum
  have hd' : Distinct (Fs.setSlot data k (newEntry name inum)) := hd.enter hk hname
  have hlen : nslots (Fs.setSlot data k (newEntry name inum)) = _ := nslots_setSlot hk hsrc
  split_ifs with hm
  · have hat : lookup (Fs.setSlot data k (newEntry name inum)) m = some k := by
      have hlt : k < nslots (Fs.setSlot data k (newEntry name inum)) := by omega
      refine hd'.lookup_eq_some_iff.mpr ⟨hlt, ?_⟩
      rw [hits_enter hk hfree hname hpos hle hlt, if_pos hm]
    rw [names, hat, Option.map_some, slot_setSlot_self hk hsrc, ofBytes_newEntry]
    exact congrArg some (UInt16.toNat_ofNat_of_lt' (by rw [show UInt16.size = 65536 from rfl]; omega))
  · have hsame : lookup (Fs.setSlot data k (newEntry name inum)) m = lookup data m := by
      refine Option.ext (fun j => ?_)
      rw [hd'.lookup_eq_some_iff, hd.lookup_eq_some_iff]
      refine ⟨fun h => ?_, fun h => ⟨by omega, ?_⟩⟩
      · simpa only [if_neg hm] using (hits_enter hk hfree hname hpos hle h.1).mp h.2
      · rw [hits_enter hk hfree hname hpos hle (by omega), if_neg hm]
        exact h
    rw [names, names, hsame]
    cases hl : lookup data m with
    | none => rfl
    | some j =>
      obtain ⟨hj, hhit, -⟩ := lookup_eq_some hl
      have hjk : j ≠ k := fun h => hhit.1 (h ▸ hfree (h ▸ hj))
      rw [Option.map_some, Option.map_some, slot_setSlot_ne hk hsrc hj hjk]

end Enter

section Erase

variable (hd : Distinct data) (hname : lookup data name = some k)

include hd

lemma Distinct.erase (hk : k ≤ nslots data) : Distinct (Fs.setSlot data k noEntry) :=
  hd.setSlot hk length_noEntry (fun h => absurd inum_noEntry h)

include hname

lemma lookup_erase :
    lookup (Fs.setSlot data k noEntry) m =
      if cstr DIRSIZ m = cstr DIRSIZ name then none else lookup data m := by
  obtain ⟨hk, hhit, -⟩ := lookup_eq_some hname
  have hagree : Hits data m k ↔ cstr DIRSIZ m = cstr DIRSIZ name := by
    have hn := namecmp_eq_zero_iff.mp hhit.2
    rw [hn, ← namecmp_eq_zero_iff]
    exact ⟨fun h => h.2, fun h => ⟨hhit.1, h⟩⟩
  have hlen : nslots (Fs.setSlot data k noEntry) = _ := nslots_setSlot hk.le length_noEntry
  refine Option.ext (fun j => ?_)
  rw [(hd.erase hk.le).lookup_eq_some_iff]
  have hhits : ∀ j < nslots (Fs.setSlot data k noEntry),
      (Hits (Fs.setSlot data k noEntry) m j ↔ j ≠ k ∧ Hits data m j) := by
    intro j hj
    rw [hits_setSlot hk.le length_noEntry hj]
    split_ifs with hjk
    · exact ⟨fun h => absurd inum_noEntry h.1, fun h => absurd hjk h.1⟩
    · exact ⟨fun h => ⟨hjk, h⟩, fun h => h.2⟩
  split_ifs with hm
  · refine ⟨fun h => ?_, fun h => by cases h⟩
    obtain ⟨hjk, hj⟩ := (hhits j h.1).mp h.2
    exact absurd (hd.hits_unique (by omega) hk hj (hagree.mpr hm)) hjk
  · rw [hd.lookup_eq_some_iff]
    refine ⟨fun h => ⟨by omega, ((hhits j h.1).mp h.2).2⟩,
      fun h => ⟨by omega, (hhits j (by omega)).mpr ⟨?_, h.2⟩⟩⟩
    rintro rfl
    exact hm (hagree.mp h.2)

lemma names_erase :
    names (Fs.setSlot data k noEntry) m =
      if cstr DIRSIZ m = cstr DIRSIZ name then none else names data m := by
  obtain ⟨hk, hhit, -⟩ := lookup_eq_some hname
  rw [names, lookup_erase hd hname]
  split_ifs with hm
  · rfl
  · rw [names]
    cases hl : lookup data m with
    | none => rfl
    | some j =>
      obtain ⟨hj, hj', -⟩ := lookup_eq_some hl
      have hjk : j ≠ k := by
        rintro rfl
        have h1 := namecmp_eq_zero_iff.mp hhit.2
        have h2 := namecmp_eq_zero_iff.mp hj'.2
        exact hm (h2.trans h1.symm)
      rw [Option.map_some, Option.map_some, slot_setSlot_ne hk.le length_noEntry hj hjk]

end Erase

end

end Xv6.Fs
