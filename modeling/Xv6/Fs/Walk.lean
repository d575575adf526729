import Xv6.Fs.Scan
import Xv6.Fs.Stage

namespace Xv6.Fs

open Lib Prog

def Vacant (data : List UInt8) : Prop := ∀ k < nslots data, 2 ≤ k → (slot data k).inum = 0

def enter (data name : List UInt8) (inum : ℕ) : List UInt8 :=
    setSlot data (firstFree data) (newEntry name inum)

def HasRoom (data : List UInt8) : Prop := DIRENT * firstFree data + DIRENT ≤ MAXFILE * BSIZE

namespace Stage

def Named (v : Stage) (j : ℕ) : Prop :=
  ∃ d, (v.ino d).type = T_DIR ∧ ∃ k < nslots (v.ino d).data,
    (slot (v.ino d).data k).inum ≠ 0 ∧ (slot (v.ino d).data k).inum.toNat = j

def Alive (v : Stage) (i : ℕ) : Prop := (v.ino i).type ≠ 0 → (v.ino i).nlink ≠ 0 ∨ v.ref i ≠ 0

def Within (v : Stage) (p j : ℕ) : Prop := j = ROOTINO ∨ j = (v.kern.procs p).cwd ∨ v.Named j

structure Walkable (v : Stage) : Prop where
  idle : v.Idle
  dir : ∀ i, (v.ino i).type = T_DIR → (v.ino i).IsDir v.ninodes
  alive : ∀ j, v.Named j → v.Alive j
  root : ROOTINO < v.ninodes ∧ v.Alive ROOTINO

lemma take_lock_unlock_give {v : Stage} (h : v.Idle) {i : ℕ} (hi : i ∉ v.locks) :
    (((v.take i).lock i).unlock i).give i = v := by
  rw [lock_unlock (v.take i) hi, take_give h]

lemma lock_take_unlock_give {v : Stage} (h : v.Idle) {i : ℕ} (j : ℕ) (hi : i ∉ v.locks) :
    ((((v.take i).lock i).take j).unlock i).give i = v.take j := by
  rw [show ((v.take i).lock i).take j = ((v.take i).take j).lock i from rfl,
    lock_unlock ((v.take i).take j) hi, take_take_give h]

section follow

variable {v : Stage} {parent : Bool} {i j : ℕ} {name : List UInt8} {l : List (List UInt8)}

lemma named_of_lookup {k : ℕ} (ht : (v.ino i).type = T_DIR) (hk : lookup (v.ino i).data name = some k) :
    v.Named (slot (v.ino i).data k).inum.toNat := by
  obtain ⟨hlt, hhit, -⟩ := lookup_eq_some hk
  exact ⟨i, ht, k, hlt, hhit.1, rfl⟩

lemma named_of_names (ht : (v.ino i).type = T_DIR) (hj : names (v.ino i).data name = some j) :
    v.Named j := by
  obtain ⟨k, hk, rfl⟩ := Option.map_eq_some_iff.1 hj
  exact named_of_lookup ht hk

lemma follow_named (h : follow v.ino parent i l = some (j, name)) : j = i ∨ v.Named j := by
  induction l generalizing i with
  | nil =>
    rw [follow_nil] at h
    split_ifs at h
    cases h
    exact .inl rfl
  | cons n l ih =>
    rw [follow_cons] at h
    split_ifs at h with ht
    · cases h
      exact .inl rfl
    · obtain ⟨m, hm, hf⟩ := Option.bind_eq_some_iff.1 h
      rcases ih hf with rfl | hn
      · exact .inr (named_of_names (not_not.1 ht) hm)
      · exact .inr hn

lemma follow_parent_dir (h : follow v.ino true i l = some (j, name)) : (v.ino j).type = T_DIR := by
  induction l generalizing i with
  | nil => cases h
  | cons n l ih =>
    rw [follow_cons] at h
    split_ifs at h with ht
    · cases h
      exact not_not.1 ht
    · obtain ⟨m, hm, hf⟩ := Option.bind_eq_some_iff.1 h
      exact ih hf

lemma Within.origin (v : Stage) (p : ℕ) (path : List UInt8) : v.Within p (origin v.kern p path) := by
  unfold Fs.origin
  split_ifs
  · exact .inl rfl
  · exact .inr (.inl rfl)

lemma Within.follow {p : ℕ} {path : List UInt8}
    (h : follow v.ino parent (Fs.origin v.kern p path) l = some (j, name)) : v.Within p j := by
  rcases follow_named h with rfl | hn
  · exact Within.origin v p path
  · exact .inr (.inr hn)

end follow

section congr

variable {v w : Stage} (h : ∀ i, (w.ino i).type = (v.ino i).type ∧ (w.ino i).data = (v.ino i).data)
include h

lemma follow_congr (parent : Bool) (i : ℕ) (l : List (List UInt8)) :
    follow w.ino parent i l = follow v.ino parent i l := by
  induction l generalizing i with
  | nil => rfl
  | cons name l ih =>
    rw [follow_cons, follow_cons, (h i).1, (h i).2]
    simp only [ih]

lemma named_congr (j : ℕ) : w.Named j ↔ v.Named j := by
  unfold Named
  simp only [fun i => (h i).1, fun i => (h i).2]

end congr

lemma Within.alive {v : Stage} {p j : ℕ} (hw : v.Walkable) (hcwd : v.ref (v.kern.procs p).cwd ≠ 0)
    (h : v.Within p j) : v.Alive j := by
  rcases h with rfl | rfl | hn
  · exact hw.root.2
  · exact fun _ => .inr hcwd
  · exact hw.alive j hn

namespace Is

variable {v : Stage} {a : Afs} {i : ℕ}

section dir

variable {name : List UInt8} (h : v.Is a)
  (hd : (v.ino i).IsDir v.ninodes) (hi : v.ref i ≠ 0) (hl : i ∈ v.locks)
include h hd hi hl

lemma scan : Scan Afs.handler (fun e => ¬ fault e) a i (v.ino i).fields (v.ino i).data
    (nslots (v.ino i).data) :=
  ⟨hd.type, fun _ hq => h.inode hi hl hq, fun _ hk => (hd.slot_end hk).trans_eq hd.fields_size.symm,
    fun _ hk _ _ hq => h.readDirent hd hi hl hk hq⟩

lemma dirlookup {Q : Option (ℕ × ℕ) → Afs → Prop} (hnone : lookup (v.ino i).data name = none → Q none a)
    (hsome : ∀ k, lookup (v.ino i).data name = some k → ∀ a',
    (v.take (slot (v.ino i).data k).inum.toNat).Is a' →
      Q (some ((slot (v.ino i).data k).inum.toNat, DIRENT * k)) a') : Goes Q (Sys.dirlookup i name) a :=
  (h.scan hd hi hl).lookup (hd.fields_size.trans hd.aligned) hnone fun k hk =>
    h.iget (hd.inum k (lookup_eq_some hk).1) (hsome k hk)

lemma dirlink_new {inum : ℕ} {Q : Bool → Afs → Prop} (hname : lookup (v.ino i).data name = none)
    (hq : HasRoom (v.ino i).data → ∀ a',
      (v.write i { v.ino i with data := enter (v.ino i).data name inum } 2).Is a' → Q true a') :
    Goes Q (Sys.dirlink i name inum) a := by
  refine wp_bind (h.dirlookup hd hi hl (fun _ => ?_) (fun k hk => absurd hk (by rw [hname]; simp)))
  refine wp_bind (h.inode hi hl (wp_bind
    ((h.scan hd hi hl).dirlinkLoop (hd.fields_size.trans hd.aligned) ?_)))
  refine wp_bind (h.writeSlot hd hi hl (length_newEntry name inum) firstFree_le ?_ ?_)
  · intro _
    rw [if_neg (by simp)]
    exact panic
  · intro hle a' h'
    rw [if_pos rfl]
    exact wp_pure (hq hle a' h')

lemma dirlink_old {inum k : ℕ} {Q : Bool → Afs → Prop} (hname : lookup (v.ino i).data name = some k)
    (hidle : v.Idle) (halive : v.Alive (slot (v.ino i).data k).inum.toNat)
    (hlocks : ∀ j ∈ v.locks, v.ref j ≠ 0)
    (hq : ∀ a', v.Is a' → Q false a') : Goes Q (Sys.dirlink i name inum) a := by
  refine wp_bind (h.dirlookup hd hi hl (fun hn => absurd hname (by rw [hn]; simp))
    (fun k' hk' a' h' => ?_))
  obtain rfl : k = k' := Option.some.inj (hname.symm.trans hk')
  have href : (v.take (slot (v.ino i).data k).inum.toNat).ref (slot (v.ino i).data k).inum.toNat =
      v.ref (slot (v.ino i).data k).inum.toNat + 1 := assign_self ..
  refine wp_bind (h'.iput (by omega) (fun hj => ?_) (fun ht => ?_) fun a'' h'' => wp_pure ?_)
  · have := hlocks _ hj
    omega
  · exact (halive ht).imp id fun _ => by omega
  · rw [take_give hidle] at h''
    exact hq a'' h''

lemma isdiremptyLoop {Q : Bool → Afs → Prop} (hyes : Vacant (v.ino i).data → Q true a)
    (hno : ¬ Vacant (v.ino i).data → Q false a) {fuel k : ℕ} (hfuel : nslots (v.ino i).data < k + fuel)
    (hbefore : ∀ j < k, 2 ≤ j → (slot (v.ino i).data j).inum = 0) (hk0 : 2 ≤ k) :
    Goes Q (Sys.isdiremptyLoop i (v.ino i).data.length fuel (DIRENT * k)) a := by
  induction fuel generalizing k with
  | zero => exact wp_pure (hyes fun j hj => hbefore j (by omega))
  | succ fuel ih =>
    unfold Sys.isdiremptyLoop
    rcases Nat.lt_or_ge k (nslots (v.ino i).data) with hk | hk
    swap
    · rw [if_neg (by rw [hd.aligned]; exact Nat.not_lt.2 (Nat.mul_le_mul_left DIRENT hk))]
      exact wp_pure (hyes fun j hj => hbefore j (by omega))
    have hlt : DIRENT * k < (v.ino i).data.length :=
      Nat.lt_of_lt_of_le (Nat.lt_add_of_pos_right (by decide)) (hd.slot_end hk)
    rw [if_pos hlt]
    refine wp_bind (h.readDirent hd hi hl hk ?_)
    by_cases hfree : (slot (v.ino i).data k).inum = 0
    · rw [if_neg (not_not.2 hfree)]
      refine ih (k := k + 1) (by omega) (fun j hj hj2 => ?_) (by omega)
      rcases Nat.lt_succ_iff_lt_or_eq.1 hj with hj | rfl
      · exact hbefore j hj hj2
      · exact hfree
    · rw [if_pos hfree]
      exact wp_pure (hno fun hv => hfree (hv k hk hk0))

lemma isdirempty {Q : Bool → Afs → Prop} (hyes : Vacant (v.ino i).data → Q true a)
    (hno : ¬ Vacant (v.ino i).data → Q false a) : Goes Q (Sys.isdirempty i) a := by
  refine wp_bind (h.inode hi hl ?_)
  rw [hd.fields_size, Nat.mul_comm 2]
  exact h.isdiremptyLoop hd hi hl hyes hno (by simp only [nslots]; omega) (by omega) le_rfl

end dir

section walk

variable (hw : v.Walkable) (hlocks : v.locks = ∅)
include hw hlocks

lemma walker : Walker Afs.handler (fun e => ¬ fault e) v.ino (fun a => v.Is a)
    (fun i a => (v.take i).Is a ∧ v.Alive i)
    (fun i a => ((v.take i).lock i).Is a ∧ v.Alive i ∧ (v.ino i).type ≠ 0) := by
  have hout : ∀ j, j ∉ v.locks := fun j hj => by simp [hlocks] at hj
  have href : ∀ i, (v.take i).ref i = v.ref i + 1 := fun i => assign_self ..
  have hne : ∀ i, (v.take i).ref i ≠ 0 := fun i => by rw [href]; exact Nat.succ_ne_zero _
  have hone : ∀ {i}, v.Alive i → (v.ino i).type ≠ 0 → (v.ino i).nlink ≠ 0 ∨ (v.take i).ref i ≠ 1 :=
    fun {i} halive ht => (halive ht).imp id fun _ => by rw [href]; omega
  refine ⟨fun i a hi => ?_, fun i a hi => ?_, fun i a hi Q hq => ?_, fun i a hi => ?_, fun i a hi => ?_,
    fun i a name hi hdir => ?_⟩
  · refine hi.1.iput (hne i) (fun hc => absurd hc (hout i)) (hone hi.2) fun a' h' => ?_
    rwa [take_give hw.idle] at h'
  · exact hi.1.ilock (hne i) fun _ ht a' h' => ⟨h', hi.2, ht⟩
  · exact hi.1.inode (hne i) (Finset.mem_insert_self ..) (hq _ rfl)
  · refine hi.1.iunlock (hne i) (Finset.mem_insert_self ..) fun a' h' => ⟨?_, hi.2.1⟩
    rwa [lock_unlock (v.take i) (hout i)] at h'
  · refine hi.1.iunlockput (hne i) (Finset.mem_insert_self ..) (hone hi.2.1 hi.2.2) fun a' h' => ?_
    rwa [take_lock_unlock_give hw.idle (hout i)] at h'
  · refine hi.1.dirlookup (hw.dir i hdir) (hne i) (Finset.mem_insert_self ..) (fun hn => ⟨?_, hi⟩)
      (fun k hk a' h' => ?_)
    · rw [names, show lookup (v.ino i).data name = none from hn]
      rfl
    have hk : lookup (v.ino i).data name = some k := hk
    change (((v.take i).lock i).take (slot (v.ino i).data k).inum.toNat).Is a' at h'
    have hmore : (v.take i).ref i ≤ (((v.take i).lock i).take
      (slot (v.ino i).data k).inum.toNat).ref i := by
      simp only [Stage.take, Stage.lock, assign_apply]
      split_ifs <;> omega
    refine ⟨by rw [names, hk]; rfl, ?_⟩
    refine h'.iunlockput (by have := hne i; omega) (Finset.mem_insert_self ..) ?_ fun a'' h'' =>
      ⟨?_, hw.alive _ (named_of_lookup hdir hk)⟩
    · exact (hi.2.1 hi.2.2).imp id fun _ => by have := href i; omega
    · rwa [lock_take_unlock_give hw.idle _ (hout i)] at h''

lemma namex {p : ℕ} {parent : Bool} {path : List UInt8} {Q : Option (ℕ × List UInt8) → Afs → Prop}
    (h : v.Is a) (hcwd : v.ref (v.kern.procs p).cwd ≠ 0)
    (hnone : follow v.ino parent (origin v.kern p path) (components path) = none → ∀ a', v.Is a' →
    Q none a') (hsome : ∀ r, follow v.ino parent (origin v.kern p path) (components path) = some r →
      ∀ a', (v.take r.1).Is a' → Q (some r) a') : Goes Q (Sys.namex p path parent) a := by
  refine ((walker hw hlocks).namex v.kern parent path ?_ ?_).imp ?_
  · exact h.iget hw.root.1 fun a' h' => ⟨h', hw.root.2⟩
  · exact h.kget ⟨rfl, h.idup hcwd fun a' h' => ⟨h', fun _ => .inr hcwd⟩⟩
  · rintro (_ | r) a' ⟨hr, h'⟩
    · exact hnone hr.symm a' h'
    · exact hsome r hr.symm a' h'.1

lemma namei {p : ℕ} {path : List UInt8} {Q : Option ℕ → Afs → Prop} (h : v.Is a)
    (hcwd : v.ref (v.kern.procs p).cwd ≠ 0)
    (hnone : follow v.ino false (origin v.kern p path) (components path) = none → ∀ a', v.Is a' →
    Q none a')
    (hsome : ∀ i n, follow v.ino false (origin v.kern p path) (components path) = some (i, n) →
      ∀ a', (v.take i).Is a' → Q (some i) a') : Goes Q (Sys.namei p path) a :=
  wp_bind (namex hw hlocks h hcwd (fun hf a' h' => wp_pure (hnone hf a' h'))
    (fun r hf a' h' => wp_pure (hsome r.1 r.2 hf a' h')))

end walk

end Is

end Stage

end Xv6.Fs
