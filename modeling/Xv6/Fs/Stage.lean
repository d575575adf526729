import Xv6.Fs.Simulation

namespace Xv6.Fs

open Lib Prog

structure Node.IsDir (n : Node) (ninodes : ℕ) : Prop where
  type : n.type = T_DIR
  aligned : n.data.length = DIRENT * nslots n.data
  size : n.data.length ≤ MAXFILE * BSIZE
  inum : ∀ k < nslots n.data, (slot n.data k).inum.toNat < ninodes

namespace Node.IsDir

variable {n : Node} {ninodes k : ℕ} (h : n.IsDir ninodes)
include h

lemma slot_end (hk : k < nslots n.data) : DIRENT * k + DIRENT ≤ n.data.length := by
  rw [h.aligned]
  exact Nat.mul_le_mul_left DIRENT hk

lemma ofNat_offset (hk : k ≤ nslots n.data) : (UInt32.ofNat (DIRENT * k)).toNat = DIRENT * k := by
  refine toNat_offset (le_trans ?_ h.size)
  rw [h.aligned]
  exact Nat.mul_le_mul_left DIRENT hk

lemma fields_size : n.fields.size.toNat = n.data.length := toNat_offset h.size

end Node.IsDir

structure Stage where
  ninodes : ℕ
  ref : ℕ → ℕ
  flag : ℕ → Bool
  ino : ℕ → Node
  kern : Kern
  locks : Finset ℕ
  iu : Finset ℕ
  wr : ℕ

namespace Stage

@[simps] def take (v : Stage) (i : ℕ) : Stage := { v with ref := assign v.ref i (v.ref i + 1) }

@[simps ninodes ref ino kern locks] def give (v : Stage) (i : ℕ) : Stage :=
  { v with
    ref := assign v.ref i (v.ref i - 1)
    flag := if v.ref i = 1 then assign v.flag i false else v.flag }

def lock (v : Stage) (i : ℕ) : Stage := { v with locks := insert i v.locks }

def unlock (v : Stage) (i : ℕ) : Stage := { v with locks := v.locks.erase i }

@[simps] def promise (v : Stage) (i : ℕ) : Stage := { v with flag := assign v.flag i true }

@[simps] def setNode (v : Stage) (i : ℕ) (n : Node) : Stage :=
    { v with ino := assign v.ino i n, iu := insert i v.iu }

@[simps] def write (v : Stage) (i : ℕ) (n : Node) (k : ℕ) : Stage := { v.setNode i n with wr := v.wr + k }

@[simps] def setKern (v : Stage) (k : Kern) : Stage := { v with kern := k }

@[simps] def begin (v : Stage) : Stage := { v with iu := ∅, wr := 0 }

def fresh (v : Stage) : Option ℕ := (List.range v.ninodes).find? (fun i => 0 < i ∧ (v.ino i).type = 0)

def Last (v : Stage) (i : ℕ) : Prop := v.ref i = 1 ∧ (v.ino i).nlink = 0 ∧ (v.ino i).type ≠ 0

instance (v : Stage) (i : ℕ) : Decidable (v.Last i) := by
  unfold Last
  infer_instance

def release (v : Stage) (i : ℕ) : Stage := if v.Last i then (v.setNode i Node.zero).give i else v.give i

structure Is (v : Stage) (a : Afs) : Prop where
  ninodes : a.ninodes = v.ninodes
  ino : a.ino = v.ino
  kern : a.kern = v.kern
  ref : a.ref = v.ref
  busy : ∀ i, a.busy i = true ↔ i ∈ v.locks
  valid : ∀ i, a.valid i = true → (v.ino i).type ≠ 0
  loaded : ∀ i ∈ v.locks, a.valid i = true
  kept : ∀ i, v.flag i = true → a.valid i = true
  iu : a.iu = v.iu
  wr : a.wr = v.wr

@[simp] lemma lock_unlock (v : Stage) {i : ℕ} (h : i ∉ v.locks) : (v.lock i).unlock i = v := by
  simp [lock, unlock, Finset.erase_insert h]

def Idle (v : Stage) : Prop := ∀ i, v.flag i = true → v.ref i ≠ 0

lemma Idle.flag_eq {v : Stage} (h : v.Idle) {i : ℕ} (hi : v.ref i = 0) :
    assign v.flag i false = v.flag := by
  refine assign_eq_self ?_
  cases hf : v.flag i with
  | false => rfl
  | true => exact absurd hi (h i hf)

lemma take_give {v : Stage} (h : v.Idle) (i : ℕ) : (v.take i).give i = v := by
  have hflag : (if v.ref i = 0 then assign v.flag i false else v.flag) = v.flag := by
    split_ifs with h0
    · exact h.flag_eq h0
    · rfl
  simp [take, give, assign_eq_self, hflag]

lemma take_comm (v : Stage) (i j : ℕ) : (v.take i).take j = (v.take j).take i := by
  have hcomm : assign (assign v.ref i (v.ref i + 1)) j (assign v.ref i (v.ref i + 1) j + 1) =
      assign (assign v.ref j (v.ref j + 1)) i (assign v.ref j (v.ref j + 1) i + 1) := by
    funext x
    simp only [assign_apply]
    grind
  simp only [take, hcomm]

lemma Idle.take {v : Stage} (h : v.Idle) (i : ℕ) : (v.take i).Idle := by
  intro j hj
  have := h j hj
  simp only [Stage.take, assign_apply]
  split_ifs <;> omega

lemma take_take_give {v : Stage} (h : v.Idle) (i j : ℕ) : ((v.take i).take j).give i = v.take j := by
  rw [take_comm, take_give (h.take j)]

abbrev Goes {α : Type} (Q : α → Afs → Prop) (p : FsProg α) (a : Afs) : Prop :=
  Wp Afs.handler (fun _ _ => True) (fun e => ¬ fault e) Q p a

namespace Is

variable {v : Stage} {a : Afs} {i : ℕ}

lemma ref_ne_zero (h : v.Is a) (hi : v.ref i ≠ 0) : a.ref i ≠ 0 := by
  rwa [h.ref]

section rules

variable (h : v.Is a)
include h

omit h in
lemma wp_run {o : Op} {Q : o.Res → Afs → Prop} {r : o.Res} {a' : Afs}
    (hr : (Afs.handler o).run a = .ok (r, a')) (hq : Q r a') : Goes Q (Prog.call o) a := by
  refine wp_call trivial ?_
  unfold Spec
  rw [hr]
  exact hq

omit h in
lemma wp_error {o : Op} {Q : o.Res → Afs → Prop} {e : Halt}
    (hr : (Afs.handler o).run a = .error e) (hb : ¬ fault e) : Goes Q (Prog.call o) a := by
  refine wp_call trivial ?_
  unfold Spec
  rw [hr]
  exact hb

lemma kget {Q : Kern → Afs → Prop} (hq : Q v.kern a) : Goes Q Sys.kget a :=
  wp_run (o := .kget) rfl (by rw [h.kern]; exact hq)

lemma kset {k : Kern} {Q : PUnit → Afs → Prop} (hq : ∀ a', (v.setKern k).Is a' → Q ⟨⟩ a') :
    Goes Q (Sys.kset k) a :=
  wp_run (o := .kset k) rfl
    (hq _ { h with kern := rfl })

omit h in
lemma panic {p : Panic} {α : Type} {Q : α → Afs → Prop} : Goes Q (Sys.panic p) a :=
  ⟨trivial, show ¬ fault (.panic p) by simp [fault]⟩

lemma beginOp {Q : PUnit → Afs → Prop} (hq : ∀ a', v.begin.Is a' → Q ⟨⟩ a') : Goes Q Sys.beginOp a :=
  wp_run (o := .beginOp) rfl
    (hq _ { h with iu := rfl, wr := rfl })

omit h in
lemma endOp {Q : PUnit → Afs → Prop} (hq : Q ⟨⟩ a) : Goes Q Sys.endOp a :=
  wp_run (o := .endOp) rfl hq

lemma take : (v.take i).Is (a.get i) where
  __ := h
  ref := by rw [Afs.get, h.ref]; rfl

lemma iget {Q : PUnit → Afs → Prop} (hi : i < v.ninodes) (hq : ∀ a', (v.take i).Is a' → Q ⟨⟩ a') :
    Goes Q (Sys.iget i) a :=
  wp_run (o := .iget i) (if_pos (by rw [h.ninodes]; exact hi)) (hq _ h.take)

lemma idup {Q : PUnit → Afs → Prop} (hi : v.ref i ≠ 0) (hq : ∀ a', (v.take i).Is a' → Q ⟨⟩ a') :
    Goes Q (Sys.idup i) a :=
  wp_run (o := .idup i) (if_neg (by rw [h.ref]; exact hi)) (hq _ h.take)

lemma lock (ht : (v.ino i).type ≠ 0) : (v.lock i).Is (a.lock i) where
  __ := h
  busy j := by
    simp only [Afs.lock, assign_apply, Stage.lock, Finset.mem_insert]
    split_ifs with hj
    · simp [hj]
    · rw [h.busy]
      simp [hj]
  valid j hj := by
    simp only [Afs.lock, assign_apply] at hj
    split_ifs at hj with hji
    · rw [hji]
      exact ht
    · exact h.valid j hj
  loaded j hj := by
    simp only [Afs.lock, assign_apply]
    split_ifs with hji
    · rfl
    · exact h.loaded j ((Finset.mem_insert.1 hj).resolve_left hji)
  kept j hf := by
    simp only [Afs.lock, assign_apply]
    split_ifs
    · rfl
    · exact h.kept j hf

lemma ilock {Q : PUnit → Afs → Prop} (hi : v.ref i ≠ 0)
    (hq : i ∉ v.locks → (v.ino i).type ≠ 0 → ∀ a', (v.lock i).Is a' → Q ⟨⟩ a') :
    Goes Q (Sys.ilock i) a := by
  have href := h.ref_ne_zero hi
  by_cases hl : i ∈ v.locks
  · refine wp_error (o := .ilock i) (e := .sleep) ?_ (by simp [fault])
    exact (if_neg href).trans (if_pos ((h.busy i).2 hl))
  have hbusy : ¬ a.busy i = true := fun hb => hl ((h.busy i).1 hb)
  by_cases ht : (v.ino i).type = 0
  · have hv : a.valid i = false := by
      cases hv : a.valid i with
      | false => rfl
      | true => exact absurd ht (h.valid i hv)
    refine wp_error (o := .ilock i) (e := .panic .ilockNoType) ?_ (by simp [fault])
    exact (if_neg href).trans ((if_neg hbusy).trans (if_pos ⟨hv, by rw [h.ino]; exact ht⟩))
  · have hrun : (Afs.handler (.ilock i)).run a = .ok (⟨⟩, a.lock i) :=
      (if_neg href).trans ((if_neg hbusy).trans (if_neg (by rw [h.ino]; exact fun hc => ht hc.2)))
    exact wp_run hrun (hq hl ht _ (h.lock ht))

lemma unlock (i : ℕ) : (v.unlock i).Is (a.unlock i) where
  __ := h
  busy j := by
    simp only [Afs.unlock, assign_apply, Stage.unlock, Finset.mem_erase]
    split_ifs with hj
    · simp [hj]
    · rw [h.busy]
      simp [hj]
  loaded j hj := h.loaded j (Finset.mem_of_mem_erase hj)

lemma wp_iunlock {Q : PUnit → Afs → Prop} (hi : v.ref i ≠ 0) (hl : i ∈ v.locks) (hq : Q ⟨⟩ (a.unlock i)) :
    Goes Q (Sys.iunlock i) a :=
  wp_run (o := .iunlock i) (if_neg (by simp [h.ref_ne_zero hi, (h.busy i).2 hl])) hq

lemma iunlock {Q : PUnit → Afs → Prop} (hi : v.ref i ≠ 0) (hl : i ∈ v.locks)
    (hq : ∀ a', (v.unlock i).Is a' → Q ⟨⟩ a') : Goes Q (Sys.iunlock i) a :=
  h.wp_iunlock hi hl (hq _ (h.unlock i))

lemma promise (hl : i ∈ v.locks) : (v.promise i).Is a where
  __ := h
  kept j hf := by
    simp only [Stage.promise, assign_apply] at hf
    split_ifs at hf with hj
    · rw [hj]
      exact h.loaded i hl
    · exact h.kept j hf

lemma drop (hl : i ∈ v.locks → v.ref i ≠ 1) : (v.give i).Is (a.drop i) := by
  unfold Afs.drop
  rw [h.ref]
  split_ifs with h1
  · have hl : i ∉ v.locks := fun hc => hl hc h1
    have hgive : v.give i = { v with ref := assign v.ref i 0, flag := assign v.flag i false } := by
      simp [give, h1]
    rw [hgive]
    refine ⟨h.ninodes, h.ino, h.kern, rfl, fun j => ?_, fun j hj => ?_, fun j hj => ?_,
      fun j hf => ?_, h.iu, h.wr⟩
    · simp only [assign_apply]
      split_ifs with hj
      · simp [hj, hl]
      · exact h.busy j
    · simp only [assign_apply] at hj
      split_ifs at hj
      exact h.valid j hj
    · have hne : j ≠ i := fun hc => hl (hc ▸ hj)
      simp only [assign_apply, if_neg hne]
      exact h.loaded j hj
    · simp only [assign_apply] at hf ⊢
      split_ifs at hf ⊢
      exact h.kept j hf
  · have hgive : v.give i = { v with ref := assign v.ref i (v.ref i - 1) } := by simp [give, h1]
    rw [hgive]
    exact { h with ref := rfl }

lemma iput {Q : PUnit → Afs → Prop} (hi : v.ref i ≠ 0) (hl : i ∈ v.locks → v.ref i ≠ 1)
    (hlive : (v.ino i).type ≠ 0 → (v.ino i).nlink ≠ 0 ∨ v.ref i ≠ 1)
    (hq : ∀ a', (v.give i).Is a' → Q ⟨⟩ a') : Goes Q (Sys.iput i) a := by
  have hlast : ¬ a.Last i := by
    rintro ⟨hr, hv, hn⟩
    rw [h.ref] at hr
    rw [h.ino] at hn
    rcases hlive (h.valid i hv) with hne | hne
    · exact hne hn
    · exact hne hr
  have hrun : (Afs.handler (.iput i)).run a = .ok (⟨⟩, a.drop i) :=
    (if_neg (h.ref_ne_zero hi)).trans (if_neg hlast)
  exact wp_run hrun (hq _ (h.drop hl))

lemma free (hr : v.ref i = 1) (hl : i ∉ v.locks) : ((v.setNode i Node.zero).give i).Is (a.free i) := by
  have hfree : a.free i = { a with
      ino := assign a.ino i Node.zero, iu := insert i a.iu, ref := assign a.ref i 0,
      busy := assign a.busy i false, valid := assign a.valid i false } :=
        if_pos (by rw [← hr, ← h.ref]; rfl)
  have hgive : (v.setNode i Node.zero).give i = { v with
      ino := assign v.ino i Node.zero, iu := insert i v.iu, ref := assign v.ref i 0, flag :=
        assign v.flag i false } := by
    simp [give, Stage.setNode, hr]
  rw [hfree, hgive]
  refine ⟨h.ninodes, congrArg (assign · i Node.zero) h.ino, h.kern, congrArg (assign · i 0) h.ref,
    fun j => ?_, fun j hj => ?_, fun j hj => ?_, fun j hf => ?_, congrArg (insert i) h.iu, h.wr⟩
  · simp only [assign_apply]
    split_ifs with hj
    · simp [hj, hl]
    · exact h.busy j
  · simp only [assign_apply] at hj ⊢
    split_ifs at hj ⊢
    exact h.valid j hj
  · have hne : j ≠ i := fun hc => hl (hc ▸ hj)
    simp only [assign_apply, if_neg hne]
    exact h.loaded j hj
  · simp only [assign_apply] at hf ⊢
    split_ifs at hf ⊢
    exact h.kept j hf

lemma wp_release {Q : PUnit → Afs → Prop} (hi : v.ref i ≠ 0) (hl : i ∉ v.locks)
    (hv : v.Last i → a.valid i = true)
    (hq : ∀ a', (v.release i).Is a' → Q ⟨⟩ a') : Goes Q (Sys.iput i) a := by
  unfold Stage.release at hq
  by_cases hlast : v.Last i
  · rw [if_pos hlast] at hq
    have hlast' : a.Last i := ⟨by rw [h.ref]; exact hlast.1, hv hlast, by rw [h.ino]; exact hlast.2.1⟩
    have hrun : (Afs.handler (.iput i)).run a = .ok (⟨⟩, a.free i) :=
      (if_neg (h.ref_ne_zero hi)).trans
        ((if_pos hlast').trans (if_neg fun hbusy => hl ((h.busy i).1 hbusy)))
    exact wp_run hrun (hq _ (h.free hlast.1 hl))
  · rw [if_neg hlast] at hq
    refine h.iput hi (fun hc => absurd hc hl) (fun ht => ?_) hq
    by_contra hc
    push Not at hc
    exact hlast ⟨hc.2, hc.1, ht⟩

lemma iput_release {Q : PUnit → Afs → Prop} (hi : v.ref i ≠ 0) (hl : i ∉ v.locks)
    (hv : v.Last i → v.flag i = true)
    (hq : ∀ a', (v.release i).Is a' → Q ⟨⟩ a') : Goes Q (Sys.iput i) a :=
  h.wp_release hi hl (fun hlast => h.kept i (hv hlast)) hq

lemma iunlockput {Q : PUnit → Afs → Prop} (hi : v.ref i ≠ 0) (hl : i ∈ v.locks)
    (hlive : (v.ino i).nlink ≠ 0 ∨ v.ref i ≠ 1)
    (hq : ∀ a', ((v.unlock i).give i).Is a' → Q ⟨⟩ a') : Goes Q (Sys.iunlockput i) a :=
  wp_bind (h.iunlock hi hl fun _ h' => h'.iput hi
    (fun hc => absurd hc (Finset.notMem_erase i _)) (fun _ => hlive) hq)

lemma iunlockput_release {Q : PUnit → Afs → Prop} (hi : v.ref i ≠ 0) (hl : i ∈ v.locks)
    (hq : ∀ a', ((v.unlock i).release i).Is a' → Q ⟨⟩ a') : Goes Q (Sys.iunlockput i) a := by
  have hv : (a.unlock i).valid i = true := h.loaded i hl
  refine wp_bind (h.wp_iunlock hi hl ?_)
  exact (h.unlock i).wp_release hi (Finset.notMem_erase i _) (fun _ => hv) hq

lemma onNode_eq {α : Type} (f : Node → Afs → Except Halt (α × Afs)) (hi : v.ref i ≠ 0)
    (hl : i ∈ v.locks) : Afs.onNode i f a = f (v.ino i) a := by
  unfold Afs.onNode
  rw [if_neg (h.ref_ne_zero hi), if_pos ⟨(h.busy i).2 hl, h.loaded i hl⟩, h.ino]

lemma inode {Q : Fields → Afs → Prop} (hi : v.ref i ≠ 0) (hl : i ∈ v.locks) (hq : Q (v.ino i).fields a) :
    Goes Q (Sys.inode i) a := by
  have hrun : (Afs.handler (.inode i)).run a = .ok ((v.ino i).fields, a) :=
    h.onNode_eq (fun n a => .ok (n.fields, a)) hi hl
  exact wp_run hrun hq

lemma setNode {n : Node} (ht : (v.ino i).type ≠ 0 → n.type ≠ 0) : (v.setNode i n).Is (a.setNode i n) where
  __ := h
  ino := congrArg (assign · i n) h.ino
  valid j hj := by
    simp only [Stage.setNode, assign_apply]
    split_ifs with hji
    · subst hji
      exact ht (h.valid j hj)
    · exact h.valid j hj
  iu := congrArg (insert i) h.iu

lemma iupdate {major minor nlink : Int16} {Q : PUnit → Afs → Prop} (hi : v.ref i ≠ 0) (hl : i ∈ v.locks)
    (hq : ∀ a', (v.setNode i { v.ino i with major := major, minor := minor, nlink := nlink }).Is
    a' → Q ⟨⟩ a') : Goes Q (Sys.iupdate i major minor nlink) a :=
  wp_run (o := .iupdate i major minor nlink) (r := ⟨⟩)
    (h.onNode_eq (fun n a => .ok (PUnit.unit,
    a.setNode i { n with major := major, minor := minor, nlink := nlink })) hi hl)
    (hq _ (h.setNode id))

lemma ialloc {type : Int16} {Q : ℕ → Afs → Prop}
    (hq : ∀ i, v.fresh = some i → ∀ a', ((v.setNode i { Node.zero with type := type }).take i).Is
    a' → Q i a') : Goes Q (Sys.ialloc type) a := by
  have hfresh : a.freshInode = v.fresh := by
    unfold Afs.freshInode Stage.fresh
    rw [h.ninodes, h.ino]
  cases hf : v.fresh with
  | none =>
    rw [hf] at hfresh
    have hrun : (Afs.handler (.ialloc type)).run a = .error (.panic .iallocNoInodes) := by
      show Afs.ialloc type a = _
      rw [Afs.ialloc, hfresh]
      rfl
    exact wp_error hrun (by simp [fault])
  | some i =>
    rw [hf] at hfresh
    have hrun : (Afs.handler (.ialloc type)).run a =
        .ok (i, (a.setNode i { Node.zero with type := type }).get i) := by
      show Afs.ialloc type a = _
      rw [Afs.ialloc, hfresh]
      rfl
    have hfree : (v.ino i).type = 0 := by
      have := List.find?_some hf
      simp only [decide_eq_true_eq] at this
      exact this.2
    exact wp_run hrun (hq i hf _ (h.setNode (fun ht => absurd hfree ht)).take)

variable {k : ℕ} (hd : (v.ino i).IsDir v.ninodes) (hi : v.ref i ≠ 0) (hl : i ∈ v.locks)
include hd hi hl

lemma readDirent {p : Panic} {Q : Dirent → Afs → Prop} (hk : k < nslots (v.ino i).data)
    (hq : Q (slot (v.ino i).data k) a) : Goes Q (Sys.readDirent i (DIRENT * k) p) a := by
  have hM := maxfile_lt
  have hsize := hd.size
  have hend := hd.slot_end hk
  have h16 : (16 : UInt32).toNat = DIRENT := rfl
  have hread : Afs.readNode (v.ino i) (UInt32.ofNat (DIRENT * k)) 16 =
      .ok (some (((v.ino i).data.drop (DIRENT * k)).take DIRENT)) := by
    unfold Afs.readNode
    rw [if_neg (by rw [hd.type]; decide), hd.ofNat_offset hk.le, h16, if_pos ⟨by omega, by omega⟩]
  have hrun := h.onNode_eq (fun node a => (Afs.readNode node (UInt32.ofNat (DIRENT * k)) 16).map
    (·, a)) hi hl
  rw [hread] at hrun
  unfold Sys.readDirent
  refine wp_bind (wp_run (o := .readi i (UInt32.ofNat (DIRENT * k)) 16) hrun ?_)
  dsimp only
  rw [if_pos (by rw [List.length_take, List.length_drop]; omega)]
  exact wp_pure hq

omit h hd hi hl in
lemma card_touched_slot (hk : DIRENT * k + DIRENT ≤ MAXFILE * BSIZE) :
    (touched (DIRENT * k) DIRENT).card = 1 := by
  rw [Finset.card_eq_one]
  refine ⟨DIRENT * k / BSIZE, ?_⟩
  ext bn
  simp only [touched, Finset.mem_filter, Finset.mem_range, Finset.mem_singleton, DIRENT, BSIZE] at hk ⊢
  omega

lemma writeSlot {src : List UInt8} {Q : Option ℕ → Afs → Prop} (hsrc : src.length = DIRENT)
    (hk : k ≤ nslots (v.ino i).data) (hfull : MAXFILE * BSIZE < DIRENT * k + DIRENT → Q none a)
    (hq : DIRENT * k + DIRENT ≤ MAXFILE * BSIZE → ∀ a',
      (v.write i { v.ino i with data := setSlot (v.ino i).data k src } 2).Is a' → Q (some DIRENT) a') :
    Goes Q (Sys.writei i src (UInt32.ofNat (DIRENT * k))) a := by
  have hM := maxfile_lt
  have hD : DIRENT = 16 := rfl
  have hle : DIRENT * k ≤ (v.ino i).data.length := by
    rw [hd.aligned]
    exact Nat.mul_le_mul_left DIRENT hk
  have hrun := h.onNode_eq (fun n a => Afs.writeNode i n src (UInt32.ofNat (DIRENT * k)) a) hi hl
  have hdev : (v.ino i).type ≠ T_DEV := by rw [hd.type]; decide
  rcases Nat.lt_or_ge (MAXFILE * BSIZE) (DIRENT * k + DIRENT) with hlt | hge
  · have hnode : Afs.writeNode i (v.ino i) src (UInt32.ofNat (DIRENT * k)) a = .ok (none, a) := by
      unfold Afs.writeNode
      rw [if_neg hdev, if_neg (by omega), hd.ofNat_offset hk, hsrc, if_neg (by omega)]
    exact wp_run (o := .writei i src _) (hrun.trans hnode) (hfull hlt)
  · have hnode : Afs.writeNode i (v.ino i) src (UInt32.ofNat (DIRENT * k)) a = .ok (some DIRENT,
        { a.setNode i { v.ino i with data := setSlot (v.ino i).data k src } with wr := a.wr + 2 }) := by
      unfold Afs.writeNode
      rw [if_neg hdev, if_neg (by omega), hd.ofNat_offset hk, hsrc, if_pos ⟨hle, by omega, hge⟩,
        card_touched_slot hge]
      rfl
    refine wp_run (o := .writei i src _) (hrun.trans hnode) (hq hge _ ?_)
    have hset := h.setNode (i := i) (n := { v.ino i with data := setSlot (v.ino i).data k src }) id
    exact { hset with wr := congrArg (· + 2) h.wr }

end rules

end Is

end Stage

end Xv6.Fs
