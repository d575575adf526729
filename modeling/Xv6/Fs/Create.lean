import Xv6.Fs.Walk

namespace Xv6.Fs

open Lib Prog

namespace Node.IsDir

variable {n : Node} {ninodes k inum : ℕ} {src name : List UInt8}

lemma nil {type major minor nlink : Int16} (ht : type = T_DIR) (ninodes : ℕ) :
    (Node.mk type major minor nlink []).IsDir ninodes :=
  ⟨ht, by simp [nslots], Nat.zero_le _, fun k hk => absurd hk (by simp [nslots])⟩

lemma setNlink (h : n.IsDir ninodes) (nlink : Int16) : ({ n with nlink := nlink } : Node).IsDir ninodes :=
  { h with }

lemma setSlot (h : n.IsDir ninodes) (hk : k ≤ nslots n.data) (hsrc : src.length = DIRENT)
    (hroom : DIRENT * k + DIRENT ≤ MAXFILE * BSIZE) (hnew : (Dirent.ofBytes src).inum.toNat < ninodes) :
    ({ n with data := Fs.setSlot n.data k src } : Node).IsDir ninodes := by
  have hle : DIRENT * k ≤ n.data.length := by
    rw [h.aligned]
    exact Nat.mul_le_mul_left DIRENT hk
  have hlen : (Fs.setSlot n.data k src).length = max n.data.length (DIRENT * k + DIRENT) := by
    rw [Fs.setSlot, length_overwrite hle, hsrc]
  have hn : nslots (Fs.setSlot n.data k src) = _ := nslots_setSlot hk hsrc
  have ha := h.aligned
  refine ⟨h.type, ?_, ?_, fun j hj => ?_⟩
  · show (Fs.setSlot n.data k src).length = DIRENT * nslots (Fs.setSlot n.data k src)
    rw [hlen, hn]
    simp only [DIRENT] at ha ⊢
    omega
  · show (Fs.setSlot n.data k src).length ≤ _
    rw [hlen]
    exact max_le h.size hroom
  · have hj : j < nslots (Fs.setSlot n.data k src) := hj
    show (slot (Fs.setSlot n.data k src) j).inum.toNat < ninodes
    rw [slot_setSlot hk hsrc hj]
    split_ifs
    · exact hnew
    · exact h.inum j (by omega)

lemma enter (h : n.IsDir ninodes) (hroom : HasRoom n.data) (hi : inum < ninodes) (name : List UInt8) :
    ({ n with data := Fs.enter n.data name inum } : Node).IsDir ninodes := by
  refine h.setSlot firstFree_le (length_newEntry name inum) hroom ?_
  rw [ofBytes_newEntry]
  exact (Nat.mod_le inum (2 ^ 16)).trans_lt hi

end Node.IsDir

lemma lookup_dotdot {ip : ℕ} : lookup (enter [] DOT ip) DOTDOT = none := by
  rw [lookup_eq_none_iff]
  intro k hk hhit
  have hzero : 0 ≤ nslots ([] : List UInt8) := le_rfl
  have hn : nslots (enter [] DOT ip) = 1 := nslots_setSlot hzero (length_newEntry DOT ip)
  obtain rfl : k = 0 := by omega
  have hslot : slot (enter [] DOT ip) 0 = _ := slot_setSlot_self hzero (length_newEntry DOT ip)
  have hname := hhit.2
  rw [hslot, ofBytes_newEntry, namecmp_strncpy] at hname
  exact absurd hname (by decide)

namespace Stage

@[simps] def setLocks (v : Stage) (s : Finset ℕ) : Stage := { v with locks := s }

def setNlink (v : Stage) (i : ℕ) (n : Int16) : Stage := v.setNode i { v.ino i with nlink := n }

def enter (v : Stage) (dp : ℕ) (name : List UInt8) (inum : ℕ) : Stage :=
  v.write dp { v.ino dp with data := Fs.enter (v.ino dp).data name inum } 2

def erase (v : Stage) (dp k : ℕ) : Stage :=
  v.write dp { v.ino dp with data := setSlot (v.ino dp).data k noEntry } 2

def alloc (v : Stage) (ip : ℕ) (type major minor : Int16) : Stage :=
  (v.setNode ip ⟨type, major, minor, 1, []⟩).take ip

lemma setLocks_empty {v : Stage} (h : v.locks = ∅) : v.setLocks ∅ = v := by
  rw [← h]
  rfl

lemma setLocks_unlock (v : Stage) {s : Finset ℕ} {i : ℕ} (h : i ∉ s) :
    (v.setLocks (insert i s)).unlock i = v.setLocks s := by
  simp [setLocks, unlock, Finset.erase_insert h]

lemma lock_eq {v : Stage} (h : v.locks = ∅) (i : ℕ) : v.lock i = v.setLocks {i} := by
  simp [lock, setLocks, h]

lemma release_setLocks (v : Stage) (s : Finset ℕ) (i : ℕ) :
    (v.setLocks s).release i = (v.release i).setLocks s := by
  unfold release
  by_cases h : v.Last i
  · rw [if_pos h, if_pos (show (v.setLocks s).Last i from h)]
    rfl
  · rw [if_neg h, if_neg (show ¬ (v.setLocks s).Last i from h)]
    rfl

def dots (v : Stage) (dp ip : ℕ) : Stage :=
  ((v.setNlink dp ((v.ino dp).nlink + 1)).enter ip DOT ip).enter ip DOTDOT dp

def entered (v : Stage) (dp : ℕ) (name : List UInt8) (ip : ℕ) (type major minor : Int16) : Stage :=
  if type = T_DIR then ((((v.take dp).promise dp).alloc ip type major minor).dots dp ip).enter dp name ip
  else (((v.take dp).promise dp).alloc ip type major minor).enter dp name ip

section release

variable (v : Stage) (i : ℕ)

@[simp] lemma ref_release : (v.release i).ref = assign v.ref i (v.ref i - 1) := by
  unfold release
  split_ifs <;> rfl

@[simp] lemma kern_release : (v.release i).kern = v.kern := by
  unfold release
  split_ifs <;> rfl

@[simp] lemma ninodes_release : (v.release i).ninodes = v.ninodes := by
  unfold release
  split_ifs <;> rfl

@[simp] lemma locks_release : (v.release i).locks = v.locks := by
  unfold release
  split_ifs <;> rfl

@[simp] lemma flag_release :
    (v.release i).flag = if v.ref i = 1 then assign v.flag i false else v.flag := by
  unfold release
  by_cases h : v.Last i
  · rw [if_pos h]
    rfl
  · rw [if_neg h]
    rfl

lemma ino_release : (v.release i).ino = if v.Last i then assign v.ino i Node.zero else v.ino := by
  unfold release
  split_ifs <;> rfl

variable {v i}

lemma ino_release_of_ne {j : ℕ} (h : j ≠ i) : (v.release i).ino j = v.ino j := by
  rw [ino_release]
  split_ifs
  · exact assign_of_ne h ..
  · rfl

end release

section entered

variable (v : Stage) {dp ip : ℕ} (name : List UInt8) (type major minor : Int16)

@[simp] lemma kern_entered : (v.entered dp name ip type major minor).kern = v.kern := by
  unfold entered
  split_ifs <;> rfl

@[simp] lemma ninodes_entered : (v.entered dp name ip type major minor).ninodes = v.ninodes := by
  unfold entered
  split_ifs <;> rfl

@[simp] lemma locks_entered : (v.entered dp name ip type major minor).locks = v.locks := by
  unfold entered
  split_ifs <;> rfl

lemma ref_entered : (v.entered dp name ip type major minor).ref = ((v.take dp).take ip).ref := by
  unfold entered
  split_ifs <;> rfl

variable (hne : ip ≠ dp)
include hne

lemma ino_entered_new : (v.entered dp name ip type major minor).ino ip =
    ⟨type, major, minor, 1, if type = T_DIR then Fs.enter (Fs.enter [] DOT ip) DOTDOT dp else []⟩ := by
  unfold entered
  split_ifs <;> simp [dots, enter, setNlink, alloc, assign_of_ne hne]

end entered

structure Sane (v : Stage) : Prop extends Walkable v where
  small : v.ninodes ≤ 2 ^ 16
  out : ∀ i, v.ninodes ≤ i → (v.ino i).type = 0
  held : ∀ i, v.ref i ≠ 0 → (v.ino i).type ≠ 0
  flag : ∀ i, v.ref i ≠ 0 → (v.ino i).nlink = 0 → v.flag i = true

def Missing (v : Stage) (p : ℕ) (path : List UInt8) : Prop :=
  ∃ dp name, follow v.ino true (origin v.kern p path) (components path) = some (dp, name) ∧
    lookup (v.ino dp).data name = none

def HasFile (v : Stage) (p : ℕ) (path : List UInt8) (ip : ℕ) : Prop :=
  ∃ dp name, follow v.ino true (origin v.kern p path) (components path) = some (dp, name) ∧
    names (v.ino dp).data name = some ip ∧ (v.ino ip).type = T_FILE

lemma HasFile.not_missing {v : Stage} {p ip : ℕ} {path : List UInt8} (h : v.HasFile p path ip) :
    ¬ v.Missing p path := by
  rintro ⟨dp, name, hf, hmiss⟩
  obtain ⟨dp', name', hf', hn, -⟩ := h
  cases hf.symm.trans hf'
  rw [names, hmiss] at hn
  cases hn

lemma HasFile.within {v : Stage} {p ip : ℕ} {path : List UInt8} (h : v.HasFile p path ip) :
    v.Within p ip := by
  obtain ⟨dp, name, hf, hn, -⟩ := h
  exact .inr (.inr (named_of_names (follow_parent_dir hf) hn))

structure Creates (v : Stage) (p : ℕ) (path : List UInt8) (dp : ℕ) (name : List UInt8) (ip : ℕ) :
    Prop where
  parent : follow v.ino true (origin v.kern p path) (components path) = some (dp, name)
  missing : lookup (v.ino dp).data name = none
  fresh : v.fresh = some ip
  room : HasRoom (v.ino dp).data

lemma Creates.ne {v : Stage} {p dp ip : ℕ} {path name : List UInt8}
    (h : v.Creates p path dp name ip) : ip ≠ dp := by
  have hp := List.find?_some h.fresh
  simp only [decide_eq_true_eq] at hp
  rintro rfl
  rw [follow_parent_dir h.parent] at hp
  exact absurd hp.2 (by decide)

lemma Creates.live {v : Stage} {p dp ip : ℕ} {path name : List UInt8} (h : v.Creates p path dp name ip)
    (type major minor : Int16) : ((v.entered dp name ip type major minor).release dp).ref ip ≠ 0 ∧
      (((v.entered dp name ip type major minor).release dp).ino ip).nlink ≠ 0 := by
  refine ⟨?_, ?_⟩
  · simp [assign_of_ne h.ne, ref_entered]
  · rw [ino_release_of_ne h.ne, ino_entered_new v name type major minor h.ne]
    simp

lemma fresh_spec {v : Stage} {ip : ℕ} (h : v.fresh = some ip) : 0 < ip ∧ ip < v.ninodes ∧
    (v.ino ip).type = 0 := by
  have hp := List.find?_some h
  have hm := List.mem_of_find?_eq_some h
  simp only [decide_eq_true_eq] at hp
  exact ⟨hp.1, List.mem_range.1 hm, hp.2⟩

namespace Is

variable {v : Stage} {a : Afs} {p : ℕ}

variable {dp ip : ℕ} {name : List UInt8} {type major minor : Int16} {s : Finset ℕ}

lemma put {i : ℕ} {Q : PUnit → Afs → Prop} (h : (v.setLocks (insert i s)).Is a) (hi : v.ref i ≠ 0)
    (his : i ∉ s)
    (hq : ∀ a', ((v.release i).setLocks s).Is a' → Q ⟨⟩ a') : Goes Q (Sys.iunlockput i) a := by
  refine h.iunlockput_release hi (Finset.mem_insert_self ..) ?_
  rw [setLocks_unlock v his, release_setLocks]
  exact hq

lemma relink {i : ℕ} {nlink : Int16} {Q : PUnit → Afs → Prop} (h : (v.setLocks s).Is a)
    (hi : v.ref i ≠ 0) (hl : i ∈ s)
    (hmajor : major = (v.ino i).major) (hminor : minor = (v.ino i).minor)
    (hq : ∀ a', ((v.setNlink i nlink).setLocks s).Is a' → Q ⟨⟩ a') :
    Goes Q (Sys.iupdate i major minor nlink) a := by
  subst hmajor hminor
  exact h.iupdate hi hl hq

lemma link {i : ℕ} {Q : Bool → Afs → Prop} {inum : ℕ} (h : (v.setLocks s).Is a)
    (hd : (v.ino i).IsDir v.ninodes)
    (hi : v.ref i ≠ 0) (hl : i ∈ s) (hname : lookup (v.ino i).data name = none)
    (hq : HasRoom (v.ino i).data → ∀ a', ((v.enter i name inum).setLocks s).Is a' → Q true a') :
    Goes Q (Sys.dirlink i name inum) a :=
  h.dirlink_new hd hi hl hname hq

lemma makeDots {β : Type} {Q : β → Afs → Prop} {next : FsProg β} (h : (v.setLocks {ip, dp}).Is a)
    (hne : ip ≠ dp) (hi : v.ref ip ≠ 0)
    (hr : v.ref dp ≠ 0) (hn : v.ino ip = ⟨T_DIR, major, minor, 1, []⟩) (hlt : ip < v.ninodes)
    (hq : ∀ a', ((v.dots dp ip).setLocks {ip, dp}).Is a' → Goes Q next a') :
    Goes Q (do
      let d ← Sys.inode dp
      Sys.iupdate dp d.major d.minor (d.nlink + 1)
      if !(← Sys.dirlink ip DOT ip) then Sys.panic .createDots
      if !(← Sys.dirlink ip DOTDOT dp) then Sys.panic .createDots
      next) a := by
  refine wp_bind (h.inode hr (by simp) (wp_bind (relink h hr (by simp) rfl rfl ?_)))
  intro a1 h1
  change ((v.setNlink dp ((v.ino dp).nlink + 1)).setLocks {ip, dp}).Is a1 at h1
  have hnew : (v.setNlink dp ((v.ino dp).nlink + 1)).ino ip = ⟨T_DIR, major, minor, 1, []⟩ :=
    (assign_of_ne hne ..).trans hn
  have hempty : lookup [] DOT = none := by simp [lookup, nslots]
  refine wp_bind (link h1 (by rw [hnew]; exact .nil rfl _) hi (by simp) (by rw [hnew]; exact hempty) ?_)
  intro hroom a2 h2
  rw [hnew] at hroom
  rw [if_neg (by simp)]
  have hdot : ((v.setNlink dp ((v.ino dp).nlink + 1)).enter ip DOT ip).ino ip =
      ⟨T_DIR, major, minor, 1, Fs.enter [] DOT ip⟩ := by
    rw [Stage.enter, hnew]
    exact assign_self ..
  refine wp_bind (link h2 ?_ hi (by simp) (by rw [hdot]; exact lookup_dotdot) ?_)
  · rw [hdot]
    exact (Node.IsDir.nil rfl _).enter hroom hlt DOT
  intro _ a3 h3
  rw [if_neg (by simp)]
  exact hq a3 h3

lemma createNew {Q : Option ℕ → Afs → Prop} (h : ((v.take dp).setLocks {dp}).Is a)
    (hd : (v.ino dp).IsDir v.ninodes) (hname : lookup (v.ino dp).data name = none)
    (hq : ∀ ip, v.fresh = some ip → HasRoom (v.ino dp).data →
      ∀ a', (((v.entered dp name ip type major minor).release dp).setLocks {ip}).Is a' → Q (some ip) a') :
    Goes Q (Sys.createNew dp name type major minor) a := by
  refine wp_bind (h.ialloc fun ip hfresh a1 h1 => ?_)
  obtain ⟨hpos, hlt, hfree⟩ := fresh_spec (v := v) hfresh
  have hne : ip ≠ dp := by
    rintro rfl
    rw [hd.type] at hfree
    exact absurd hfree (by decide)
  have href : ((v.take dp).setNode ip { Node.zero with type := type } |>.take ip).ref ip ≠ 0 := by
    simp [Stage.take, Stage.setNode]
  have hrefdp : (((v.take dp).promise dp).alloc ip type major minor).ref dp ≠ 0 := by
    simp [Stage.take, Stage.setNode, Stage.alloc, Stage.promise, assign_of_ne hne.symm]
  refine wp_bind (h1.ilock href fun _ _ a2 h2 => ?_)
  refine wp_bind (h2.iupdate href (Finset.mem_insert_self ..) fun a3 h3 => ?_)
  replace h3 : ((((v.take dp).promise dp).alloc ip type major minor).setLocks {ip, dp}).Is a3 := by
    have := h3.promise (i := dp) (by simp [Stage.take, Stage.setNode, Stage.lock, Stage.setLocks])
    simpa [Stage.take, Stage.setNode, Stage.lock, Stage.setLocks, Stage.alloc, Stage.promise,
      Node.zero] using this
  have hinode : (((v.take dp).promise dp).alloc ip type major minor).ino dp = v.ino dp :=
    assign_of_ne hne.symm ..
  -- the last `dirlink` and the release of the directory, from either branch
  have hend : ∀ {w : Stage} {a : Afs}, (w.setLocks {ip, dp}).Is a → w.ref dp ≠ 0 →
    (w.ino dp).IsDir w.ninodes →
      (w.ino dp).data = (v.ino dp).data → w.enter dp name ip = v.entered dp name ip type major minor →
      Goes Q (do
        if !(← Sys.dirlink dp name ip) then Sys.panic .createDirlink
        Sys.iunlockput dp
        return some ip) a := by
    intro w a h hr hd hdata heq
    refine wp_bind (link h hd hr (by simp) (by rw [hdata]; exact hname) fun hroom a' h' => ?_)
    rw [heq] at h'
    rw [hdata] at hroom
    rw [if_neg (by simp)]
    rw [Finset.pair_comm] at h'
    have hr' : (v.entered dp name ip type major minor).ref dp ≠ 0 := by rw [← heq]; exact hr
    exact wp_bind (put h' hr' (by simpa using hne.symm)
      fun a'' h'' => wp_pure (hq ip hfresh hroom a'' h''))
  by_cases hdir : type = T_DIR
  swap
  · rw [if_neg hdir]
    refine hend h3 hrefdp (by rw [hinode]; exact hd) (by rw [hinode]) ?_
    rw [entered, if_neg hdir]
  subst hdir
  have hnew : (((v.take dp).promise dp).alloc ip T_DIR major minor).ino ip =
    ⟨T_DIR, major, minor, 1, []⟩ :=
    assign_self ..
  refine makeDots h3 hne href hrefdp hnew hlt fun a4 h4 => ?_
  have hdp : ((((v.take dp).promise dp).alloc ip T_DIR major minor).dots dp ip).ino dp =
      { v.ino dp with nlink := (v.ino dp).nlink + 1 } := by
    simp only [dots, Stage.enter, setNlink, write_ino, setNode_ino, assign_of_ne hne.symm,
      assign_self, hinode]
  exact hend h4 hrefdp (by rw [hdp]; exact hd.setNlink _) (by rw [hdp]) rfl

section walk

variable {path : List UInt8} (hw : v.Walkable) (hlocks : v.locks = ∅)
  (hcwd : v.ref (v.kern.procs p).cwd ≠ 0) (h : v.Is a)
include hw hlocks

omit hw in
lemma lockWithin {i : ℕ} {Q : PUnit → Afs → Prop} (h : (v.take i).Is a)
    (hq : (v.ino i).type ≠ 0 → ∀ a', ((v.take i).setLocks {i}).Is a' → Q ⟨⟩ a') :
    Goes Q (Sys.ilock i) a := by
  refine h.ilock (by simp) fun _ ht a' h' => ?_
  rw [lock_eq (show (v.take i).locks = ∅ from hlocks)] at h'
  exact hq ht a' h'

lemma putWithin {i : ℕ} {Q : PUnit → Afs → Prop} (h : ((v.take i).setLocks {i}).Is a) (halive : v.Alive i)
    (ht : (v.ino i).type ≠ 0) (hq : ∀ a', v.Is a' → Q ⟨⟩ a') : Goes Q (Sys.iunlockput i) a := by
  refine h.iunlockput (by simp [setLocks]) (Finset.mem_singleton_self i) ?_ fun a' h' => ?_
  · refine (halive ht).imp id fun hr => ?_
    simpa [setLocks] using hr
  · rw [← lock_eq (show (v.take i).locks = ∅ from hlocks), take_lock_unlock_give hw.idle
      (by simp [hlocks])] at h'
    exact hq a' h'

omit hlocks in
lemma lookupWithin {i : ℕ} {Q : Option (ℕ × ℕ) → Afs → Prop} (h : ((v.take i).setLocks {i}).Is a)
    (hdir : (v.ino i).type = T_DIR) (hnone : lookup (v.ino i).data name = none → Q none a)
    (hsome : ∀ j k, lookup (v.ino i).data name = some k → (slot (v.ino i).data k).inum.toNat = j →
    v.Named j →
      ∀ a', (((v.take i).take j).setLocks {i}).Is a' → Q (some (j, DIRENT * k)) a') :
      Goes Q (Sys.dirlookup i name) a :=
  h.dirlookup (hw.dir i hdir) (by simp [setLocks]) (Finset.mem_singleton_self i) hnone
    fun k hk a' h' => hsome _ k hk rfl (named_of_lookup hdir hk) a' h'

lemma descend {i j : ℕ} {Q : PUnit → Afs → Prop} (h : (((v.take i).take j).setLocks {i}).Is a)
    (halive : v.Alive i)
    (ht : (v.ino i).type ≠ 0) (hq : ∀ a', (v.take j).Is a' → Q ⟨⟩ a') : Goes Q (Sys.iunlockput i) a := by
  have href : v.ref i + 1 ≤ ((v.take i).take j).ref i := by
    simp only [take_ref, assign_apply]
    split_ifs <;> omega
  refine h.iunlockput (by show ((v.take i).take j).ref i ≠ 0; omega)
    (Finset.mem_singleton_self i) ?_ fun a' h' => ?_
  · exact (halive ht).imp id fun hr => by
      show ((v.take i).take j).ref i ≠ 1
      omega
  · rw [← lock_eq (show ((v.take i).take j).locks = ∅ from hlocks)] at h'
    rw [lock_unlock ((v.take i).take j) (show i ∉ v.locks by simp [hlocks]), take_take_give hw.idle] at h'
    exact hq a' h'

include hcwd h

lemma create {Q : Option ℕ → Afs → Prop}
    (hnone : ¬ v.Missing p path → (type = T_FILE → ∀ ip, ¬ v.HasFile p path ip) → ∀ a', v.Is a' →
    Q none a')
    (hold : ∀ ip, type = T_FILE → v.HasFile p path ip → ∀ a', ((v.take ip).setLocks {ip}).Is a' →
    Q (some ip) a') (hnew : ∀ dp name ip, v.Creates p path dp name ip →
      ∀ a', (((v.entered dp name ip type major minor).release dp).setLocks {ip}).Is a' → Q (some ip) a') :
    Goes Q (Sys.create p path type major minor) a := by
  refine wp_bind (namex hw hlocks h hcwd (fun hf a' h' => wp_pure (hnone ?_ (fun _ ip => ?_) a' h')) ?_)
  · rintro ⟨dp, name, hf', -⟩
    cases hf.symm.trans hf'
  · rintro ⟨dp, name, hf', -⟩
    cases hf.symm.trans hf'
  rintro ⟨dp, name⟩ hf a1 h1
  have hdir := follow_parent_dir hf
  have hdp := Within.follow hf
  refine wp_bind (lockWithin hlocks h1 fun ht a2 h2 => ?_)
  refine wp_bind (lookupWithin hw h2 hdir (fun hmiss => ?_) (fun ip k hk hip hnamed a3 h3 => ?_))
  · exact createNew h2 (hw.dir dp hdir) hmiss fun ip hip hroom => hnew dp name ip ⟨hf, hmiss, hip, hroom⟩
  · have hwithin : v.Within p ip := .inr (.inr hnamed)
    have hthere : ¬ v.Missing p path := by
      rintro ⟨dp', name', hf', hmiss⟩
      cases hf.symm.trans hf'
      cases hk.symm.trans hmiss
    refine wp_bind (descend hw hlocks h3 (hdp.alive hw hcwd) ht fun a4 h4 => ?_)
    refine wp_bind (lockWithin hlocks h4 fun ht' a5 h5 => ?_)
    refine wp_bind (h5.inode (by simp [setLocks]) (Finset.mem_singleton_self ip) ?_)
    change Goes Q (if type = T_FILE ∧ (v.ino ip).type = T_FILE then _ else _) a5
    have hentry : names (v.ino dp).data name = some ip := by
      rw [names, hk, ← hip]
      rfl
    split_ifs with hfile
    · exact wp_pure (hold ip hfile.1 ⟨dp, name, hf, hentry, hfile.2⟩ a5 h5)
    · refine wp_bind (putWithin hw hlocks h5 (hwithin.alive hw hcwd) ht' fun a' h' =>
        wp_pure (hnone hthere (fun htype j => ?_) a' h'))
      rintro ⟨dp', name', hf', hentry', hj⟩
      cases hf.symm.trans hf'
      cases hentry.symm.trans hentry'
      exact hfile ⟨htype, hj⟩

end walk

end Is

end Stage

end Xv6.Fs
