import Xv6.Fs.Abstract
import Xv6.Fs.Itrunc

namespace Xv6.Fs

open Lib Prog

structure Shows (st : Store) (a : Afs) (i : ℕ) (e : Entry) : Prop where
  lt : i < a.ninodes
  pos : 0 < e.ref
  ref : a.ref i = e.ref
  busy : a.busy i = e.busy
  valid : a.valid i = e.dip.isSome
  loaded : e.busy = true → e.dip.isSome = true
  dip : ∀ d, e.dip = some d → d = st.inode i ∧ d.type ≠ 0

def Cached (st : Store) (a : Afs) (i : ℕ) : Option Entry → Prop
  | none => a.ref i = 0 ∧ a.busy i = false ∧ a.valid i = false
  | some e => Shows st a i e

def Logged (st : Store) (iu : Finset ℕ) (wr : ℕ) : Prop :=
  ∃ F : Finset ℕ, F.card ≤ wr ∧ ∀ c ∈ st.logged,
    (st.sb.bmapstart ≤ c ∧ c < st.sb.dstart) ∨ (∃ i ∈ iu, c = st.sb.iblock i) ∨ c ∈ F

structure Rel (fs : FsState) (a : Afs) : Prop where
  wf : Wf fs.store
  ninodes : a.ninodes = fs.store.sb.ninodes
  ino : ∀ i < a.ninodes, a.ino i = node fs.store i
  out : ∀ i, a.ninodes ≤ i → a.ino i = Node.zero
  cache : ∀ i, Cached fs.store a i (fs.icache i)
  kern : a.kern = fs.kern
  logged : Logged fs.store a.iu a.wr

def short (e : Halt) : Prop := e = .panic .ballocOutOfBlocks ∨ e = .panic .igetNoInodes

def fault (e : Halt) : Prop := e = .stale ∨ e = .unlocked ∨ e = .wild

variable {fs : FsState} {a : Afs} {i : ℕ}

lemma Shows.ref_ne {e : Entry} {st : Store} (hs : Shows st a i e) : a.ref i ≠ 0 := by
  rw [hs.ref]
  exact hs.pos.ne'

lemma Rel.lt {e : Entry} (h : Rel fs a) (hs : Shows fs.store a i e) : i < fs.store.sb.ninodes :=
  h.ninodes ▸ hs.lt

lemma Cached.of_none (h : Rel fs a) (he : fs.icache i = none) : a.ref i = 0 ∧ a.busy i = false ∧
    a.valid i = false := by
  have := h.cache i
  rwa [he] at this

lemma Cached.of_some (h : Rel fs a) {e : Entry} (he : fs.icache i = some e) : Shows fs.store a i e := by
  have := h.cache i
  rwa [he] at this

lemma Cached.congr {st st' : Store} {a' : Afs} {oe : Option Entry} (h : Cached st a i oe)
    (hn : a'.ninodes = a.ninodes) (hr : a'.ref i = a.ref i ∧ a'.busy i = a.busy i ∧
    a'.valid i = a.valid i)
    (hd : i < a.ninodes → st'.inode i = st.inode i) : Cached st' a' i oe := by
  obtain ⟨hr, hb, hv⟩ := hr
  cases oe with
  | none => exact ⟨hr.trans h.1, hb.trans h.2.1, hv.trans h.2.2⟩
  | some e =>
    refine ⟨by rw [hn]; exact h.lt, h.pos, hr.trans h.ref, hb.trans h.busy, hv.trans h.valid,
      h.loaded, ?_⟩
    rw [hd h.lt]
    exact h.dip

lemma Rel.set_entry (h : Rel fs a) (oe : Option Entry) {u : ℕ} {r : ℕ → ℕ} {b v : ℕ → Bool}
    (hother : ∀ j, j ≠ i → r j = a.ref j ∧ b j = a.busy j ∧ v j = a.valid j)
    (hi : Cached fs.store { a with ref := r, busy := b, valid := v } i oe) :
    Rel { fs with icache := assign fs.icache i oe, used := u }
    { a with ref := r, busy := b, valid := v } := by
  refine { h with cache := fun j => ?_ }
  show Cached fs.store _ j (assign fs.icache i oe j)
  by_cases hji : j = i
  · subst hji
    rwa [assign_self]
  · rw [assign_of_ne hji]
    exact (h.cache j).congr rfl (hother j hji) (fun _ => rfl)

lemma Rel.set_kern (h : Rel fs a) (k : Kern) : Rel { fs with kern := k } { a with kern := k } :=
  { h with kern := rfl, cache := fun i => (h.cache i).congr rfl ⟨rfl, rfl, rfl⟩ (fun _ => rfl) }

lemma Rel.begin (h : Rel fs a) :
    Rel { fs with store := { fs.store with logged := [] } } { a with iu := ∅, wr := 0 } where
  __ := h
  wf := ⟨⟨h.wf.holds.sb, h.wf.holds.ordered, h.wf.holds.ledger⟩, h.wf.sized⟩
  cache i := (h.cache i).congr rfl ⟨rfl, rfl, rfl⟩ (fun _ => rfl)
  logged := ⟨∅, le_refl _, fun _ hc => nomatch hc⟩

lemma fields_eq {st : Store} (ht : (st.inode i).type ≠ 0) : (node st i).fields = (st.inode i).fields := by
  rw [node_of_type ht]
  simp only [Node.fields, Dinode.fields, contents_length, UInt32.ofNat_toNat]

lemma Rel.changed (h : Rel fs a) (hi : i < a.ninodes) {ip' : Dinode} {c : List UInt8} {st' : Store}
    (hch : Changed fs.store i ip' c st') {oe : Option Entry} {u : ℕ} {a' : Afs}
    (hn : a'.ninodes = a.ninodes)
    (hino : a'.ino = assign a.ino i (mkNode ip' c)) (hk : a'.kern = a.kern)
    (hother : ∀ j, j ≠ i → a'.ref j = a.ref j ∧ a'.busy j = a.busy j ∧ a'.valid j = a.valid j)
    (hcache : Cached st' a' i oe) (hlog : Logged st' a'.iu a'.wr) :
    Rel { fs with store := st', icache := assign fs.icache i oe, used := u } a' := by
  have hi' : i < fs.store.sb.ninodes := by rwa [← h.ninodes]
  refine ⟨hch.wf, ?_, fun j hj => ?_, fun j hj => ?_, fun j => ?_, hk.trans h.kern, hlog⟩
  · show a'.ninodes = st'.sb.ninodes
    rw [hn, h.ninodes, hch.sb]
  · rw [hn] at hj
    by_cases hji : j = i
    · subst hji
      rw [hino, assign_self, node, hch.inode, hch.contents]
    · have hj' : j < fs.store.sb.ninodes := by rwa [← h.ninodes]
      rw [hino, assign_of_ne hji, h.ino j hj, node, node, hch.others j hj' hji]
      by_cases ht : (fs.store.inode j).type = 0
      · rw [mkNode, mkNode, if_pos ht, if_pos ht]
      · rw [hch.other_contents j hj' hji ht]
  · rw [hn] at hj
    rw [hino, assign_of_ne (by omega), h.out j hj]
  · show Cached st' a' j (assign fs.icache i oe j)
    by_cases hji : j = i
    · subst hji
      rwa [assign_self]
    · rw [assign_of_ne hji]
      exact (h.cache j).congr hn (hother j hji) (fun hj => hch.others j (by rwa [← h.ninodes]) hji)

lemma Logged.mono {st st' : Store} {iu iu' : Finset ℕ} {wr wr' : ℕ} (h : Logged st iu wr)
    (hsb : st'.sb = st.sb)
    (hiu : iu ⊆ iu') (G : Finset ℕ) (hG : wr + G.card ≤ wr') (hnew : ∀ c ∈ st'.logged, c ∈ st.logged ∨
      (st.sb.bmapstart ≤ c ∧ c < st.sb.dstart) ∨ (∃ i ∈ iu', c = st.sb.iblock i) ∨ c ∈ G) :
      Logged st' iu' wr' := by
  obtain ⟨F, hF, hlog⟩ := h
  refine ⟨F ∪ G, (Finset.card_union_le F G).trans (by omega), fun c hc => ?_⟩
  rw [hsb]
  rcases hnew c hc with hold | hb | hi | hg
  · rcases hlog c hold with hb | ⟨i, hi, he⟩ | hf
    · exact .inl hb
    · exact .inr (.inl ⟨i, hiu hi, he⟩)
    · exact .inr (.inr (Finset.mem_union_left G hf))
  · exact .inl hb
  · exact .inr (.inl hi)
  · exact .inr (.inr (Finset.mem_union_right F hg))

lemma Logged.update {st : Store} {iu : Finset ℕ} {wr : ℕ} (h : Logged st iu wr) (ip : Dinode) :
    Logged (st.update i ip) (insert i iu) wr := by
  refine h.mono rfl (Finset.subset_insert i _) ∅ (by simp) (fun c hc => ?_)
  rcases List.mem_append.mp hc with hold | hnew
  · exact .inl hold
  · exact .inr (.inr (.inl ⟨i, Finset.mem_insert_self .., List.mem_singleton.mp hnew⟩))

lemma Wf.bblock_slot {st : Store} (h : Wf st) (hi : i < st.sb.ninodes) (ht : (st.inode i).type ≠ 0)
    {s : ℕ} (hs : s < NSLOT) : st.sb.bmapstart ≤ st.sb.bblock (slotAddr st.disk (st.inode i) s) ∧
      st.sb.bblock (slotAddr st.disk (st.inode i) s) < st.sb.dstart := by
  apply h.holds.ordered.bblock_lt
  by_cases h0 : slotAddr st.disk (st.inode i) s = 0
  · rw [h0]
    exact h.holds.dstart_pos.trans_le h.holds.ordered.bitmap
  · exact (h.holds.slot_range hi ht hs h0).2

lemma Logged.write {st st' : Store} {iu : Finset ℕ} {wr off n : ℕ} {ip' : Dinode} {c : List UInt8}
    (h : Logged st iu wr) (hi : i < st.sb.ninodes) (hch : Changed st i ip' c st') (ht : ip'.type ≠ 0)
    (hlog : ∀ c, c ∈ st'.logged ↔ c ∈ st.logged ∨ WriteLogs st i off n st' ip' c) :
    Logged st' (insert i iu) (wr + ((touched off n).card + 1)) := by
  have hi' : i < st'.sb.ninodes := by rwa [hch.sb]
  have hbit : ∀ s < NSLOT, st.sb.bmapstart ≤ st.sb.bblock (slotAddr st'.disk ip' s) ∧
      st.sb.bblock (slotAddr st'.disk ip' s) < st.sb.dstart := by
    intro s hs
    have := hch.wf.bblock_slot hi' (by rwa [hch.inode]) hs
    rwa [hch.inode, hch.sb] at this
  have hind : slotAddr st'.disk ip' NDIRECT = ip'.addr NDIRECT := Holds.indirect_eq ..
  refine h.mono hch.sb (Finset.subset_insert i iu)
    ((touched off n).image (fun bn => slotAddr st'.disk ip' (dataSlot bn)) ∪ {ip'.addr NDIRECT}) ?_
    (fun c hc => ?_)
  · have h1 := Finset.card_union_le
      ((touched off n).image (fun bn => slotAddr st'.disk ip' (dataSlot bn))) {ip'.addr NDIRECT}
    have h2 : ((touched off n).image
      (fun bn => slotAddr st'.disk ip' (dataSlot bn))).card ≤ (touched off n).card :=
      Finset.card_image_le
    rw [Finset.card_singleton] at h1
    omega
  · rcases (hlog c).mp hc with hold | ⟨bn, hbn, hl | ⟨-, hl | ⟨-, hl | ⟨-, hl⟩⟩⟩⟩ | ⟨-, hl⟩
    · exact .inl hold
    · exact .inr (.inr (.inr (Finset.mem_union_left _ (Finset.mem_image.mpr ⟨bn, hbn, hl.symm⟩))))
    · refine .inr (.inl ?_)
      rw [hl]
      exact hbit _ (dataSlot_lt (Finset.mem_range.mp (Finset.mem_filter.mp hbn).1))
    · exact .inr (.inr (.inr (Finset.mem_union_right _ (Finset.mem_singleton.mpr hl))))
    · refine .inr (.inl ?_)
      rw [hl, ← hind]
      exact hbit NDIRECT (by decide)
    · exact .inr (.inr (.inl ⟨i, Finset.mem_insert_self .., hl⟩))

lemma Rel.written (h : Rel fs a) {r : ℕ} (hs : Shows fs.store a i ⟨r, true, some (fs.store.inode i)⟩)
    {ip' : Dinode} {c : List UInt8} {st' : Store} (hch : Changed fs.store i ip' c st')
    (ht : ip'.type ≠ 0) {w : ℕ}
    (hlog : Logged st' (insert i a.iu) w) : Rel ({ fs with store := st' }.setEntry i ⟨r, true, some ip'⟩)
      { a.setNode i (mkNode ip' c) with wr := w } := by
  refine h.changed hs.lt hch rfl rfl rfl (fun _ _ => ⟨rfl, rfl, rfl⟩) ?_ hlog
  refine { hs with dip := fun d hd => ?_ }
  obtain rfl := Option.some.inj hd
  exact ⟨hch.inode.symm, ht⟩

section

variable (h : Rel fs a)

include h

lemma sim_iget : Matches Rel short fault (iget i fs) (Afs.iget i a) := by
  unfold iget Afs.iget
  by_cases hi : i < a.ninodes
  swap
  · rw [if_neg hi]
    exact .inl (.inr (.inr rfl))
  rw [if_pos hi]
  have hother : ∀ j, j ≠ i → assign a.ref i (a.ref i + 1) j = a.ref j ∧ a.busy j = a.busy j ∧
    a.valid j = a.valid j :=
    fun j hj => ⟨assign_of_ne hj .., rfl, rfl⟩
  cases he : fs.icache i with
  | some e =>
    have hs := Cached.of_some h he
    refine Matches.ok (h.set_entry (some { e with ref := e.ref + 1 }) hother ?_)
    exact ⟨hi, Nat.succ_pos _, by simp [hs.ref], hs.busy, hs.valid, hs.loaded, hs.dip⟩
  | none =>
    obtain ⟨hr, hb, hv⟩ := Cached.of_none h he
    by_cases hu : fs.used < NINODE
    · simp only [if_pos hu]
      refine Matches.ok (h.set_entry (some ⟨1, false, none⟩) hother ?_)
      exact ⟨hi, Nat.one_pos, by simp [hr], hb, hv, fun hc => absurd hc (by decide), by simp⟩
    · simp only [if_neg hu]
      exact .inr ⟨_, rfl, .inr rfl⟩

lemma sim_idup : Matches Rel short fault (idup i fs) (Afs.idup i a) := by
  unfold idup Afs.idup
  cases he : fs.icache i with
  | none =>
    rw [if_pos (Cached.of_none h he).1]
    exact Matches.error _
  | some e =>
    have hs := Cached.of_some h he
    rw [if_neg hs.ref_ne]
    refine Matches.ok (h.set_entry (some { e with ref := e.ref + 1 })
      (fun j hj => ⟨assign_of_ne hj .., rfl, rfl⟩) ?_)
    exact { hs with pos := Nat.succ_pos _, ref := by simp [hs.ref] }

lemma sim_ilock : Matches Rel short fault (ilock i fs) (Afs.ilock i a) := by
  unfold ilock Afs.ilock
  cases he : fs.icache i with
  | none =>
    rw [if_pos (Cached.of_none h he).1]
    exact Matches.error _
  | some e =>
    have hs := Cached.of_some h he
    have hother : ∀ j, j ≠ i → a.ref j = a.ref j ∧ assign a.busy i true j = a.busy j ∧
        assign a.valid i true j = a.valid j := fun j hj => ⟨rfl, assign_of_ne hj .., assign_of_ne hj ..⟩
    rw [if_neg hs.ref_ne, hs.busy, hs.valid]
    rcases e with ⟨r, _ | _, _ | d⟩
    · have htype : (a.ino i).type = (fs.store.inode i).type := by rw [h.ino i hs.lt, node_type]
      rw [if_neg Bool.false_ne_true, htype]
      by_cases ht : (fs.store.inode i).type = 0
      · simp only [ht]
        exact Matches.error _
      · simp only [ht, and_false, if_false, Bool.false_eq_true]
        refine Matches.ok (h.set_entry (some ⟨r, true, some (fs.store.inode i)⟩) hother ?_)
        refine ⟨hs.lt, hs.pos, hs.ref, by simp, by simp, fun _ => rfl, fun d hd => ?_⟩
        obtain rfl := Option.some.inj hd
        exact ⟨rfl, ht⟩
    · rw [if_neg Bool.false_ne_true, if_neg (by simp)]
      refine Matches.ok (h.set_entry (some ⟨r, true, some d⟩) hother ?_)
      exact ⟨hs.lt, hs.pos, hs.ref, by simp, by simp, fun _ => rfl, hs.dip⟩
    · exact Matches.error _
    · exact Matches.error _

lemma sim_iunlock : Matches Rel short fault (iunlock i fs) (Afs.iunlock i a) := by
  unfold iunlock Afs.iunlock
  cases he : fs.icache i with
  | none =>
    rw [if_pos (.inl (Cached.of_none h he).1)]
    exact Matches.error _
  | some e =>
    have hs := Cached.of_some h he
    rw [hs.ref, hs.busy]
    by_cases hb : e.busy = true
    · simp only [hb, if_true]
      rw [if_neg (by simp [hs.pos.ne'])]
      refine Matches.ok (h.set_entry (some { e with busy := false })
        (fun j hj => ⟨rfl, assign_of_ne hj .., rfl⟩) ?_)
      exact { hs with busy := by simp, loaded := fun hc => absurd hc (by simp) }
    · simp only [if_neg hb]
      rw [if_pos (.inr (by simpa using hb))]
      exact Matches.error _

lemma rel_put {e : Entry} (he : fs.icache i = some e) : Rel (fs.putEntry i e) (a.drop i) := by
  have hs := Cached.of_some h he
  unfold FsState.putEntry Afs.drop
  rw [hs.ref]
  split_ifs with h1
  · refine h.set_entry none (fun j hj => ⟨assign_of_ne hj .., assign_of_ne hj .., assign_of_ne hj ..⟩) ?_
    exact ⟨assign_self .., assign_self .., assign_self ..⟩
  · refine h.set_entry (some { e with ref := e.ref - 1 }) (fun j hj => ⟨assign_of_ne hj .., rfl, rfl⟩) ?_
    have := hs.pos
    exact { hs with pos := by simp only; omega, ref := assign_self .. }

lemma rel_free {ip' : Dinode} {st' : Store} {u : ℕ} (hi : i < a.ninodes) (hr : a.ref i = 1)
    (h0 : ip'.type = 0)
    (hch : Changed fs.store i ip' [] st') (hlog : ∀ c ∈ st'.logged, c ∈ fs.store.logged ∨
      (fs.store.sb.bmapstart ≤ c ∧ c < fs.store.sb.dstart) ∨ c = fs.store.sb.iblock i) :
    Rel { fs with store := st', icache := assign fs.icache i none, used := u } (a.free i) := by
  have hfree : a.free i = { a with
      ino := assign a.ino i Node.zero, iu := insert i a.iu, ref := assign a.ref i 0,
      busy := assign a.busy i false, valid := assign a.valid i false } := by
    simp [Afs.free, Afs.drop, Afs.setNode, hr]
  rw [hfree]
  refine h.changed hi hch rfl (by rw [mkNode, if_pos h0]) rfl
    (fun j hj => ⟨assign_of_ne hj .., assign_of_ne hj .., assign_of_ne hj ..⟩)
    ⟨assign_self .., assign_self .., assign_self ..⟩ ?_
  refine h.logged.mono hch.sb (Finset.subset_insert i _) ∅ (by simp) (fun c hc => ?_)
  rcases hlog c hc with hold | hb | he
  · exact .inl hold
  · exact .inr (.inl hb)
  · exact .inr (.inr (.inl ⟨i, Finset.mem_insert_self .., he⟩))

lemma sim_iput : Matches Rel short fault (iput i fs) (Afs.iput i a) := by
  unfold iput Afs.iput
  cases he : fs.icache i with
  | none =>
    rw [if_pos (Cached.of_none h he).1]
    exact Matches.error _
  | some e =>
    have hs := Cached.of_some h he
    have hput := rel_put h he
    have hi := h.lt hs
    rw [if_neg hs.ref_ne, hs.busy]
    rcases e with ⟨r, b, _ | ip⟩
    · have hv : a.valid i = false := hs.valid
      rw [if_neg (fun hl => by rw [Afs.Last, hv] at hl; exact absurd hl.2.1 (by decide))]
      exact Matches.ok hput
    · obtain ⟨rfl, ht⟩ := hs.dip ip rfl
      have hlast : a.Last i ↔ r = 1 ∧ (fs.store.inode i).nlink = 0 := by
        rw [Afs.Last, hs.ref, hs.valid, h.ino i hs.lt, node_of_type ht]
        simp
      simp only [hlast]
      by_cases hl : r = 1 ∧ (fs.store.inode i).nlink = 0
      swap
      · simp only [if_neg hl]
        exact Matches.ok hput
      simp only [if_pos hl]
      cases b with
      | true => exact Matches.error _
      | false =>
        have hfree := h.wf.ifree hi ht (fun _ => False)
        obtain ⟨⟨⟩, st', hrun, ⟨ip', h0, hch⟩, hlog⟩ := hfree.run_ok hfree
        simp only [hrun, Bool.false_eq_true, if_false]
        exact Matches.ok (rel_free h hs.lt (hs.ref.trans hl.1) h0 hch hlog)

lemma fresh_eq : a.freshInode =
    (List.range fs.store.sb.ninodes).find? (fun i => 0 < i ∧ (fs.store.inode i).type = 0) := by
  unfold Afs.freshInode
  rw [h.ninodes]
  refine List.find?_congr (fun j hj => ?_)
  rw [h.ino j (by rw [h.ninodes]; exact List.mem_range.mp hj), node_type]

lemma sim_ialloc (type : Int16) : Matches Rel short fault (ialloc type fs) (Afs.ialloc type a) := by
  unfold ialloc Afs.ialloc
  rw [fresh_eq h]
  cases hf : (List.range fs.store.sb.ninodes).find? (fun i => 0 < i ∧ (fs.store.inode i).type = 0) with
  | none => exact Matches.error _
  | some i =>
    have hi : i < fs.store.sb.ninodes := List.mem_range.mp (List.mem_of_find?_eq_some hf)
    have h0 : (fs.store.inode i).type = 0 := by
      have := List.find?_some hf
      simp only [decide_eq_true_eq] at this
      exact this.2
    set ip' : Dinode := { Dinode.zero with type := type }
    have hch : Changed fs.store i ip' [] (fs.store.update i ip') :=
      h.wf.update_empty hi rfl rfl (fun s _ => by rw [ref, if_pos h0])
    have hrun : (Fs.iupdate i ip').run fs.store = .ok (⟨⟩, fs.store.update i ip') := rfl
    have hmk : mkNode ip' [] = { Node.zero with type := type } := by
      rw [mkNode]
      split_ifs with ht
      · have : type = 0 := ht
        rw [this]
        rfl
      · rfl
    have hrel : Rel { fs with store := fs.store.update i ip', icache := assign fs.icache i (fs.icache i) }
        (a.setNode i { Node.zero with type := type }) := by
      refine h.changed (by rw [h.ninodes]; exact hi) hch rfl (by rw [hmk]; rfl) rfl
        (fun _ _ => ⟨rfl, rfl, rfl⟩) ?_ (h.logged.update _)
      cases he : fs.icache i with
      | none =>
        have hnone := Cached.of_none h he
        exact hnone
      | some e =>
        have hs := Cached.of_some h he
        refine { hs with dip := fun d hd => ?_ }
        obtain ⟨rfl, hne⟩ := hs.dip d hd
        exact absurd h0 hne
    rw [assign_eq_self rfl] at hrel
    have hget := sim_iget (i := i) hrel
    simp only [hrun]
    unfold Afs.iget at hget
    rw [if_pos (show i < (a.setNode i _).ninodes by rw [← h.ninodes] at hi; exact hi)] at hget
    rcases hget with ⟨s', hs', hR⟩ | ⟨e, hs', he⟩
    · rw [hs']
      exact Matches.ok hR
    · rw [hs']
      exact .inr ⟨e, rfl, he⟩

lemma sim_onInode {α : Type} {m : Dinode → BlockM (α × Dinode)} {f : Node → Afs → Except Halt (α × Afs)}
    (hm : ∀ r, Shows fs.store a i ⟨r, true, some (fs.store.inode i)⟩ → (fs.store.inode i).type ≠ 0 →
      Matches Rel short fault
        (match (m (fs.store.inode i)).run fs.store with
          | .ok ((x, ip), st) => .ok (x, { fs with store := st }.setEntry i ⟨r, true, some ip⟩)
          | .error e => .error e) (f (node fs.store i) a)) :
    Matches Rel short fault (onInode i m fs) (Afs.onNode i f a) := by
  unfold onInode Afs.onNode
  cases he : fs.icache i with
  | none =>
    rw [if_pos (Cached.of_none h he).1]
    exact Matches.error _
  | some e =>
    have hs := Cached.of_some h he
    rw [if_neg hs.ref_ne, hs.busy, hs.valid]
    rcases e with ⟨r, _ | _, _ | ip⟩
    · exact Matches.error _
    · exact Matches.error _
    · exact Matches.error _
    · obtain ⟨rfl, ht⟩ := hs.dip ip rfl
      rw [if_pos ⟨rfl, rfl⟩, h.ino i hs.lt]
      exact hm r hs ht

lemma rel_same {e : Entry} (hs : Shows fs.store a i e) : Rel (fs.setEntry i e) a :=
  h.set_entry (some e) (fun _ _ => ⟨rfl, rfl, rfl⟩) hs

lemma sim_inode : Matches Rel short fault (onInode i (fun ip => return (ip.fields, ip)) fs)
    (Afs.onNode i (fun n a => .ok (n.fields, a)) a) := by
  refine sim_onInode h (fun r hs ht => ?_)
  rw [fields_eq ht]
  exact Matches.ok (rel_same h hs)

lemma sim_iupdate (major minor nlink : Int16) :
    Matches Rel short fault
      (onInode i (fun ip => do
        let ip := { ip with major := major, minor := minor, nlink := nlink }
        Fs.iupdate i ip
        return (PUnit.unit, ip)) fs)
      (Afs.onNode i (fun n a =>
        .ok (PUnit.unit, a.setNode i { n with major := major, minor := minor, nlink := nlink })) a) := by
  refine sim_onInode h (fun r hs ht => ?_)
  have hi := h.lt hs
  have hch := h.wf.update_fields hi ht major minor nlink
  have hrel := h.written hs hch ht (h.logged.update _)
  rw [mkNode, if_neg (by exact ht)] at hrel
  rw [node_of_type ht]
  exact Matches.ok hrel

lemma sim_readi (off n : UInt32) : Matches Rel short fault (onInode i (fun ip => Fs.readi ip off n) fs)
    (Afs.onNode i (fun node a => (Afs.readNode node off n).map (·, a)) a) := by
  refine sim_onInode h (fun r hs ht => ?_)
  have hi := h.lt hs
  have hrel := rel_same h hs
  rw [node_of_type ht, Afs.readNode]
  by_cases hdev : (fs.store.inode i).type = T_DEV
  · unfold Fs.readi
    simp only [if_pos hdev]
    split_ifs
    · exact Matches.error _
    · exact Matches.ok hrel
  · simp only [if_neg hdev, contents_length]
    by_cases hin : InFile (fs.store.inode i) off n
    · rw [h.wf.readi_run hi ht hdev hin]
      simp only [show off.toNat ≤ (fs.store.inode i).size.toNat ∧
        off.toNat + n.toNat < 2 ^ 32 from hin, and_self, if_true]
      exact Matches.ok hrel
    · have hin' : ¬ (off.toNat ≤ (fs.store.inode i).size.toNat ∧ off.toNat + n.toNat < 2 ^ 32) := hin
      rw [h.wf.readi_reject hi ht hdev hin, if_neg hin']
      exact Matches.ok hrel

lemma sim_writei (src : List UInt8) (off : UInt32) :
    Matches Rel short fault (onInode i (fun ip => Fs.writei i ip src off) fs)
      (Afs.onNode i (fun n a => Afs.writeNode i n src off a) a) := by
  refine sim_onInode h (fun r hs ht => ?_)
  have hi := h.lt hs
  have hrel := rel_same h hs
  rw [node_of_type ht, Afs.writeNode]
  by_cases hdev : (fs.store.inode i).type = T_DEV
  · unfold Fs.writei
    simp only [if_pos hdev]
    split_ifs
    · exact Matches.ok hrel
    · exact Matches.ok hrel
  simp only [if_neg hdev, contents_length]
  by_cases hlen : 2 ^ 32 ≤ src.length
  · rw [if_pos hlen]
    exact .inl (.inr (.inr rfl))
  rw [if_neg hlen]
  have hlen' : src.length < 2 ^ 32 := by omega
  have hn : (UInt32.ofNat src.length).toNat = src.length := UInt32.toNat_ofNat_of_lt' hlen'
  have hiff : (off.toNat ≤ (fs.store.inode i).size.toNat ∧ off.toNat + src.length < 2 ^ 32 ∧
      off.toNat + src.length ≤ MAXFILE * BSIZE) ↔ Writable (fs.store.inode i) off
      (UInt32.ofNat src.length) := by
    rw [Writable, InFile, hn, and_assoc]
  by_cases hW : Writable (fs.store.inode i) off (UInt32.ofNat src.length)
  swap
  · rw [if_neg (fun hc => hW (hiff.mp hc)), h.wf.writei_reject hi ht hdev hlen' hW]
    exact Matches.ok hrel
  rw [if_pos (hiff.mpr hW)]
  have hspec := h.wf.writei hi ht hdev hlen' off
  have hlogs := h.wf.writei_logged hi ht hdev hlen' hW
  cases hrun : (Fs.writei i (fs.store.inode i) src off).run fs.store with
  | error e => exact .inr ⟨e, rfl, .inl (hspec.of_run_error hrun)⟩
  | ok x =>
    obtain ⟨⟨res, ip'⟩, st'⟩ := x
    obtain ⟨rfl, ⟨addrs, size, rfl⟩, hch⟩ := (hspec.of_run_ok hrun).1 hW
    have hlog := hlogs.of_run_ok hrun
    generalize hip : ({ fs.store.inode i with addrs := addrs, size := size } : Dinode) = ip' at hch hlog ⊢
    have htype : ip'.type = (fs.store.inode i).type := by rw [← hip]
    have hrel' := h.written hs hch (htype ▸ ht) (h.logged.write hi hch (htype ▸ ht) hlog)
    have hnode : mkNode ip' (overwrite (contents fs.store.disk (fs.store.inode i)) off.toNat src) =
        { node fs.store i with
          data := overwrite (contents fs.store.disk (fs.store.inode i)) off.toNat src } := by
      rw [node_of_type ht, mkNode, if_neg (htype ▸ ht), ← hip]
    rw [hnode, node_of_type ht] at hrel'
    exact Matches.ok hrel'

end

theorem simulates : Simulates handler Afs.handler Rel short fault := by
  intro o fs a h
  cases o with
  | kget =>
    show Matches Rel short fault (.ok (fs.kern, fs)) (.ok (a.kern, a))
    rw [h.kern]
    exact Matches.ok h
  | kset k => exact Matches.ok (h.set_kern k)
  | panic p => exact Matches.error _
  | device => exact Matches.error _
  | beginOp => exact Matches.ok h.begin
  | endOp => exact Matches.ok h
  | iget i => exact sim_iget h
  | idup i => exact sim_idup h
  | ilock i => exact sim_ilock h
  | iunlock i => exact sim_iunlock h
  | iput i => exact sim_iput h
  | ialloc type => exact sim_ialloc h type
  | inode i => exact sim_inode h
  | iupdate i major minor nlink => exact sim_iupdate h major minor nlink
  | readi i off n => exact sim_readi h off n
  | writei i src off => exact sim_writei h src off

end Xv6.Fs
