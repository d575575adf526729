import Xv6.Fs.Dirlink

namespace Xv6.Fs

open Lib Prog

def refCount (fs : FsState) (i : ℕ) : ℕ := ((fs.icache i).map Entry.ref).getD 0

structure Cache (fs : FsState) (lock : Option ℕ) : Prop where
  counted : ∃ s : Finset ℕ, s.card = fs.used ∧ ∀ i, i ∈ s ↔ fs.icache i ≠ none
  live : ∀ i e, fs.icache i = some e → 0 < e.ref
  busy : ∀ i e, fs.icache i = some e → (e.busy = true ↔ lock = some i)
  held : ∀ i, lock = some i → fs.icache i ≠ none
  copy : ∀ i e ip, fs.icache i = some e → e.dip = some ip → fs.store.inode i = ip

structure After (fs fs' : FsState) (lock : Option ℕ) (extra : ℕ → ℕ) : Prop where
  store : fs'.store = fs.store
  kern : fs'.kern = fs.kern
  cache : Cache fs' lock
  refs : ∀ i, refCount fs' i = refCount fs i + extra i

section

variable {fs fs' : FsState} {lock : Option ℕ} {i : ℕ}

lemma refCount_of_none (h : fs.icache i = none) : refCount fs i = 0 := by
  rw [refCount, h]
  rfl

lemma refCount_of_some {e : Entry} (h : fs.icache i = some e) : refCount fs i = e.ref := by
  rw [refCount, h]
  rfl

lemma refCount_setEntry (fs : FsState) (i : ℕ) (e : Entry) (j : ℕ) :
    refCount (fs.setEntry i e) j = if j = i then e.ref else refCount fs j := by
  rw [refCount, icache_setEntry]
  split_ifs <;> rfl

lemma refCount_dropEntry (fs : FsState) (i j : ℕ) : refCount (fs.dropEntry i) j = if j = i then 0
    else refCount fs j := by
  rw [refCount, FsState.dropEntry, refCount]
  simp only [assign_apply]
  split_ifs <;> rfl

lemma exists_entry_of_refCount (hi : refCount fs i ≠ 0) : ∃ e, fs.icache i = some e ∧
    e.ref = refCount fs i := by
  cases he : fs.icache i with
  | none => exact absurd (refCount_of_none he) hi
  | some e => exact ⟨e, rfl, (refCount_of_some he).symm⟩

namespace Cache

variable (h : Cache fs lock)

include h

lemma icache_eq_none_iff : fs.icache i = none ↔ refCount fs i = 0 := by
  refine ⟨refCount_of_none, fun hz => ?_⟩
  cases he : fs.icache i with
  | none => rfl
  | some e =>
    rw [refCount_of_some he] at hz
    exact absurd (h.live i e he) (by omega)

lemma set {e : Entry} {u : ℕ} {lock' : Option ℕ}
    (hu : u = if fs.icache i = none then fs.used + 1 else fs.used)
    (href : 0 < e.ref) (hbusy : e.busy = true ↔ lock' = some i)
    (hlock : ∀ j ≠ i, lock' = some j ↔ lock = some j)
    (hcopy : ∀ ip, e.dip = some ip → fs.store.inode i = ip) :
    Cache { fs.setEntry i e with used := u } lock' := by
  obtain ⟨s, hs, hmem⟩ := h.counted
  have hcell : ∀ j, ({ fs.setEntry i e with used := u } : FsState).icache j = if j = i then some e
    else fs.icache j :=
    icache_setEntry fs i e
  refine ⟨⟨insert i s, ?_, fun j => ?_⟩, fun j f hj => ?_, fun j f hj => ?_, fun j hj => ?_,
    fun j f ip hj hip => ?_⟩
  · rw [hu]
    split_ifs with hnone
    · rw [Finset.card_insert_of_notMem (fun hi => (hmem i).mp hi hnone), hs]
    · rw [Finset.insert_eq_of_mem ((hmem i).mpr hnone), hs]
  · rw [Finset.mem_insert, hcell, hmem]
    split_ifs with hji <;> simp [hji]
  · rw [hcell] at hj
    split_ifs at hj
    · cases hj
      exact href
    · exact h.live j f hj
  · rw [hcell] at hj
    split_ifs at hj with hji
    · cases hj
      rw [hji]
      exact hbusy
    · rw [h.busy j f hj, hlock j hji]
  · rw [hcell]
    split_ifs with hji
    · exact Option.some_ne_none e
    · exact h.held j ((hlock j hji).mp hj)
  · rw [hcell] at hj
    split_ifs at hj with hji
    · cases hj
      rw [hji]
      exact hcopy ip hip
    · exact h.copy j f ip hj hip

lemma drop {e : Entry} (he : fs.icache i = some e) (hlock : lock ≠ some i) :
    Cache (fs.dropEntry i) lock := by
  obtain ⟨s, hs, hmem⟩ := h.counted
  have hcell : ∀ j, (fs.dropEntry i).icache j = if j = i then none else fs.icache j := fun _ => rfl
  have hi : i ∈ s := (hmem i).mpr (by simp [he])
  refine ⟨⟨s.erase i, ?_, fun j => ?_⟩, fun j f hj => ?_, fun j f hj => ?_, fun j hj => ?_,
    fun j f ip hj hip => ?_⟩
  · rw [Finset.card_erase_of_mem hi, hs]
    rfl
  · rw [Finset.mem_erase, hcell, hmem]
    split_ifs with hji <;> simp [hji]
  · rw [hcell] at hj
    split_ifs at hj
    exact h.live j f hj
  · rw [hcell] at hj
    split_ifs at hj
    exact h.busy j f hj
  · have hji : j ≠ i := fun hji => hlock (hj.trans (congrArg some hji))
    rw [hcell, if_neg hji]
    exact h.held j hj
  · rw [hcell] at hj
    split_ifs at hj
    exact h.copy j f ip hj hip

lemma setEntry {e0 e : Entry} {lock' : Option ℕ} (he : fs.icache i = some e0) (href : 0 < e.ref)
    (hbusy : e.busy = true ↔ lock' = some i) (hlock : ∀ j ≠ i, lock' = some j ↔ lock = some j)
    (hcopy : ∀ ip, e.dip = some ip → fs.store.inode i = ip) : Cache (fs.setEntry i e) lock' :=
  h.set (by rw [if_neg (by simp [he])]) href hbusy hlock hcopy

lemma iget (hget : (iget i).run fs = .ok (⟨⟩, fs')) : After fs fs' lock (Pi.single i 1) := by
  obtain ⟨e, he, rfl⟩ | ⟨he, rfl⟩ := iget_cases hget
  · refine ⟨rfl, rfl, ?_, fun j => ?_⟩
    · exact h.setEntry he (Nat.succ_pos _) (h.busy i e he) (fun _ _ => Iff.rfl)
        (fun ip => h.copy i e ip he)
    · rw [refCount_setEntry, Pi.single_apply]
      split_ifs with hji
      · rw [hji, refCount_of_some he]
      · rfl
  · refine ⟨rfl, rfl, ?_, fun j => ?_⟩
    · have hbusy : false = true ↔ lock = some i :=
        ⟨fun hb => absurd hb (by decide), fun hl => absurd he (h.held i hl)⟩
      exact h.set (if_pos he).symm Nat.one_pos hbusy (fun _ _ => Iff.rfl) (fun ip hip => by cases hip)
    · refine (refCount_setEntry fs i ⟨1, false, none⟩ j).trans ?_
      rw [Pi.single_apply]
      split_ifs with hji
      · rw [hji, refCount_of_none he]
      · rfl

lemma idup (hi : refCount fs i ≠ 0) : ∃ fs', (idup i).run fs = .ok (⟨⟩, fs') ∧ After fs fs' lock
    (Pi.single i 1) := by
  obtain ⟨e, he, -⟩ := exists_entry_of_refCount hi
  have hget : (Fs.iget i).run fs = .ok (⟨⟩, fs.setEntry i { e with ref := e.ref + 1 }) := by
    rw [StateT.run]
    unfold Fs.iget
    rw [he]
  refine ⟨_, ?_, h.iget hget⟩
  rw [StateT.run]
  unfold Fs.idup
  rw [he]

end Cache

section Lock

variable (h : Cache fs none) (hi : refCount fs i ≠ 0)

include h hi

lemma Cache.ilock (ht : (fs.store.inode i).type ≠ 0) : ∃ fs', (Fs.ilock i).run fs = .ok (⟨⟩, fs') ∧
    After fs fs' (some i) 0 ∧ Locked fs' i (fs.store.inode i) := by
  obtain ⟨e, he, -⟩ := exists_entry_of_refCount hi
  have hfree : e.busy = false := by
    rw [← Bool.not_eq_true, h.busy i e he]
    simp
  have hrun : (Fs.ilock i).run fs =
      .ok (⟨⟩, fs.setEntry i { e with busy := true, dip := some (fs.store.inode i) }) := by
    rw [StateT.run]
    unfold Fs.ilock
    simp only [he, hfree, Bool.false_eq_true, if_false]
    cases hd : e.dip with
    | none => simp only [if_neg ht]
    | some ip => rw [h.copy i e ip he hd]
  refine ⟨_, hrun, ⟨rfl, rfl, ?_, fun j => ?_⟩, ⟨e.ref, assign_self ..⟩⟩
  · refine h.setEntry he (h.live i e he) (by simp) (fun j hj => ?_) (fun ip hip => Option.some.inj hip)
    simp [hj.symm]
  · rw [refCount_setEntry]
    split_ifs with hji
    · rw [hji, refCount_of_some he]
      rfl
    · rfl

lemma Cache.iput (hlive : refCount fs i = 1 → (fs.store.inode i).nlink ≠ 0) :
    ∃ fs', (Fs.iput i).run fs = .ok (⟨⟩, fs') ∧
    fs'.store = fs.store ∧ fs'.kern = fs.kern ∧ Cache fs' none ∧
    ∀ j, refCount fs j = refCount fs' j + (Pi.single i 1 : ℕ → ℕ) j := by
  obtain ⟨e, he, href⟩ := exists_entry_of_refCount hi
  have hrun : (Fs.iput i).run fs = .ok (⟨⟩, fs.putEntry i e) := by
    rw [StateT.run]
    unfold Fs.iput
    simp only [he]
    cases hd : e.dip with
    | none => rfl
    | some ip =>
      simp only
      rw [if_neg]
      rintro ⟨h1, h2⟩
      refine hlive (href ▸ h1) ?_
      rw [h.copy i e ip he hd]
      exact h2
  refine ⟨_, hrun, ?_⟩
  unfold FsState.putEntry
  split_ifs with h1
  · refine ⟨rfl, rfl, h.drop he (by simp), fun j => ?_⟩
    rw [refCount_dropEntry, Pi.single_apply]
    split_ifs with hji
    · rw [hji, ← href, h1]
    · rfl
  · have := h.live i e he
    refine ⟨rfl, rfl, h.setEntry he (by dsimp only; omega) (h.busy i e he) (fun _ _ => Iff.rfl)
      (fun ip => h.copy i e ip he), fun j => ?_⟩
    rw [refCount_setEntry, Pi.single_apply]
    split_ifs with hji
    · rw [hji, ← href]
      dsimp only
      omega
    · rfl

end Lock

lemma Cache.iunlock (h : Cache fs (some i)) : ∃ fs', (Fs.iunlock i).run fs = .ok (⟨⟩, fs') ∧
    After fs fs' none 0 := by
  cases he : fs.icache i with
  | none => exact absurd he (h.held i rfl)
  | some e =>
    have hbusy : e.busy = true := (h.busy i e he).mpr rfl
    have hrun : (Fs.iunlock i).run fs = .ok (⟨⟩, fs.setEntry i { e with busy := false }) := by
      rw [StateT.run]
      unfold Fs.iunlock
      simp only [he, hbusy, if_true]
    refine ⟨_, hrun, rfl, rfl, ?_, fun j => ?_⟩
    · refine h.setEntry he (h.live i e he) (by simp) (fun j hj => ?_) (fun ip => h.copy i e ip he)
      simp [hj.symm]
    · rw [refCount_setEntry]
      split_ifs with hji
      · rw [hji, refCount_of_some he]
        rfl
      · rfl

end

namespace After

variable {fs₀ fs fs' : FsState} {lock lock' : Option ℕ} {x y : ℕ → ℕ} {i : ℕ}

lemma trans (h : After fs₀ fs lock x) (h' : After fs fs' lock' y) : After fs₀ fs' lock' (x + y) where
  store := h'.store.trans h.store
  kern := h'.kern.trans h.kern
  cache := h'.cache
  refs j := by rw [h'.refs, h.refs, Pi.add_apply, Nat.add_assoc]

lemma trans_zero (h : After fs₀ fs lock x) (h' : After fs fs' lock' 0) : After fs₀ fs' lock' x := by
  have := h.trans h'
  rwa [add_zero] at this

lemma refCount_ne_zero (h : After fs₀ fs lock (Pi.single i 1 + x)) : refCount fs i ≠ 0 := by
  rw [h.refs, Pi.add_apply, Pi.single_eq_same]
  omega

lemma used_le (h0 : Cache fs₀ none) (h : After fs₀ fs lock (Pi.single i 1)) : fs.used ≤ fs₀.used + 1 := by
  obtain ⟨s0, hs0, hmem0⟩ := h0.counted
  obtain ⟨s, hs, hmem⟩ := h.cache.counted
  have hsub : s ⊆ insert i s0 := by
    intro j hj
    rw [Finset.mem_insert, hmem0, Ne, h0.icache_eq_none_iff]
    by_contra hc
    rw [not_or, not_not] at hc
    refine (hmem j).mp hj (h.cache.icache_eq_none_iff.mpr ?_)
    rw [h.refs, hc.2, Pi.single_eq_of_ne hc.1, Nat.add_zero]
  have := (Finset.card_le_card hsub).trans (Finset.card_insert_le i s0)
  omega

lemma used_eq (h0 : Cache fs₀ none) (h : After fs₀ fs lock x) (hx : ∀ j, refCount fs₀ j = 0 → x j = 0) :
    fs.used = fs₀.used := by
  obtain ⟨s0, hs0, hmem0⟩ := h0.counted
  obtain ⟨s, hs, hmem⟩ := h.cache.counted
  have heq : s = s0 := by
    ext j
    rw [hmem, hmem0, Ne, Ne, h.cache.icache_eq_none_iff, h0.icache_eq_none_iff, h.refs]
    have := hx j
    omega
  rw [← hs, ← hs0, heq]

end After

structure Held (fs₀ : FsState) (i : ℕ) : Prop where
  lt : i < fs₀.store.sb.ninodes
  used : (fs₀.store.inode i).type ≠ 0
  linked : refCount fs₀ i = 0 → (fs₀.store.inode i).nlink ≠ 0

structure Tree (fs : FsState) : Prop where
  wf : Wf fs.store
  aligned : ∀ d < fs.store.sb.ninodes, (fs.store.inode d).type = T_DIR →
    (fs.store.inode d).size.toNat % DIRENT = 0
  entry : ∀ d < fs.store.sb.ninodes, (fs.store.inode d).type = T_DIR →
    ∀ k < nslots (contents fs.store.disk (fs.store.inode d)),
    (slot (contents fs.store.disk (fs.store.inode d)) k).inum ≠ 0 →
    Held fs (slot (contents fs.store.disk (fs.store.inode d)) k).inum.toNat
  root : Held fs ROOTINO

section Loop

variable {fs₀ fs : FsState} {i : ℕ} {x : ℕ → ℕ} {α : Type} {Q : α → FsState → Prop} {B : Halt → Prop}

lemma wp_of_run {o : Op} {r : o.Res} {fs' : FsState} {Q : o.Res → FsState → Prop}
    (hr : (handler o).run fs = .ok (r, fs'))
    (hq : Q r fs') : Wp handler (fun _ _ => True) B Q (Prog.call o) fs := by
  refine wp_call trivial ?_
  unfold Spec
  rw [hr]
  exact hq

lemma wp_of_error {o : Op} {e : Halt} {Q : o.Res → FsState → Prop}
    (hr : (handler o).run fs = .error e) (hb : B e) :
    Wp handler (fun _ _ => True) B Q (Prog.call o) fs := by
  refine wp_call trivial ?_
  unfold Spec
  rw [hr]
  exact hb

lemma After.iput (h : After fs₀ fs none (Pi.single i 1 + x)) (hi : Held fs₀ i)
    {Q : PUnit → FsState → Prop}
    (hq : ∀ fs', After fs₀ fs' none x → Q ⟨⟩ fs') : Wp handler (fun _ _ => True) B Q (Sys.iput i) fs := by
  have hone : refCount fs i = 1 → (fs.store.inode i).nlink ≠ 0 := by
    intro h1
    rw [h.refs, Pi.add_apply, Pi.single_eq_same] at h1
    rw [h.store]
    exact hi.linked (by omega)
  obtain ⟨fs', hrun, hstore, hkern, hcache, hrefs⟩ := h.cache.iput h.refCount_ne_zero hone
  refine wp_of_run hrun (hq fs' ⟨hstore.trans h.store, hkern.trans h.kern, hcache, fun j => ?_⟩)
  have h1 := hrefs j
  rw [h.refs, Pi.add_apply] at h1
  omega

lemma After.iunlockput (h : After fs₀ fs (some i) (Pi.single i 1 + x)) (hi : Held fs₀ i)
    {Q : PUnit → FsState → Prop} (hq : ∀ fs', After fs₀ fs' none x → Q ⟨⟩ fs') :
    Wp handler (fun _ _ => True) B Q (Sys.iunlockput i) fs := by
  obtain ⟨fs', hrun, h'⟩ := h.cache.iunlock
  exact wp_bind (wp_of_run hrun ((h.trans_zero h').iput hi hq))

lemma After.ilock (h : After fs₀ fs none (Pi.single i 1)) (hi : Held fs₀ i) :
    ∃ fs', (Fs.ilock i).run fs = .ok (⟨⟩, fs') ∧ After fs₀ fs' (some i) (Pi.single i 1) ∧
      Locked fs' i (fs₀.store.inode i) := by
  obtain ⟨fs', hrun, h', hl⟩ := h.cache.ilock (i := i)
    (After.refCount_ne_zero (x := 0) (by rwa [add_zero])) (by rw [h.store]; exact hi.used)
  rw [h.store] at hl
  exact ⟨fs', hrun, h.trans_zero h', hl⟩

lemma After.directory (h : After fs₀ fs (some i) x) (htree : Tree fs₀) (hi : Held fs₀ i)
    (hl : Locked fs i (fs₀.store.inode i)) (hdir : (fs₀.store.inode i).type = T_DIR) :
    Directory fs i (fs₀.store.inode i) where
  wf := by rw [h.store]; exact htree.wf
  lt := by rw [h.store]; exact hi.lt
  copy := by rw [h.store]
  locked := hl
  dir := hdir
  aligned := htree.aligned i hi.lt hdir
  refs := h.cache.live

lemma Tree.held (htree : Tree fs₀) (hi : i < fs₀.store.sb.ninodes)
    (hdir : (fs₀.store.inode i).type = T_DIR)
    {name : List UInt8} {j : ℕ} (hj : names (contents fs₀.store.disk (fs₀.store.inode i)) name = some j) :
    Held fs₀ j := by
  obtain ⟨k, hk, rfl⟩ := Option.map_eq_some_iff.mp hj
  obtain ⟨hlt, hhit, -⟩ := lookup_eq_some hk
  exact htree.entry i hi hdir k hlt hhit.1

lemma Tree.walk_held (htree : Tree fs₀) (hi : Held fs₀ i) {l : List (List UInt8)} {j : ℕ}
    (hw : walk (node fs₀.store) i l = some j) : Held fs₀ j := by
  induction l generalizing i with
  | nil =>
    obtain rfl := Option.some.inj hw
    exact hi
  | cons name l ih =>
    rw [walk_cons, Option.bind_eq_some_iff] at hw
    obtain ⟨k, hk, hw⟩ := hw
    unfold child at hk
    split_ifs at hk with hdir
    rw [node_type] at hdir
    rw [node_data hdir] at hk
    exact ih (htree.held hi.lt hdir hk) hw

def taken (r : Option (ℕ × List UInt8)) : ℕ → ℕ := r.elim 0 (fun p => Pi.single p.1 1)

def outOfEntries (fs₀ : FsState) (e : Halt) : Prop := e = .panic .igetNoInodes ∧ NINODE ≤ fs₀.used + 1

lemma After.dirlookup (h0 : Cache fs₀ none) (h : After fs₀ fs (some i) (Pi.single i 1)) (htree : Tree fs₀)
    (hi : Held fs₀ i) (hl : Locked fs i (fs₀.store.inode i)) (hdir : (fs₀.store.inode i).type = T_DIR)
    {name : List UInt8} {Q : Option (ℕ × ℕ) → FsState → Prop}
    (hnone : names (contents fs₀.store.disk (fs₀.store.inode i)) name = none → Q none fs)
    (hsome : ∀ j off fs', names (contents fs₀.store.disk (fs₀.store.inode i)) name = some j →
      After fs₀ fs' (some i) (Pi.single i 1 + Pi.single j 1) → Q (some (j, off)) fs') :
    Wp handler (fun _ _ => True) (outOfEntries fs₀) Q (Sys.dirlookup i name) fs := by
  have hents : entries fs (fs₀.store.inode i) = contents fs₀.store.disk (fs₀.store.inode i) := by
    rw [entries, h.store]
  refine (h.directory htree hi hl hdir).dirlookup_wp (fun hn => hnone ?_) (fun k hk => ?_)
  · rw [names, ← hents, hn, Option.map_none]
  · have hj : names (contents fs₀.store.disk (fs₀.store.inode i)) name =
        some (slot (entries fs (fs₀.store.inode i)) k).inum.toNat := by
      rw [names, ← hents, hk, Option.map_some]
    generalize (slot (entries fs (fs₀.store.inode i)) k).inum.toNat = j at hj ⊢
    by_cases hfull : CacheFull fs j
    · unfold Spec
      rw [iget_full hfull]
      have := hfull.2
      have := h.used_le h0
      exact ⟨rfl, by omega⟩
    · obtain ⟨fs', hget⟩ := iget_run hfull
      unfold Spec
      rw [hget]
      exact hsome j _ fs' hj (h.trans (h.cache.iget hget))

lemma Tree.walker (htree : Tree fs₀) (h0 : Cache fs₀ none) :
    Walker handler (outOfEntries fs₀) (node fs₀.store) (fun fs => After fs₀ fs none 0)
      (fun i fs => After fs₀ fs none (Pi.single i 1) ∧ Held fs₀ i)
      (fun i fs => After fs₀ fs (some i) (Pi.single i 1) ∧ Held fs₀ i ∧
      Locked fs i (fs₀.store.inode i)) where
  iput i fs := fun ⟨h, hi⟩ => After.iput (x := 0) (by rwa [add_zero]) hi fun _ h' => h'
  ilock i fs := fun ⟨h, hi⟩ => by
    obtain ⟨fs', hrun, h', hl⟩ := h.ilock hi
    exact wp_of_run (o := .ilock i) hrun ⟨h', hi, hl⟩
  inode i fs := fun ⟨_, _, hl⟩ Q hq => wp_of_run (o := .inode i) hl.inode (hq _ (node_type ..).symm)
  iunlock i fs := fun ⟨h, hi, _⟩ => by
    obtain ⟨fs', hrun, h'⟩ := h.cache.iunlock
    exact wp_of_run (o := .iunlock i) hrun ⟨h.trans_zero h', hi⟩
  iunlockput i fs := fun ⟨h, hi, _⟩ => After.iunlockput (x := 0) (by rwa [add_zero]) hi fun _ h' => h'
  dirlookup i fs name := fun ⟨h, hi, hl⟩ hdir => by
    rw [node_type] at hdir
    rw [node_data hdir]
    refine After.dirlookup h0 h htree hi hl hdir
      (fun hn => ⟨hn.symm, h, hi, hl⟩) fun j off fs' hj h' => ⟨hj.symm, ?_⟩
    exact After.iunlockput h' hi fun fs'' h'' => ⟨h'', htree.held hi.lt hdir hj⟩

end Loop

section

variable {fs : FsState} (hcache : Cache fs none) (htree : Tree fs) {p : ℕ}
  (hcwd : refCount fs (fs.kern.procs p).cwd ≠ 0) (hheld : Held fs (fs.kern.procs p).cwd)

include htree hheld

lemma held_origin (path : List UInt8) : Held fs (origin fs.kern p path) := by
  unfold origin
  split_ifs
  · exact htree.root
  · exact hheld

include hcache hcwd

lemma namex_spec (parent : Bool) (path : List UInt8) : Spec ((Sys.namex p path parent).run handler) fs
      (fun r fs' => r = follow (node fs.store) parent (origin fs.kern p path) (components path) ∧
        After fs fs' none (taken r)) (outOfEntries fs) := by
  refine (((htree.walker hcache).namex fs.kern parent path ?_ ?_).imp ?_).spec
  · by_cases hfull : CacheFull fs ROOTINO
    · exact wp_of_error (o := .iget ROOTINO) (iget_full hfull) ⟨rfl, by have := hfull.2; omega⟩
    · obtain ⟨fs', hget⟩ := iget_run hfull
      exact wp_of_run (o := .iget ROOTINO) hget ⟨hcache.iget hget, htree.root⟩
  · obtain ⟨fs', hdup, h'⟩ := hcache.idup hcwd
    exact wp_of_run (o := .kget) rfl ⟨rfl, wp_of_run (o := .idup _) hdup ⟨h', hheld⟩⟩
  · rintro (_ | q) fs' ⟨hr, h'⟩
    · exact ⟨hr, h'⟩
    · exact ⟨hr, h'.1⟩

lemma namei_spec (path : List UInt8) : Spec ((Sys.namei p path).run handler) fs
      (fun r fs' => r = walk (node fs.store) (origin fs.kern p path) (components path) ∧
        After fs fs' none (r.elim 0 (fun i => Pi.single i 1))) (outOfEntries fs) := by
  unfold Sys.namei
  rw [run_bind]
  refine Spec.bind ((namex_spec hcache htree hcwd hheld false path).imp ?_)
  rintro r fs' ⟨rfl, h'⟩
  rw [follow, if_neg (by decide)] at h' ⊢
  cases hw : walk (node fs.store) (origin fs.kern p path) (components path) with
  | none =>
    rw [hw] at h'
    exact Spec.pure ⟨rfl, h'⟩
  | some j =>
    rw [hw] at h'
    exact Spec.pure ⟨rfl, h'⟩

end

end Xv6.Fs
