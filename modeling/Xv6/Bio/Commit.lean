import Xv6.Bio.Logged
import Xv6.Bio.Lru
import Xv6.Lib.Spec

/-! `commit` of `log.c` when nobody else uses the buffer cache: the buffers it takes from the list
of `bio.c`, and the panics on its way. -/

namespace Xv6.Bio.Commit

open Lib
open Xv6.Log (LogState putHeader)
open Xv6.Logged (ROOTDEV logBlock)

inductive Driver
  | memide (disksize : ℕ)
  | ide (havedisk1 : Bool)

/-- `iderw` of `ide.c` for the only request in the queue, up to its return after the interrupt;
`notForDisk1` stands for "ide disk 1 not present" and `outOfRange` for "incorrect blockno". -/
def ideRw (havedisk1 : Bool) (b : Buf) (disk : Disk) : Except Ide.Panic (Buf × Disk) :=
  if b.busy = false then .error .notBusy
  else if Ide.State.synced b then .error .nothingToDo
  else if b.dev ≠ 0 ∧ havedisk1 = false then .error .notForDisk1
  else if b.blockno.toNat ≥ FSSIZE then .error .outOfRange
  else if b.dirty then .ok ({ b with dirty := false, valid := true }, assign disk b.blockno.toNat b.data)
  else .ok ({ b with data := disk b.blockno.toNat, valid := true }, disk)

lemma ideRw_alone {havedisk1 : Bool} {t : Ide.State} {p b : ℕ} {x : Buf} {disk : Disk} (n : ℕ)
    (hidle : t.proc p = .idle) (hhold : t.holder b = some p) (hq : t.idequeue = none)
    (hrw : ideRw havedisk1 (t.buf b) (t.disk ((t.buf b).dev &&& 1)) = .ok (x, disk)) :
    ∃ t1 t2 t3, t.step n havedisk1 (.iderw p b) = some t1 ∧ t1.step n havedisk1 .ideintr = some t2 ∧
      t2.step n havedisk1 (.recheck p) = some t3 ∧ t3.proc p = .idle ∧ t3.idequeue = none ∧
      t3.buf = assign t.buf b x ∧ t3.disk = assign t.disk ((t.buf b).dev &&& 1) disk := by
  unfold ideRw at hrw
  split_ifs at hrw with hbusy hsync hdisk hrange hdirty
  all_goals
    have h1 : t.step n havedisk1 (.iderw p b) = some { t with
        idequeue := some b, qnext := assign t.qnext b none, appended := t.appended ++ [b],
        proc := assign t.proc p (.asleep b), active := some (Ide.State.request (t.buf b)),
        started := t.started ++ [⟨b, some b, t.active⟩] } := by
      simp [Ide.State.step, Ide.State.iderw, Ide.State.idestart, enqueue, hidle, hhold, hq, hbusy,
        hsync, hdisk, hrange]
    refine ⟨_, _, _, h1, by simp [Ide.State.step, Ide.State.ideintr]; rfl,
      by simp [Ide.State.step, Ide.State.wake]; rfl, ?_⟩
    cases hrw
    simp [Ide.State.synced, Ide.State.finish, Ide.State.request, hdirty, assign_eq_self]

namespace Driver

def rw : Driver → Buf → Disk → Except Ide.Panic (Buf × Disk)
  | memide disksize => Ide.memideRw disksize
  | ide havedisk1 => ideRw havedisk1

def Serves : Driver → UInt32 → Prop
  | memide disksize, k => k.toNat < disksize
  | ide havedisk1, k => havedisk1 = true ∧ k.toNat < FSSIZE

end Driver

inductive Stop
  | noBuffers
  | asleep (b : ℕ)
  | bwrite
  | brelse
  | iderw (e : Ide.Panic)
  deriving DecidableEq

structure Store where
  cache : Bcache
  disk : Disk
  log : LogState

abbrev M := StateT Store (Except Stop)

def bget (dev blockno : UInt32) : M ℕ := do
  let s ← get
  match s.cache.bget dev blockno with
  | (.hit b, c) | (.recycled b, c) =>
    set { s with cache := c }
    pure b
  | (.sleep b, _) => throw (.asleep b)
  | (.panic, _) => throw .noBuffers

def iderw (d : Driver) (b : ℕ) : M Unit := do
  let s ← get
  match d.rw (s.cache.buf b) s.disk with
  | .ok (x, disk) => set { s with cache := s.cache.setBuf b x, disk := disk }
  | .error e => throw (.iderw e)

def bread (d : Driver) (dev blockno : UInt32) : M ℕ := do
  let b ← bget dev blockno
  let s ← get
  if (s.cache.buf b).valid then pure b
  else
    iderw d b
    pure b

def bwrite (d : Driver) (b : ℕ) : M Unit := do
  let s ← get
  if (s.cache.buf b).busy = false then throw .bwrite
  else
    set { s with cache := s.cache.setBuf b { s.cache.buf b with dirty := true } }
    iderw d b

def brelse (b : ℕ) : M Unit := do
  let s ← get
  if (s.cache.buf b).busy = false then throw .brelse
  else set { s with cache := s.cache.brelse b }

def setData (b : ℕ) (data : Store → Block) : M Unit :=
  modify (fun s => { s with cache := s.cache.setBuf b { s.cache.buf b with data := data s } })

def memmove (dst src : ℕ) : M Unit := setData dst (fun s => (s.cache.buf src).data)

def writeLogLoop (d : Driver) (start : ℕ) : List ℕ → ℕ → M Unit
  | [], _ => pure ()
  | k :: ks, tail => do
    let tbuf ← bread d ROOTDEV (logBlock start (tail + 1))
    let fbuf ← bread d ROOTDEV (UInt32.ofNat k)
    memmove tbuf fbuf
    bwrite d tbuf
    brelse fbuf
    brelse tbuf
    writeLogLoop d start ks (tail + 1)

def writeLog (d : Driver) : M Unit := do
  let s ← get
  writeLogLoop d s.log.start s.log.lh 0

def writeHead (d : Driver) : M Unit := do
  let s ← get
  let b ← bread d ROOTDEV (logBlock s.log.start 0)
  setData b (fun t => putHeader (t.cache.buf b).data t.log.lh)
  bwrite d b
  brelse b

def installTransLoop (d : Driver) (start : ℕ) : List ℕ → ℕ → M Unit
  | [], _ => pure ()
  | k :: ks, tail => do
    let lbuf ← bread d ROOTDEV (logBlock start (tail + 1))
    let dbuf ← bread d ROOTDEV (UInt32.ofNat k)
    memmove dbuf lbuf
    bwrite d dbuf
    brelse lbuf
    brelse dbuf
    installTransLoop d start ks (tail + 1)

def installTrans (d : Driver) : M Unit := do
  let s ← get
  installTransLoop d s.log.start s.log.lh 0

def commit (d : Driver) : M Unit := do
  let s ← get
  if s.log.lh.length > 0 then
    writeLog d
    writeHead d
    installTrans d
    modify (fun s => { s with log := { s.log with lh := [] } })
    writeHead d
  else pure ()

structure Pins (lh ks : List UInt32) (held : Finset ℕ) (c : Bcache) : Prop where
  listed : ∃ l, c.Listed l
  sub : ks ⊆ lh
  busy : ∀ b < NBUF, (c.buf b).busy = true ↔ b ∈ held
  dirty : ∀ b < NBUF, (c.buf b).dirty = true → (c.buf b).dev = ROOTDEV ∧ (c.buf b).blockno ∈ ks
  single : Apart (fun dev k => dev = ROOTDEV ∧ k ∈ lh) c.buf

def Refused (d : Driver) (k : UInt32) (e : Stop) : Prop :=
  (e = .iderw .notForDisk1 ∨ e = .iderw .outOfRange) ∧ ¬ d.Serves k

variable {d : Driver} {lh ks : List UInt32} {held : Finset ℕ} {c : Bcache} {s : Store} {b : ℕ}
  {k : UInt32}

lemma carries_iff : c.carries ROOTDEV k b = true ↔ (c.buf b).dev = ROOTDEV ∧ (c.buf b).blockno = k :=
  decide_eq_true_iff

lemma Driver.rw_cases (d : Driver) {x : Buf} (disk : Disk) (hbusy : x.busy = true)
    (hsync : x.valid = true → x.dirty = true) (hdev : x.dev = ROOTDEV) :
    (∃ data disk', d.rw x disk = .ok ({ x with valid := true, dirty := false, data := data }, disk')) ∨
    ∃ e, d.rw x disk = .error e ∧ Refused d x.blockno (.iderw e) := by
  obtain ⟨busy, valid, dirty, dev, blockno, data⟩ := x
  subst hbusy hdev
  have hone : ROOTDEV ≠ 0 := by decide
  have hns : ¬ (valid = true ∧ dirty = false) := fun h => by
    have hd : dirty = true := hsync h.1
    rw [h.2] at hd
    cases hd
  cases d with
  | memide disksize =>
    by_cases hr : disksize ≤ blockno.toNat
    · exact .inr ⟨.outOfRange, by simp [rw, Ide.memideRw, hns, hr], .inr rfl, Nat.not_lt.mpr hr⟩
    · left
      simp only [rw, Ide.memideRw, hns, ge_iff_le, hr, ne_eq, not_true_eq_false, reduceCtorEq, if_false]
      cases dirty with
      | true => exact ⟨data, _, rfl⟩
      | false => exact ⟨_, disk, rfl⟩
  | ide havedisk1 =>
    by_cases hd : havedisk1 = true
    · by_cases hr : FSSIZE ≤ blockno.toNat
      · exact .inr ⟨.outOfRange, by simp [rw, ideRw, Ide.State.synced, hns, hd, hr], .inr rfl,
          fun h => absurd h.2 (Nat.not_lt.mpr hr)⟩
      · left
        simp only [rw, ideRw, Ide.State.synced, hns, hd, ge_iff_le, hr, and_false, decide_false,
          reduceCtorEq, if_false]
        cases dirty with
        | true => exact ⟨data, _, rfl⟩
        | false => exact ⟨_, disk, rfl⟩
    · exact .inr ⟨.notForDisk1, by simp [rw, ideRw, Ide.State.synced, hns, hd, hone], .inl rfl,
        fun h => hd h.1⟩

namespace Pins

lemma change (h : Pins lh ks held c) {c' : Bcache} {x : Buf} {held' : Finset ℕ} (hlist : ∃ l, c'.Listed l)
    (hbuf : c'.buf = assign c.buf b x) (hheld : ∀ b', b' ≠ b → (b' ∈ held' ↔ b' ∈ held))
    (hbusy : b < NBUF → (x.busy = true ↔ b ∈ held'))
    (hblock : x.dev = (c.buf b).dev ∧ x.blockno = (c.buf b).blockno ∧
    (x.dirty = true → (c.buf b).dirty = true) ∨
      x.dirty = false ∧ ∀ y < NBUF, c.carries x.dev x.blockno y = false) : Pins lh ks held' c' := by
  refine ⟨hlist, h.sub, fun b' hb' => ?_, fun b' hb' => ?_, hbuf ▸ h.single.assign (hblock.imp
    (fun hb => ⟨hb.1, hb.2.1⟩) fun hb y hy => of_decide_eq_false (hb.2 y hy))⟩
  · rw [hbuf, assign_apply]
    split_ifs with hb
    · exact hb ▸ hbusy (hb ▸ hb')
    · rw [hheld b' hb]
      exact h.busy b' hb'
  · rw [hbuf, assign_apply]
    split_ifs with hb
    · intro hx
      rcases hblock with ⟨hdev, hno, hd⟩ | ⟨hclean, -⟩
      · rw [hdev, hno, ← hb]
        exact h.dirty b' hb' (hb ▸ hd hx)
      · rw [hx] at hclean
        cases hclean
    · exact h.dirty b' hb'

lemma setBuf (h : Pins lh ks held c) {x : Buf} (hbusy : x.busy = (c.buf b).busy)
    (hdev : x.dev = (c.buf b).dev)
    (hblock : x.blockno = (c.buf b).blockno) (hdirty : x.dirty = true → (c.buf b).dirty = true) :
    Pins lh ks held (c.setBuf b x) := by
  obtain ⟨l, hl⟩ := h.listed
  exact h.change ⟨l, hl.setBuf b x⟩ rfl (fun _ _ => Iff.rfl) (fun hb => by rw [hbusy, h.busy b hb])
    (.inl ⟨hdev, hblock, hdirty⟩)

lemma card_dirty (h : Pins lh ks held c) (hno : ∀ x < NBUF, c.carries ROOTDEV k x = false) :
    ((Finset.range NBUF).filter (fun b => (c.buf b).dirty = true)).card ≤ (ks.toFinset.erase k).card := by
  refine Finset.card_le_card_of_injOn (fun b => (c.buf b).blockno) (fun b hb => ?_)
    (fun b hb b' hb' he => ?_)
  · obtain ⟨hlt, hdirty⟩ := Finset.mem_filter.mp hb
    obtain ⟨hdev, hks⟩ := h.dirty b (Finset.mem_range.mp hlt) hdirty
    refine Finset.mem_erase.mpr ⟨fun hk => ?_, List.mem_toFinset.mpr hks⟩
    have hc := hno b (Finset.mem_range.mp hlt)
    rw [carries_iff.mpr ⟨hdev, hk⟩] at hc
    cases hc
  · obtain ⟨hlt, hdirty⟩ := Finset.mem_filter.mp hb
    obtain ⟨hlt', hdirty'⟩ := Finset.mem_filter.mp hb'
    obtain ⟨hdev, hks⟩ := h.dirty b (Finset.mem_range.mp hlt) hdirty
    obtain ⟨hdev', -⟩ := h.dirty b' (Finset.mem_range.mp hlt') hdirty'
    exact h.single b (Finset.mem_range.mp hlt) b' (Finset.mem_range.mp hlt') ⟨hdev, h.sub hks⟩
      (hdev.trans hdev'.symm) he

lemma exists_idle (h : Pins lh ks held c) (hno : ∀ x < NBUF, c.carries ROOTDEV k x = false)
    (hroom : held.card + (ks.toFinset.erase k).card < NBUF) : ∃ b < NBUF, c.idle b = true := by
  by_contra hall
  push Not at hall
  have hcover : Finset.range NBUF ⊆ held ∪ (Finset.range NBUF).filter
    (fun b => (c.buf b).dirty = true) := by
    intro b hb
    have hidle := hall b (Finset.mem_range.mp hb)
    rw [Finset.mem_union, Finset.mem_filter, ← h.busy b (Finset.mem_range.mp hb)]
    by_contra hn
    push Not at hn
    exact hidle (decide_eq_true ⟨by simpa using hn.1, by simpa using hn.2 hb⟩)
  have h1 := Finset.card_le_card hcover
  have h2 := Finset.card_union_le held ((Finset.range NBUF).filter (fun b => (c.buf b).dirty = true))
  have h3 := h.card_dirty hno
  rw [Finset.card_range] at h1
  omega

lemma installed (h : Pins lh (k :: ks) held c) (hb : b < NBUF) (hc : c.carries ROOTDEV k b = true)
    (hclean : (c.buf b).dirty = false) : Pins lh ks held c := by
  refine ⟨h.listed, fun x hx => h.sub (List.mem_cons_of_mem _ hx), h.busy, fun b' hb' hd => ?_, h.single⟩
  obtain ⟨hdev, hmem⟩ := h.dirty b' hb' hd
  obtain ⟨hdev', hk'⟩ := carries_iff.mp hc
  refine ⟨hdev, (List.mem_cons.mp hmem).resolve_left (fun hk => ?_)⟩
  rw [h.single b' hb' b hb ⟨hdev, h.sub hmem⟩ (hdev.trans hdev'.symm) (hk.trans hk'.symm), hclean] at hd
  cases hd

end Pins

structure Took (lh ks : List UInt32) (held : Finset ℕ) (k : UInt32) (s : Store) (b : ℕ)
    (s' : Store) : Prop where
  lt : b < NBUF
  free : b ∉ held
  pins : Pins lh ks (insert b held) s'.cache
  carries : s'.cache.carries ROOTDEV k b = true
  other : ∀ x, x ≠ b → s'.cache.buf x = s.cache.buf x
  log : s'.log = s.log

lemma bget_spec (h : Pins lh ks held s.cache) (hroom : held.card + (ks.toFinset.erase k).card < NBUF) :
    Spec (bget ROOTDEV k) s (Took lh ks held k s)
      (fun e => ∃ b ∈ held, b < NBUF ∧ e = .asleep b ∧ s.cache.carries ROOTDEV k b = true) := by
  obtain ⟨l, hl⟩ := h.listed
  refine Spec.bind (Spec.get ?_)
  rcases hl.bget ROOTDEV k with
    ⟨b, hb, hc, hbusy, heq⟩ | ⟨b, hb, hc, hfree, heq⟩ | ⟨l1, b, l2, hsplit, hno, hidle, -, heq⟩
      | ⟨hno, hidle, -⟩
  · rw [heq]
    exact Spec.throw ⟨b, (h.busy b hb).mp hbusy, hb, rfl, hc⟩
  · rw [heq]
    have hnot : b ∉ held := fun hm => by
      rw [(h.busy b hb).mpr hm] at hfree
      cases hfree
    refine Spec.bind (Spec.set (Spec.pure ⟨hb, hnot, ?_, ?_, fun x hx => ?_, rfl⟩))
    · exact h.change ⟨l, hl.setBuf b _⟩ rfl (fun b' hb' => by simp [hb']) (fun _ => by simp)
        (.inl ⟨rfl, rfl, id⟩)
    · rw [carries_iff] at hc ⊢
      simpa using hc
    · simp [hx]
  · rw [heq]
    obtain ⟨hfree, -⟩ := of_decide_eq_true hidle
    have hb : b < NBUF := (hl.mem b).mp (by rw [hsplit]; simp)
    have hnot : b ∉ held := fun hm => by
      rw [(h.busy b hb).mpr hm] at hfree
      cases hfree
    refine Spec.bind (Spec.set (Spec.pure ⟨hb, hnot, ?_, ?_, fun x hx => ?_, rfl⟩))
    · exact h.change ⟨l, hl.setBuf b _⟩ rfl (fun b' hb' => by simp [hb']) (fun _ => by simp)
        (.inr ⟨rfl, hno⟩)
    · rw [carries_iff]
      simp
    · simp [hx]
  · obtain ⟨b, hb, hi⟩ := h.exists_idle hno hroom
    rw [hidle b hb] at hi
    cases hi

lemma iderw_spec (hbusy : (s.cache.buf b).busy = true)
    (hsync : (s.cache.buf b).valid = true → (s.cache.buf b).dirty = true)
    (hc : s.cache.carries ROOTDEV k b = true) : Spec (iderw d b) s (fun _ s' => ∃ data disk, s' =
      ⟨s.cache.setBuf b { s.cache.buf b with valid := true, dirty := false, data := data }, disk, s.log⟩)
      (Refused d k) := by
  obtain ⟨hdev, hk⟩ := carries_iff.mp hc
  refine Spec.bind (Spec.get ?_)
  rcases d.rw_cases s.disk hbusy hsync hdev with ⟨data, disk, heq⟩ | ⟨e, heq, hr⟩
  · rw [heq]
    exact Spec.set ⟨data, disk, rfl⟩
  · rw [heq]
    exact Spec.throw (hk ▸ hr)

def Stopped (d : Driver) (held : Finset ℕ) (k : UInt32) (s : Store) (e : Stop) : Prop :=
  (∃ b ∈ held, e = .asleep b ∧ s.cache.carries ROOTDEV k b = true) ∨ Refused d k e

lemma bread_spec (h : Pins lh ks held s.cache) (hroom : held.card + (ks.toFinset.erase k).card < NBUF) :
    Spec (bread d ROOTDEV k) s (Took lh ks held k s) (Stopped d held k s) := by
  refine Spec.bind ((bget_spec h hroom).mono (fun b s' ht => ?_)
    (fun e ⟨b, hb, _, he, hc⟩ => .inl ⟨b, hb, he, hc⟩))
  refine Spec.bind (Spec.get ?_)
  cases hv : (s'.cache.buf b).valid with
  | true => exact Spec.pure ht
  | false =>
    have hbusy : (s'.cache.buf b).busy = true := (ht.pins.busy b ht.lt).mpr (Finset.mem_insert_self ..)
    have hsync : (s'.cache.buf b).valid = true → (s'.cache.buf b).dirty = true := fun hv' => by
      rw [hv] at hv'
      cases hv'
    refine Spec.bind ((iderw_spec hbusy hsync ht.carries).mono ?_ (fun e he => .inr he))
    rintro - - ⟨data, disk, rfl⟩
    refine Spec.pure ⟨ht.lt, ht.free, ht.pins.setBuf rfl rfl rfl (fun hf => ?_), ?_, fun x hx => ?_,
      ht.log⟩
    · cases hf
    · have hc := ht.carries
      rw [carries_iff] at hc ⊢
      simpa using hc
    · rw [← ht.other x hx]
      simp [hx]

lemma brelse_spec (h : Pins lh ks held s.cache) (hb : b < NBUF) (hheld : b ∈ held) :
    Spec (brelse b) s (fun _ s' => Pins lh ks (held.erase b) s'.cache ∧ s'.log = s.log)
    (fun _ => False) := by
  obtain ⟨l, hl⟩ := h.listed
  have hbusy : (s.cache.buf b).busy ≠ false := by
    rw [(h.busy b hb).mpr hheld]
    exact Bool.noConfusion
  refine Spec.bind (Spec.get ?_)
  rw [if_neg hbusy]
  refine Spec.set ⟨h.change ⟨_, hl.brelse hb⟩ rfl (fun b' hb' => ?_) (fun _ => ?_)
    (.inl ⟨rfl, rfl, id⟩), rfl⟩
  · rw [Finset.mem_erase]
    exact ⟨fun hm => hm.2, fun hm => ⟨hb', hm⟩⟩
  · simp

section

variable {m : M Unit} {Q : Unit → Store → Prop} {B : Stop → Prop} {f : Store → Block}

lemma write_spec (h : Pins lh ks held s.cache) (hb : b < NBUF) (hheld : b ∈ held)
    (hc : s.cache.carries ROOTDEV k b = true) (hB : ∀ e, Refused d k e → B e)
    (hm : ∀ s', Pins lh ks held s'.cache → (s'.cache.buf b).dirty = false →
    s'.cache.carries ROOTDEV k b = true →
      s'.log = s.log → Spec m s' Q B) :
    Spec (do setData b f; bwrite d b; m) s Q B := by
  refine Spec.bind (Spec.modify ?_)
  have hbusy : (s.cache.buf b).busy = true := (h.busy b hb).mpr hheld
  have hc' := carries_iff.mp hc
  refine Spec.bind (Spec.bind (Spec.get ?_))
  rw [if_neg (by simp [hbusy])]
  refine Spec.bind (Spec.set ((iderw_spec (k := k) ?_ ?_ ?_).mono ?_ hB))
  · simpa using hbusy
  · simp
  · rw [carries_iff]
    simpa using hc'
  · rintro - - ⟨data, disk, rfl⟩
    simp only [Bcache.setBuf, assign_self, assign_assign]
    refine hm _ (h.setBuf rfl rfl rfl (fun hf => by cases hf)) ?_ ?_ rfl
    · simp
    · rw [carries_iff]
      simpa using hc'

lemma copy_spec {x y : ℕ} {ks' : List UInt32} (h : Pins lh ks held s.cache) (hx : x < NBUF)
    (hy : y < NBUF) (hxy : x ≠ y) (hheld : held = {x, y}) (hc : s.cache.carries ROOTDEV k x = true)
    (hB : ∀ e, Refused d k e → B e)
    (hdone : ∀ c, Pins lh ks held c → c.carries ROOTDEV k x = true → (c.buf x).dirty = false →
    Pins lh ks' held c) (hm : ∀ s', Pins lh ks' ∅ s'.cache → s'.log = s.log → Spec m s' Q B) :
    Spec (do setData x f; bwrite d x; brelse y; brelse x; m) s Q B := by
  subst hheld
  refine write_spec h hx (by simp) hc hB (fun s1 h1 hclean hc1 hlog1 => ?_)
  have hp := hdone s1.cache h1 hc1 hclean
  refine Spec.bind ((brelse_spec hp hy (by simp)).mono (fun _ s2 h2 => ?_) (fun _ hf => hf.elim))
  refine Spec.bind ((brelse_spec h2.1 hx (by simp [hxy])).mono (fun _ s3 h3 => hm s3 ?_ ?_)
    (fun _ hf => hf.elim))
  · have hnone : ((({x, y} : Finset ℕ).erase y).erase x) = ∅ := by
      ext z
      simp only [Finset.mem_erase, Finset.mem_insert, Finset.mem_singleton, Finset.notMem_empty,
        iff_false]
      tauto
    exact hnone ▸ h3.1
  · rw [h3.2, h2.2, hlog1]

end

def Touched (start : ℕ) (lh : List UInt32) (k : UInt32) : Prop := k ∈ lh ∨ ∃ i ≤ lh.length,
    k = logBlock start i

def Excused (d : Driver) (start : ℕ) (lh : List UInt32) (e : Stop) : Prop :=
  (∃ b, e = .asleep b) ∧ (∃ k ∈ lh, ∃ i ≤ lh.length, k = logBlock start i) ∨ ∃ k,
    Touched start lh k ∧ Refused d k e

section

variable {start i : ℕ} {Q : Unit → Store → Prop}

lemma room (hlen : ks.length < NBUF) : (∅ : Finset ℕ).card + (ks.toFinset.erase k).card < NBUF := by
  have h1 := Finset.card_erase_le (s := ks.toFinset) (a := k)
  have h2 := List.toFinset_card_le ks
  rw [Finset.card_empty]
  omega

lemma room_second (hlen : ks.length < NBUF) (hk : k ∈ ks) :
    ({b} : Finset ℕ).card + (ks.toFinset.erase k).card < NBUF := by
  have h1 := Finset.card_erase_add_one (List.mem_toFinset.mpr hk)
  have h2 := List.toFinset_card_le ks
  rw [Finset.card_singleton]
  omega

lemma pair_spec {f : ℕ → ℕ → M Unit} (h : Pins lh ks ∅ s.cache) (hk : k ∈ ks) (hlen : ks.length < NBUF)
    (hi : i ≤ lh.length)
    (hm : ∀ a b s', a < NBUF → b < NBUF → a ≠ b → Pins lh ks {a, b} s'.cache →
      s'.cache.carries ROOTDEV (logBlock start i) a = true → s'.cache.carries ROOTDEV k b = true →
      s'.log = s.log → Spec (f a b) s' Q (Excused d start lh)) :
    Spec (do let a ← bread d ROOTDEV (logBlock start i); let b ← bread d ROOTDEV k; f a b) s Q
      (Excused d start lh) := by
  refine Spec.bind ((bread_spec h (room hlen)).mono (fun a s1 h1 => ?_) ?_)
  · refine Spec.bind ((bread_spec h1.pins (room_second hlen hk)).mono (fun b s2 h2 => ?_) ?_)
    · have hab : a ≠ b := fun he => h2.free (by simp [he])
      refine hm a b s2 h1.lt h2.lt hab ?_ ?_ h2.carries (h2.log.trans h1.log)
      · have hp := h2.pins
        rwa [show insert b (insert a (∅ : Finset ℕ)) = {a, b} by ext z; simp [or_comm]] at hp
      · have hc := h1.carries
        unfold Bcache.carries at hc ⊢
        rwa [h2.other a hab]
    · rintro e (⟨b, hb, rfl, hc⟩ | he)
      · -- the buffer it finds busy is its own, so the two blocks are one
        have hba : b = a := by simpa using hb
        refine .inl ⟨⟨b, rfl⟩, k, h.sub hk, i, hi, ?_⟩
        rw [← (carries_iff.mp hc).2, hba, (carries_iff.mp h1.carries).2]
      · exact .inr ⟨k, .inl (h.sub hk), he⟩
  · rintro e (⟨b, hb, -⟩ | he)
    · exact absurd hb (Finset.notMem_empty b)
    · exact .inr ⟨_, .inr ⟨i, hi, rfl⟩, he⟩

lemma writeLogLoop_spec {ns : List ℕ} (start tail : ℕ) (h : Pins lh lh ∅ s.cache)
    (hlen : lh.length < NBUF)
    (hns : ∀ n ∈ ns, UInt32.ofNat n ∈ lh) (htail : tail + ns.length ≤ lh.length) :
    Spec (writeLogLoop d start ns tail) s (fun _ s' => Pins lh lh ∅ s'.cache ∧ s'.log = s.log)
      (Excused d start lh) := by
  induction ns generalizing s tail with
  | nil => exact Spec.pure ⟨h, rfl⟩
  | cons n ns ih =>
    rw [List.length_cons] at htail
    have hn : UInt32.ofNat n ∈ lh := hns n (List.mem_cons_self ..)
    refine pair_spec h hn hlen (by omega) (fun a b s1 ha hb hab h1 hca _ hlog => ?_)
    refine copy_spec h1 ha hb hab rfl hca (fun e he => .inr ⟨_, .inr ⟨tail + 1, by omega, rfl⟩, he⟩)
      (fun _ hp _ _ => hp) (fun s2 h2 hlog2 => ?_)
    rw [← hlog, ← hlog2]
    exact ih (tail + 1) h2 (fun x hx => hns x (List.mem_cons_of_mem _ hx)) (by omega)

lemma installTransLoop_spec {ns : List ℕ} (start tail : ℕ)
    (h : Pins lh (ns.map UInt32.ofNat) ∅ s.cache) (hlen : lh.length < NBUF)
    (htail : tail + ns.length ≤ lh.length) :
    Spec (installTransLoop d start ns tail) s (fun _ s' => Pins lh [] ∅ s'.cache ∧ s'.log = s.log)
      (Excused d start lh) := by
  induction ns generalizing s tail with
  | nil => exact Spec.pure ⟨h, rfl⟩
  | cons n ns ih =>
    rw [List.length_cons] at htail
    have hn : UInt32.ofNat n ∈ (n :: ns).map UInt32.ofNat := List.mem_cons_self ..
    have hroom : ((n :: ns).map UInt32.ofNat).length < NBUF := by
      rw [List.length_map, List.length_cons]
      omega
    refine pair_spec h hn hroom (by omega) (fun a b s1 ha hb hab h1 _ hcb hlog => ?_)
    refine copy_spec h1 hb ha hab.symm (Finset.pair_comm a b) hcb
      (fun e he => .inr ⟨_, .inl (h.sub hn), he⟩)
      (fun _ hp hc hclean => hp.installed hb hc hclean) (fun s2 h2 hlog2 => ?_)
    rw [← hlog, ← hlog2]
    exact ih (tail + 1) h2 (by omega)

lemma writeHead_spec (h : Pins lh ks ∅ s.cache) (hlen : ks.length < NBUF) (hstart : s.log.start = start) :
    Spec (writeHead d) s (fun _ s' => Pins lh ks ∅ s'.cache ∧ s'.log = s.log) (Excused d start lh) := by
  refine Spec.bind (Spec.get (Spec.bind ((bread_spec h (room hlen)).mono (fun b s1 h1 => ?_) ?_)))
  · refine write_spec h1.pins h1.lt (Finset.mem_insert_self ..) h1.carries
      (fun e he => .inr ⟨_, .inr ⟨0, Nat.zero_le _, by rw [hstart]⟩, he⟩) (fun s2 h2 _ _ hlog => ?_)
    refine (brelse_spec h2 h1.lt (Finset.mem_insert_self ..)).mono (fun _ s3 h3 => ⟨?_, ?_⟩)
      (fun _ hf => hf.elim)
    · simpa using h3.1
    · rw [h3.2, hlog, h1.log]
  · rintro e (⟨b, hb, -⟩ | he)
    · exact absurd hb (Finset.notMem_empty b)
    · exact .inr ⟨_, .inr ⟨0, Nat.zero_le _, by rw [hstart]⟩, he⟩

lemma commit_spec (h : Pins lh lh ∅ s.cache) (hlh : lh = s.log.lh.map UInt32.ofNat)
    (hlen : lh.length < NBUF) :
    Spec (commit d) s (fun _ s' => Pins lh [] ∅ s'.cache) (Excused d s.log.start lh) := by
  have hn : lh.length = s.log.lh.length := by rw [hlh, List.length_map]
  refine Spec.bind (Spec.get ?_)
  split_ifs with hpos
  · have hmem : ∀ n ∈ s.log.lh, UInt32.ofNat n ∈ lh := fun n hm => hlh ▸ List.mem_map_of_mem hm
    have hlog := writeLogLoop_spec (d := d) s.log.start 0 h hlen hmem (by omega)
    refine Spec.bind (Spec.imp (Spec.bind (Spec.get hlog)) (fun _ s1 h1 => ?_))
    refine Spec.bind ((writeHead_spec h1.1 hlen (by rw [h1.2])).imp (fun _ s2 h2 => ?_))
    have hlog2 : s2.log = s.log := h2.2.trans h1.2
    have hpins : Pins lh (s2.log.lh.map UInt32.ofNat) ∅ s2.cache := by
      rw [hlog2, ← hlh]
      exact h2.1
    have hinst := installTransLoop_spec (d := d) s2.log.start 0 hpins hlen (by rw [hlog2]; omega)
    rw [hlog2] at hinst
    refine Spec.bind (Spec.imp (Spec.bind (Spec.get (by rw [hlog2]; exact hinst))) (fun _ s3 h3 => ?_))
    have hstart : s3.log.start = s.log.start := by rw [h3.2]
    have hclear := writeHead_spec (d := d) (s := { s3 with log := { s3.log with lh := [] } }) h3.1
      (Nat.succ_pos _) hstart
    exact Spec.bind (Spec.modify (hclear.imp (fun _ s4 h4 => h4.1)))
  · refine Spec.pure ?_
    have hnil : lh = [] := List.length_eq_zero_iff.mp (by omega)
    rw [hnil] at h ⊢
    exact h

end

structure Pinned (ns : List ℕ) (c : Bcache) : Prop where
  listed : ∃ l, c.Listed l
  free : ∀ b < NBUF, (c.buf b).busy = false
  dirty : ∀ b < NBUF, (c.buf b).dirty = true ↔ (c.buf b).dev = ROOTDEV ∧ (c.buf b).blockno.toNat ∈ ns
  cached : ∀ n ∈ ns, ∃! b, b < NBUF ∧ (c.buf b).dev = ROOTDEV ∧ (c.buf b).blockno.toNat = n

lemma Pinned.pins {ns : List ℕ} (h : Pinned ns c) :
    Pins (ns.map UInt32.ofNat) (ns.map UInt32.ofNat) ∅ c := by
  refine ⟨h.listed, List.Subset.refl _, fun b hb => ?_, fun b hb hd => ?_,
    fun b hb b' hb' hc hdev' hk' => ?_⟩
  · rw [h.free b hb]
    simp
  · obtain ⟨hdev, hmem⟩ := (h.dirty b hb).mp hd
    exact ⟨hdev, List.mem_map.mpr ⟨_, hmem, UInt32.ofNat_toNat⟩⟩
  · obtain ⟨hdev, hk⟩ := hc
    obtain ⟨n, hn, hbn⟩ := List.mem_map.mp hk
    obtain ⟨x, ⟨-, -, hx⟩, huniq⟩ := h.cached n hn
    have hsmall : n < UInt32.size := hx ▸ UInt32.toNat_lt_size _
    have hblock : (c.buf b).blockno.toNat = n := by rw [← hbn, UInt32.toNat_ofNat_of_lt' hsmall]
    rw [huniq b ⟨hb, hdev, hblock⟩, huniq b' ⟨hb', hdev' ▸ hdev, hk' ▸ hblock⟩]

theorem commit_never_out_of_buffers (d : Driver) (s : Store) (hsize : s.log.size = LOGSIZE)
    (hn : s.log.lh.length ≤ s.log.size - 1) (hpinned : Pinned s.log.lh s.cache) :
    let lh := s.log.lh.map UInt32.ofNat
    (∀ e, (commit d).run s = .error e → Excused d s.log.start lh e) ∧
    (∀ s', (commit d).run s = .ok ((), s') →
      ∀ b < NBUF, (s'.cache.buf b).dirty = false ∧ (s'.cache.buf b).busy = false) ∧
    ((∀ k, Touched s.log.start lh k → d.Serves k) →
      (∀ k ∈ lh, ∀ i ≤ lh.length, k ≠ logBlock s.log.start i) →
      ∃ s', (commit d).run s = .ok ((), s')) := by
  intro lh
  have hlen : lh.length < NBUF := by
    have hl : lh.length = s.log.lh.length := List.length_map _
    have hbuf : LOGSIZE = NBUF := rfl
    have hnbuf : NBUF = 30 := rfl
    omega
  have hspec := commit_spec (d := d) hpinned.pins rfl hlen
  refine ⟨fun e he => hspec.of_run_error he, fun s' hs' b hb => ?_, fun hdisk hapart => ?_⟩
  · have hp := hspec.of_run_ok hs'
    refine ⟨Bool.eq_false_iff.mpr (fun hd => ?_), Bool.eq_false_iff.mpr (fun hbusy => ?_)⟩
    · exact absurd (hp.dirty b hb hd).2 List.not_mem_nil
    · exact absurd ((hp.busy b hb).mp hbusy) (Finset.notMem_empty b)
  · cases hrun : (commit d).run s with
    | ok r => exact ⟨r.2, rfl⟩
    | error e =>
      rcases hspec.of_run_error hrun with ⟨-, k, hk, i, hi, heq⟩ | ⟨k, hk, -, hr⟩
      · exact absurd heq (hapart k hk i hi)
      · exact absurd (hdisk k hk) hr

def fullLog : Store where
  cache := { Bcache.binit with
    buf := fun b => if b < 29 then ⟨false, true, true, ROOTDEV, UInt32.ofNat (100 + b), Block.zero⟩
      else ⟨false, false, false, -1, 0, Block.zero⟩ }
  disk := fun _ => Block.zero
  log := ⟨2, LOGSIZE, (List.range 29).map (100 + ·), 0, true⟩

lemma fullLog_pinned : Pinned fullLog.log.lh fullLog.cache := by
  refine ⟨⟨_, Bcache.binit_listed.1.ring,
    Bcache.binit_listed.1.mem⟩, by decide, by decide, fun n hn => ?_⟩
  obtain ⟨j, hj, rfl⟩ := List.mem_map.mp hn
  have hj : j < 29 := List.mem_range.mp hj
  have hkey : ∀ b < NBUF, ∀ j < 29, (fullLog.cache.buf b).dev = ROOTDEV →
      (fullLog.cache.buf b).blockno.toNat = 100 + j → b = j := by decide
  have hself : ∀ j < 29, (fullLog.cache.buf j).dev = ROOTDEV ∧
    (fullLog.cache.buf j).blockno.toNat = 100 + j := by
    decide
  exact ⟨j, ⟨Nat.lt_succ_of_lt hj, hself j hj⟩, fun b hb => hkey b hb.1 j hj hb.2.1 hb.2.2⟩

theorem commit_never_out_of_buffers_full_log :
    fullLog.log.lh.length = LOGSIZE - 1 ∧ ∃ s', (commit (.ide true)).run fullLog = .ok ((), s') ∧
      ∀ b < NBUF, (s'.cache.buf b).dirty = false ∧ (s'.cache.buf b).busy = false := by
  obtain ⟨-, hclean, hok⟩ :=
    commit_never_out_of_buffers (.ide true) fullLog rfl (by decide) fullLog_pinned
  have hlh : ∀ k ∈ fullLog.log.lh.map UInt32.ofNat, ∃ j < 29, k = UInt32.ofNat (100 + j) := by
    simp [fullLog, List.mem_map, eq_comm]
  have hsmall : ∀ k, Touched fullLog.log.start (fullLog.log.lh.map UInt32.ofNat) k →
    (Driver.ide true).Serves k := by
    rintro k (hk | ⟨i, hi, rfl⟩)
    · have hall : ∀ j < 29, (UInt32.ofNat (100 + j)).toNat < FSSIZE := by decide
      obtain ⟨j, hj, rfl⟩ := hlh k hk
      exact ⟨rfl, hall j hj⟩
    · have hall : ∀ i ≤ 29, (logBlock fullLog.log.start i).toNat < FSSIZE := by decide
      exact ⟨rfl, hall i hi⟩
  have hapart : ∀ k ∈ fullLog.log.lh.map UInt32.ofNat, ∀ i ≤ 29, k ≠ logBlock fullLog.log.start i := by
    have hall : ∀ j < 29, ∀ i ≤ 29, UInt32.ofNat (100 + j) ≠ logBlock fullLog.log.start i := by decide
    intro k hk
    obtain ⟨j, hj, rfl⟩ := hlh k hk
    exact hall j hj
  obtain ⟨s', hs'⟩ := hok hsmall hapart
  exact ⟨rfl, s', hs', hclean s' hs'⟩

end Xv6.Bio.Commit
