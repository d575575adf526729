import Xv6.Bio.Lru
import Xv6.Ide.Refines

namespace Xv6.Ide

open Lib Bio

def State.ideintrError (s : State) : Option State :=
  match s.idequeue with
  | none => some { s with active := none }
  | some b => (s.dequeued b { s.buf b with valid := true, dirty := false } s.disk).startNext

/-- The buffers of `ide` on the list of `bio.c`; `reading p` is the buffer with which `p` is inside
`bread`. -/
structure Cached where
  ide : State
  next : Option ℕ → Option ℕ
  prev : Option ℕ → Option ℕ
  want : ℕ → Want
  reading : ℕ → Option ℕ

inductive Act
  | bread (p : ℕ) (dev blockno : UInt32)
  | rescan (p : ℕ)
  | load (p : ℕ)
  | bwrite (p b : ℕ) (data : Block)
  | brelse (p b : ℕ)
  | ideintr (ok : Bool)
  | kill (p : ℕ)
  | recheck (p : ℕ)

namespace Cached

def init (disk : UInt32 → Disk) : Cached :=
  ⟨{ State.init disk with buf := Bcache.binit.buf }, Bcache.binit.next, Bcache.binit.prev,
    fun _ => .nothing, fun _ => none⟩

def cache (s : Cached) : Bcache := ⟨s.ide.buf, s.next, s.prev⟩

def ready (s : Cached) (p : ℕ) : Bool := s.ide.proc p = .idle ∧ s.want p = .nothing ∧ s.reading p = none

def scan (s : Cached) (p : ℕ) (dev blockno : UInt32) : Option Cached :=
  match s.cache.bget dev blockno with
  | (.hit b, c) | (.recycled b, c) =>
    some { s with
      ide := { s.ide with buf := c.buf, holder := assign s.ide.holder b (some p) }
      want := assign s.want p .nothing, reading := assign s.reading p (some b) }
  | (.sleep b, _) => some { s with want := assign s.want p (.asleep dev blockno b) }
  | (.panic, _) => none

def load (havedisk1 : Bool) (s : Cached) (p b : ℕ) : Option Cached :=
  if (s.ide.buf b).valid then some { s with reading := assign s.reading p none }
  else (s.ide.iderw NBUF havedisk1 p b).map (fun ide => { s with ide := ide })

def bwrite (havedisk1 : Bool) (s : Cached) (p b : ℕ) (data : Block) : Option Cached :=
  ({ s.ide with buf := assign s.ide.buf b { s.ide.buf b with data := data, dirty := true } }.iderw
    NBUF havedisk1 p b).map (fun ide => { s with ide := ide })

def brelse (s : Cached) (b : ℕ) : Cached :=
  let c := s.cache.brelse b
  { s with
    ide := { s.ide with buf := c.buf, holder := assign s.ide.holder b none }
    next := c.next, prev := c.prev, want := fun p => Bio.State.wake b (s.want p) }

def ideintr (s : Cached) (ok : Bool) : Option Cached :=
  match s.ide.active with
  | some r => (if ok then s.ide.ideintr r else s.ide.ideintrError).map (fun ide => { s with ide := ide })
  | none => none

def recheck (s : Cached) (p b : ℕ) : Cached :=
  if State.synced (s.ide.buf b) then
    { s with ide := { s.ide with proc := assign s.ide.proc p .idle }, reading := assign s.reading p none }
  else { s with ide := { s.ide with proc := assign s.ide.proc p (.asleep b) } }

def step (havedisk1 : Bool) (s : Cached) : Act → Option Cached
  | .bread p dev blockno => if s.ready p ∧ dev < 2 then s.scan p dev blockno else none
  | .rescan p =>
    match s.want p with
    | .awake dev blockno => s.scan p dev blockno
    | _ => none
  | .load p =>
    match s.reading p with
    | some b => if s.ide.proc p = .idle then s.load havedisk1 p b else none
    | none => none
  | .bwrite p b data => if s.ready p ∧ s.ide.holder b = some p then s.bwrite havedisk1 p b data else none
  | .brelse p b => if s.ready p ∧ s.ide.holder b = some p then some (s.brelse b) else none
  | .ideintr ok => s.ideintr ok
  | .kill p =>
    match s.want p, s.ide.proc p with
    | .asleep dev blockno _, _ => some { s with want := assign s.want p (.awake dev blockno) }
    | _, .asleep b => some { s with ide := { s.ide with proc := assign s.ide.proc p (.awake b) } }
    | _, _ => none
  | .recheck p =>
    match s.ide.proc p with
    | .awake b => some (s.recheck p b)
    | _ => none

def Step (havedisk1 : Bool) (s : Cached) (e : Act) (s' : Cached) : Prop := s.step havedisk1 e = some s'

def Shows (disk : UInt32 → Disk) (x : Buf) : Prop := x.data = disk (x.dev &&& 1) x.blockno.toNat

structure Fine (good : Prop) (q : List ℕ) (disk : UInt32 → Disk) (b : ℕ) (x : Buf)
    (holder : Option ℕ) : Prop where
  held : ∀ p, holder = some p → x.busy = true ∧ x.dev < 2
  valid : x.valid = true → b < NBUF ∧ x.dev < 2
  dirty : x.dirty = true → b ∈ q
  data : good → State.synced x = true → Shows disk x

structure Calls (holder : ℕ → Option ℕ) (p : ℕ) (want : Want) (proc : Proc) (reading : Option ℕ) :
    Prop where
  waits : ∀ dev k, want = .awake dev k ∨ (∃ b, want = .asleep dev k b) → dev < 2 ∧ proc = .idle
  reads : ∀ b, reading = some b → holder b = some p ∧ want = .nothing ∧
    (proc = .idle ∨ proc = .asleep b ∨ proc = .awake b)

structure Inv (good : Prop) (s : Cached) (q : List ℕ) : Prop where
  ide : State.Inv NBUF s.ide q
  listed : ∃ l, s.cache.Listed l
  fine : ∀ b, Fine good q s.ide.disk b (s.ide.buf b) (s.ide.holder b)
  single : Apart (fun dev _ => dev < 2) s.ide.buf
  calls : ∀ p, Calls s.ide.holder p (s.want p) (s.ide.proc p) (s.reading p)

variable {havedisk1 : Bool} {good good' : Prop} {s s' : Cached} {q : List ℕ} {p b : ℕ}
  {dev blockno : UInt32}

lemma and_one_of_lt (h : dev < 2) : dev &&& 1 = dev := by
  have hn : dev.toNat < 2 := UInt32.lt_iff_toNat_lt.mp h
  have hdev : dev = 0 ∨ dev = 1 := by
    rcases Nat.lt_succ_iff_lt_or_eq.mp hn with h0 | h1
    · exact .inl (UInt32.toNat_inj.mp (Nat.lt_one_iff.mp h0))
    · exact .inr (UInt32.toNat_inj.mp h1)
  rcases hdev with rfl | rfl <;> rfl

lemma iderw_frame {n : ℕ} {s s' : State} (hs : s.iderw n havedisk1 p b = some s') :
    s'.buf = s.buf ∧ s'.holder = s.holder ∧ s'.disk = s.disk ∧ s'.proc = assign s.proc p (.asleep b) := by
  simp only [State.iderw, State.idestart] at hs
  split_ifs at hs <;> cases hs <;> exact ⟨rfl, rfl, rfl, rfl⟩

lemma Calls.of_holder {holder holder' : ℕ → Option ℕ} {w : Want} {c : Proc} {o : Option ℕ}
    (h : Calls holder p w c o)
    (hh : ∀ y, holder y = some p → holder' y = some p) : Calls holder' p w c o :=
  ⟨h.waits, fun b hb => ⟨hh b (h.reads b hb).1, (h.reads b hb).2⟩⟩

namespace Inv

lemma init (disk : UInt32 → Disk) : Inv good (Cached.init disk) [] := by
  have hbuf : ∀ b, (Cached.init disk).ide.buf b = ⟨false, false, false, if b < NBUF then -1 else 0,
    0, Block.zero⟩ :=
    Bcache.binit_buf
  refine ⟨⟨rfl, List.nodup_nil, ?_, ?_, ?_, ?_, rfl, ?_, rfl, ?_⟩,
    ⟨_, Bcache.binit_listed.1.ring, Bcache.binit_listed.1.mem⟩,
    fun b => ?_, fun b hb b' _ hdev => ?_, fun p => ⟨by simp [Cached.init], nofun⟩⟩
  · exact fun b p h => nomatch h
  · exact fun b h => nomatch h
  · exact fun p b h => nomatch h
  · exact fun p b h => nomatch h
  · exact fun b h => nomatch h
  · exact fun x h => nomatch h
  · rw [hbuf]
    exact ⟨nofun, nofun, nofun, nofun⟩
  · rw [hbuf, if_pos hb] at hdev
    exact absurd hdev (by decide)

lemma change (h : Inv good s q) {q' : List ℕ} {x : Buf} (hinv : State.Inv NBUF s'.ide q')
    (hlist : ∃ l, s'.cache.Listed l) (hbuf : s'.ide.buf = assign s.ide.buf b x)
    (hx : (x.dev = (s.ide.buf b).dev ∧ x.blockno = (s.ide.buf b).blockno) ∨
      ∀ y < NBUF, s.cache.carries x.dev x.blockno y = false)
    (hb : Fine good' q' s'.ide.disk b x (s'.ide.holder b))
    (hother : ∀ y, y ≠ b → Fine good q s.ide.disk y (s.ide.buf y) (s.ide.holder y) →
      Fine good' q' s'.ide.disk y (s.ide.buf y) (s'.ide.holder y))
    (hcalls : ∀ r, Calls s'.ide.holder r (s'.want r) (s'.ide.proc r) (s'.reading r)) :
      Inv good' s' q' := by
  refine ⟨hinv, hlist, fun y => ?_, hbuf ▸ h.single.assign (hx.imp_right
    fun hno y hy => of_decide_eq_false (hno y hy)), hcalls⟩
  rw [hbuf, assign_apply]
  split_ifs with hy
  · exact hy ▸ hb
  · exact hother y hy (h.fine y)

section

variable (h : Inv good s q)
include h

lemma take (hidle : s.ide.proc p = .idle) (hb : b < NBUF) (hfree : (s.ide.buf b).busy = false)
    {x : Buf} (hbusy : x.busy = true) (hdev : x.dev < 2) (hx : x = { s.ide.buf b with busy := true } ∨
      x.valid = false ∧ x.dirty = false ∧ ∀ y < NBUF, s.cache.carries x.dev x.blockno y = false) :
      Inv good { s with
      ide := { s.ide with buf := assign s.ide.buf b x, holder := assign s.ide.holder b (some p) }
      want := assign s.want p .nothing, reading := assign s.reading p (some b) } q := by
  have hnone : s.ide.holder b = none := by
    cases hh : s.ide.holder b with
    | none => rfl
    | some r =>
      rw [((h.fine b).held r hh).1] at hfree
      cases hfree
  obtain ⟨l, hl⟩ := h.listed
  refine h.change (h.ide.setBuf hidle (.inl hnone) x (fun _ _ => hb)) ⟨l, hl.ring, hl.mem⟩ rfl ?_
    ⟨fun _ _ => ⟨hbusy, hdev⟩, fun _ => ⟨hb, hdev⟩, fun hd => ?_, fun hg hs => ?_⟩
    (fun y hy hf => ?_) fun r => ?_
  · rcases hx with rfl | ⟨-, -, hno⟩
    · exact .inl ⟨rfl, rfl⟩
    · exact .inr hno
  · rcases hx with rfl | ⟨-, hclean, -⟩
    · exact (h.fine b).dirty hd
    · rw [hclean] at hd
      cases hd
  · rcases hx with rfl | ⟨hinv, -⟩
    · exact (h.fine b).data hg hs
    · simp [State.synced, hinv] at hs
  · simpa only [assign_of_ne hy] using hf
  · by_cases hrp : r = p
    · subst hrp
      simp only [assign_self]
      refine ⟨by simp, fun y hy => ?_⟩
      obtain rfl := Option.some.inj hy
      exact ⟨assign_self .., rfl, .inl hidle⟩
    · simp only [assign_of_ne hrp]
      refine (h.calls r).of_holder fun y hy => ?_
      have hyb : y ≠ b := by
        rintro rfl
        rw [hnone] at hy
        cases hy
      rwa [assign_of_ne hyb]

lemma scan (hidle : s.ide.proc p = .idle) (hdev : dev < 2) (hread : s.reading p = none)
    (hs : s.scan p dev blockno = some s') : Inv good s' q := by
  obtain ⟨l, hl⟩ := h.listed
  unfold Cached.scan at hs
  rcases hl.bget dev blockno with
    ⟨b, hb, hc, hbusy, heq⟩ | ⟨b, hb, hc, hfree, heq⟩ | ⟨l1, b, l2, hsplit, hno, hidle', -, heq⟩
      | ⟨-, -, heq⟩
  · rw [heq] at hs
    cases hs
    refine { h with calls := fun r => ?_ }
    by_cases hrp : r = p
    · subst hrp
      simp only [assign_self, hread]
      refine ⟨fun d k hw => ?_, by simp⟩
      simp only [reduceCtorEq, Want.asleep.injEq, exists_and_left, false_or] at hw
      exact ⟨hw.1 ▸ hdev, hidle⟩
    · simp only [assign_of_ne hrp]
      exact h.calls r
  · rw [heq] at hs
    cases hs
    have hbd : (s.ide.buf b).dev < 2 := (of_decide_eq_true hc).1.symm ▸ hdev
    exact h.take hidle hb hfree rfl hbd (.inl rfl)
  · rw [heq] at hs
    cases hs
    have hb : b < NBUF := (hl.mem b).mp (by rw [hsplit]; simp)
    exact h.take hidle hb (of_decide_eq_true hidle').1 rfl hdev (.inr ⟨rfl, rfl, hno⟩)
  · rw [heq] at hs
    cases hs

lemma request {ide : State} (hinv : State.Inv NBUF ide (q ++ [b])) (hold : s.ide.holder b = some p)
    (hwant : s.want p = .nothing) (hread : ∀ y, s.reading p = some y → y = b) {x : Buf}
    (hx : x.busy = (s.ide.buf b).busy ∧ x.dev = (s.ide.buf b).dev ∧ x.blockno = (s.ide.buf b).blockno ∧
      x.valid = (s.ide.buf b).valid) (hun : State.synced x = false)
    (hide : ide.buf = assign s.ide.buf b x ∧ ide.holder = s.ide.holder ∧ ide.disk = s.ide.disk ∧
      ide.proc = assign s.ide.proc p (.asleep b)) : Inv good { s with ide := ide } (q ++ [b]) := by
  obtain ⟨hx1, hx2, hx3, hx4⟩ := hx
  obtain ⟨hbuf, hholder, hdisk, hproc⟩ := hide
  obtain ⟨l, hl⟩ := h.listed
  have hb := h.fine b
  refine h.change hinv ⟨l, hl.ring, hl.mem⟩ hbuf (.inl ⟨hx2, hx3⟩)
    ⟨fun r hr => ?_, fun hv => ?_, by simp, fun _ hs => ?_⟩ (fun y hy hf => ?_) fun r => ?_
  · rw [hx1, hx2]
    exact hb.held r (hholder ▸ hr)
  · rw [hx2]
    exact hb.valid (hx4 ▸ hv)
  · rw [hun] at hs
    cases hs
  · simp only [hholder, hdisk]
    exact { hf with dirty := fun hd => List.mem_append_left _ (hf.dirty hd) }
  · simp only [hholder, hproc]
    by_cases hrp : r = p
    · subst hrp
      rw [assign_self, hwant]
      exact ⟨by simp, fun y hy => ⟨hread y hy ▸ hold, rfl, .inr (.inl (by rw [hread y hy]))⟩⟩
    · rw [assign_of_ne hrp]
      exact h.calls r

lemma returned (p : ℕ) : Inv good { s with reading := assign s.reading p none } q := by
  refine { h with calls := fun r => ?_ }
  by_cases hrp : r = p
  · subst hrp
    simp only [assign_self]
    exact ⟨(h.calls r).waits, by simp⟩
  · simp only [assign_of_ne hrp]
    exact h.calls r

lemma load (hread : s.reading p = some b) (hidle : s.ide.proc p = .idle)
    (hs : s.load havedisk1 p b = some s') : ∃ q', Inv good s' q' := by
  obtain ⟨hold, hwant, -⟩ := (h.calls p).reads b hread
  unfold Cached.load at hs
  split_ifs at hs with hv
  · cases hs
    exact ⟨q, h.returned p⟩
  · obtain ⟨ide, hide, rfl⟩ := Option.map_eq_some_iff.mp hs
    obtain ⟨hbuf, hframe⟩ := iderw_frame hide
    refine ⟨q ++ [b], h.request (h.ide.iderw hidle hold hide) hold hwant (fun y hy => ?_)
      ⟨rfl, rfl, rfl, rfl⟩ ?_ ⟨by rw [hbuf, assign_eq_self rfl], hframe⟩⟩
    · rw [hread] at hy
      exact (Option.some.inj hy).symm
    · simp [State.synced, hv]

lemma bwrite (hready : s.ready p = true) (hold : s.ide.holder b = some p) {data : Block}
    (hs : s.bwrite havedisk1 p b data = some s') : ∃ q', Inv good s' q' := by
  obtain ⟨hidle, hwant, hread⟩ := of_decide_eq_true hready
  obtain ⟨ide, hide, rfl⟩ := Option.map_eq_some_iff.mp hs
  have hset := h.ide.setBuf hidle (.inr hold) { s.ide.buf b with data := data, dirty := true }
    (fun r hr => h.ide.lt b r hr)
  rw [assign_eq_self rfl] at hset
  refine ⟨q ++ [b], h.request (x := { s.ide.buf b with data := data, dirty := true })
    (hset.iderw hidle hold hide) hold
    hwant (fun y hy => ?_) ⟨rfl, rfl, rfl, rfl⟩ ?_ (iderw_frame hide)⟩
  · rw [hread] at hy
    cases hy
  · simp [State.synced]

lemma brelse (hready : s.ready p = true) (hold : s.ide.holder b = some p) : Inv good (s.brelse b) q := by
  obtain ⟨hidle, hwant, hread⟩ := of_decide_eq_true hready
  obtain ⟨l, hl⟩ := h.listed
  refine h.change (h.ide.setBuf hidle (.inr hold) _ (by simp))
    ⟨_, hl.brelse (h.ide.lt b p hold)⟩ rfl (.inl ⟨rfl, rfl⟩)
    { h.fine b with held := fun r hr => ?_ } (fun y hy hf => ?_) fun r =>
    ⟨fun dev k hw => ?_, fun y hr => ?_⟩
  · rw [show (s.brelse b).ide.holder b = none from assign_self ..] at hr
    cases hr
  · rw [show (s.brelse b).ide.holder y = s.ide.holder y from assign_of_ne hy ..]
    exact hf
  · refine (h.calls r).waits dev k ?_
    have hw : Bio.State.wake b (s.want r) = .awake dev k ∨ ∃ y,
      Bio.State.wake b (s.want r) = .asleep dev k y := hw
    cases hwr : s.want r with
    | nothing => simp [hwr, Bio.State.wake] at hw
    | awake d j => simpa [hwr, Bio.State.wake] using hw
    | asleep d j y =>
      right
      simp only [hwr, Bio.State.wake] at hw
      split_ifs at hw <;> simpa using hw
  · obtain ⟨h1, h2, h3⟩ := (h.calls r).reads y hr
    have hy : y ≠ b := by
      rintro rfl
      rw [hold] at h1
      cases h1
      have hr : s.reading p = some y := hr
      rw [hread] at hr
      cases hr
    refine ⟨(assign_of_ne hy ..).trans h1, ?_, h3⟩
    show Bio.State.wake b (s.want r) = .nothing
    rw [h2]
    rfl

end

lemma dequeue (h : Inv good s (b :: q)) {ide : State} {x : Buf} {disk : UInt32 → Disk}
    (hinv : State.Inv NBUF ide q) (hd : State.Dequeued s.ide b x disk ide)
    (hx : x.busy = (s.ide.buf b).busy ∧ x.dev = (s.ide.buf b).dev ∧
    x.blockno = (s.ide.buf b).blockno ∧ x.dirty = false) (hb : good' → Shows disk x)
    (hother : good' → ∀ y, y ≠ b → State.synced (s.ide.buf y) = true → Shows disk (s.ide.buf y)) :
    Inv good' { s with ide := ide } q := by
  obtain ⟨hx1, hx2, hx3, hx4⟩ := hx
  obtain ⟨l, hl⟩ := h.listed
  obtain ⟨r0, hr0, -⟩ := (h.ide.queued b (List.mem_cons_self ..)).holder
  have hb0 := (h.fine b).held r0 hr0
  refine h.change hinv ⟨l, hl.ring, hl.mem⟩ hd.buf (.inl ⟨hx2, hx3⟩)
    ⟨fun _ _ => by rwa [hx1, hx2], fun _ => ⟨h.ide.lt b r0 hr0, by rw [hx2]; exact hb0.2⟩, fun hdb => ?_,
      fun hg _ => hd.disk ▸ hb hg⟩ (fun y hy hf => ?_) fun r => ?_
  · rw [hx4] at hdb
    cases hdb
  · simp only [hd.holder, hd.disk]
    exact ⟨hf.held, hf.valid, fun hdy => (List.mem_cons.mp (hf.dirty hdy)).resolve_left hy,
      fun hg hs => hother hg y hy hs⟩
  simp only [hd.holder, hd.proc]
  refine ⟨fun dev k hw => ?_, fun y hr => ?_⟩
  · obtain ⟨h1, h2⟩ := (h.calls r).waits dev k hw
    exact ⟨h1, by rw [h2]; rfl⟩
  · obtain ⟨h1, h2, h3⟩ := (h.calls r).reads y hr
    refine ⟨h1, h2, ?_⟩
    rcases h3 with h3 | h3 | h3
    · exact .inl (by rw [h3]; rfl)
    · by_cases hy : y = b
      · exact .inr (.inr (by simp [h3, State.wake, hy]))
      · exact .inr (.inl (by simp [h3, State.wake, hy]))
    · exact .inr (.inr (by rw [h3]; rfl))

section

variable (h : Inv good s q)
include h

lemma setProc (hp : s.ide.proc p = .asleep b ∨ s.ide.proc p = .awake b) {x : Proc}
    (hinv : State.Inv NBUF { s.ide with proc := assign s.ide.proc p x } q) {reading : ℕ → Option ℕ}
    (hread : ∀ r y, reading r = some y → s.reading r = some y ∧ (r = p → x = .asleep b ∨ x = .awake b)) :
    Inv good { s with ide := { s.ide with proc := assign s.ide.proc p x }, reading := reading } q := by
  refine { h with ide := hinv, calls := fun r => ⟨fun dev k hw => ?_, fun y hr => ?_⟩ }
  · obtain ⟨h1, h2⟩ := (h.calls r).waits dev k hw
    have hrp : r ≠ p := by
      rintro rfl
      rw [h2] at hp
      rcases hp with hp | hp <;> cases hp
    exact ⟨h1, (assign_of_ne hrp ..).trans h2⟩
  · obtain ⟨hr, hx⟩ := hread r y hr
    obtain ⟨h1, h2, h3⟩ := (h.calls r).reads y hr
    refine ⟨h1, h2, ?_⟩
    by_cases hrp : r = p
    · subst hrp
      have hyb : y = b := by
        rcases hp with hp | hp <;> rw [hp] at h3 <;> simpa [eq_comm] using h3
      simp only [assign_self, hyb]
      exact .inr (hx rfl)
    · simp only [assign_of_ne hrp]
      exact h3

lemma recheck (hp : s.ide.proc p = .awake b) : Inv good (s.recheck p b) q := by
  unfold Cached.recheck
  split_ifs with hsync
  · refine h.setProc (.inr hp) (h.ide.setProc (.inr hp) (.inr (.inr ⟨rfl, hsync⟩))) (fun r y hr => ?_)
    have hrp : r ≠ p := by
      rintro rfl
      simp [assign_self] at hr
    exact ⟨by simpa only [assign_of_ne hrp] using hr, fun heq => absurd heq hrp⟩
  · have hq : b ∈ q := (h.ide.awake p b hp).2.resolve_right hsync
    exact h.setProc (.inr hp) (h.ide.setProc (.inr hp) (.inl ⟨rfl, hq⟩))
      (fun r y hr => ⟨hr, fun _ => .inl rfl⟩)

lemma ideintr (hs : s.ideintr true = some s') : ∃ q', Inv good s' q' := by
  unfold Cached.ideintr at hs
  cases hact : s.ide.active with
  | none =>
    rw [hact] at hs
    cases hs
  | some r =>
    rw [hact] at hs
    obtain ⟨ide, hide, rfl⟩ := Option.map_eq_some_iff.mp hs
    obtain ⟨b, q', rfl, rfl, hinv, hd⟩ := h.ide.ideintr hact hide
    refine ⟨q', h.dequeue hinv hd ⟨rfl, rfl, rfl, rfl⟩ (fun _ => ?_) (fun hg y hy hsync => ?_)⟩
    · unfold Shows State.completedBuf State.finish State.request
      cases (s.ide.buf b).dirty <;> simp
    · have hold := (h.fine y).data hg hsync
      obtain ⟨p, hp, -⟩ := (h.ide.queued b (List.mem_cons_self ..)).holder
      obtain ⟨hylt, hydev⟩ := (h.fine y).valid (of_decide_eq_true hsync).1
      have hbdev := ((h.fine b).held p hp).2
      unfold Shows at hold ⊢
      rw [hold]
      unfold State.finish State.request
      cases hdirty : (s.ide.buf b).dirty with
      | false => rfl
      | true =>
        -- a buffer of the same disk block would be `b` itself
        by_cases hdrive : (s.ide.buf y).dev &&& 1 = (s.ide.buf b).dev &&& 1
        · have hblock : (s.ide.buf y).blockno.toNat ≠ (s.ide.buf b).blockno.toNat := by
            intro hblock
            rw [and_one_of_lt hydev, and_one_of_lt hbdev] at hdrive
            exact hy (h.single y hylt b (h.ide.lt b p hp) hydev hdrive (UInt32.toNat_inj.mp hblock))
          simp only [if_true, hdrive, assign_self, assign_of_ne hblock]
        · simp only [if_true, assign_of_ne hdrive]

lemma ideintr_error (hs : s.ideintr false = some s') : ∃ q', Inv False s' q' ∧ ∃ b,
    s.ide.idequeue = some b ∧
      s'.ide.buf b = { s.ide.buf b with valid := true, dirty := false } := by
  unfold Cached.ideintr at hs
  cases hact : s.ide.active with
  | none =>
    rw [hact] at hs
    cases hs
  | some r =>
    rw [hact] at hs
    obtain ⟨ide, hide, rfl⟩ := Option.map_eq_some_iff.mp hs
    obtain ⟨b, q', rfl, rfl, hfirst⟩ := h.ide.active_head hact
    have hide : s.ide.ideintrError = some ide := hide
    unfold State.ideintrError at hide
    rw [hfirst] at hide
    obtain ⟨hinv, hd⟩ := h.ide.startNext (by simp [State.synced]) hide
    refine ⟨q', h.dequeue hinv hd ⟨rfl, rfl, rfl, rfl⟩ False.elim (fun hf => hf.elim), b, hfirst, ?_⟩
    rw [hd.buf, assign_self]

lemma weaken (hg : good' → good) : Inv good' s q :=
  { h with fine := fun b => { h.fine b with data := fun hg' => (h.fine b).data (hg hg') } }

lemma step {e : Act} (hs : s.step havedisk1 e = some s') :
    ∃ q', Inv (good ∧ e ≠ .ideintr false) s' q' := by
  suffices hkey : e = .ideintr false ∨ ∃ q', Inv good s' q' by
    rcases hkey with rfl | ⟨q', h'⟩
    · obtain ⟨q', h', -⟩ := h.ideintr_error hs
      exact ⟨q', h'.weaken (fun hg => hg.2 rfl)⟩
    · exact ⟨q', h'.weaken And.left⟩
  cases e with
  | bread p dev k =>
    simp only [Cached.step] at hs
    split_ifs at hs with hg
    obtain ⟨hidle, -, hread⟩ := of_decide_eq_true hg.1
    exact .inr ⟨q, h.scan hidle hg.2 hread hs⟩
  | rescan p =>
    simp only [Cached.step] at hs
    split at hs
    · rename_i dev k hw
      obtain ⟨hdev, hidle⟩ := (h.calls p).waits dev k (.inl hw)
      have hread : s.reading p = none := by
        cases hr : s.reading p with
        | none => rfl
        | some b =>
          rw [((h.calls p).reads b hr).2.1] at hw
          cases hw
      exact .inr ⟨q, h.scan hidle hdev hread hs⟩
    · cases hs
  | load p =>
    simp only [Cached.step] at hs
    split at hs
    · rename_i b hread
      split_ifs at hs with hidle
      exact .inr (h.load hread hidle hs)
    · cases hs
  | bwrite p b data =>
    simp only [Cached.step] at hs
    split_ifs at hs with hg
    exact .inr (h.bwrite hg.1 hg.2 hs)
  | brelse p b =>
    simp only [Cached.step] at hs
    split_ifs at hs with hg
    cases hs
    exact .inr ⟨q, h.brelse hg.1 hg.2⟩
  | ideintr ok =>
    cases ok with
    | false => exact .inl rfl
    | true => exact .inr (h.ideintr hs)
  | kill p =>
    simp only [Cached.step] at hs
    split at hs
    · rename_i dev k b hw
      cases hs
      refine .inr ⟨q, { h with calls := fun r => ?_ }⟩
      by_cases hrp : r = p
      · subst hrp
        simp only [assign_self]
        refine ⟨fun d j hw' => ?_, fun y hr => ?_⟩
        · simp only [Want.awake.injEq, reduceCtorEq, exists_false, or_false] at hw'
          obtain ⟨rfl, rfl⟩ := hw'
          exact (h.calls r).waits dev k (.inr ⟨b, hw⟩)
        · rw [((h.calls r).reads y hr).2.1] at hw
          cases hw
      · simp only [assign_of_ne hrp]
        exact h.calls r
    · rename_i b hb _
      cases hs
      exact .inr ⟨q, h.setProc (.inl hb)
        (h.ide.setProc (.inl hb) (.inr (.inl ⟨rfl, (h.ide.asleep p b hb).2⟩)))
        (fun r y hr => ⟨hr, fun _ => .inr rfl⟩)⟩
    · cases hs
  | recheck p =>
    simp only [Cached.step] at hs
    split at hs
    · rename_i b hb
      cases hs
      exact .inr ⟨q, h.recheck hb⟩
    · cases hs

end

lemma run {disk : UInt32 → Disk} {es : List Act} (hrun : Run (Step havedisk1) (Cached.init disk) es s) :
    ∃ q, Inv (∀ e ∈ es, e ≠ .ideintr false) s q := by
  refine hrun.invariant (P := fun es s => ∃ q, Inv (∀ e ∈ es, e ≠ .ideintr false) s q)
    ⟨[], Inv.init disk⟩ ?_
  rintro es s e s' - ⟨q, h⟩ hs
  obtain ⟨q', h'⟩ := h.step hs
  exact ⟨q', h'.weaken (fun hall => ⟨fun e he => hall e (List.mem_append_left _ he), hall e (by simp)⟩)⟩

end Inv

def Returns (havedisk1 : Bool) (s : Cached) (p b : ℕ) (s' : Cached) : Prop :=
  s.reading p = some b ∧ s'.reading p = none ∧
    (Step havedisk1 s (.load p) s' ∨ Step havedisk1 s (.recheck p) s')

lemma Inv.returns (h : Inv good s q) (hg : good) (hr : Returns havedisk1 s p b s') :
    (s'.ide.buf b).valid = true ∧ Shows s'.ide.disk (s'.ide.buf b) := by
  obtain ⟨hread, hread', hs | hs⟩ := hr
  · obtain ⟨hold, -, -⟩ := (h.calls p).reads b hread
    simp only [Step, Cached.step, hread] at hs
    split_ifs at hs with hidle
    unfold Cached.load at hs
    split_ifs at hs with hv
    · cases hs
      have hclean : (s.ide.buf b).dirty = false :=
        Bool.eq_false_iff.mpr (fun hd => h.ide.notMem hidle (.inr hold) ((h.fine b).dirty hd))
      exact ⟨hv, (h.fine b).data hg (decide_eq_true ⟨hv, hclean⟩)⟩
    · obtain ⟨ide, -, rfl⟩ := Option.map_eq_some_iff.mp hs
      rw [show s.reading p = none from hread'] at hread
      cases hread
  · obtain ⟨-, -, hp⟩ := (h.calls p).reads b hread
    simp only [Step, Cached.step] at hs
    split at hs
    · rename_i y hy
      have hyb : y = b := by
        rw [hy] at hp
        simpa using hp
      subst hyb
      unfold Cached.recheck at hs
      split_ifs at hs with hsync <;> cases hs
      · exact ⟨(of_decide_eq_true hsync).1, (h.fine y).data hg hsync⟩
      · rw [show s.reading p = none from hread'] at hread
        cases hread
    · cases hs

theorem bread_returns_disk_data (havedisk1 : Bool) (disk : UInt32 → Disk) (es : List Act) (s : Cached)
    (hrun : Run (Step havedisk1) (init disk) es s) :
    ((∀ e ∈ es, e ≠ .ideintr false) →
      (∀ p b s', Returns havedisk1 s p b s' → (s'.ide.buf b).valid = true ∧ Shows s'.ide.disk
      (s'.ide.buf b)) ∧
      ∀ b, (s.ide.buf b).valid = true → (s.ide.buf b).dirty = false → Shows s.ide.disk (s.ide.buf b)) ∧
    ∀ s', Step havedisk1 s (.ideintr false) s' → ∃ b, s.ide.idequeue = some b ∧
      (s'.ide.buf b).valid = true ∧ (s'.ide.buf b).data = (s.ide.buf b).data := by
  obtain ⟨q, h⟩ := Inv.run hrun
  refine ⟨fun hok => ⟨fun p b s' hr => h.returns hok hr, fun b hv hd => (h.fine b).data hok
    (decide_eq_true ⟨hv, hd⟩)⟩, fun s' hs => ?_⟩
  obtain ⟨-, -, b, hfirst, hbuf⟩ := h.ideintr_error hs
  exact ⟨b, hfirst, by rw [hbuf], by rw [hbuf]⟩

def oneRead (ok : Bool) : List Act := [.bread 0 1 7, .load 0, .ideintr ok]

def ones : UInt32 → Disk := fun _ _ _ => 1

theorem bread_returns_disk_data_one_read :
    ∃ s s', Run (Step true) (init ones) (oneRead true) s ∧ Returns true s 0 0 s' ∧ Shows s'.ide.disk
    (s'.ide.buf 0) := by
  obtain ⟨s, hs, hread, s', hs', hread'⟩ : ∃ s ∈ exec (step true) (init ones) (oneRead true),
    s.reading 0 = some 0 ∧ ∃ s' ∈ s.step true (.recheck 0), s'.reading 0 = none := by decide +kernel
  have hret : Returns true s 0 0 s' := ⟨hread, hread', .inr hs'⟩
  have hrun := run_of_exec hs
  refine ⟨s, s', hrun, hret, ?_⟩
  refine (((bread_returns_disk_data true ones _ s hrun).1 (fun e he => ?_)).1 0 0 s' hret).2
  rcases List.mem_cons.mp he with rfl | he
  · exact nofun
  rcases List.mem_cons.mp he with rfl | he
  · exact nofun
  rw [List.mem_singleton.mp he]
  exact nofun

theorem failed_read_returns_stale_data :
    ∃ s s', Run (Step true) (init ones) (oneRead false) s ∧ Returns true s 0 0 s' ∧
    (s'.ide.buf 0).valid = true ∧
      ¬ Shows s'.ide.disk (s'.ide.buf 0) := by
  obtain ⟨s, hs, hread, s', hs', hread', hv, hdata, hdisk⟩ :
    ∃ s ∈ exec (step true) (init ones) (oneRead false),
    s.reading 0 = some 0 ∧ ∃ s' ∈ s.step true (.recheck 0), s'.reading 0 = none ∧
    (s'.ide.buf 0).valid = true ∧
      (s'.ide.buf 0).data ⟨0, by decide⟩ = 0 ∧
      s'.ide.disk ((s'.ide.buf 0).dev &&& 1) (s'.ide.buf 0).blockno.toNat ⟨0, by decide⟩ = 1 := by
    decide +kernel
  refine ⟨s, s', run_of_exec hs, ⟨hread, hread', .inr hs'⟩, hv, fun hshow => ?_⟩
  rw [show (s'.ide.buf 0).data = _ from hshow, hdisk] at hdata
  cases hdata

end Cached

end Xv6.Ide
