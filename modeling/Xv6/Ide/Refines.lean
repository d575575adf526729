import Xv6.Ide.Queue

namespace Xv6.Ide.State

open Lib Bio

variable {n : ℕ} {havedisk1 : Bool} {s s' : State} {q : List ℕ} {p b : ℕ}

structure Queued (s : State) (b : ℕ) : Prop where
  holder : ∃ p, s.holder b = some p ∧ (s.proc p = .asleep b ∨ s.proc p = .awake b)
  busy : (s.buf b).busy = true
  unsynced : synced (s.buf b) = false

structure Inv (n : ℕ) (s : State) (q : List ℕ) : Prop where
  chain : Chain s.qnext s.idequeue q
  nodup : q.Nodup
  lt : ∀ b p, s.holder b = some p → b < n
  queued : ∀ b ∈ q, Queued s b
  asleep : ∀ p b, s.proc p = .asleep b → s.holder b = some p ∧ b ∈ q
  awake : ∀ p b, s.proc p = .awake b → s.holder b = some p ∧ (b ∈ q ∨ synced (s.buf b) = true)
  active : s.active = q.head?.map (fun b => request (s.buf b))
  small : ∀ b, q.head? = some b → (s.buf b).blockno.toNat < FSSIZE
  history : s.appended = s.completed ++ q
  started : ∀ x ∈ s.started, x.head = some x.b ∧ x.active = none

lemma Inv.init (disk : UInt32 → Disk) : Inv n (init disk) [] where
  chain := rfl
  nodup := List.nodup_nil
  lt _ _ h := by cases h
  queued _ h := absurd h List.not_mem_nil
  asleep _ _ h := by cases h
  awake _ _ h := by cases h
  active := rfl
  small _ h := by cases h
  history := rfl
  started _ h := absurd h List.not_mem_nil

lemma Inv.notMem (h : Inv n s q) (hidle : s.proc p = .idle)
    (hb : s.holder b = none ∨ s.holder b = some p) : b ∉ q := by
  intro hq
  obtain ⟨r, hr, hw⟩ := (h.queued b hq).holder
  rcases hb with hb | hb
  · rw [hb] at hr
    cases hr
  · rw [hb] at hr
    cases hr
    rw [hidle] at hw
    rcases hw with hw | hw <;> cases hw

lemma Inv.setBuf (h : Inv n s q) (hidle : s.proc p = .idle) (hb : s.holder b = none ∨ s.holder b = some p)
    (x : Buf) {o : Option ℕ} (ho : ∀ r, o = some r → b < n) :
    Inv n { s with buf := assign s.buf b x, holder := assign s.holder b o } q := by
  have hq := h.notMem hidle hb
  have hsame : ∀ b', b' ≠ b → assign s.holder b o b' = s.holder b' := fun b' hb' => assign_of_ne hb' ..
  have hwait : ∀ r b', (s.proc r = .asleep b' ∨ s.proc r = .awake b') → b' ≠ b := by
    rintro r b' hr rfl
    have hh : s.holder b' = some r := hr.elim (fun h' => (h.asleep r b' h').1)
      (fun h' => (h.awake r b' h').1)
    rcases hb with hb | hb <;> rw [hb] at hh <;> cases hh
    rw [hidle] at hr
    rcases hr with hr | hr <;> cases hr
  have hne : ∀ b' ∈ q, b' ≠ b := fun b' hb' heq => hq (heq ▸ hb')
  have hbuf : ∀ b' ∈ q, assign s.buf b x b' = s.buf b' := fun b' hb' => assign_of_ne (hne b' hb') ..
  refine ⟨h.chain, h.nodup, fun b' r hr => ?_, fun b' hb' => ?_, fun r b' hr => ?_,
    fun r b' hr => ?_, ?_, fun b' hb' => ?_, h.history, h.started⟩
  · by_cases hb' : b' = b
    · subst hb'
      simp only [assign_self] at hr
      exact ho r hr
    · simp only [hsame b' hb'] at hr
      exact h.lt b' r hr
  · obtain ⟨⟨r, hr, hw⟩, h2, h3⟩ := h.queued b' hb'
    refine ⟨⟨r, (hsame b' (hne b' hb')).trans hr, hw⟩, ?_, ?_⟩
    · simpa only [hbuf b' hb'] using h2
    · simpa only [hbuf b' hb'] using h3
  · obtain ⟨h1, h2⟩ := h.asleep r b' hr
    exact ⟨(hsame b' (hwait r b' (.inl hr))).trans h1, h2⟩
  · obtain ⟨h1, h2⟩ := h.awake r b' hr
    have hb' := hwait r b' (.inr hr)
    exact ⟨(hsame b' hb').trans h1, by simpa only [assign_of_ne hb'] using h2⟩
  · rw [h.active]
    cases q with
    | nil => rfl
    | cons c q => simp only [List.head?_cons, Option.map_some, hbuf c (List.mem_cons_self ..)]
  · show (assign s.buf b x b').blockno.toNat < FSSIZE
    rw [hbuf b' (List.mem_of_mem_head? hb')]
    exact h.small b' hb'

lemma Inv.length_le (h : Inv n s q) : q.length ≤ n := by
  have hsub : q ⊆ List.range n := by
    intro b hb
    obtain ⟨p, hp, -⟩ := (h.queued b hb).holder
    exact List.mem_range.mpr (h.lt b p hp)
  simpa using (h.nodup.subperm hsub).length_le

lemma Inv.append (h : Inv n s q) (hidle : s.proc p = .idle) (hb : s.holder b = some p)
    (hbusy : (s.buf b).busy = true) (hun : synced (s.buf b) = false) {act : Option Request}
    {st : List Start} (hact : act = (q ++ [b]).head?.map (fun b => request (s.buf b)))
    (hsmall : ∀ c, (q ++ [b]).head? = some c → (s.buf c).blockno.toNat < FSSIZE)
    (hst : ∀ x ∈ st, x.head = some x.b ∧ x.active = none) : Inv n { s with
      idequeue := (enqueue s.idequeue s.qnext n b).1, qnext := (enqueue s.idequeue s.qnext n b).2,
      appended := s.appended ++ [b], proc := assign s.proc p (.asleep b), active := act, started :=
        st } (q ++ [b]) := by
  have hq := h.notMem hidle (.inr hb)
  have hother : ∀ r, s.proc r ≠ .idle → r ≠ p := by
    rintro r hr rfl
    exact hr hidle
  refine ⟨h.chain.enqueue h.nodup hq h.length_le, ?_, h.lt, fun c hc => ?_, fun r c hr => ?_,
    fun r c hr => ?_, hact, hsmall, ?_, hst⟩
  · rw [List.nodup_append]
    refine ⟨h.nodup, List.nodup_singleton b, fun x hx y hy heq => ?_⟩
    rw [List.mem_singleton.mp hy] at heq
    exact hq (heq ▸ hx)
  · rcases List.mem_append.mp hc with hc | hc
    · obtain ⟨⟨r, hr, hw⟩, h2, h3⟩ := h.queued c hc
      have hrp : r ≠ p := hother r (by rcases hw with hw | hw <;> rw [hw] <;> simp)
      exact ⟨⟨r, hr, by simpa only [assign_of_ne hrp] using hw⟩, h2, h3⟩
    · obtain rfl := List.mem_singleton.mp hc
      exact ⟨⟨p, hb, .inl (assign_self ..)⟩, hbusy, hun⟩
  · by_cases hrp : r = p
    · subst hrp
      simp only [assign_self, Proc.asleep.injEq] at hr
      subst hr
      exact ⟨hb, by simp⟩
    · simp only [assign_of_ne hrp] at hr
      exact ⟨(h.asleep r c hr).1, List.mem_append_left _ (h.asleep r c hr).2⟩
  · by_cases hrp : r = p
    · subst hrp
      simp [assign_self] at hr
    · simp only [assign_of_ne hrp] at hr
      exact ⟨(h.awake r c hr).1, (h.awake r c hr).2.imp (List.mem_append_left _) id⟩
  · show s.appended ++ [b] = s.completed ++ (q ++ [b])
    rw [h.history, List.append_assoc]

lemma Inv.iderw (h : Inv n s q) (hidle : s.proc p = .idle) (hb : s.holder b = some p)
    (hs : s.iderw n havedisk1 p b = some s') : Inv n s' (q ++ [b]) := by
  have hq := h.notMem hidle (.inr hb)
  have hchain := h.chain.enqueue h.nodup hq h.length_le
  simp only [State.iderw] at hs
  split_ifs at hs with hbusy hsync hdev hhead
  · -- the queue was empty: `b` is started
    have hnil : q = [] := by
      cases q with
      | nil => rfl
      | cons c q =>
        have hfirst : _ = some c := hchain.1
        rw [hhead] at hfirst
        exact absurd (by rw [Option.some.inj hfirst]; exact List.mem_cons_self ..) hq
    subst hnil
    unfold idestart at hs
    split_ifs at hs with hbig
    cases hs
    refine h.append hidle hb (by simpa using hbusy) (by simpa using hsync) rfl ?_ (fun x hx => ?_)
    · intro c hc
      obtain rfl : b = c := by simpa using hc
      exact not_le.mp hbig
    · rcases List.mem_append.mp hx with hx | hx
      · exact h.started x hx
      · obtain rfl := List.mem_singleton.mp hx
        exact ⟨hhead, h.active⟩
  · cases hs
    have hne : q ≠ [] := by
      rintro rfl
      exact hhead hchain.1
    obtain ⟨c, q, rfl⟩ := List.exists_cons_of_ne_nil hne
    exact h.append hidle hb (by simpa using hbusy) (by simpa using hsync) h.active h.small h.started

def completedBuf (s : State) (b : ℕ) : Buf :=
  { s.buf b with
    data := if (s.buf b).dirty then (s.buf b).data
      else finish s.disk (request (s.buf b)) ((s.buf b).dev &&& 1) (s.buf b).blockno.toNat
    valid := true, dirty := false }

lemma Inv.complete (h : Inv n s (b :: q)) {x : Buf} (hx : synced x = true) (act : Option Request)
    (st : List Start) (disk : UInt32 → Disk) (hact : act = q.head?.map (fun b => request (s.buf b)))
    (hsmall : ∀ c, q.head? = some c → (s.buf c).blockno.toNat < FSSIZE)
    (hst : ∀ x ∈ st, x.head = some x.b ∧ x.active = none) : Inv n { s with
      disk := disk, active := act, idequeue := s.qnext b, completed := s.completed ++ [b],
      proc := fun p => wake b (s.proc p), buf := assign s.buf b x, started := st } q := by
  obtain ⟨hbq, hnd⟩ := List.nodup_cons.mp h.nodup
  have hne : ∀ c ∈ q, c ≠ b := fun c hc heq => hbq (heq ▸ hc)
  have hbuf : ∀ c ∈ q, assign s.buf b x c = s.buf c := fun c hc => assign_of_ne (hne c hc) ..
  refine ⟨h.chain.2, hnd, h.lt, fun c hc => ?_, fun r c hr => ?_, fun r c hr => ?_, ?_,
    fun c hc => ?_, ?_, hst⟩
  · obtain ⟨⟨r, hr, hw⟩, h2, h3⟩ := h.queued c (List.mem_cons_of_mem _ hc)
    refine ⟨⟨r, hr, ?_⟩, by simpa only [hbuf c hc] using h2, by simpa only [hbuf c hc] using h3⟩
    rcases hw with hw | hw <;> simp [hw, wake, hne c hc]
  · obtain ⟨hr', hcb⟩ : s.proc r = .asleep c ∧ c ≠ b := by
      simp only [wake] at hr
      split at hr
      · split_ifs at hr with heq
        cases hr
        exact ⟨by assumption, heq⟩
      · rename_i hno
        exact absurd hr (hno c)
    obtain ⟨h1, h2⟩ := h.asleep r c hr'
    exact ⟨h1, (List.mem_cons.mp h2).resolve_left hcb⟩
  · by_cases hcb : c = b
    · subst hcb
      have hw : s.proc r = .asleep c ∨ s.proc r = .awake c := by
        simp only [wake] at hr
        split at hr
        · split_ifs at hr with heq
          exact .inl (by rw [← heq]; assumption)
        · exact .inr hr
      have hho : s.holder c = some r := hw.elim (fun h' => (h.asleep r c h').1)
        (fun h' => (h.awake r c h').1)
      refine ⟨hho, .inr ?_⟩
      simpa only [assign_self] using hx
    · have hr' : s.proc r = .awake c := by
        simp only [wake] at hr
        split at hr
        · split_ifs at hr
          cases hr
          exact absurd rfl hcb
        · exact hr
      obtain ⟨h1, h2⟩ := h.awake r c hr'
      refine ⟨h1, ?_⟩
      simp only [assign_of_ne hcb]
      exact h2.imp (fun hm => (List.mem_cons.mp hm).resolve_left hcb) id
  · show act = _
    rw [hact]
    cases q with
    | nil => rfl
    | cons c q => simp only [List.head?_cons, Option.map_some, hbuf c (List.mem_cons_self ..)]
  · show (assign s.buf b x c).blockno.toNat < FSSIZE
    rw [hbuf c (List.mem_of_mem_head? hc)]
    exact hsmall c hc
  · show s.appended = s.completed ++ [b] ++ q
    rw [h.history, List.append_assoc]
    rfl

def dequeued (s : State) (b : ℕ) (x : Buf) (disk : UInt32 → Disk) : State :=
  { s with
    disk := disk, active := none, idequeue := s.qnext b, completed := s.completed ++ [b],
    proc := fun p => wake b (s.proc p), buf := assign s.buf b x }

def startNext (s : State) : Option State :=
  match s.idequeue with
  | none => some s
  | some c => s.idestart c

structure Dequeued (s : State) (b : ℕ) (x : Buf) (disk : UInt32 → Disk) (s' : State) : Prop where
  completed : s'.completed = s.completed ++ [b]
  buf : s'.buf = assign s.buf b x
  disk : s'.disk = disk
  holder : s'.holder = s.holder
  proc : s'.proc = fun p => wake b (s.proc p)

lemma Inv.startNext (h : Inv n s (b :: q)) {x : Buf} (hx : synced x = true) {disk : UInt32 → Disk}
    (hs : (s.dequeued b x disk).startNext = some s') : Inv n s' q ∧ Dequeued s b x disk s' := by
  have htail := h.chain.2
  cases q with
  | nil =>
    have hnone : s.qnext b = none := htail
    simp only [State.startNext, dequeued, hnone] at hs
    cases hs
    refine ⟨?_, rfl, rfl, rfl, rfl, rfl⟩
    have := h.complete hx none s.started disk rfl (fun c hc => by cases hc) h.started
    rw [hnone] at this
    exact this
  | cons c q =>
    have hsome : s.qnext b = some c := htail.1
    have hcb : c ≠ b := fun heq => (List.nodup_cons.mp h.nodup).1 (heq ▸ List.mem_cons_self ..)
    simp only [State.startNext, dequeued, hsome, idestart, assign_of_ne hcb] at hs
    split_ifs at hs with hbig
    cases hs
    refine ⟨?_, rfl, rfl, rfl, rfl, rfl⟩
    have := h.complete hx (some (request (s.buf c))) (s.started ++ [⟨c, some c, none⟩]) disk rfl ?_ ?_
    · rw [hsome] at this
      exact this
    · intro d hd
      obtain rfl : c = d := by simpa using hd
      exact not_le.mp hbig
    · intro y hy
      rcases List.mem_append.mp hy with hy | hy
      · exact h.started y hy
      · obtain rfl := List.mem_singleton.mp hy
        exact ⟨rfl, rfl⟩

lemma Inv.active_head (h : Inv n s q) {r : Request} (hr : s.active = some r) :
    ∃ b q', q = b :: q' ∧ r = request (s.buf b) ∧ s.idequeue = some b := by
  rw [h.active] at hr
  cases q with
  | nil => cases hr
  | cons b q => exact ⟨b, q, rfl, (Option.some.inj hr).symm, h.chain.1⟩

lemma Inv.ideintr (h : Inv n s q) {r : Request} (hr : s.active = some r) (hs : s.ideintr r = some s') :
    ∃ b q', q = b :: q' ∧ r = request (s.buf b) ∧ Inv n s' q' ∧
      Dequeued s b (completedBuf s b) (finish s.disk r) s' := by
  obtain ⟨b, q', rfl, rfl, hfirst⟩ := h.active_head hr
  unfold State.ideintr at hs
  simp only [hfirst] at hs
  exact ⟨b, q', rfl, rfl, h.startNext (by simp [completedBuf, synced]) hs⟩

lemma Inv.setProc (h : Inv n s q) {x : Proc} (hp : s.proc p = .asleep b ∨ s.proc p = .awake b)
    (hx : x = .asleep b ∧ b ∈ q ∨ x = .awake b ∧ b ∈ q ∨ x = .idle ∧ synced (s.buf b) = true) :
    Inv n { s with proc := assign s.proc p x } q := by
  have hb : s.holder b = some p := hp.elim (fun h' => (h.asleep p b h').1) (fun h' => (h.awake p b h').1)
  refine ⟨h.chain, h.nodup, h.lt, fun c hc => ?_, fun r c hr => ?_, fun r c hr => ?_, h.active,
    h.small, h.history, h.started⟩
  · obtain ⟨⟨r, hr, hw⟩, h2, h3⟩ := h.queued c hc
    refine ⟨⟨r, hr, ?_⟩, h2, h3⟩
    by_cases hrp : r = p
    · subst hrp
      have hcb : c = b := by
        rcases hp with hp | hp <;> rcases hw with hw | hw <;> rw [hp] at hw <;> cases hw <;> rfl
      subst hcb
      rcases hx with ⟨rfl, -⟩ | ⟨rfl, -⟩ | ⟨-, hy⟩
      · exact .inl (assign_self ..)
      · exact .inr (assign_self ..)
      · rw [h3] at hy
        cases hy
    · simpa only [assign_of_ne hrp] using hw
  · by_cases hrp : r = p
    · subst hrp
      simp only [assign_self] at hr
      subst hr
      rcases hx with ⟨hx, hq⟩ | ⟨hx, -⟩ | ⟨hx, -⟩ <;> cases hx
      exact ⟨hb, hq⟩
    · simp only [assign_of_ne hrp] at hr
      exact h.asleep r c hr
  · by_cases hrp : r = p
    · subst hrp
      simp only [assign_self] at hr
      subst hr
      rcases hx with ⟨hx, -⟩ | ⟨hx, hq⟩ | ⟨hx, -⟩ <;> cases hx
      exact ⟨hb, .inl hq⟩
    · simp only [assign_of_ne hrp] at hr
      exact h.awake r c hr

lemma Inv.step {e : Event} (h : Inv n s q) (hs : s.step n havedisk1 e = some s') : ∃ q', Inv n s' q' := by
  cases e with
  | bget p b x =>
    simp only [State.step] at hs
    split_ifs at hs with hg
    cases hs
    exact ⟨q, h.setBuf hg.2.1 (.inl hg.2.2.1) x (fun r _ => hg.1)⟩
  | modify p b x =>
    simp only [State.step] at hs
    split_ifs at hs with hg
    cases hs
    have := h.setBuf hg.1 (.inr hg.2.1) x (fun r hr => h.lt b r hr)
    rw [assign_eq_self rfl] at this
    exact ⟨q, this⟩
  | brelse p b =>
    simp only [State.step] at hs
    split_ifs at hs with hg
    cases hs
    exact ⟨q, h.setBuf hg.1 (.inr hg.2) _ (fun r hr => by cases hr)⟩
  | iderw p b =>
    simp only [State.step] at hs
    split_ifs at hs with hg
    exact ⟨_, h.iderw hg.1 hg.2 hs⟩
  | ideintr =>
    simp only [State.step] at hs
    split at hs
    · rename_i r hr
      obtain ⟨b, q', -, -, h', -⟩ := h.ideintr hr hs
      exact ⟨q', h'⟩
    · cases hs
  | kill p =>
    simp only [State.step] at hs
    split at hs
    · rename_i b hb
      cases hs
      exact ⟨q, h.setProc (.inl hb) (.inr (.inl ⟨rfl, (h.asleep p b hb).2⟩))⟩
    · cases hs
  | recheck p =>
    simp only [State.step] at hs
    split at hs
    · rename_i b hb
      cases hs
      refine ⟨q, h.setProc (.inr hb) ?_⟩
      split_ifs with hy
      · exact .inr (.inr ⟨rfl, hy⟩)
      · exact .inl ⟨rfl, (h.awake p b hb).2.resolve_right hy⟩
    · cases hs

def Step (n : ℕ) (havedisk1 : Bool) (s : State) (e : Event) (s' : State) : Prop :=
    s.step n havedisk1 e = some s'

lemma Inv.run {disk : UInt32 → Disk} {es : List Event}
    (hrun : Run (Step n havedisk1) (State.init disk) es s) : ∃ q, Inv n s q :=
  hrun.state_invariant (P := fun s => ∃ q, Inv n s q) ⟨[], Inv.init disk⟩
    (fun _ _ _ h hs => h.elim fun _ h => h.step hs)

lemma memideRw_completedBuf (hbusy : (s.buf b).busy = true) (hun : synced (s.buf b) = false)
    (hsmall : (s.buf b).blockno.toNat < FSSIZE) :
    memideRw FSSIZE { s.buf b with dev := 1 } (s.disk ((s.buf b).dev &&& 1)) =
      .ok ({ completedBuf s b with dev := 1 }, finish s.disk (request (s.buf b))
      ((s.buf b).dev &&& 1)) := by
  have hok : ¬((s.buf b).valid = true ∧ (s.buf b).dirty = false) := by simpa [synced] using hun
  cases hd : (s.buf b).dirty with
  | false => simp_all [memideRw, completedBuf, finish, request]
  | true => simp_all [memideRw, completedBuf, finish, request]

lemma finish_of_ne {x : Buf} {d : UInt32} (hd : d ≠ x.dev &&& 1) (disk : UInt32 → Disk) :
    finish disk (request x) d = disk d := by
  unfold finish request
  cases x.dirty with
  | false => rfl
  | true => exact assign_of_ne hd ..

structure Completes (s s' : State) (b : ℕ) : Prop where
  completed : s'.completed = s.completed ++ [b]
  buf : ∀ c, c ≠ b → s'.buf c = s.buf c
  disk : ∀ d, d ≠ (s.buf b).dev &&& 1 → s'.disk d = s.disk d
  dev : (s'.buf b).dev = (s.buf b).dev
  effect : memideRw FSSIZE { s.buf b with dev := 1 } (s.disk ((s.buf b).dev &&& 1)) =
    .ok ({ s'.buf b with dev := 1 }, s'.disk ((s.buf b).dev &&& 1))
  effect_disk1 : (s.buf b).dev = 1 → memideRw FSSIZE (s.buf b) (s.disk 1) = .ok (s'.buf b, s'.disk 1)

lemma Inv.completes (h : Inv n s q) (hs : s.step n havedisk1 .ideintr = some s') :
    ∃ b q', q = b :: q' ∧ Inv n s' q' ∧ Completes s s' b := by
  simp only [State.step] at hs
  split at hs
  · rename_i r hr
    obtain ⟨b, q', rfl, rfl, h', hc, hbuf, hdisk, -, -⟩ := h.ideintr hr hs
    have hq := h.queued b (List.mem_cons_self ..)
    have heff := memideRw_completedBuf hq.busy hq.unsynced (h.small b rfl)
    have hb : s'.buf b = completedBuf s b := by rw [hbuf, assign_self]
    rw [← hb, ← hdisk] at heff
    refine ⟨b, q', rfl, h', hc, fun c hne => ?_, fun d hne => ?_, by rw [hb]; rfl, heff, fun hdev => ?_⟩
    · rw [hbuf, assign_of_ne hne]
    · rw [hdisk, finish_of_ne hne]
    · have hdev' : (s'.buf b).dev = 1 := by
        rw [hb]
        exact hdev
      have h1 : ({ s.buf b with dev := 1 } : Buf) = s.buf b := by rw [← hdev]
      have h2 : ({ s'.buf b with dev := 1 } : Buf) = s'.buf b := by rw [← hdev']
      rwa [h1, h2, hdev] at heff
  · cases hs

theorem ide_queue_refines_memide (n : ℕ) (havedisk1 : Bool) (disk : UInt32 → Disk) (es : List Event)
    (s : State) (hrun : Run (Step n havedisk1) (State.init disk) es s) :
    ∃ q, Chain s.qnext s.idequeue q ∧ q.Nodup ∧ s.appended = s.completed ++ q ∧
      (q ≠ [] → s.active.isSome) ∧ (∀ x ∈ s.started, x.head = some x.b ∧ x.active = none) ∧
      (∀ p b, s.proc p = .asleep b → b ∈ q) ∧
      ∀ s', Step n havedisk1 s .ideintr s' → ∃ b q', q = b :: q' ∧ Chain s'.qnext s'.idequeue q' ∧
      Completes s s' b := by
  obtain ⟨q, h⟩ := Inv.run hrun
  refine ⟨q, h.chain, h.nodup, h.history, fun hne => ?_, h.started,
    fun p b hp => (h.asleep p b hp).2, fun s' hs => ?_⟩
  · obtain ⟨b, q, rfl⟩ := List.exists_cons_of_ne_nil hne
    rw [h.active]
    rfl
  · obtain ⟨b, q', hq, h', hc⟩ := h.completes hs
    exact ⟨b, q', hq, h'.chain, hc⟩

def twoReads : List Event :=
  [.bget 0 3 ⟨true, false, false, 1, 7, Block.zero⟩, .bget 1 4 ⟨true, false, false, 1, 9, Block.zero⟩,
    .iderw 0 3, .iderw 1 4]

theorem ide_queue_refines_memide_two_reads :
    ∃ s, Run (Step 30 true) (State.init fun _ _ => Block.zero) twoReads s ∧ s.active.isSome ∧
      ∃ q, Chain s.qnext s.idequeue q ∧ q.Nodup ∧ s.appended = s.completed ++ q := by
  obtain ⟨s, hs, hact⟩ : ∃ s ∈ exec (State.step 30 true) (State.init fun _ _ => Block.zero) twoReads,
    s.active.isSome := by decide +kernel
  have hrun := run_of_exec hs
  obtain ⟨q, hchain, hnd, hhist, -⟩ := ide_queue_refines_memide 30 true _ twoReads s hrun
  exact ⟨s, hrun, hact, q, hchain, hnd, hhist⟩

def readDisk0 : List Event := [.bget 0 3 ⟨true, false, false, 0, 7, Block.zero⟩, .iderw 0 3]

theorem ide_completes_disk0_request :
    ∃ s s', Run (Step 30 true) (State.init fun _ _ => Block.zero) readDisk0 s ∧
    Step 30 true s .ideintr s' ∧
      s'.completed = [3] ∧ ∀ disk, memideRw FSSIZE (s.buf 3) disk = .error .notForDisk1 := by
  obtain ⟨s, hs, hbusy, hvalid, hdev, s', hs', hc⟩ :
    ∃ s ∈ exec (State.step 30 true) (State.init fun _ _ => Block.zero) readDisk0,
      (s.buf 3).busy ∧ (s.buf 3).valid = false ∧ (s.buf 3).dev = 0 ∧
        ∃ s' ∈ s.step 30 true .ideintr, s'.completed = [3] := by decide +kernel
  refine ⟨s, s', run_of_exec hs, hs', hc, fun disk => ?_⟩
  simp [memideRw, hbusy, hvalid, hdev]

end Xv6.Ide.State
