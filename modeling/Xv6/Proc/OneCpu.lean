import Xv6.Proc.Cpus

namespace Xv6.Cpus

open Lib Family
open Proc (ProcState)

namespace Frame

def np : Frame → Option Index
  | forkRelease np | forkStack np | forkCopy np | forkParent np | forkLock np | forkReady np => some np
  | _ => none

def built : Frame → Bool
  | forkCopy _ | forkParent _ | forkLock _ | forkReady _ => true
  | _ => false

def status : Frame → ProcState
  | yieldSched => .runnable
  | sleepSched _ => .sleeping
  | exitSched => .zombie
  | _ => .running

def victim : Frame → Option Index
  | waitKfree q | waitFreevm q | waitClear q => some q
  | _ => none

def parked : Frame → Bool
  | unlock | sleepTidy _ => true
  | _ => false

def inHandler : Frame → Bool
  | unlock | yieldAcquire | yieldState | yieldSched | wakeupAcquire _ | wakeupScan _ => true
  | _ => false

lemma outside {f : Frame} (h : f.inside = false) : f.status = .running ∧ f.victim = none := by
  cases f <;> first | exact ⟨rfl, rfl⟩ | cases h

lemma parked_spec {f : Frame} (h : f.parked = true) : f.inside = true ∧ f.status = .running ∧
    f.victim = none := by
  cases f <;> first | exact ⟨rfl, rfl, rfl⟩ | cases h

end Frame

namespace Ctl

def holds : Ctl → Bool
  | scan _ | switchuvm _ | swtch _ | switchkvm _ | intrScan _ | intrRelease => true
  | _ => false

def current : Ctl → Option Index
  | switchuvm p | swtch p | proc p | switchkvm p => some p
  | _ => none

def Fits : Option Ctl → ProcState → Frame → Prop
  | none, st, f => st ≠ .running ∧ (st = .runnable ∨ st = .sleeping → f.parked = true)
  | some (switchuvm _), st, f => st = .runnable ∧ f.parked = true
  | some (swtch _), st, f => st = .running ∧ f.parked = true
  | some (proc _), st, f => st = f.status
  | some (switchkvm _), st, f => st = .zombie ∨ (st = .runnable ∨ st = .sleeping) ∧ f.parked = true
  | some _, _, _ => False

lemma eq_of_current {k : Ctl} {p : Index} (h : k.current = some p) :
    k = .switchuvm p ∨ k = .swtch p ∨ k = .proc p ∨ k = .switchkvm p := by
  cases k <;> simp_all [current]

lemma Fits.off {st : ProcState} {f : Frame} (h : st = .embryo ∨ st = .unused) : Fits none st f := by
  rcases h with rfl | rfl <;> exact ⟨by decide, by simp⟩

end Ctl

lemma Frame.status_spec (f : Frame) : f.status ≠ .embryo ∧ f.status ≠ .unused := by
  cases f <;> simp [Frame.status]

namespace State

variable {C : Type} {s s' : State C} {c : C} {p q : Index} {host : Index → Option C}

def crit (s : State C) (c : C) : Bool :=
  match s.ctl c with
  | .proc p => (s.top p).inside
  | k => k.holds

structure Child (s : State C) (p q : Index) (f : Frame) : Prop where
  embryo : (s.table.slot q).state = .embryo
  only : ∀ p', p' ≠ p → (s.base p').np ≠ some q
  built : f.built = true → s.base q = .unlock ∧ s.intr q = none

structure Forking (s : State C) : Prop where
  nested : ∀ p f, s.intr p = some f → f.inHandler = true ∧ (s.base p).inside = false
  child : ∀ p q, (s.base p).np = some q → s.Child p q (s.base p)

structure Inv (s : State C) (host : Index → Option C) : Prop where
  lock : ∀ c, s.crit c = true ↔ s.lock = some c
  cur : ∀ c, s.cur c = (s.ctl c).current
  inverse : ∀ c p, s.cur c = some p ↔ host p = some c
  fits : ∀ p, Ctl.Fits ((host p).map s.ctl) (s.table.slot p).state (s.top p)
  victim : ∀ c p q, s.ctl c = .proc p → (s.top p).victim = some q → (s.table.slot q).state = .zombie
  forking : s.Forking

lemma crit_proc (hc : s.ctl c = .proc p) : s.crit c = (s.top p).inside := by
  rw [crit, hc]

lemma crit_of_ne (hc : ∀ p, s.ctl c ≠ .proc p) : s.crit c = (s.ctl c).holds := by
  unfold crit
  split
  · rename_i p hp
    exact absurd hp (hc p)
  · rfl

lemma crit_of_holds {k : Ctl} (hc : s.ctl c = k) (hk : k.holds = true) : s.crit c = true := by
  subst hc
  rwa [crit_of_ne fun p hp => by rw [hp] at hk; cases hk]

lemma crit_setCtl [DecidableEq C] {k : Ctl} (hk : k.holds = true) : (s.setCtl c k).crit c = true :=
  crit_of_holds (assign_self ..) hk

lemma top_of_none (hi : s.intr p = none) : s.top p = s.base p := by
  rw [top, hi]
  rfl

lemma goto_of_none {g : Frame} (hi : s.intr p = none) :
    s.goto p g = { s with base := assign s.base p g } := by
  rw [goto, hi]

lemma goto_of_some {f g : Frame} (hi : s.intr p = some f) :
    s.goto p g = { s with intr := assign s.intr p (some g) } := by
  rw [goto, hi]

lemma Child.mono {f g : Frame} (h : s.Child p q f) (hb : g.built = true → f.built = true) :
    s.Child p q g :=
  ⟨h.embryo, h.only, fun hg => h.built (hb hg)⟩

namespace Forking

variable {g : Frame} (h : s.Forking)
include h

lemma setLock (l : Option C) : (s.setLock l).Forking :=
  ⟨h.nested, fun p q hq => { h.child p q hq with }⟩

lemma setCtl [DecidableEq C] {k : Ctl} : (s.setCtl c k).Forking :=
  ⟨h.nested, fun p q hq => { h.child p q hq with }⟩

lemma setCur [DecidableEq C] {o : Option Index} : (s.setCur c o).Forking :=
  ⟨h.nested, fun p q hq => { h.child p q hq with }⟩

lemma on {t : Table} (ht : ∀ q, (s.table.slot q).state = .embryo → (t.slot q).state = .embryo) :
    (s.on t).Forking :=
  ⟨h.nested, fun p q hq => { h.child p q hq with embryo := ht q (h.child p q hq).embryo }⟩

lemma setBase (hi : s.intr p = none) (hp : (s.table.slot p).state ≠ .embryo)
    (hg : ∀ q, g.np = some q → s.Child p q g) :
    ({ s with base := assign s.base p g } : State C).Forking := by
  refine ⟨fun q f hf => ?_, fun p' q hq => ?_⟩
  · have hne : q ≠ p := by
      rintro rfl
      cases hi.symm.trans hf
    simp only [assign_of_ne hne]
    exact h.nested q f hf
  have hchild : s.Child p' q (assign s.base p g p') := by
    simp only [assign_apply] at hq ⊢
    split_ifs at hq ⊢ with hpp
    · exact hpp ▸ hg q hq
    · exact h.child p' q hq
  have hqp : q ≠ p := by
    rintro rfl
    exact hp hchild.embryo
  refine ⟨hchild.embryo, fun r hr hrq => ?_, fun hb => ?_⟩
  · simp only [assign_apply] at hq hrq
    split_ifs at hq hrq with h₁ h₂
    · exact hr (h₂.trans h₁.symm)
    · exact hchild.only r hr hrq
    · exact (hg q hrq).only p' h₁ hq
    · exact hchild.only r hr hrq
  · simp only [assign_of_ne hqp]
    exact hchild.built hb

lemma setIntr {o : Option Frame} (hp : (s.table.slot p).state ≠ .embryo)
    (ho : ∀ f, o = some f → f.inHandler = true ∧ (s.base p).inside = false) :
    ({ s with intr := assign s.intr p o } : State C).Forking := by
  refine ⟨fun q f hf => ?_, fun p' q hq => ⟨(h.child p' q hq).1, (h.child p' q hq).2, fun hb => ?_⟩⟩
  · simp only [assign_apply] at hf
    split_ifs at hf with hqp
    · rw [hqp]
      exact ho f hf
    · exact h.nested q f hf
  · have hne : q ≠ p := by
      rintro rfl
      exact hp (h.child p' q hq).embryo
    simp only [assign_of_ne hne]
    exact (h.child p' q hq).built hb

lemma goto (hp : (s.table.slot p).state ≠ .embryo)
    (hh : (s.top p).inHandler = true → g.inHandler = true)
    (hg : s.intr p = none → ∀ q, g.np = some q → s.Child p q g) : (s.goto p g).Forking := by
  cases hi : s.intr p with
  | none =>
    rw [goto_of_none hi]
    exact h.setBase hi hp (hg hi)
  | some f =>
    obtain ⟨hf, hb⟩ := h.nested p f hi
    rw [goto_of_some hi]
    refine h.setIntr hp fun f' hf' => ?_
    cases hf'
    exact ⟨hh (by rw [top, hi]; exact hf), hb⟩

lemma goto_plain (hp : (s.table.slot p).state ≠ .embryo)
    (hh : (s.top p).inHandler = true → g.inHandler = true) (hnp : g.np = none) :
    (s.goto p g).Forking :=
  h.goto hp hh fun _ q hq => by cases hnp.symm.trans hq

lemma goto_same (hp : (s.table.slot p).state ≠ .embryo)
    (hh : (s.top p).inHandler = true → g.inHandler = true)
    (hnp : s.intr p = none → g.np = (s.base p).np ∧ (g.built = true → (s.base p).built = true)) :
    (s.goto p g).Forking :=
  h.goto hp hh fun hi q hq => (h.child p q ((hnp hi).1 ▸ hq)).mono (hnp hi).2

lemma drop {np : Index} {t : Table} (hi : s.intr p = none) (hp : (s.table.slot p).state ≠ .embryo)
    (hnp : (s.base p).np = some np) (hg : g.np = none)
    (ht : ∀ q, q ≠ np → (t.slot q).state = (s.table.slot q).state) :
    ({ s.on t with base := assign s.base p g } : State C).Forking := by
  have hstay := h.setBase (g := g) hi hp fun q hq => by cases hg.symm.trans hq
  refine ⟨hstay.nested, fun p' q hq => ?_⟩
  have hchild := hstay.child p' q hq
  have hne : q ≠ np := by
    rintro rfl
    simp only [assign_apply] at hq
    split_ifs at hq with hpp
    · cases hg.symm.trans hq
    · exact (h.child p q hnp).only p' hpp hq
  exact ⟨(ht q hne).trans hchild.embryo, hchild.only, hchild.built⟩

lemma leave (hp : (s.table.slot p).state ≠ .embryo) : (s.leave p).Forking := by
  unfold State.leave
  split
  · exact h.setIntr hp nofun
  · rename_i hi
    exact h.setBase hi hp nofun

lemma fresh : (s.fresh p).Forking := by
  refine ⟨fun q f hf => ?_, fun p' q hq => ?_⟩
  · rw [fresh_intr] at hf
    split_ifs at hf with hqp
    rw [fresh_base, if_neg hqp]
    exact h.nested q f hf
  rw [fresh_base] at hq
  split_ifs at hq with hpp
  · cases hq
  obtain ⟨hemb, honly, hbuilt⟩ := h.child p' q hq
  refine ⟨hemb, fun r hr => ?_, fun hb => ?_⟩
  · rw [fresh_base]
    split_ifs
    · nofun
    · exact honly r hr
  · rw [fresh_base, if_neg hpp] at hb
    rw [fresh_base, fresh_intr]
    split_ifs
    · exact ⟨rfl, rfl⟩
    · exact hbuilt hb

end Forking

structure Moves (s s' : State C) (p : Index) (g : Frame) : Prop where
  ctl : s'.ctl = s.ctl
  cur : s'.cur = s.cur
  own : s'.top p = g
  others : ∀ q, q ≠ p → s'.top q = s.top q

def Locks (s s' : State C) (c : C) (p : Index) (g : Frame) : Prop :=
  s'.lock = s.lock ∧ g.inside = (s.top p).inside ∨ s.lock = none ∧ s'.lock = some c ∧ g.inside = true ∨
    s.lock = some c ∧ s'.lock = none ∧ g.inside = false

namespace Moves

variable {g : Frame} {l : Option C} {t : Table}

lemma goto : Moves s (((s.setLock l).on t).goto p g) p g :=
  ⟨by ext; simp, by ext; simp, by simp [goto_top], fun q hq => by simp [goto_top, hq]⟩

lemma leave :
    Moves s (((s.setLock l).on t).leave p) p (if s.intr p = none then .user else s.base p) :=
  ⟨by ext; simp, by ext; simp, by simp [leave_top], fun q hq => by simp [leave_top, hq]⟩

end Moves

namespace Inv

variable (h : Inv s host)
include h

lemma host_of_current (hc : (s.ctl c).current = some p) : host p = some c :=
  (h.inverse c p).mp ((h.cur c).trans hc)

lemma current_of_host (hp : host p = some c) : (s.ctl c).current = some p :=
  (h.cur c).symm.trans ((h.inverse c p).mpr hp)

lemma host_of_proc (hc : s.ctl c = .proc p) : host p = some c :=
  h.host_of_current (by rw [hc]; rfl)

lemma fits_of_current (hc : (s.ctl c).current = some p) :
    Ctl.Fits (some (s.ctl c)) (s.table.slot p).state (s.top p) := by
  have hf := h.fits p
  rwa [h.host_of_current hc] at hf

lemma fits_off (hq : host q = none) : Ctl.Fits none (s.table.slot q).state (s.top q) := by
  have hf := h.fits q
  rwa [hq] at hf

lemma status (hc : s.ctl c = .proc p) : (s.table.slot p).state = (s.top p).status := by
  have hf := h.fits_of_current (c := c) (p := p) (by rw [hc]; rfl)
  rwa [hc] at hf

lemma not_embryo (hc : s.ctl c = .proc p) : (s.table.slot p).state ≠ .embryo := by
  rw [h.status hc]
  exact (s.top p).status_spec.1

lemma outside (hl : s.lock ≠ some c) (hc : s.ctl c = .proc p) : (s.top p).inside = false := by
  rw [← crit_proc hc]
  exact Bool.eq_false_iff.mpr fun hin => hl ((h.lock c).mp hin)

lemma lock_of_holds {k : Ctl} (hc : s.ctl c = k) (hk : k.holds = true) : s.lock = some c :=
  (h.lock c).mp (crit_of_holds hc hk)

lemma lock_of_inside (hc : s.ctl c = .proc p) (hin : (s.top p).inside = true) : s.lock = some c :=
  (h.lock c).mp ((crit_proc hc).trans hin)

lemma host_eq_none (hp : (s.table.slot p).state ≠ .running)
    (hl : ∀ c, host p = some c → s.lock ≠ some c) : host p = none := by
  by_contra hne
  obtain ⟨c, hc⟩ := Option.ne_none_iff_exists'.mp hne
  have hno := hl c hc
  have hholds : ∀ k, s.ctl c = k → (∀ p, k ≠ .proc p) → k.holds = true → False := by
    rintro k rfl hk hh
    exact hno ((h.lock c).mp ((crit_of_ne hk).trans hh))
  rcases Ctl.eq_of_current (h.current_of_host hc) with hk | hk | hk | hk
  · exact hholds _ hk nofun rfl
  · exact hholds _ hk nofun rfl
  · exact hp ((h.status hk).trans (Frame.outside (h.outside hno hk)).1)
  · exact hholds _ hk nofun rfl

lemma embryo_off (hp : (s.table.slot p).state = .embryo ∨ (s.table.slot p).state = .unused) :
    host p = none := by
  by_contra hne
  obtain ⟨c, hc⟩ := Option.ne_none_iff_exists'.mp hne
  have hcur := h.current_of_host hc
  have hf := h.fits_of_current hcur
  have hst := (s.top p).status_spec
  rcases Ctl.eq_of_current hcur with hk | hk | hk | hk <;> rw [hk] at hf <;>
    simp only [Ctl.Fits] at hf <;> grind

lemma elsewhere (hl : s.lock = some c) (hc : s.ctl c = .proc p) (hqp : q ≠ p)
    (hq : (s.table.slot q).state ≠ .running) : host q = none := by
  refine h.host_eq_none hq fun c' hc' hl' => hqp ?_
  obtain rfl : c = c' := Option.some.inj (hl.symm.trans hl')
  have hcur := h.current_of_host hc'
  rw [hc] at hcur
  exact (Option.some.inj hcur).symm

lemma ne_of_off (hc : s.ctl c = .proc p) (hq : host q = none) : q ≠ p := by
  rintro rfl
  cases hq.symm.trans (h.host_of_proc hc)

lemma step_at [DecidableEq C] {k : Ctl} {host' : Index → Option C} (hctl : s'.ctl = assign s.ctl c k)
    (hcur : s'.cur = assign s.cur c k.current) (hmine : ∀ q, host' q = some c ↔ k.current = some q)
    (hothers : ∀ q c', c' ≠ c → (host' q = some c' ↔ host q = some c'))
    (hlock : s'.crit c = true ↔ s'.lock = some c)
    (hother : ∀ c', c' ≠ c → (s'.lock = some c' ↔ s.lock = some c'))
    (hfit : ∀ q, k.current = some q → Ctl.Fits (some k) (s'.table.slot q).state (s'.top q))
    (hoff : ∀ q, host' q = none → Ctl.Fits none (s'.table.slot q).state (s'.top q))
    (hsame : ∀ q c', c' ≠ c → host q = some c' →
      (s'.table.slot q).state = (s.table.slot q).state ∧ s'.top q = s.top q)
    (hv : ∀ p q, k = .proc p → (s'.top p).victim = some q → (s'.table.slot q).state = .zombie)
    (hz : s.lock = some c ∨
      ∀ q, (s.table.slot q).state = .zombie → (s'.table.slot q).state = .zombie)
    (hf : s'.Forking) : Inv s' host' := by
  have hk : s'.ctl c = k := by rw [hctl, assign_self]
  have hne : ∀ {c'}, c' ≠ c → s'.ctl c' = s.ctl c' := fun hcc => by rw [hctl, assign_of_ne hcc]
  refine ⟨fun c' => ?_, fun c' => ?_, fun c' q => ?_, fun q => ?_, fun c' q r hc' hr => ?_, hf⟩
  · by_cases hcc : c' = c
    · exact hcc ▸ hlock
    have hcrit : s'.crit c' = s.crit c' := by
      unfold crit
      rw [hne hcc]
      cases hc' : s.ctl c' with
      | proc q => exact congrArg Frame.inside (hsame q c' hcc (h.host_of_proc hc')).2
      | _ => rfl
    rw [hcrit, hother c' hcc]
    exact h.lock c'
  · rw [hcur]
    grind [h.cur c', assign_apply]
  · rw [hcur]
    grind [h.inverse c' q, assign_apply]
  · cases hq : host' q with
    | none => exact hoff q hq
    | some c' =>
      rw [Option.map_some]
      by_cases hcc : c' = c
      · rw [hcc, hk]
        exact hfit q ((hmine q).mp (hcc ▸ hq))
      · have hold := (hothers q c' hcc).mp hq
        obtain ⟨h₁, h₂⟩ := hsame q c' hcc hold
        rw [hne hcc, h₁, h₂]
        exact h.fits_of_current (h.current_of_host hold)
  · by_cases hcc : c' = c
    · exact hv q r (hk.symm.trans (hcc ▸ hc')) hr
    rw [hne hcc] at hc'
    rw [(hsame q c' hcc (h.host_of_proc hc')).2] at hr
    rcases hz with hl | hz
    · -- another processor is outside, and there is no victim there
      have hout := h.outside (by rw [hl]; exact fun heq => hcc (Option.some.inj heq).symm) hc'
      rw [(Frame.outside hout).2] at hr
      cases hr
    · exact hz r (h.victim c' q r hc' hr)

lemma freshSlot (hp : (s.table.slot p).state = .embryo) : Inv (s.fresh p) host := by
  have htop : ∀ q c, host q = some c → (s.fresh p).top q = s.top q := fun q c hq => by
    rw [fresh_top, if_neg]
    rintro rfl
    cases (h.embryo_off (.inl hp)).symm.trans hq
  refine ⟨fun c => ?_, h.cur, h.inverse, fun q => ?_, fun c q r hc hr => ?_, h.forking.fresh⟩
  · have hcrit : (s.fresh p).crit c = s.crit c := by
      unfold crit
      rw [fresh_ctl]
      cases hc : s.ctl c with
      | proc q => exact congrArg Frame.inside (htop q c (h.host_of_proc hc))
      | _ => rfl
    rw [hcrit]
    exact h.lock c
  · by_cases hqp : q = p
    · rw [hqp, h.embryo_off (.inl hp)]
      exact .off (.inl hp)
    · rw [fresh_top, if_neg hqp]
      exact h.fits q
  · rw [htop q c (h.host_of_proc hc)] at hr
    exact h.victim c q r hc hr

lemma own_step [DecidableEq C] {k : Ctl} (hc : (s.ctl c).current = some p) (hk : k.current = some p)
    (hctl : s'.ctl = assign s.ctl c k) (hcur : s'.cur = s.cur)
    (hlock : s'.crit c = true ↔ s'.lock = some c)
    (hother : ∀ c', c' ≠ c → (s'.lock = some c' ↔ s.lock = some c'))
    (hfit : Ctl.Fits (some k) (s'.table.slot p).state (s'.top p))
    (hq : ∀ q, q ≠ p → s'.top q = s.top q ∧ ((s'.table.slot q).state = (s.table.slot q).state ∨
      host q = none ∧ Ctl.Fits none (s'.table.slot q).state (s.top q)))
    (hv : k = .proc p → ∀ q, (s'.top p).victim = some q → (s'.table.slot q).state = .zombie)
    (hz : s.lock = some c ∨
      ∀ q, (s.table.slot q).state = .zombie → (s'.table.slot q).state = .zombie)
    (hf : s'.Forking) : Inv s' host := by
  have hne : ∀ q o, host q = o → o ≠ some c → q ≠ p := by
    rintro q o rfl ho rfl
    exact ho (h.host_of_current hc)
  refine h.step_at hctl ?_ (fun q => ?_) (fun _ _ _ => Iff.rfl) hlock hother (fun q hq' => ?_)
    (fun q hq' => ?_) (fun q c' hcc hq' => ?_) (fun p' q hp' => ?_) hz hf
  · rw [hcur, hk, assign_eq_self ((h.cur c).trans hc)]
  · rw [hk, ← hc, ← h.cur]
    exact (h.inverse c q).symm
  · cases hk.symm.trans hq'
    exact hfit
  · obtain ⟨htop, heq | ⟨-, hoff⟩⟩ := hq q (hne q _ hq' (by simp))
    · rw [htop, heq]
      exact h.fits_off hq'
    · rwa [htop]
  · obtain ⟨htop, heq | ⟨hoff, -⟩⟩ := hq q (hne q _ hq' (by simpa using hcc))
    · exact ⟨heq, htop⟩
    · cases hoff.symm.trans hq'
  · subst hp'
    cases hk
    exact hv rfl q

section proc

variable {f g : Frame} {t : Table} (hc : s.ctl c = .proc p)
include hc

lemma proc_step (hm : Moves s s' p g) (hl : Locks s s' c p g) (hst : (s'.table.slot p).state = g.status)
    (hq : ∀ q, q ≠ p → (s'.table.slot q).state = (s.table.slot q).state ∨
      host q = none ∧ Ctl.Fits none (s'.table.slot q).state (s.top q))
    (hv : ∀ q, g.victim = some q → (s'.table.slot q).state = .zombie)
    (hz : s.lock = some c ∨
      ∀ q, (s.table.slot q).state = .zombie → (s'.table.slot q).state = .zombie)
    (hf : s'.Forking) : Inv s' host := by
  classical
  refine h.own_step (k := .proc p) (by rw [hc]; rfl) rfl ?_ hm.cur ?_ (fun c' hcc => ?_)
    (hst.trans (congrArg _ hm.own.symm)) (fun q hqp => ⟨hm.others q hqp, hq q hqp⟩)
    (fun _ => by rwa [hm.own]) hz hf
  · rw [hm.ctl, assign_eq_self hc]
  · rw [crit_proc (hm.ctl ▸ hc), hm.own]
    rcases hl with ⟨hl, hin⟩ | ⟨-, hl, hin⟩ | ⟨-, hl, hin⟩
    · rw [hl, hin, ← crit_proc hc]
      exact h.lock c
    · simp [hin, hl]
    · simp [hin, hl]
  · rcases hl with ⟨hl, -⟩ | ⟨hl, hl', -⟩ | ⟨hl, hl', -⟩
    · rw [hl]
    · simp [hl, hl', hcc.symm]
    · simp [hl, hl', hcc.symm]

lemma acquire (hl : s.lock = none) (hin : g.inside = true) (hst : g.status = .running)
    (hv : g.victim = none) (hnp : g.np = (s.top p).np) (hb : g.built = (s.top p).built)
    (hh : (s.top p).inHandler = true → g.inHandler = true) :
    Inv ((s.setLock (some c)).goto p g) host := by
  have hrun := (h.status hc).trans (Frame.outside (h.outside (c := c) (by rw [hl]; simp) hc)).1
  refine h.proc_step hc (.goto (t := s.table)) (.inr (.inl ⟨hl, by simp, hin⟩)) (by simp [hst, hrun])
    (fun q _ => .inl (by simp)) (by simp [hv]) (.inr fun q hq => by simpa using hq) ?_
  refine (h.forking.setLock (some c)).goto_same (h.not_embryo hc) hh fun hi => ?_
  rw [hnp, hb, top_of_none (s := s) hi]
  exact ⟨rfl, id⟩

lemma unlock (hl : s.lock = some c) (hst : (s.top p).status = .running) (hm : Moves s s' p g)
    (hl' : s'.lock = none) (htable : s'.table = s.table) (hin : g.inside = false) (hf : s'.Forking) :
    Inv s' host := by
  obtain ⟨hs, hv⟩ := Frame.outside hin
  refine h.proc_step hc hm (.inr (.inr ⟨hl, hl', hin⟩)) ?_ (fun q _ => .inl (by rw [htable]))
    (by simp [hv]) (.inl hl) hf
  rw [htable, hs, h.status hc, hst]

lemma release (hl : s.lock = some c) (hst : (s.top p).status = .running) :
    Inv ((s.setLock none).leave p) host := by
  refine h.unlock hc hl hst (.leave (t := s.table)) (by simp) (by simp) ?_
    ((h.forking.setLock none).leave (h.not_embryo hc))
  split_ifs with hi
  · rfl
  · obtain ⟨f, hf⟩ := Option.ne_none_iff_exists'.mp hi
    exact (h.forking.nested p f hf).2

lemma forkRelease {np : Index} (hl : s.lock = some c) (hi : s.intr p = none)
    (hp : s.base p = .forkRelease np) : Inv ((s.setLock none).goto p (.forkStack np)) host := by
  have htop := (top_of_none hi).trans hp
  refine h.unlock hc hl (by rw [htop]; rfl) (.goto (t := s.table)) (by simp) (by simp) rfl ?_
  exact (h.forking.setLock none).goto_same (h.not_embryo hc) (by simp [htop, Frame.inHandler])
    fun _ => ⟨by rw [setLock_base, hp]; rfl, nofun⟩

lemma woken (hl : s.lock = some c) (hqp : q ≠ p) (ht : (s.table.slot q).state = .sleeping) :
    host q = none ∧ Ctl.Fits none .runnable (s.top q) := by
  have hoff := h.elsewhere hl hc hqp (by rw [ht]; decide)
  exact ⟨hoff, by decide, fun _ => (h.fits_off hoff).2 (.inr ht)⟩

lemma quiet (hl : (s.top p).inside = true) (hst : (s.top p).status = .running)
    (ht : ∀ q, (t.slot q).state = (s.table.slot q).state ∨
      (s.table.slot q).state = .sleeping ∧ (t.slot q).state = .runnable)
    (hin : g.inside = true) (hgs : g.status = .running)
    (hv : ∀ q, g.victim = some q → (s.table.slot q).state = .zombie) (hgn : g.np = none)
    (hh : (s.top p).inHandler = true → g.inHandler = true) : Inv ((s.on t).goto p g) host := by
  have hlock := h.lock_of_inside hc hl
  have hkeep : ∀ q st, (s.table.slot q).state = st → st ≠ .sleeping → (t.slot q).state = st := by
    rintro q st rfl hq
    exact (ht q).resolve_right fun hw => hq hw.1
  have hp := hkeep p _ ((h.status hc).trans hst) (by decide)
  refine h.proc_step hc (.goto (l := s.lock)) (.inl ⟨by simp, hin.trans hl.symm⟩) (by simp [hgs, hp])
    (fun q hqp => ?_) (fun q hq => ?_) (.inl hlock) ?_
  · rw [goto_table, on_table]
    refine (ht q).imp id fun ⟨hsl, hr⟩ => ?_
    rw [hr]
    exact h.woken hc hlock hqp hsl
  · simpa using hkeep q _ (hv q hq) (by decide)
  · exact (h.forking.on fun q hq => hkeep q _ hq (by decide)).goto_plain (by simp [hp]) hh hgn

lemma setState {st : ProcState} (hl : (s.top p).inside = true) (hin : g.inside = true)
    (hgs : g.status = st) (hst' : st = .runnable ∨ st = .sleeping ∨ st = .zombie)
    (hv : g.victim = none) (hgn : g.np = none)
    (hh : (s.top p).inHandler = true → g.inHandler = true) :
    Inv ((s.on (s.table.setState p st)).goto p g) host := by
  refine h.proc_step hc (.goto (l := s.lock)) (.inl ⟨by simp, hin.trans hl.symm⟩) (by simp [hgs])
    (fun q hqp => .inl (by simp [hqp])) (by simp [hv]) (.inl (h.lock_of_inside hc hl)) ?_
  refine (h.forking.on fun q hq => ?_).goto_plain ?_ hh hgn
  · have hqp : q ≠ p := by
      rintro rfl
      exact h.not_embryo hc hq
    simpa [hqp] using hq
  · rcases hst' with rfl | rfl | rfl <;> simp

lemma slot_step {np : Index} (hnp : host np = none) (hm : Moves s s' p g) (hlock : s'.lock = s.lock)
    (hin : g.inside = (s.top p).inside) (hst : (s.top p).status = g.status) (hv : g.victim = none)
    (hfit : Ctl.Fits none (s'.table.slot np).state (s.top np))
    (hq : ∀ q, q ≠ np → (s'.table.slot q).state = (s.table.slot q).state)
    (hz : s.lock = some c ∨ (s.table.slot np).state ≠ .zombie) (hf : s'.Forking) : Inv s' host := by
  refine h.proc_step hc hm (.inl ⟨hlock, hin⟩) ?_ (fun q hqp => ?_) (by simp [hv])
    (hz.imp id fun hnz q hq' => ?_) hf
  · rw [hq p (h.ne_of_off hc hnp).symm, h.status hc, hst]
  · by_cases hqn : q = np
    · rw [hqn]
      exact .inr ⟨hnp, hfit⟩
    · exact .inl (hq q hqn)
  · rw [hq q (by rintro rfl; exact hnz hq'), hq']

lemma alloc {np : Index} (hi : s.intr p = none) (hp : s.base p = .forkScan)
    (hnp : (s.table.slot np).state = .unused) :
    Inv ((s.on (s.table.allocproc np)).goto p (.forkRelease np)) host := by
  have htop := (top_of_none hi).trans hp
  have hoff := h.embryo_off (.inr hnp)
  refine h.slot_step hc hoff (.goto (l := s.lock)) (by simp) (by rw [htop]; rfl) (by rw [htop]; rfl) rfl
    (.off (.inl (by simp))) (fun q hq => by simp [hq]) (.inr (by rw [hnp]; decide)) ?_
  refine (h.forking.on fun q hq => ?_).goto ?_ (by simp [htop, Frame.inHandler]) fun _ q hq => ?_
  · have hqn : q ≠ np := by
      rintro rfl
      cases hnp.symm.trans hq
    simpa [hqn] using hq
  · simpa [(h.ne_of_off hc hoff).symm] using h.not_embryo hc
  · cases hq
    refine ⟨by simp, fun p' _ hq' => ?_, nofun⟩
    cases hnp.symm.trans (h.forking.child p' np hq').embryo

lemma reap (hi : s.intr p = none) (hp : s.base p = .waitClear q) :
    Inv ((s.on (s.table.reap q)).goto p .unlock) host := by
  have htop := (top_of_none hi).trans hp
  have hlock := h.lock_of_inside hc (by rw [htop]; rfl)
  have hz := h.victim c p q hc (by rw [htop]; rfl)
  have hqp : q ≠ p := by
    rintro rfl
    rw [h.status hc, htop] at hz
    cases hz
  have hoff := h.elsewhere hlock hc hqp (by rw [hz]; decide)
  refine h.slot_step hc hoff (.goto (l := s.lock)) (by simp) (by rw [htop]; rfl) (by rw [htop]; rfl) rfl
    (.off (.inr (by simp))) (fun r hr => by simp [hr]) (.inl hlock) ?_
  refine (h.forking.on fun r hr => ?_).goto_plain ?_ (fun _ => rfl) rfl
  · have hrq : r ≠ q := by
      rintro rfl
      cases hz.symm.trans hr
    simpa [hrq] using hr
  · simpa [hqp.symm] using h.not_embryo hc

lemma ready {np : Index} (hi : s.intr p = none) (hp : s.base p = .forkReady np) :
    Inv ((s.on (s.table.setState np .runnable)).goto p .unlock) host := by
  have htop := (top_of_none hi).trans hp
  have hnp : (s.base p).np = some np := by rw [hp]; rfl
  obtain ⟨hemb, -, hbuilt⟩ := h.forking.child p np hnp
  obtain ⟨hb, hin⟩ := hbuilt (by rw [hp]; rfl)
  refine h.slot_step hc (h.embryo_off (.inl hemb)) (.goto (l := s.lock)) (by simp) (by rw [htop]; rfl)
    (by rw [htop]; rfl) rfl ?_ (fun q hq => by simp [hq]) (.inr (by rw [hemb]; decide)) ?_
  · rw [top_of_none hin, hb]
    exact ⟨by simp, fun _ => rfl⟩
  · rw [goto_of_none (s := s.on (s.table.setState np .runnable)) hi]
    exact h.forking.drop hi (h.not_embryo hc) hnp rfl fun q hq => by simp [hq]

lemma fresh {np : Index} (hi : s.intr p = none) (hp : s.base p = .forkStack np) :
    Inv ((s.fresh np).goto p (.forkCopy np)) host := by
  obtain ⟨hemb, honly, -⟩ := h.forking.child p np (by rw [hp]; rfl)
  have hne := h.ne_of_off hc (h.embryo_off (.inl hemb))
  have htop : (s.fresh np).top p = .forkStack np := by
    rw [fresh_top, if_neg hne.symm, top_of_none hi, hp]
  have hst := (h.freshSlot hemb).status hc
  rw [htop] at hst
  refine (h.freshSlot hemb).proc_step hc (.goto (l := s.lock) (t := s.table))
    (.inl ⟨by simp, by rw [htop]; rfl⟩)
    (by rw [goto_table, hst]; rfl) (fun q _ => .inl (by simp)) nofun
    (.inr fun q hq => by simpa using hq) ?_
  refine h.forking.fresh.goto (h.not_embryo hc) (by simp [htop, Frame.inHandler]) fun _ q hq => ?_
  cases hq
  refine ⟨hemb, fun p' hpp => ?_, fun _ => by simp⟩
  rw [fresh_base]
  split_ifs
  · nofun
  · exact honly p' hpp

lemma fail {np : Index} (hi : s.intr p = none) (hp : (s.base p).np = some np)
    (hin : (s.base p).inside = false) : Inv ((s.on (s.table.setState np .unused)).leave p) host := by
  obtain ⟨hemb, -, -⟩ := h.forking.child p np hp
  have hm := Moves.leave (s := s) (p := p) (l := s.lock) (t := s.table.setState np .unused)
  rw [if_pos hi] at hm
  refine h.slot_step hc (h.embryo_off (.inl hemb)) hm (by simp) (by rw [top_of_none hi, hin]; rfl)
    (by rw [top_of_none hi]; exact (Frame.outside hin).1) rfl (.off (.inr (by simp)))
    (fun q hq => by simp [hq]) (.inr (by rw [hemb]; decide)) ?_
  unfold State.leave
  rw [on_intr, hi]
  exact h.forking.drop hi (h.not_embryo hc) hp rfl fun q hq => by simp [hq]

lemma forkNext (hi : s.intr p = none) (hb : (s.base p).built = true)
    (hin : (s.base p).inside = false) (ht : ∀ q, (t.slot q).state = (s.table.slot q).state)
    (hnp : g.np = (s.base p).np) (hg : g.inside = false) : Inv ((s.on t).goto p g) host := by
  obtain ⟨hgs, hgv⟩ := Frame.outside hg
  have hst := h.status hc
  rw [top_of_none hi, (Frame.outside hin).1] at hst
  refine h.proc_step hc (.goto (l := s.lock)) (.inl ⟨by simp, by rw [hg, top_of_none hi, hin]⟩)
    (by simp [ht, hst, hgs])
    (fun q _ => .inl (by simp [ht])) (by simp [hgv]) (.inr fun q hq => by simpa [ht] using hq) ?_
  rw [goto_of_none (s := s.on t) hi]
  refine (h.forking.on fun q hq => by rw [ht, hq]).setBase hi (by simp [ht, hst]) fun q hq => ?_
  obtain ⟨hemb, honly, hbuilt⟩ := h.forking.child p q (hnp ▸ hq)
  exact ⟨(ht q).trans hemb, honly, fun _ => hbuilt hb⟩

lemma enter (hi : s.intr p = none) (hb : s.base p = .user) (hin : f.inside = false)
    (hnp : f.np = none) : Inv { s with base := assign s.base p f } host := by
  have htop := (top_of_none hi).trans hb
  obtain ⟨hst, hv⟩ := Frame.outside hin
  rw [← goto_of_none hi]
  refine h.proc_step hc (.goto (l := s.lock) (t := s.table)) (.inl ⟨by simp, by rw [hin, htop]; rfl⟩) ?_
    (fun q _ => .inl (by simp)) (by simp [hv]) (.inr fun q hq => by simpa using hq)
    (h.forking.goto_plain (h.not_embryo hc) (by simp [htop, Frame.inHandler]) hnp)
  rw [hst, goto_table, h.status hc, htop]
  rfl

lemma interrupt (hi : s.intr p = none) (hb : (s.base p).inside = false) (hin : f.inside = false)
    (hh : f.inHandler = true) : Inv { s with intr := assign s.intr p (some f) } host := by
  have htop := top_of_none hi
  obtain ⟨hst, hv⟩ := Frame.outside hin
  have hm : Moves s { s with intr := assign s.intr p (some f) } p f :=
    ⟨rfl, rfl, by simp [top_eq], fun q hqp => by simp [top_eq, assign_of_ne hqp]⟩
  refine h.proc_step hc hm (.inl ⟨rfl, by rw [hin, htop, hb]⟩) ?_ (fun q _ => .inl rfl) (by simp [hv])
    (.inr fun _ => id) (h.forking.setIntr (h.not_embryo hc) fun f' hf' => ?_)
  · rw [hst, h.status hc, htop, (Frame.outside hb).1]
  · cases hf'
    exact ⟨hh, hb⟩

end proc

section scheduler

variable [DecidableEq C]

lemma sched_step {k : Ctl} {t : Table} {l : Option C} (hc : (s.ctl c).current = none)
    (hk : k.current = none) (hlock : k.holds = true ↔ l = some c)
    (hother : ∀ c', c' ≠ c → (l = some c' ↔ s.lock = some c'))
    (ht : ∀ q, (t.slot q).state = (s.table.slot q).state ∨ s.lock = some c ∧
      (s.table.slot q).state = .sleeping ∧ (t.slot q).state = .runnable) :
    Inv (((s.setLock l).on t).setCtl c k) host := by
  have hoff : ∀ q, host q ≠ some c := fun q hq => by cases hc.symm.trans (h.current_of_host hq)
  have hkeep : ∀ q st, (s.table.slot q).state = st → st ≠ .sleeping → (t.slot q).state = st := by
    rintro q st rfl hq
    exact (ht q).resolve_right fun hw => hq hw.2.1
  refine h.step_at (k := k) rfl ?_ (fun q => ?_) (fun _ _ _ => Iff.rfl) ?_ hother (fun q hq => ?_)
    (fun q hq => ?_) (fun q c' hcc hq => ⟨?_, rfl⟩) (fun p q hp => ?_)
    (.inr fun q hq => hkeep q _ hq (by decide))
    ((h.forking.setLock l).on fun q hq => hkeep q _ hq (by decide)).setCtl
  · rw [hk, assign_eq_self ((h.cur c).trans hc)]
    rfl
  · rw [hk]
    exact ⟨fun hq => absurd hq (hoff q), nofun⟩
  · rw [crit_of_ne (by simp; rintro p rfl; cases hk)]
    simpa using hlock
  · cases hk.symm.trans hq
  · rcases ht q with heq | ⟨-, hsl, hr⟩
    · exact heq ▸ h.fits_off hq
    · rw [setCtl_table, on_table, hr]
      exact ⟨by decide, fun _ => (h.fits_off hq).2 (.inr hsl)⟩
  · refine (ht q).resolve_right ?_
    rintro ⟨hl, hsl, -⟩
    have hfree := h.host_eq_none (p := q) (by rw [hsl]; decide) fun c'' hc'' hl' =>
      hoff q (by rw [hc'', ← hl', hl])
    cases hfree.symm.trans hq
  · rw [hp] at hk
    cases hk

lemma schedAcquire {k : Ctl} (hc : (s.ctl c).current = none) (hl : s.lock = none)
    (hk : k.holds = true) (hcur : k.current = none) : Inv ((s.setLock (some c)).setCtl c k) host :=
  h.sched_step (t := s.table) hc hcur (by simp [hk]) (fun c' hne => by simp [hl, hne.symm]) fun _ =>
    .inl rfl

lemma schedRelease (hc : (s.ctl c).current = none) (hl : s.lock = some c) :
    Inv ((s.setLock none).setCtl c .idle) host :=
  h.sched_step (t := s.table) hc rfl (by simp [Ctl.holds]) (fun c' hne => by simp [hl, hne.symm])
    fun _ => .inl rfl

lemma schedNext {k : Ctl} {t : Table} (hc : (s.ctl c).current = none)
    (hk : k.holds = (s.ctl c).holds) (hcur : k.current = none)
    (ht : ∀ q, (t.slot q).state = (s.table.slot q).state ∨ (s.ctl c).holds = true ∧
      (s.table.slot q).state = .sleeping ∧ (t.slot q).state = .runnable) :
    Inv ((s.on t).setCtl c k) host := by
  have hlock := h.lock c
  rw [crit_of_ne fun p hp => by rw [hp] at hc; cases hc] at hlock
  exact h.sched_step (l := s.lock) hc hcur (by rw [hk, hlock]) (fun _ _ => Iff.rfl) fun q =>
    (ht q).imp id fun hw => ⟨hlock.mp hw.1, hw.2⟩

lemma sched {g : Frame} (hc : s.ctl c = .proc p) (hl : (s.top p).inside = true)
    (hst : (s.top p).status = .zombie ∨
      ((s.top p).status = .runnable ∨ (s.top p).status = .sleeping) ∧ g.parked = true)
    (hgn : g.np = none) (hh : (s.top p).inHandler = true → g.inHandler = true) :
    Inv ((s.goto p g).setCtl c (.switchkvm p)) host := by
  have hlock := h.lock_of_inside hc hl
  refine h.own_step (k := .switchkvm p) (by rw [hc]; rfl) rfl (by ext; simp [assign]) (by ext; simp)
    (iff_of_true (crit_setCtl rfl) (by simpa using hlock)) (by simp) ?_
    (fun q hqp => ⟨by simp [goto_top, hqp], .inl (by simp)⟩) nofun (.inl hlock)
    (h.forking.goto_plain (h.not_embryo hc) hh hgn).setCtl
  simp only [setCtl_table, goto_table, setCtl_top, goto_top, if_true, h.status hc]
  exact hst

lemma setRunning (hc : s.ctl c = .switchuvm p) :
    Inv ((s.on (s.table.setState p .running)).setCtl c (.swtch p)) host := by
  have hcur : (s.ctl c).current = some p := by rw [hc]; rfl
  have hlock := h.lock_of_holds hc rfl
  have hfit := h.fits_of_current hcur
  rw [hc] at hfit
  refine h.own_step (k := .swtch p) hcur rfl rfl rfl
    (iff_of_true (crit_setCtl rfl) (by simpa using hlock)) (by simp)
    ⟨by simp, hfit.2⟩ (fun q hqp => ⟨rfl, .inl (by simp [hqp])⟩) nofun (.inl hlock)
    (h.forking.on fun q hq => ?_).setCtl
  have hqp : q ≠ p := by
    rintro rfl
    cases hfit.1.symm.trans hq
  simpa [hqp] using hq

lemma swtch (hc : s.ctl c = .swtch p) : Inv (s.setCtl c (.proc p)) host := by
  have hcur : (s.ctl c).current = some p := by rw [hc]; rfl
  have hlock := h.lock_of_holds hc rfl
  have hfit := h.fits_of_current hcur
  rw [hc] at hfit
  obtain ⟨hin, hst, hv⟩ := Frame.parked_spec hfit.2
  refine h.own_step (k := .proc p) hcur rfl rfl rfl ?_ (fun _ _ => Iff.rfl) (hfit.1.trans hst.symm)
    (fun _ _ => ⟨rfl, .inl rfl⟩) (by simp [hv]) (.inl hlock) h.forking.setCtl
  rw [crit_proc (p := p) (by simp)]
  simp [hin, hlock]

lemma host_step {k : Ctl} {host' : Index → Option C} (hl : s.lock = some c) (hk : k.holds = true)
    (hmine : ∀ q, host' q = some c ↔ k.current = some q)
    (hothers : ∀ q c', c' ≠ c → (host' q = some c' ↔ host q = some c'))
    (hfit : ∀ q, k.current = some q → Ctl.Fits (some k) (s.table.slot q).state (s.top q))
    (hoff : ∀ q, host' q = none → Ctl.Fits none (s.table.slot q).state (s.top q)) :
    Inv ((s.setCur c k.current).setCtl c k) host' := by
  refine h.step_at rfl rfl hmine hothers (iff_of_true (crit_setCtl hk) hl) (fun _ _ => Iff.rfl) hfit hoff
    (fun q _ _ _ => ⟨rfl, rfl⟩) (fun p q hp => ?_) (.inl hl) h.forking.setCur.setCtl
  subst hp
  cases hk

lemma pick {j : ℕ} (hc : s.ctl c = .scan j) (hp : (s.table.slot p).state = .runnable) :
    Inv ((s.setCur c (some p)).setCtl c (.switchuvm p)) (assign host p (some c)) := by
  have hlock := h.lock_of_holds hc rfl
  have hcur : (s.ctl c).current = none := by rw [hc]; rfl
  have hidle : ∀ q, host q ≠ some c := fun q hq => by cases hcur.symm.trans (h.current_of_host hq)
  have hoff := h.host_eq_none (p := p) (by rw [hp]; decide) fun c' hc' hl =>
    hidle p (by rw [hc', ← hl, hlock])
  refine h.host_step (k := .switchuvm p) hlock rfl (fun q => ?_) (fun q c' hcc => ?_) (fun q hq => ?_)
    (fun q hq => ?_)
  · grind [assign_apply, Ctl.current]
  · grind [assign_apply]
  · cases hq
    exact ⟨hp, (h.fits_off hoff).2 (.inl hp)⟩
  · rw [assign_apply] at hq
    split_ifs at hq
    exact h.fits_off hq

lemma switchkvm {j : ℕ} (hc : s.ctl c = .switchkvm p) :
    Inv ((s.setCur c none).setCtl c (.scan j)) (assign host p none) := by
  have hlock := h.lock_of_holds hc rfl
  have hcur : (s.ctl c).current = some p := by rw [hc]; rfl
  have hp := h.host_of_current hcur
  have hfit := h.fits_of_current hcur
  rw [hc] at hfit
  refine h.host_step (k := .scan j) hlock rfl (fun q => ⟨fun hq => ?_, nofun⟩) (fun q c' hcc => ?_) nofun
    (fun q hq => ?_)
  · rw [assign_apply] at hq
    split_ifs at hq with hqp
    exact absurd (Option.some.inj ((h.current_of_host hq).symm.trans hcur)) hqp
  · grind [assign_apply]
  · rw [assign_apply] at hq
    split_ifs at hq with hqp
    · rw [hqp]
      rcases hfit with hz | ⟨hst, hpark⟩
      · rw [hz]
        exact ⟨by decide, by simp⟩
      · exact ⟨by rcases hst with hst | hst <;> rw [hst] <;> decide, fun _ => hpark⟩
    · exact h.fits_off hq

end scheduler

end Inv

lemma Inv.base_of_top {f : Frame} (h : Inv s host) (hf : s.top p = f) (hh : f.inHandler = false) :
    s.intr p = none ∧ s.base p = f := by
  cases hi : s.intr p with
  | none => exact ⟨rfl, by rw [← hf, top, hi]; rfl⟩
  | some g =>
    have := (h.forking.nested p g hi).1
    rw [top, hi] at hf
    rw [← hf] at hh
    simp_all

lemma acquire_eq_some (h : s.acquire c = some s') : s.lock = none ∧ s' = s.setLock (some c) := by
  obtain ⟨hl, heq⟩ := Option.ite_none_right_eq_some.mp h
  cases heq
  exact ⟨hl, rfl⟩

variable [DecidableEq C]

lemma release_eq_some (h : s.release c = some s') : s.lock = some c ∧ s' = s.setLock none := by
  obtain ⟨hl, heq⟩ := Option.ite_none_right_eq_some.mp h
  cases heq
  exact ⟨hl, rfl⟩

attribute [local simp] Frame.inside Frame.status Frame.victim Frame.np Frame.built Frame.inHandler
  Frame.parked

lemma Inv.exec_step {ok : Bool} (h : Inv s host) (hc : s.ctl c = .proc p)
    (hs : s.exec c p p ok = some s') : Inv s' host := by
  unfold State.exec at hs
  cases hf : s.top p <;> rw [hf] at hs <;> dsimp only at hs
  case user | exitPanic => cases hs
  case unlock =>
    obtain ⟨s1, h1, rfl⟩ := Option.map_eq_some_iff.mp hs
    obtain ⟨hl, rfl⟩ := release_eq_some h1
    exact h.release hc hl (by rw [hf]; rfl)
  case yieldAcquire | sleepAcquire | waitAcquire | exitAcquire | forkAcquire | forkLock
    | killAcquire | wakeupAcquire =>
    obtain ⟨s1, h1, rfl⟩ := Option.map_eq_some_iff.mp hs
    obtain ⟨hl, rfl⟩ := acquire_eq_some h1
    apply h.acquire hc hl <;> simp [hf]
  case yieldState | sleepState | exitState =>
    cases hs
    apply h.setState hc <;> simp [hf]
  case yieldSched | sleepSched | exitSched =>
    obtain ⟨-, heq⟩ := Option.ite_none_right_eq_some.mp hs
    cases heq
    apply h.sched hc <;> simp [hf]
  case sleepChan | exitWake | wakeupScan =>
    cases hs
    apply h.quiet hc <;> first | grind -linarith | simp [hf]
  case sleepTidy w =>
    cases hs
    cases w <;> (apply h.quiet hc <;> first | grind -linarith | simp [hf])
  case exitScan =>
    cases hs
    exact h.quiet hc (by simp [hf]) (by simp [hf]) (fun q => (Table.abandonAll_woken _ p q).state) rfl rfl
      (by simp) rfl (by simp [hf])
  case waitScan =>
    split at hs
    case h_1 q hq =>
      cases hs
      have hz := Table.find_some hq
      refine h.quiet (t := s.table) hc (by simp [hf]) (by simp [hf]) (fun _ => .inl rfl) rfl rfl
        (fun q' hq' => ?_) rfl (by simp [hf])
      obtain rfl : q = q' := by simpa using hq'
      simpa using (of_decide_eq_true hz).2
    case h_2 =>
      split_ifs at hs <;> cases hs <;>
        exact h.quiet (t := s.table) hc (by simp [hf]) (by simp [hf]) (fun _ => .inl rfl) rfl rfl
        (by simp) rfl (by simp [hf])
  case waitKfree q | waitFreevm q =>
    cases hs
    refine h.quiet (t := s.table) hc (by simp [hf]) (by simp [hf]) (fun _ => .inl rfl) rfl rfl
      (fun q' hq' => ?_) rfl (by simp [hf])
    exact h.victim c p q' hc (by rw [hf]; exact hq')
  case waitClear q =>
    cases hs
    obtain ⟨hi, hb⟩ := h.base_of_top hf rfl
    exact h.reap hc hi hb
  case forkScan =>
    obtain ⟨hi, hb⟩ := h.base_of_top hf rfl
    split at hs <;> cases hs
    case h_1 np hnp => exact h.alloc hc hi hb (by simpa using Table.find_some hnp)
    case h_2 =>
      exact h.quiet (t := s.table) hc (by simp [hf]) (by simp [hf]) (fun _ => .inl rfl) rfl rfl
        (by simp) rfl (by simp)
  case forkRelease np =>
    obtain ⟨s1, h1, rfl⟩ := Option.map_eq_some_iff.mp hs
    obtain ⟨hl, rfl⟩ := release_eq_some h1
    obtain ⟨hi, hb⟩ := h.base_of_top hf rfl
    exact h.forkRelease hc hl hi hb
  case forkStack np =>
    obtain ⟨hi, hb⟩ := h.base_of_top hf rfl
    cases ok <;> cases hs
    · exact h.fail hc hi (by rw [hb]; rfl) (by rw [hb]; rfl)
    · exact h.fresh hc hi hb
  case forkCopy np =>
    obtain ⟨hi, hb⟩ := h.base_of_top hf rfl
    cases ok <;> cases hs
    · exact h.fail hc hi (by rw [hb]; rfl) (by rw [hb]; rfl)
    · exact h.forkNext (t := s.table) hc hi (by rw [hb]; rfl) (by rw [hb]; rfl) (fun _ => rfl)
        (by rw [hb]; rfl) rfl
  case forkParent np =>
    cases hs
    obtain ⟨hi, hb⟩ := h.base_of_top hf rfl
    exact h.forkNext hc hi (by rw [hb]; rfl) (by rw [hb]; rfl) (by grind -linarith) (by rw [hb]; rfl) rfl
  case forkReady np =>
    cases hs
    obtain ⟨hi, hb⟩ := h.base_of_top hf rfl
    exact h.ready hc hi hb
  case killScan pid =>
    split at hs <;> cases hs
    · apply h.quiet hc <;> first | grind -linarith | simp [hf]
    · exact h.quiet (t := s.table) hc (by simp [hf]) (by simp [hf]) (fun _ => .inl rfl) rfl rfl
        (by simp) rfl (by simp)

lemma Inv.next_step {ok : Bool} (h : Inv s host) (hs : s.next c ok = some s') :
    ∃ host', Inv s' host' := by
  have hcur := h.cur c
  unfold next at hs
  cases hk : s.ctl c <;> rw [hk] at hs hcur <;> dsimp only at hs
  case idle | intrAcquire =>
    obtain ⟨s1, h1, rfl⟩ := Option.map_eq_some_iff.mp hs
    obtain ⟨hl, rfl⟩ := acquire_eq_some h1
    exact ⟨_, h.schedAcquire (by rw [hk]; rfl) hl rfl rfl⟩
  case scan j =>
    split_ifs at hs with hj hr
    · cases hs
      exact ⟨_, h.pick hk hr⟩
    · cases hs
      exact ⟨_, h.schedNext (t := s.table) (by rw [hk]; rfl) (by rw [hk]; rfl) rfl (fun _ => .inl rfl)⟩
    · obtain ⟨s1, h1, rfl⟩ := Option.map_eq_some_iff.mp hs
      obtain ⟨hl, rfl⟩ := release_eq_some h1
      exact ⟨_, h.schedRelease (by rw [hk]; rfl) hl⟩
  case switchuvm p =>
    cases hs
    exact ⟨_, h.setRunning hk⟩
  case swtch p =>
    rw [hcur] at hs
    cases hs
    exact ⟨_, h.swtch hk⟩
  case proc p =>
    rw [hcur] at hs
    exact ⟨_, h.exec_step hk hs⟩
  case switchkvm p =>
    cases hs
    exact ⟨_, h.switchkvm hk⟩
  case intrScan chan =>
    cases hs
    refine ⟨_, h.schedNext (by rw [hk]; rfl) (by rw [hk]; rfl) rfl fun q => ?_⟩
    exact (Table.wakeup1_woken s.table chan q).state.imp id fun hw => ⟨by rw [hk]; rfl, hw⟩
  case intrRelease =>
    obtain ⟨s1, h1, rfl⟩ := Option.map_eq_some_iff.mp hs
    obtain ⟨hl, rfl⟩ := release_eq_some h1
    exact ⟨_, h.schedRelease (by rw [hk]; rfl) hl⟩

lemma Inv.call_step {f : Frame} (h : Inv s host) (hs : s.call c f = some s') : Inv s' host := by
  unfold call at hs
  cases hc : s.ctl c
  case proc j =>
    rw [hc] at hs
    dsimp only at hs
    split_ifs at hs with h1 h2 <;> cases hs
    · obtain ⟨hi, hb, he, -⟩ := h1
      cases f <;> first | cases he; done | exact h.enter hc hi hb rfl rfl
    · obtain ⟨hi, hb, hh⟩ := h2
      cases f <;> first | cases hh; done | exact h.interrupt hc hi hb rfl rfl
  case idle =>
    cases f <;> simp only [hc, reduceCtorEq, Option.some.injEq] at hs
    subst hs
    exact h.schedNext (t := s.table) (by rw [hc]; rfl) (by rw [hc]; rfl) rfl (fun _ => .inl rfl)
  all_goals simp [hc] at hs

omit [DecidableEq C] in
lemma top_init (p : Index) : (init : State C).top p = if p = initproc then .unlock else .user := rfl

omit [DecidableEq C] in
lemma inv_init : Inv (init : State C) (fun _ => none) := by
  have hnp : ∀ p, ((init : State C).base p).np = none := by
    intro p
    simp only [init]
    split_ifs <;> rfl
  refine ⟨fun c => by simp [crit, init, Ctl.holds], fun _ => rfl, fun _ _ => by simp [init],
    fun p => ?_, fun c p q hc => ?_, ⟨nofun, fun p q hq => ?_⟩⟩
  · rw [top_init, show (init : State C).table.slot p = _ from Table.userinit_slot p]
    split_ifs
    · exact ⟨by decide, fun _ => rfl⟩
    · exact .off (.inr rfl)
  · cases hc
  · cases (hnp p).symm.trans hq

lemma inv_of_run {es : List (Event C)} (h : Run Step init es s) : ∃ host, Inv s host := by
  refine h.state_invariant (P := fun s => ∃ host, Inv s host) ⟨_, inv_init⟩ ?_
  rintro s e s' ⟨host, hi⟩ he
  cases e with
  | call c f => exact ⟨host, hi.call_step he⟩
  | next c ok => exact hi.next_step he

theorem one_cpu_per_process {es : List (Event C)} (h : Run Step init es s) :
    (s.lock = none → (∀ c p, s.cur c = some p → (s.table.slot p).state = .running) ∧
      ∀ p, (s.table.slot p).state = .running → ∃! c, s.cur c = some p) ∧
    (∀ c c' p, s.cur c = some p → s.cur c' = some p → c = c') ∧
    (∀ c p q, s.ctl c = .proc p → s.top p = .waitKfree q ∨ s.top p = .waitFreevm q →
      (s.table.slot q).state = .zombie ∧ ∀ c', s.cur c' ≠ some q ∧ s.ctl c' ≠ .proc q) := by
  obtain ⟨host, hi⟩ := inv_of_run h
  have hinj : ∀ c c' p, s.cur c = some p → s.cur c' = some p → c = c' := by
    intro c c' p hc hc'
    have h₁ := (hi.inverse c p).mp hc
    rw [(hi.inverse c' p).mp hc'] at h₁
    exact (Option.some.inj h₁).symm
  refine ⟨fun hl => ⟨fun c p hc => ?_, fun p hp => ?_⟩, hinj, fun c p q hc hq => ?_⟩
  · by_contra hne
    have hoff := hi.host_eq_none hne (fun c' _ => by rw [hl]; simp)
    rw [(hi.inverse c p).mp hc] at hoff
    cases hoff
  · obtain ⟨c, hc⟩ := Option.ne_none_iff_exists'.mp (fun hn => (hi.fits_off hn).1 hp)
    have hcur := (hi.inverse c p).mpr hc
    exact ⟨c, hcur, fun c' hc' => hinj c' c p hc' hcur⟩
  · have hz := hi.victim c p q hc (by rcases hq with hq | hq <;> rw [hq] <;> rfl)
    have hlock := hi.lock_of_inside hc (by rcases hq with hq | hq <;> rw [hq] <;> rfl)
    have hrun := hi.status hc
    have hpq : p ≠ q := by
      rintro rfl
      rw [hz] at hrun
      rcases hq with hq | hq <;> rw [hq] at hrun <;> cases hrun
    have hoff := hi.elsewhere hlock hc hpq.symm (by rw [hz]; decide)
    have hcur : ∀ c', s.cur c' ≠ some q := by
      intro c' hc'
      rw [(hi.inverse c' q).mp hc'] at hoff
      cases hoff
    exact ⟨hz, fun c' => ⟨hcur c', fun hk => hcur c' (by rw [hi.cur, hk]; rfl)⟩⟩

theorem one_cpu_per_process_wait : ∃ (es : List (Event Bool)) (s : State Bool), Run Step init es s ∧
    s.top initproc = .waitKfree 1 ∧ (s.table.slot 1).state = .zombie ∧ ∀ c, s.cur c ≠ some 1 ∧
    s.ctl c ≠ .proc 1 := by
  obtain ⟨s, hs, hc, ht⟩ : ∃ s ∈ Lib.exec step (init : State Bool)
    (List.replicate 5 (.next true true) ++ .call true .forkAcquire :: List.replicate 9
    (.next true true) ++
      List.replicate 6 (.next false true) ++ .call false .exitAcquire :: List.replicate 69
      (.next false true) ++ [.call true .waitAcquire, .next true true, .next true true]),
    s.ctl true = .proc initproc ∧ s.top initproc = .waitKfree 1 := by decide +kernel
  have hrun := run_of_exec hs
  exact ⟨_, s, hrun, ht, (one_cpu_per_process hrun).2.2 true initproc 1 hc (.inl ht)⟩

end State

end Xv6.Cpus
