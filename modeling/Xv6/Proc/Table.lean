import Xv6.Proc.Machine

namespace Xv6.Family

open Lib
open Proc (ProcState)

abbrev NPROC : ℕ := 64

abbrev Index := Fin NPROC

instance : NeZero NPROC := ⟨by decide⟩

def initproc : Index := 0

inductive Chan
  | proc (p : Index)
  | other (addr : ℕ)
  deriving DecidableEq

structure Slot where
  state : ProcState
  pid : Int32
  parent : Option Index
  killed : Bool
  chan : Option Chan
  deriving DecidableEq

structure Table where
  slot : Index → Slot
  nextpid : Int32

namespace Table

def update (t : Table) (p : Index) (f : Slot → Slot) : Table :=
    { t with slot := assign t.slot p (f (t.slot p)) }

def setState (t : Table) (p : Index) (st : ProcState) : Table :=
    t.update p (fun x => { x with state := st })

def find (t : Table) (test : Slot → Bool) : Option Index :=
    (List.finRange NPROC).find? (fun q => test (t.slot q))

def allocproc (t : Table) (p : Index) : Table :=
  { t.update p (fun x => { x with state := .embryo, pid := t.nextpid }) with nextpid := t.nextpid + 1 }

def wakeup1 (t : Table) (chan : Option Chan) : Table :=
  { t with slot := fun q =>
      if (t.slot q).state = .sleeping ∧ (t.slot q).chan = chan then { t.slot q with state := .runnable }
      else t.slot q }

def abandon (p : Index) (t : Table) (q : Index) : Table :=
  if (t.slot q).parent = some p then
    let t := t.update q (fun x => { x with parent := some initproc })
    if (t.slot q).state = .zombie then t.wakeup1 (some (.proc initproc)) else t
  else t

def abandonAll (t : Table) (p : Index) : Table := (List.finRange NPROC).foldl (abandon p) t

def exit (t : Table) (p : Index) : Table :=
  ((t.wakeup1 ((t.slot p).parent.map .proc)).abandonAll p).setState p .zombie

def reap (t : Table) (q : Index) : Table :=
  t.update q (fun x => { x with state := .unused, pid := 0, parent := none, killed := false })

def mark (t : Table) (q : Index) : Table :=
  t.update q (fun x =>
    { x with killed := true, state := if x.state = .sleeping then .runnable else x.state })

def userinit : Table :=
  ((Table.mk (fun _ => ⟨.unused, 0, none, false, none⟩) 1).allocproc initproc).setState initproc .runnable

section fields

variable (t : Table) (p q : Index) (f : Slot → Slot) (st : ProcState) (c : Option Chan)

@[simp, grind =] lemma update_slot :
    (t.update p f).slot q = if q = p then f (t.slot p) else t.slot q := rfl
@[simp, grind =] lemma update_nextpid : (t.update p f).nextpid = t.nextpid := rfl
@[simp, grind =] lemma setState_slot :
    (t.setState p st).slot q = if q = p then { t.slot p with state := st } else t.slot q := rfl
@[simp, grind =] lemma setState_nextpid : (t.setState p st).nextpid = t.nextpid := rfl
@[simp, grind =] lemma allocproc_slot : (t.allocproc p).slot q =
    if q = p then { t.slot p with state := .embryo, pid := t.nextpid } else t.slot q := rfl
@[grind =] lemma wakeup1_slot : (t.wakeup1 c).slot q =
    { t.slot q with state := if (t.slot q).state = .sleeping ∧ (t.slot q).chan = c then .runnable
                             else (t.slot q).state } := by
  simp only [wakeup1]
  split_ifs <;> rfl
@[simp, grind =] lemma wakeup1_nextpid : (t.wakeup1 c).nextpid = t.nextpid := rfl
@[simp, grind =] lemma reap_slot : (t.reap p).slot q =
    if q = p then { t.slot p with state := .unused, pid := 0, parent := none, killed := false }
    else t.slot q := rfl
@[simp, grind =] lemma mark_slot : (t.mark p).slot q =
    if q = p then { t.slot p with killed := true, state := if (t.slot p).state = .sleeping then .runnable
                                                           else (t.slot p).state }
    else t.slot q := rfl

end fields

variable {t t' : Table} {p q : Index} {test : Slot → Bool}

lemma find_some (h : t.find test = some q) : test (t.slot q) = true :=
  List.find?_some (p := fun q => test (t.slot q)) h

lemma find_none (h : t.find test = none) (q : Index) : test (t.slot q) = false := by
  simpa using List.find?_eq_none.mp h q (List.mem_finRange q)

lemma userinit_slot (q : Index) : userinit.slot q =
    if q = initproc then ⟨.runnable, 1, none, false, none⟩ else ⟨.unused, 0, none, false, none⟩ := by
  simp only [userinit, setState_slot, allocproc_slot]
  split_ifs <;> rfl

structure Woken (t t' : Table) (x : Index) : Prop where
  pid : (t'.slot x).pid = (t.slot x).pid
  killed : (t'.slot x).killed = (t.slot x).killed
  chan : (t'.slot x).chan = (t.slot x).chan
  state : (t'.slot x).state = (t.slot x).state ∨ (t.slot x).state = .sleeping ∧
    (t'.slot x).state = .runnable

lemma Woken.refl (t : Table) (x : Index) : Woken t t x := ⟨rfl, rfl, rfl, .inl rfl⟩

lemma Woken.trans {t1 t2 t3 : Table} {x : Index} (h1 : Woken t1 t2 x) (h2 : Woken t2 t3 x) :
    Woken t1 t3 x := by
  obtain ⟨_, _, _, _⟩ := h1
  obtain ⟨_, _, _, _⟩ := h2
  constructor <;> grind

lemma wakeup1_woken (t : Table) (c : Option Chan) (x : Index) : Woken t (t.wakeup1 c) x := by
  constructor <;> grind

lemma wakeup1_awake (t : Table) {c : Option Chan} {x : Index} (h : (t.slot x).chan = c) :
    ((t.wakeup1 c).slot x).state ≠ .sleeping := by
  grind

def DeadChild (t : Table) (p x : Index) : Prop := (t.slot x).parent = some p ∧ (t.slot x).state = .zombie

lemma abandon_woken (p : Index) (t : Table) (q x : Index) : Woken t (abandon p t q) x := by
  unfold abandon
  constructor <;> grind

lemma abandon_parent (p : Index) (t : Table) (q x : Index) : ((abandon p t q).slot x).parent =
    if x = q ∧ (t.slot x).parent = some p then some initproc else (t.slot x).parent := by
  unfold abandon
  grind

lemma abandon_nextpid (p : Index) (t : Table) (q : Index) : (abandon p t q).nextpid = t.nextpid := by
  unfold abandon
  grind

lemma abandon_awake {x : Index} (h : t.DeadChild p q) (hx : (t.slot x).chan = some (.proc initproc)) :
    ((abandon p t q).slot x).state ≠ .sleeping := by
  obtain ⟨hpar, hdead⟩ := h
  simp only [abandon, hpar, update_slot, hdead, if_true]
  refine wakeup1_awake _ ?_
  rw [update_slot]
  split_ifs with hxq
  · rw [← hxq, hx]
  · exact hx

lemma foldl_abandon_woken (p : Index) (qs : List Index) (t : Table) (x : Index) :
    Woken t (qs.foldl (abandon p) t) x := by
  induction qs generalizing t with
  | nil => exact Woken.refl t x
  | cons q qs ih => exact (abandon_woken p t q x).trans (ih _)

lemma abandonAll_woken (t : Table) (p x : Index) : Woken t (t.abandonAll p) x :=
    foldl_abandon_woken p _ t x

structure Abandoned (p : Index) (qs : List Index) (t t' : Table) : Prop where
  parent : ∀ x, (t'.slot x).parent =
    if x ∈ qs ∧ (t.slot x).parent = some p then some initproc else (t.slot x).parent
  awake : (∃ q ∈ qs, t.DeadChild p q) → ∀ x, (t.slot x).chan = some (.proc initproc) →
    (t'.slot x).state ≠ .sleeping
  nextpid : t'.nextpid = t.nextpid

lemma foldl_abandon (hp : p ≠ initproc) (qs : List Index) (t : Table) :
    Abandoned p qs t (qs.foldl (abandon p) t) := by
  induction qs generalizing t with
  | nil => exact ⟨by simp, by simp, rfl⟩
  | cons q qs ih =>
    obtain ⟨hpar, haw, hn⟩ := ih (abandon p t q)
    have hw := foldl_abandon_woken p qs (abandon p t q)
    have hw' := abandon_woken p t q
    have hpar' := abandon_parent p t q
    rw [List.foldl_cons]
    refine ⟨fun x => ?_, fun hd x hx => ?_, hn.trans (abandon_nextpid p t q)⟩
    · rw [hpar, hpar']
      grind
    · by_cases hq : t.DeadChild p q
      · have := abandon_awake hq hx
        have := (hw x).state
        grind
      · obtain ⟨y, hy, hyd⟩ := hd
        have hyq : y ≠ q := fun he => hq (he ▸ hyd)
        refine haw ⟨y, (List.mem_cons.mp hy).resolve_left hyq, ?_⟩ x (by rw [(hw' x).chan, hx])
        have := (hw' y).state
        unfold DeadChild at *
        grind

structure Exited (p : Index) (t t' : Table) : Prop where
  dead : (t'.slot p).state = .zombie
  woken : ∀ x, x ≠ p → Woken t t' x
  self : (t'.slot p).pid = (t.slot p).pid ∧ (t'.slot p).killed = (t.slot p).killed
  parent : ∀ x, (t'.slot x).parent = if (t.slot x).parent = some p then some initproc else
    (t.slot x).parent
  awake : ∀ x, x ≠ p → (t.slot x).chan = (t.slot p).parent.map .proc → (t'.slot x).state ≠ .sleeping
  awake_init : (∃ q, t.DeadChild p q) → ∀ x, x ≠ p → (t.slot x).chan = some (.proc initproc) →
    (t'.slot x).state ≠ .sleeping
  nextpid : t'.nextpid = t.nextpid

lemma exited (hp : p ≠ initproc) (t : Table) : Exited p t (t.exit p) := by
  have hw0 := wakeup1_woken t ((t.slot p).parent.map .proc)
  obtain ⟨hpar, haw, hn⟩ := foldl_abandon hp (List.finRange NPROC)
    (t.wakeup1 ((t.slot p).parent.map .proc))
  have hw := foldl_abandon_woken p (List.finRange NPROC) (t.wakeup1 ((t.slot p).parent.map .proc))
  have hall := fun x => (hw0 x).trans (hw x)
  unfold exit abandonAll
  refine ⟨by simp, fun x hx => ?_, ?_, fun x => ?_, fun x hx hc => ?_, fun hd x hx hc => ?_, ?_⟩
  · have := hall x
    constructor <;> simp only [setState_slot, if_neg hx]
    exacts [this.pid, this.killed, this.chan, this.state]
  · simp only [setState_slot, if_pos]
    exact ⟨(hall p).pid, (hall p).killed⟩
  · have := hpar x
    grind
  · have := wakeup1_awake t hc
    have := (hw x).state
    grind
  · rw [setState_slot, if_neg hx]
    obtain ⟨q, hq⟩ := hd
    refine haw ⟨q, List.mem_finRange q, ?_⟩ x (by rw [(hw0 x).chan, hc])
    have := (hw0 q).state
    unfold DeadChild at *
    grind
  · rw [setState_nextpid, hn, wakeup1_nextpid]

end Table

end Xv6.Family
