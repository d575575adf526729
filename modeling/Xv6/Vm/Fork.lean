import Xv6.Proc.Table
import Xv6.Vm.Copy
import Xv6.Vm.Grow

namespace Xv6.Vm

open Lib View
open Xv6.Proc (ProcState)
open Family (Index NPROC)

structure Slot extends Proc where
  state : ProcState
  pid : Int32
  kstack : UInt32
  parent : Option Index

structure Ptable where
  slot : Index → Slot
  nextpid : Int32

namespace Ptable

def update (t : Ptable) (p : Index) (f : Slot → Slot) : Ptable :=
    { t with slot := assign t.slot p (f (t.slot p)) }

def unused (t : Ptable) : Option Index := (List.finRange NPROC).find? fun q => (t.slot q).state = .unused

end Ptable

/-- `none` is the return value 0. The trap frame and the context on the new stack are left out. -/
def allocproc (t : Ptable) : M (Option Index × Ptable) :=
  match t.unused with
  | none => return (none, t)
  | some p => do
    let t := { t.update p (fun x => { x with state := .embryo, pid := t.nextpid }) with
      nextpid := t.nextpid + 1 }
    let kstack ← kalloc
    let t := t.update p (fun x => { x with kstack })
    if kstack = 0 then return (none, t.update p (fun x => { x with state := .unused }))
    else return (some p, t)

/-- `none` is the return value -1; `p` is the calling process. -/
def fork (ld : Kernel) (t : Ptable) (p : Index) : M (Option Int32 × Ptable) := do
  let (np, t) ← allocproc t
  match np with
  | none => return (none, t)
  | some np =>
    let pgdir ← copyuvm ld (t.slot p).pgdir (t.slot p).sz
    let t := t.update np (fun x => { x with pgdir })
    if pgdir = 0 then
      kfree ld (t.slot np).kstack
      return (none, t.update np (fun x => { x with kstack := 0, state := .unused }))
    else
      let t := t.update np (fun x => { x with sz := (t.slot p).sz, parent := some p, state := .runnable })
      return (some (t.slot np).pid, t)

variable {ld : Kernel} {m m' m₁ : Mem} {A A₁ B C : View} {pd d f g n k s : ℕ} {l : List ℕ}
  {sz : UInt32} {F : Fill}

lemma plan_table (n i : ℕ) : (plan (seen n) k n)[i]? = some .table ↔
    ∃ j, n ≤ 1024 * j ∧ 1024 * j < n + k ∧ i + n + (n + 1023) / 1024 = 1025 * j + 1 := by
  induction k generalizing n i with
  | zero =>
    refine iff_of_false (by simp [plan]) ?_
    rintro ⟨j, h₁, h2, -⟩
    omega
  | succ k ih =>
    by_cases hn : seen n (n / 1024) = true
    · have hsame : seen n = seen (n + 1) := funext fun j => by
        simp only [seen, decide_eq_true_eq, decide_eq_decide] at hn ⊢
        omega
      simp only [seen, decide_eq_true_eq] at hn
      rw [plan_of_some (by simpa [seen] using hn), hsame]
      cases i with
      | zero =>
        refine iff_of_false (by simp) ?_
        rintro ⟨j, h₁, h2, h3⟩
        omega
      | succ i =>
        rw [List.getElem?_cons_succ, ih]
        refine exists_congr fun j => ?_
        constructor
        · rintro ⟨h₁, h2, h3⟩
          omega
        · rintro ⟨h₁, h2, h3⟩
          omega
    · have hnext : assign (seen n) (n / 1024) true = seen (n + 1) := funext fun j => by
        rw [assign_apply]
        split_ifs with hj
        · rw [seen, eq_comm, decide_eq_true_eq]
          omega
        · simp only [seen, decide_eq_true_eq, decide_eq_decide] at hn ⊢
          omega
      have hn' : seen n (n / 1024) = false := by simpa using hn
      simp only [seen, decide_eq_false_iff_not] at hn'
      rw [plan_of_none (by simpa using hn), hnext]
      rcases i with _ | _ | i
      · refine iff_of_false (by simp) ?_
        rintro ⟨j, h₁, h2, h3⟩
        omega
      · refine iff_of_true (by simp) ⟨n / 1024, ?_⟩
        omega
      · rw [List.getElem?_cons_succ, List.getElem?_cons_succ, ih]
        refine exists_congr fun j => ?_
        constructor
        · rintro ⟨h₁, h2, h3⟩
          omega
        · rintro ⟨h₁, h2, h3⟩
          omega

structure Spared (A C : View) : Prop where
  own : ∀ g, A.own g ≠ .free → C.own g = A.own g
  ent : ∀ q, A.own q = .dir → C.ent q = A.ent q

def Refund (A C : View) : Prop := ∀ g, A.own g = .free → C.own g = .free

structure Returned (A : View) (m m' : Mem) : Prop where
  free : ∃ l, FreeList m' l ∧ ∀ f, f ∈ l ↔ f ∈ A.free
  tables : ∀ q, A.own q = .dir → ∀ n < 2 ^ 20, entry m'.mem q n = entry m.mem q n

lemma returned_iff (h : Rep ld m A) (h' : Rep ld m' C) (hs : Spared A C) :
    Returned A m m' ↔ Refund A C := by
  constructor
  · rintro ⟨⟨l, hl, hmem⟩, -⟩ g hg
    rw [← h'.mem_free, h'.freeList.unique hl, hmem, h.mem_free, hg]
  · refine fun hr => ⟨⟨C.free, h'.freeList, fun f => ?_⟩, fun q hq n hn => ?_⟩
    · rw [h.mem_free, h'.mem_free]
      refine ⟨fun hf => ?_, hr f⟩
      by_contra hne
      rw [hs.own f hne] at hf
      exact hne hf
    · rw [← h.ent q hq n hn, ← h'.ent q ((hs.own q (by simp [hq])).trans hq) n hn, hs.ent q hq]

lemma Spared.called (A : View) : Spared A A.called ∧ Refund A A.called :=
    ⟨⟨fun _ _ => rfl, fun _ _ => rfl⟩, fun _ hg => hg⟩

lemma Begun.spared (h : Begun d A B) : Spared A B ∧ ¬ Refund A B := by
  refine ⟨⟨h.own, fun q hq => (h.other q ?_).1⟩, fun hr => ?_⟩
  · rintro rfl
    rw [h.fresh] at hq
    cases hq
  · have := hr d h.fresh
    rw [h.dir_new] at this
    cases this

lemma Rep.not_free_of_part (h : Rep ld m A) (hd : A.own pd = .dir)
    (hown : ∀ n < 2 ^ 19, Present (A.ent pd n) → A.own (pframe (A.ent pd n)) = .page pd n)
    (hpart : A.Part pd g) : A.own g ≠ .free := by
  rcases hpart with hh | ⟨n, hn, hp, rfl⟩
  · rcases h.own_of_holds hd hh with ⟨ho, -⟩ | ⟨i, ho⟩
    · simp [ho]
    · simp [ho]
  · simp [hown n hn hp]

section

variable (hb : Built ld d A A₁) (h₁ : Rep ld m₁ A₁) (hg : Grown F d 0 n A₁ B)

include hb

include h₁ hg

lemma Built.part_free (hpart : B.Part d g) : A.own g = .free := by
  rcases hpart with (rfl | ⟨i, -, ht⟩) | ⟨j, hj, hp, rfl⟩
  · exact hb.fresh
  · rcases hg.newtab i g ht with ht' | hfree
    · exact hb.newtab i g ht'
    · exact hb.free_of_free hfree
  · obtain ⟨-, f, hlt, hfree, -, he, -⟩ := hb.copied h₁ hg hj hp
    rwa [he, F.frame j f hlt]

omit h₁ in
lemma Built.accounted (hw : Whole d 0 n A₁ B) (hn : n ≤ 2 ^ 19) (hf : A.own g = .free)
    (hr : Rep ld m₁ A₁) : B.own g = .free ∨ B.Part d g := by
  rcases hb.took g hf with rfl | hA | ⟨i, hi, -, ht⟩
  · exact .inr (.inl (.inl rfl))
  · rcases hg.took g hA with hB | hB | ⟨i, hi, -, ht⟩ | ⟨j, -, hj, -, he, -⟩
    · exact .inl hB
    · exact absurd hB (hw.kept g hA)
    · exact .inr (.inl (.inr ⟨i, hi, ht⟩))
    · refine .inr (.inr ⟨j, by omega, ?_⟩)
      rw [he, F.frame j g (hr.lt_of_eq hA (by simp))]
      exact ⟨F.present j g, rfl⟩
  · exact .inr (.inl (.inr ⟨i, hi, by rw [hg.tab i (by simp [ht]), ht]⟩))

lemma Built.dropped_data (hw : Whole d 0 n A₁ B) (hn : n ≤ 2 ^ 19) (hd : Dropped d B.called C) :
    Spared A C ∧ Refund A C := by
  have hnot : ∀ g, A.own g ≠ .free → ¬ B.called.Part d g :=
    fun g hne hpart => hne (hb.part_free h₁ hg hpart)
  refine ⟨⟨fun g hne => ?_, fun q hq => ?_⟩, fun g hf => ?_⟩
  · rw [hd.kept g (hnot g hne), called_own, hg.own g (hb.not_free hne), hb.own g hne]
  · have hk := (hb.keeps hq).grown hg
    rw [(hd.other q hk.ne).1, called_ent, hk.ent]
  · by_cases hpart : B.called.Part d g
    · exact hd.freed g hpart
    · rw [hd.kept g hpart]
      exact (hb.accounted hg hw hn hf h₁).resolve_right hpart

lemma Built.dropped_table {m0 : Mem} (hB : Rep ld m0 B) (hfree : B.own f = .free)
    (hd : Dropped d (B.takeFor F n f).called C) : Spared A C ∧ ¬ Refund A C := by
  have hnot : ∀ g, A.own g ≠ .free → ¬ (B.takeFor F n f).called.Part d g := fun g hne hpart =>
    hne (hb.part_free h₁ hg hpart)
  refine ⟨⟨fun g hne => ?_, fun q hq => ?_⟩, fun hr => ?_⟩
  · have hown : B.own g = A.own g := (hg.own g (hb.not_free hne)).trans (hb.own g hne)
    rw [hd.kept g (hnot g hne), called_own, takeFor_own, assign_of_ne, hown]
    rintro rfl
    exact hne (hown ▸ hfree)
  · have hk := (hb.keeps hq).grown hg
    rw [(hd.other q hk.ne).1]
    exact hk.ent
  · have hdir := hg.dir hb.dir_new
    have hlost := hd.kept f fun hpart => hB.not_free_of_part hdir
      (fun j hj hp => hg.own_frame hB (Nat.zero_le j) (hb.not_present h₁ hj) hp) hpart hfree
    rw [hr f (hb.free_of_free (hg.free_of_free hfree)), called_own, takeFor_own, assign_self] at hlost
    cases hlost

end

def SetupKeeps (N : ℕ) : Prop := N = 0 ∨ 65 ≤ N

def CopyKeeps (N : ℕ) (sz : UInt32) : Prop := N = 0 ∨ 65 ≤ N ∧ ∀ j, 1024 * j < npages sz →
    N ≠ 66 + 1025 * j

def ForkKeeps (N : ℕ) (sz : UInt32) (t : Ptable) : Prop := t.unused = none ∨ N = 0 ∨ CopyKeeps (N - 1) sz

lemma plan_zero_table {i : ℕ} : (plan (seen 0) k 0)[i]? = some .table ↔ ∃ j, 1024 * j < k ∧
    i = 1 + 1025 * j := by
  rw [plan_table]
  refine exists_congr fun j => ⟨fun h => ?_, fun h => ?_⟩
  · obtain ⟨-, h2, h3⟩ := h
    omega
  · omega

lemma Built.copyKeeps_iff {N : ℕ} (hb : Built ld d A A₁) (hs : A.Supply N) (hlt : sz < KERNBASE) :
    CopyKeeps N sz ↔ A₁.firstRefused d 0 (npages sz) ≠ some .table := by
  obtain ⟨t, ht, he⟩ := hb.supply_eq hs
  rw [hb.firstRefused ht (npages_le (UInt32.le_of_lt hlt)), ne_eq, plan_zero_table, CopyKeeps]
  constructor
  · rintro (hz | ⟨-, h⟩) ⟨j, hj, rfl⟩
    · omega
    · exact h j hj (by omega)
  · refine fun h => .inr ⟨by omega, fun j hj hN => h ⟨j, hj, by omega⟩⟩

lemma setupkvm_outcome {N : ℕ} (h : Rep ld m A) (hs : A.Supply N) : (setupkvm ld).Wp m (fun r m' =>
    (r ≠ 0 ∧ SetupKeeps N) ∨ r = 0 ∧ ∃ C, Rep ld m' C ∧ Spared A C ∧ (Refund A C ↔ SetupKeeps N))
      (fun _ _ => False) := by
  refine (setupkvm_wp h).imp ?_
  rintro r m' (⟨rfl, hst, h'⟩ | ⟨d, B, rfl, hb, h'⟩ | ⟨d, B, rfl, hb, h'⟩)
  · obtain ⟨hsp, hre⟩ := Spared.called A
    exact .inr ⟨rfl, _, h', hsp, iff_of_true hre (.inl (hs.starved_iff.mp hst))⟩
  · obtain ⟨hsp, hre⟩ := hb.toBegun.spared
    obtain ⟨h₁, h2⟩ := hb.supply_lt hs
    refine .inr ⟨rfl, B, h', hsp, iff_of_false hre ?_⟩
    rintro (hz | hz) <;> omega
  · obtain ⟨t, -, he⟩ := hb.supply_eq hs
    exact .inl ⟨kva_ne_zero (h'.dir_lt hb.dir_new), .inr (by omega)⟩

lemma copyuvm_outcome {N : ℕ} (hp : Parent ld m A pd sz) (hs : A.Supply N) :
    (copyuvm ld (kva pd) sz).Wp m (fun r m' =>
    (r ≠ 0 ∧ CopyKeeps N sz) ∨ r = 0 ∧ ∃ C, Rep ld m' C ∧ Spared A C ∧ (Refund A C ↔ CopyKeeps N sz))
    (fun _ _ => False) := by
  have hnp := npages_le (UInt32.le_of_lt hp.lt)
  refine (copyuvm_wp hp).imp ?_
  rintro r m' (⟨rfl, hst, h'⟩ | ⟨d, B, rfl, hb, h'⟩ | ⟨d, A₁, m₁, C, -, h₁, hb, hc, h'⟩)
  · obtain ⟨hsp, hre⟩ := Spared.called A
    exact .inr ⟨rfl, _, h', hsp, iff_of_true hre (.inl (hs.starved_iff.mp hst))⟩
  · obtain ⟨hsp, hre⟩ := hb.toBegun.spared
    obtain ⟨h₁, h2⟩ := hb.supply_lt hs
    refine .inr ⟨rfl, B, h', hsp, iff_of_false hre ?_⟩
    rintro (hz | ⟨hz, -⟩) <;> omega
  · rw [hb.copyKeeps_iff hs hp.lt]
    cases hc with
    | done hr hg hw hf => exact .inl ⟨hr ▸ kva_ne_zero (h₁.dir_lt hb.dir_new), by simp [hf]⟩
    | data n B hr hn hg hw hd hf =>
      obtain ⟨hsp, hre⟩ := hb.dropped_data h₁ hg hw (by omega) hd
      exact .inr ⟨hr, C, h', hsp, iff_of_true hre (by simp [hf])⟩
    | table n f B m0 hr hn hB hg hfree hd hf =>
      obtain ⟨hsp, hre⟩ := hb.dropped_table h₁ hg hB hfree hd
      exact .inr ⟨hr, C, h', hsp, iff_of_false hre (by simp [hf])⟩

lemma Rep.take_ent {p : Page} (h : Rep ld m A) (hfree : A.free = f :: l)
    (h₁ : Rep ld m₁ (A.take f p)) (hd : A.own pd = .dir)
    (hn : n < 2 ^ 20) : entry m₁.mem pd n = entry m.mem pd n := by
  have hne := h.sound.ne_head hfree (by simp [hd] : A.own pd ≠ .free)
  rw [← h.ent pd hd n hn, ← h₁.ent pd (by rw [take_own, assign_of_ne hne, hd]) n hn]
  rfl

lemma Parent.take {p : Page} (hp : Parent ld m A pd sz) (hfree : A.free = f :: l)
    (h₁ : Rep ld m₁ (A.take f p)) : Parent ld m₁ (A.take f p) pd sz := by
  have hne : ∀ g, A.own g ≠ .free → g ≠ f := fun _ => hp.rep.sound.ne_head hfree
  have hent : ∀ n < 2 ^ 20, entry m₁.mem pd n = entry m.mem pd n :=
    fun n => hp.rep.take_ent hfree h₁ hp.dir
  refine ⟨h₁, ?_, hp.lt, fun n hn => ?_, fun n hn hpn => ?_, fun n hn hpn => ?_⟩
  · rw [take_own, assign_of_ne (hne pd (by simp [hp.dir])), hp.dir]
  · rw [hent n (by have := hp.lt_of_lt hn; omega)]
    exact hp.mapped n hn
  · rw [hent n (by omega)] at hpn ⊢
    have hused := hp.not_free hn (by rwa [hp.ent (by omega)])
    rw [hp.ent (by omega)] at hused
    rw [take_own, assign_of_ne (hne _ hused), hp.data n hn hpn]
  · rw [hent n (by omega)] at hpn ⊢
    exact hp.ram n hn hpn

lemma Spared.give {p : Page} (h : A.Sound) (hfree : A.free = f :: l) (hs : Spared (A.take f p) C) :
    Spared A (C.give f) ∧ (Refund A (C.give f) ↔ Refund (A.take f p) C) := by
  have hne : ∀ g, A.own g ≠ .free → g ≠ f := fun _ => h.ne_head hfree
  refine ⟨⟨fun g hg => ?_, fun q hq => ?_⟩, fun hr g hg => ?_, fun hr g hg => ?_⟩
  · rw [give_own, assign_of_ne (hne g hg), hs.own g, take_own, assign_of_ne (hne g hg)]
    rwa [take_own, assign_of_ne (hne g hg)]
  · refine hs.ent q ?_
    rw [take_own, assign_of_ne (hne q (by simp [hq])), hq]
  · rw [take_own, assign_apply] at hg
    split_ifs at hg with hgf
    have := hr g hg
    rwa [give_own, assign_of_ne hgf] at this
  · rw [give_own, assign_apply]
    split_ifs with hgf
    · rfl
    · refine hr g ?_
      rw [take_own, assign_of_ne hgf, hg]

namespace Ptable

variable {t : Ptable} {p q : Index} {φ ψ : Slot → Slot}

lemma update_slot (t : Ptable) (p q : Index) (φ : Slot → Slot) :
    (t.update p φ).slot q = if q = p then φ (t.slot p) else t.slot q := assign_apply ..

lemma state_of_unused (h : t.unused = some p) : (t.slot p).state = .unused := by
  simpa using List.find?_some h

def SameUnused (t t' : Ptable) : Prop := ∀ q, (t'.slot q).state = .unused ↔ (t.slot q).state = .unused

end Ptable

variable {t : Ptable} {p : Index} {N : ℕ}

lemma fork_outcome (hp : Parent ld m A pd sz) (hpgdir : (t.slot p).pgdir = kva pd)
    (hsz : (t.slot p).sz = sz)
    (hrun : (t.slot p).state = .running) (hs : A.Supply N) : (fork ld t p).Wp m (fun r m' =>
      (r.1 ≠ none ∧ ForkKeeps N sz t) ∨ r.1 = none ∧ t.SameUnused r.2 ∧
        ∃ C, Rep ld m' C ∧ Spared A C ∧ (Refund A C ↔ ForkKeeps N sz t)) (fun _ _ => False) := by
  rw [fork, allocproc]
  cases hu : t.unused with
  | none =>
    refine .bind (.pure (.pure (.inr ⟨rfl, fun q => Iff.rfl, A, hp.rep, ?_⟩)))
    exact ⟨⟨fun _ _ => rfl, fun _ _ => rfl⟩, iff_of_true (fun _ hg => hg) (.inl hu)⟩
  | some np =>
    have hnp : (t.slot np).state = .unused := Ptable.state_of_unused hu
    have hne : p ≠ np := by
      rintro rfl
      rw [hrun] at hnp
      cases hnp
    refine .bind ?_
    refine (kalloc_wp hp.rep).seq fun r m₁ hr => ?_
    rcases hr with ⟨rfl, hst, h₁⟩ | ⟨f, l, hst, hfree, rfl, hf, h₁⟩
    · rw [if_pos rfl]
      refine .pure (.pure (.inr ⟨rfl, fun q => ?_, A.called, h₁, ?_⟩))
      · simp only [Ptable.update_slot]
        split_ifs with hq
        · simp [hq, hnp]
        · rfl
      · obtain ⟨hsp, hre⟩ := Spared.called A
        exact ⟨hsp, iff_of_true hre (.inr (.inl (hs.starved_iff.mp hst)))⟩
    · rw [if_neg (kva_ne_zero hf)]
      refine .pure ?_
      have hpos : N ≠ 0 := fun hz => hst (hs.starved_iff.mpr hz)
      obtain ⟨N', hs', hN⟩ := hs.take (p := m.mem f) hst hfree
      obtain rfl : N' = N - 1 := by omega
      have hiff : ForkKeeps N sz t ↔ CopyKeeps (N - 1) sz := by simp [ForkKeeps, hu, hpos]
      simp only [Ptable.update_slot, if_neg hne, hpgdir, hsz, hiff, if_true]
      refine (copyuvm_outcome (hp.take hfree h₁) hs').seq fun r m2 hr => ?_
      rcases hr with ⟨hr, hk⟩ | ⟨rfl, C, h2, hsp, hre⟩
      · rw [if_neg hr]
        exact .pure (.inl ⟨by simp, hk⟩)
      · rw [if_pos rfl]
        have hlost : C.own f = .lost := by
          rw [hsp.own f (by simp), take_own, assign_self]
        obtain ⟨hlo, hlt⟩ := h2.range f (by simp [hlost])
        refine .bind (kfree_wp h2 (by rw [hlost]; rfl) hlo hlt fun m3 h3 => .pure (.inr ?_))
        obtain ⟨hsp', hre'⟩ := hsp.give hp.rep.sound hfree
        refine ⟨rfl, fun q => ?_, _, h3, hsp', hre'.trans hre⟩
        simp only [Ptable.update_slot]
        split_ifs with hq
        · simp [hq, hnp]
        · rfl

namespace View

def supply (A : View) : ℕ := (List.range A.free.length).findIdx fun j => A.deny (A.calls + j)

lemma Supply.of_mono (h : ∀ i j, i ≤ j → A.deny i = true → A.deny j = true) : A.Supply A.supply := by
  refine ⟨h, fun j => ⟨fun hr => ?_, fun hj => ?_⟩⟩
  · rcases hr with hd | hl
    · by_contra hlt
      rw [not_le] at hlt
      have hno := List.not_of_lt_findIdx hlt
      rw [List.getElem_range] at hno
      rw [hd] at hno
      cases hno
    · exact List.findIdx_le_length.trans (by rwa [List.length_range])
  · by_cases hl : A.free.length ≤ j
    · exact .inr hl
    · have hlt : A.supply < (List.range A.free.length).length := by
        rw [List.length_range]
        omega
      have hyes : A.deny (A.calls + (List.range A.free.length)[A.supply]) = true :=
        List.findIdx_getElem (w := hlt)
      rw [List.getElem_range] at hyes
      exact .inl (h _ _ (by omega) hyes)

lemma Supply.unique {t : ℕ} (h : A.Supply s) (h' : A.Supply t) : s = t := by
  have h₁ := (h.refuses t).mp ((h'.refuses t).mpr le_rfl)
  have h2 := (h'.refuses s).mp ((h.refuses s).mpr le_rfl)
  omega

end View

lemma returned_wp_iff {α : Type} {act : M α} {fails : α → Prop} {X : α → Prop} {c : Prop} (h : Rep ld m A)
    (hw : act.Wp m (fun r m' => (¬ fails r ∧ c) ∨ fails r ∧ X r ∧ ∃ C, Rep ld m' C ∧ Spared A C ∧
    (Refund A C ↔ c))
      (fun _ _ => False)) : act.Wp m (fun r m' => fails r → Returned A m m' ∧ X r)
      (fun _ _ => False) ↔ c := by
  refine Act.Wp.iff_of (hw.imp ?_)
  rintro r m' (⟨hr, hc⟩ | ⟨hr, hx, C, h', hsp, hre⟩)
  · exact iff_of_true (fun hr' => absurd hr' hr) hc
  · rw [← hre, ← returned_iff h h' hsp]
    exact ⟨fun himp => (himp hr).1, fun hre _ => ⟨hre, hx⟩⟩

lemma setupkvm_returned_iff (h : Rep ld m A) (hs : A.Supply N) :
    (setupkvm ld).Wp m (fun r m' => r = 0 → Returned A m m') (fun _ _ => False) ↔ SetupKeeps N := by
  have hw := returned_wp_iff (X := fun _ => True) h ((setupkvm_outcome h hs).imp fun r m' hr =>
    hr.imp_right fun hr => ⟨hr.1, trivial, hr.2⟩)
  simpa only [and_true] using hw

lemma copyuvm_returned_iff (hp : Parent ld m A pd sz) (hs : A.Supply N) :
    (copyuvm ld (kva pd) sz).Wp m (fun r m' => r = 0 → Returned A m m') (fun _ _ => False) ↔
    CopyKeeps N sz := by
  have hw := returned_wp_iff (X := fun _ => True) hp.rep ((copyuvm_outcome hp hs).imp fun r m' hr =>
    hr.imp_right fun hr => ⟨hr.1, trivial, hr.2⟩)
  simpa only [and_true] using hw

lemma fork_returned_iff (hp : Parent ld m A pd (t.slot p).sz) (hpgdir : (t.slot p).pgdir = kva pd)
    (hrun : (t.slot p).state = .running) (hs : A.Supply N) :
    (fork ld t p).Wp m (fun r m' => r.1 = none → Returned A m m' ∧ t.SameUnused r.2) (fun _ _ => False) ↔
      ForkKeeps N (t.slot p).sz t :=
  returned_wp_iff hp.rep (fork_outcome hp hpgdir rfl hrun hs)

theorem failed_construction_returns_iff (h : Rep ld m A) (hmono : ∀ i j, i ≤ j → m.deny i = true →
    m.deny j = true) :
    ((setupkvm ld).Wp m (fun r m' => r = 0 → Returned A m m') (fun _ _ => False) ↔ SetupKeeps A.supply) ∧
    (∀ pd sz, Parent ld m A pd sz →
      ((copyuvm ld (kva pd) sz).Wp m (fun r m' => r = 0 → Returned A m m') (fun _ _ => False) ↔
      CopyKeeps A.supply sz)) ∧
    ∀ (t : Ptable) p pd, (t.slot p).state = .running → (t.slot p).pgdir = kva pd →
      Parent ld m A pd (t.slot p).sz →
      ((fork ld t p).Wp m (fun r m' => r.1 = none → Returned A m m' ∧ t.SameUnused r.2)
      (fun _ _ => False) ↔
        ForkKeeps A.supply (t.slot p).sz t) := by
  have hs : A.Supply A.supply := View.Supply.of_mono fun i j hij hi => by
    rw [h.deny] at hi ⊢
    exact hmono i j hij hi
  exact ⟨setupkvm_returned_iff h hs, fun pd sz hp => copyuvm_returned_iff hp hs,
    fun t p pd hrun hpgdir hp =>
    fork_returned_iff hp hpgdir hrun hs⟩

def smallTable : Ptable where
  slot p := if p = 0 then ⟨⟨1, kva 2000⟩, .running, 1, 0, none⟩ else ⟨⟨0, 0⟩, .unused, 0, 0, none⟩
  nextpid := 2

theorem failed_construction_returns_hundred_pages :
    (setupkvm Kernel.small).Wp (smallProc 100)
    (fun r m' => r = 0 → Returned (smallProcView 100) (smallProc 100) m')
      (fun _ _ => False) ∧
    (copyuvm Kernel.small (kva 2000) 1).Wp (smallProc 100)
      (fun r m' => r = 0 → Returned (smallProcView 100) (smallProc 100) m') (fun _ _ => False) ∧
    (fork Kernel.small smallTable 0).Wp (smallProc 100)
      (fun r m' => r.1 = none → Returned (smallProcView 100) (smallProc 100) m' ∧
      smallTable.SameUnused r.2) (fun _ _ => False) := by
  have hp := parent_smallProc Kernel.small (k := 100) (by decide)
  have hsup : (smallProcView 100).supply = 100 := by
    refine View.Supply.unique (View.Supply.of_mono ?_) (smallProcView_supply 100)
    exact (smallProcView_supply 100).mono
  obtain ⟨h₁, h₂, h₃⟩ := failed_construction_returns_iff hp.rep fun i j hij hi => by
    rw [← hp.rep.deny] at hi ⊢
    exact (smallProcView_supply 100).mono i j hij hi
  have hcopy : ∀ N, 67 ≤ N → N < 1091 → CopyKeeps N 1 :=
    fun N h₁ h₂ => .inr ⟨by omega, fun j _ => by omega⟩
  rw [hsup] at h₁ h₂ h₃
  exact ⟨h₁.mpr (.inr (by decide)), (h₂ _ _ hp).mpr (hcopy 100 (by decide) (by decide)),
    (h₃ smallTable 0 2000 rfl rfl hp).mpr (.inr (.inr (hcopy 99 (by decide) (by decide))))⟩

theorem failed_construction_loses_pages :
    Parent Kernel.small (smallProc 66) (smallProcView 66) 2000 1 ∧
    ¬ (setupkvm Kernel.small).Wp (smallProc 1)
    (fun r m' => r = 0 → Returned (smallProcView 1) (smallProc 1) m')
      (fun _ _ => False) ∧
    ¬ (copyuvm Kernel.small (kva 2000) 1).Wp (smallProc 66)
      (fun r m' => r = 0 → Returned (smallProcView 66) (smallProc 66) m') (fun _ _ => False) ∧
    ¬ (fork Kernel.small smallTable 0).Wp (smallProc 2)
      (fun r m' => r.1 = none → Returned (smallProcView 2) (smallProc 2) m' ∧ smallTable.SameUnused r.2)
      (fun _ _ => False) := by
  have hp := fun k (hk : k ≤ 10000) => parent_smallProc Kernel.small hk
  refine ⟨hp 66 (by decide), ?_, ?_, ?_⟩
  · rw [setupkvm_returned_iff (hp 1 (by decide)).rep (smallProcView_supply 1)]
    rintro (h | h) <;> omega
  · rw [copyuvm_returned_iff (hp 66 (by decide)) (smallProcView_supply 66)]
    rintro (h | ⟨-, h⟩)
    · omega
    · exact h 0 (by decide) rfl
  · rw [fork_returned_iff (t := smallTable) (p := 0) (hp 2 (by decide)) rfl rfl (smallProcView_supply 2)]
    rintro (h | h | h | ⟨h, -⟩)
    · exact absurd h (by decide)
    · omega
    · omega
    · omega

end Xv6.Vm
