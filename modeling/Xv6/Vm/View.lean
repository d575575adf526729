import Xv6.Vm.Uvm

/-! Memory seen as free pages, page directories, page tables and pages of bytes. -/

namespace Xv6.Vm

open Lib

abbrev NFRAMES : ℕ := 57344

def kva (f : ℕ) : UInt32 := p2v (UInt32.ofNat (f * 4096))

variable {f g : ℕ}

lemma v2p_p2v (a : UInt32) : v2p (p2v a) = a := by
  simp [v2p, p2v]

section

variable (hf : f < NFRAMES)
include hf

lemma toNat_v2p_kva : (v2p (kva f)).toNat = f * 4096 := by
  rw [kva, v2p_p2v, UInt32.toNat_ofNat_of_lt']
  simp only [UInt32.size, NFRAMES] at *
  omega

lemma frame_kva : frame (kva f) = f := by
  rw [frame, toNat_v2p_kva hf]
  omega

lemma toNat_kva : (kva f).toNat = f * 4096 + 2147483648 := by
  have h : f * 4096 < 2 ^ 32 := by
    simp only [NFRAMES] at hf
    omega
  rw [kva, p2v, UInt32.toNat_add, UInt32.toNat_ofNat_of_lt' h,
    show (KERNBASE).toNat = 2147483648 from rfl]
  simp only [NFRAMES] at hf
  omega

lemma kva_mapped : ¬ (kva f < KERNBASE ∨ v2p (kva f) ≥ PHYSTOP) := by
  rw [UInt32.lt_iff_toNat_lt, ge_iff_le, UInt32.le_iff_toNat_le, toNat_kva hf, toNat_v2p_kva hf,
    show (KERNBASE).toNat = 2147483648 from rfl, show (PHYSTOP).toNat = 57344 * 4096 from rfl]
  simp only [NFRAMES] at hf
  omega

lemma kva_ne_zero : kva f ≠ 0 := by
  intro h
  have := toNat_kva hf
  rw [h] at this
  simp at this

lemma aligned_v2p_kva : (v2p (kva f)).toNat % 4096 = 0 := by
  rw [toNat_v2p_kva hf]
  omega

lemma pframe_kva {perm : UInt32} (hp : perm.toNat < 4096) :
    pframe (v2p (kva f) ||| perm ||| PTE_P) = f := by
  rw [pframe_entry (aligned_v2p_kva hf) hp, toNat_v2p_kva hf]
  omega

end

def Kernel.lo (ld : Kernel) : ℕ := ((v2p ld.kend).toNat + 4095) / 4096

lemma Kernel.kend_bounds (ld : Kernel) : 2148532224 < ld.kend.toNat ∧ ld.kend.toNat ≤ 2151677952 ∧
    (v2p ld.kend).toNat = ld.kend.toNat - 2147483648 := by
  have h1 := UInt32.lt_iff_toNat_lt.mp ld.link_lt_data
  have h2 := UInt32.le_iff_toNat_le.mp ld.data_le_end
  have h3 := UInt32.le_iff_toNat_le.mp ld.end_le
  rw [show (KERNLINK).toNat = 2148532224 from rfl] at h1
  rw [show (p2v 0x400000).toNat = 2151677952 from rfl] at h3
  refine ⟨by omega, h3, ?_⟩
  rw [v2p, UInt32.toNat_sub_of_le _ _ (UInt32.le_iff_toNat_le.mpr ?_)]
  · rfl
  · rw [show (KERNBASE).toNat = 2147483648 from rfl]
    omega

lemma Kernel.lo_pos (ld : Kernel) : 0 < ld.lo := by
  obtain ⟨h1, -, hv⟩ := ld.kend_bounds
  rw [Kernel.lo, hv]
  omega

lemma Kernel.lo_le (ld : Kernel) : ld.lo ≤ 1024 := by
  obtain ⟨h1, h2, hv⟩ := ld.kend_bounds
  rw [Kernel.lo, hv]
  omega

inductive Owner
  | none
  | free
  | lost
  | dir
  | table (pd i : ℕ)
  | page (pd n : ℕ)
  | stack (p : ℕ)
  | cpu (c : ℕ)
  | pipe
  deriving DecidableEq

def Owner.data : Owner → Bool
  | free | dir | table _ _ => false
  | _ => true

def Linked (mem : ℕ → Page) : UInt32 → List ℕ → Prop
  | v, [] => v = 0
  | v, f :: l => v = kva f ∧ Linked mem ((mem f).word 0) l

lemma Linked.congr {mem mem' : ℕ → Page} {v : UInt32} {l : List ℕ} (h : Linked mem v l)
    (hmem : ∀ f ∈ l, mem' f = mem f) : Linked mem' v l := by
  induction l generalizing v with
  | nil => exact h
  | cons f l ih =>
    refine ⟨h.1, ?_⟩
    rw [hmem f (by simp)]
    exact ih h.2 (fun g hg => hmem g (by simp [hg]))

structure FreeList (m : Mem) (l : List ℕ) : Prop where
  linked : Linked m.mem m.freelist l
  lt : ∀ f ∈ l, f < NFRAMES

lemma kva_inj (hf : f < NFRAMES) (hg : g < NFRAMES) (h : kva f = kva g) : f = g := by
  rw [← frame_kva hf, ← frame_kva hg, h]

lemma Linked.unique {mem : ℕ → Page} {v : UInt32} {l l' : List ℕ} (h : Linked mem v l)
    (h' : Linked mem v l') (hl : ∀ f ∈ l, f < NFRAMES) (hl' : ∀ f ∈ l', f < NFRAMES) : l = l' := by
  induction l generalizing v l' with
  | nil =>
    cases l' with
    | nil => rfl
    | cons g l' => exact absurd (h'.1.symm.trans h) (kva_ne_zero (hl' g List.mem_cons_self))
  | cons f l ih =>
    cases l' with
    | nil => exact absurd (h.1.symm.trans h') (kva_ne_zero (hl f List.mem_cons_self))
    | cons g l' =>
      obtain rfl := kva_inj (hl f List.mem_cons_self) (hl' g List.mem_cons_self) (h.1.symm.trans h'.1)
      rw [ih h.2 h'.2 (fun x hx => hl x (List.mem_cons_of_mem _ hx)) fun x hx => hl' x
        (List.mem_cons_of_mem _ hx)]

lemma FreeList.unique {m : Mem} {l l' : List ℕ} (h : FreeList m l) (h' : FreeList m l') : l = l' :=
  h.linked.unique h'.linked h.lt h'.lt

def pde (mem : ℕ → Page) (pd i : ℕ) : UInt32 := (mem pd).word i

def table (mem : ℕ → Page) (pd i : ℕ) : Option ℕ :=
  if Present (pde mem pd i) then some (pframe (pde mem pd i)) else none

def entry (mem : ℕ → Page) (pd n : ℕ) : UInt32 :=
    ((table mem pd (n / 1024)).map fun g => (mem g).word (n % 1024)).getD 0

section

variable {mem mem' : ℕ → Page} {pd i n : ℕ}

lemma table_congr (h : pde mem' pd i = pde mem pd i) : table mem' pd i = table mem pd i := by
  rw [table, table, h]

lemma entry_of_none (h : table mem pd (n / 1024) = none) : entry mem pd n = 0 := by
  rw [entry, h]
  rfl

lemma entry_of_some {g : ℕ} (h : table mem pd (n / 1024) = some g) :
    entry mem pd n = (mem g).word (n % 1024) := by
  rw [entry, h]
  rfl

lemma entry_congr (ht : table mem' pd (n / 1024) = table mem pd (n / 1024))
    (hm : ∀ g, table mem pd (n / 1024) = some g → mem' g = mem g) : entry mem' pd n = entry mem pd n := by
  cases h : table mem pd (n / 1024) with
  | none => rw [entry_of_none h, entry_of_none (ht.trans h)]
  | some g => rw [entry_of_some h, entry_of_some (ht.trans h), hm g h]

end

/-- What memory means. `tab` and `ent` are the page tables and the entries of the directories,
`page` the bytes of the other pages that are in use. -/
structure View where
  own : ℕ → Owner
  free : List ℕ
  tab : ℕ → ℕ → Option ℕ
  ent : ℕ → ℕ → UInt32
  page : ℕ → Page
  calls : ℕ
  deny : ℕ → Bool
  trace : List Access

structure Rep (ld : Kernel) (m : Mem) (A : View) : Prop where
  linked : Linked m.mem m.freelist A.free
  nodup : A.free.Nodup
  mem_free : ∀ f, f ∈ A.free ↔ A.own f = .free
  range : ∀ f, A.own f ≠ .none → ld.lo ≤ f ∧ f < NFRAMES
  tab : ∀ q, A.own q = .dir → ∀ i < 1024, A.tab q i = table m.mem q i
  ent : ∀ q, A.own q = .dir → ∀ n < 2 ^ 20, A.ent q n = entry m.mem q n
  own_tab : ∀ q, A.own q = .dir → ∀ i < 1024, ∀ g, A.tab q i = some g → A.own g = .table q i
  page : ∀ f, (A.own f).data = true → A.page f = m.mem f
  calls : A.calls = m.calls
  deny : A.deny = m.deny
  trace : A.trace = m.trace

namespace View

@[simps -fullyApplied] def called (A : View) : View := { A with calls := A.calls + 1 }

@[simps -fullyApplied] def log (A : View) (x : Access) : View := { A with trace := x :: A.trace }

@[simps -fullyApplied]
def take (A : View) (f : ℕ) (p : Page) : View :=
  { A with
    own := assign A.own f .lost
    free := A.free.tail
    page := assign A.page f p
    calls := A.calls + 1 }

@[simps -fullyApplied] def give (A : View) (f : ℕ) : View :=
    { A with own := assign A.own f .free, free := f :: A.free }

@[simps -fullyApplied] def write (A : View) (f : ℕ) (p : Page) : View :=
    { A with page := assign A.page f p }

@[simps -fullyApplied] def label (A : View) (f : ℕ) (o : Owner) : View :=
    { A with own := assign A.own f o }

@[simps -fullyApplied] def mkdir (A : View) (f : ℕ) : View :=
  { A with
    own := assign A.own f .dir
    tab := assign A.tab f fun _ => none
    ent := assign A.ent f fun _ => 0 }

@[simps -fullyApplied] def mktab (A : View) (pd i f : ℕ) : View :=
  { A with
    own := assign A.own f (.table pd i)
    tab := assign A.tab pd (assign (A.tab pd) i (some f)) }

@[simps -fullyApplied] def set (A : View) (pd n : ℕ) (w : UInt32) : View :=
    { A with ent := assign A.ent pd (assign (A.ent pd) n w) }

end View

open View

namespace Rep

variable {ld : Kernel} {m m' : Mem} {A : View} {pd q i n : ℕ} {w : UInt32} {o : Owner} {p : Page}

lemma ne_of_data {g : ℕ} (hf : (A.own f).data = true) (hg : (A.own g).data = false) : g ≠ f := by
  rintro rfl
  rw [hf] at hg
  cases hg

lemma own_of_data {own : ℕ → Owner} {g : ℕ} (hown : own = assign A.own f o) (hf : (A.own f).data = true)
    (hg : (A.own g).data = false) : own g = A.own g := by
  rw [hown, assign_of_ne (ne_of_data hf hg)]

lemma data_of_own {own : ℕ → Owner} {g : ℕ} (hown : own = assign A.own f o) (ho : o.data = false)
    (hg : (own g).data = true) : g ≠ f ∧ (A.own g).data = true := by
  have hgf : g ≠ f := by
    rintro rfl
    rw [hown, assign_self, ho] at hg
    cases hg
  rw [hown, assign_of_ne hgf] at hg
  exact ⟨hgf, hg⟩

section

variable (h : Rep ld m A)
include h

lemma lt (hf : A.own f ≠ .none) : f < NFRAMES := (h.range f hf).2

lemma lt_of_eq (hf : A.own f = o) (ho : o ≠ .none) : f < NFRAMES := h.lt (hf ▸ ho)

lemma dir_lt (hd : A.own pd = .dir) : pd < NFRAMES := h.lt_of_eq hd (by simp)

lemma freeList : FreeList m A.free := ⟨h.linked, fun f hf => h.lt_of_eq ((h.mem_free f).mp hf) (by simp)⟩

lemma ent_of_none (hd : A.own pd = .dir) (hn : n < 2 ^ 20) (ht : A.tab pd (n / 1024) = none) :
    A.ent pd n = 0 := by
  rw [h.ent pd hd n hn]
  exact entry_of_none (by rw [← h.tab pd hd _ (by omega), ht])

lemma dir_congr {own : ℕ → Owner} (m' : Mem) (hd : A.own q = .dir)
    (hown : ∀ g i, A.own g = .table q i → own g = A.own g)
    (hq : m'.mem q = m.mem q) (ht : ∀ g i, A.own g = .table q i → m'.mem g = m.mem g) :
    (∀ i < 1024, A.tab q i = table m'.mem q i) ∧ (∀ n < 2 ^ 20, A.ent q n = entry m'.mem q n) ∧
      ∀ i < 1024, ∀ g, A.tab q i = some g → own g = .table q i := by
  have htab : ∀ i, table m'.mem q i = table m.mem q i := fun i => table_congr (by rw [pde, pde, hq])
  refine ⟨fun i hi => ?_, fun n hn => ?_, fun i hi g hg => ?_⟩
  · rw [htab, h.tab q hd i hi]
  · rw [h.ent q hd n hn]
    refine (entry_congr (htab _) fun g hg => ?_).symm
    exact ht g _ (h.own_tab q hd (n / 1024) (by omega) g (by rw [h.tab q hd _ (by omega), hg]))
  · have hgt := h.own_tab q hd i hi g hg
    rw [hown g i hgt, hgt]

lemma congr {B : View} (hmem : m'.mem = m.mem) (hfl : m'.freelist = m.freelist)
    (hB : B = { A with calls := m'.calls, deny := m'.deny, trace := m'.trace }) : Rep ld m' B := by
  subst hB
  exact ⟨by rw [hmem, hfl]; exact h.linked, h.nodup, h.mem_free, h.range, by rw [hmem]; exact h.tab,
    by rw [hmem]; exact h.ent, h.own_tab, by rw [hmem]; exact h.page, rfl, rfl, rfl⟩

lemma update {B : View} (hfl : m'.freelist = m.freelist) (hfree : B.free = A.free)
    (hmem : ∀ g, A.own g = .free → m'.mem g = m.mem g) (hown : ∀ g, B.own g = .free ↔ A.own g = .free)
    (hrange : ∀ g, B.own g ≠ .none → ld.lo ≤ g ∧ g < NFRAMES)
    (hdir : ∀ q, B.own q = .dir → (∀ i < 1024, B.tab q i = table m'.mem q i) ∧
      (∀ n < 2 ^ 20, B.ent q n = entry m'.mem q n) ∧ ∀ i < 1024, ∀ g, B.tab q i = some g →
      B.own g = .table q i)
    (hpage : ∀ g, (B.own g).data = true → B.page g = m'.mem g)
    (hrest : B.calls = m'.calls ∧ B.deny = m'.deny ∧ B.trace = m'.trace) : Rep ld m' B := by
  refine ⟨?_, ?_, fun g => ?_, hrange, fun q hq => (hdir q hq).1, fun q hq => (hdir q hq).2.1,
    fun q hq => (hdir q hq).2.2, hpage, hrest.1, hrest.2.1, hrest.2.2⟩
  · rw [hfl, hfree]
    exact h.linked.congr fun g hg => hmem g ((h.mem_free g).mp hg)
  · rw [hfree]
    exact h.nodup
  · rw [hfree, h.mem_free, hown]

lemma relabel {B : View} (hf : (A.own f).data = true) (hf' : A.own f ≠ .none)
    (hown : B.own = assign A.own f o)
    (ho : o ≠ .free) (hfl : m'.freelist = m.freelist) (hfree : B.free = A.free)
    (hmem : ∀ g, A.own g = .free → m'.mem g = m.mem g)
    (hdir : ∀ q, B.own q = .dir → (∀ i < 1024, B.tab q i = table m'.mem q i) ∧
      (∀ n < 2 ^ 20, B.ent q n = entry m'.mem q n) ∧ ∀ i < 1024, ∀ g, B.tab q i = some g →
      B.own g = .table q i)
    (hpage : ∀ g, (B.own g).data = true → B.page g = m'.mem g)
    (hrest : B.calls = m'.calls ∧ B.deny = m'.deny ∧ B.trace = m'.trace) : Rep ld m' B := by
  refine h.update hfl hfree hmem (fun g => ?_) (fun g hg => h.range g ?_) hdir hpage hrest
  · rw [hown]
    exact ⟨fun hg => (of_assign_eq hg ho).2, fun hg => (own_of_data rfl hf (by rw [hg]; rfl)).trans hg⟩
  · rw [hown, assign_apply] at hg
    split_ifs at hg with hgf
    · rwa [hgf]
    · exact hg

lemma rest_eq (hrest : m'.freelist = m.freelist ∧ m'.calls = m.calls ∧ m'.deny = m.deny ∧
    m'.trace = m.trace) : A.calls = m'.calls ∧ A.deny = m'.deny ∧ A.trace = m'.trace :=
  ⟨h.calls.trans hrest.2.1.symm, h.deny.trans hrest.2.2.1.symm, h.trace.trans hrest.2.2.2.symm⟩

lemma write (hf : (A.own f).data = true) (hm : m'.mem = assign m.mem f p)
    (hrest : m'.freelist = m.freelist ∧ m'.calls = m.calls ∧ m'.deny = m.deny ∧ m'.trace = m.trace) :
    Rep ld m' (A.write f p) := by
  have hother : ∀ g, (A.own g).data = false → m'.mem g = m.mem g := fun g hg => by
    rw [hm, assign_of_ne (ne_of_data hf hg)]
  refine h.update hrest.1 rfl (fun g hg => hother g (by rw [hg]; rfl)) (fun g => Iff.rfl) h.range
    (fun q hq => ?_) (fun g hg => ?_) (h.rest_eq hrest)
  · exact h.dir_congr m' hq (fun _ _ _ => rfl) (hother q (by rw [show A.own q = .dir from hq]; rfl))
      (fun g i hg => hother g (by rw [hg]; rfl))
  · show assign A.page f p g = m'.mem g
    rw [hm]
    unfold assign
    split_ifs
    · rfl
    · exact h.page g hg

lemma label (hf : (A.own f).data = true) (hf' : A.own f ≠ .none) (ho : o.data = true) :
    Rep ld m (A.label f o) := by
  refine h.relabel hf hf' rfl (by rintro rfl; cases ho) rfl rfl (fun _ _ => rfl) (fun q hq => ?_)
    (fun g hg => h.page g ?_) (h.rest_eq ⟨rfl, rfl, rfl, rfl⟩)
  · have hq' : A.own q = .dir := (of_assign_eq hq (by rintro rfl; cases ho)).2
    exact h.dir_congr m hq' (fun g i hg => own_of_data rfl hf (by rw [hg]; rfl)) rfl (fun _ _ _ => rfl)
  · rw [label_own, assign_apply] at hg
    split_ifs at hg with hgf
    · rwa [hgf]
    · exact hg

lemma take (hne : m.freelist ≠ 0) : ∃ f l, A.free = f :: l ∧ m.freelist = kva f ∧
    Rep ld { m with calls := m.calls + 1, freelist := m.word m.freelist 0 } (A.take f (m.mem f)) := by
  have hl := h.linked
  cases hfree : A.free with
  | nil =>
    rw [hfree] at hl
    exact absurd hl hne
  | cons f l =>
    rw [hfree] at hl
    have hnd := h.nodup
    rw [hfree, List.nodup_cons] at hnd
    have hf : A.own f = .free := (h.mem_free f).mp (by rw [hfree]; exact List.mem_cons_self)
    have hlt := h.lt_of_eq hf (by simp)
    have hkeep : ∀ g, A.own g ≠ .free → (A.take f (m.mem f)).own g = A.own g := fun g hg => by
      rw [take_own, assign_of_ne]
      rintro rfl
      exact hg hf
    have hdir : ∀ q, (A.take f (m.mem f)).own q = .dir → _ := fun q hq =>
      h.dir_congr m (of_assign_eq hq (by simp)).2 (fun g i hg => hkeep g (by simp [hg])) rfl
        (fun _ _ _ => rfl)
    refine ⟨f, l, rfl, hl.1, ?_, ?_, fun g => ?_, fun g hg => h.range g ?_, fun q hq => (hdir q hq).1,
      fun q hq => (hdir q hq).2.1, fun q hq => (hdir q hq).2.2, fun g hg => ?_, ?_, h.deny, h.trace⟩
    · rw [take_free, hfree, Mem.word, Mem.page, hl.1, frame_kva hlt]
      exact hl.2
    · rw [take_free, hfree]
      exact hnd.2
    · rw [take_free, hfree, List.tail_cons, take_own, assign_apply]
      split_ifs with hgf
      · exact iff_of_false (hgf ▸ hnd.1) (by simp)
      · rw [← h.mem_free, hfree, List.mem_cons]
        exact ⟨.inr, fun hg => hg.resolve_left hgf⟩
    · rw [take_own, assign_apply] at hg
      split_ifs at hg with hgf
      · rw [hgf, hf]
        simp
      · exact hg
    · rw [take_own, assign_apply] at hg
      rw [take_page, assign_apply]
      split_ifs at hg ⊢ with hgf
      · rw [hgf]
      · exact h.page g hg
    · rw [take_calls, h.calls]

end

lemma push_mem (hf : f < NFRAMES) :
    (m.push (kva f)).mem = assign m.mem f ((Page.fill 1).setWord 0 m.freelist) := by
  simp [Mem.push, Mem.setWord, Mem.setPage, Mem.page, frame_kva hf]

lemma give (h : Rep ld m A) (hf : (A.own f).data = true) (hlo : ld.lo ≤ f) (hlt : f < NFRAMES) :
    Rep ld (m.push (kva f)) (A.give f) := by
  have hmem := push_mem (m := m) hlt
  have hother : ∀ g, (A.own g).data = false → (m.push (kva f)).mem g = m.mem g ∧
    (A.give f).own g = A.own g := by
    intro g hg
    rw [hmem, assign_of_ne (ne_of_data hf hg)]
    exact ⟨rfl, own_of_data rfl hf hg⟩
  have hfl : f ∉ A.free := fun hm => by
    rw [(h.mem_free f).mp hm] at hf
    cases hf
  have hdir : ∀ q, (A.give f).own q = .dir → _ := fun q hq =>
    have hq' := (of_assign_eq hq (by simp)).2
    h.dir_congr (m.push (kva f)) hq' (fun g i hg => (hother g (by rw [hg]; rfl)).2)
      (hother q (by rw [hq']; rfl)).1 (fun g i hg => (hother g (by rw [hg]; rfl)).1)
  refine ⟨⟨rfl, ?_⟩, List.nodup_cons.mpr ⟨hfl, h.nodup⟩, fun g => ?_, fun g hg => ?_,
    fun q hq => (hdir q hq).1,
    fun q hq => (hdir q hq).2.1, fun q hq => (hdir q hq).2.2, fun g hg => ?_, h.calls, h.deny, h.trace⟩
  · rw [hmem, assign_self, Page.word_setWord_self, ← hmem]
    exact h.linked.congr fun g hg => (hother g (by rw [(h.mem_free g).mp hg]; rfl)).1
  · rw [give_free, List.mem_cons, give_own, assign_apply]
    split_ifs with hgf
    · exact iff_of_true (.inl hgf) rfl
    · rw [← h.mem_free]
      exact ⟨fun hg => hg.resolve_left hgf, .inr⟩
  · by_cases hgf : g = f
    · exact hgf ▸ ⟨hlo, hlt⟩
    · rw [give_own, assign_of_ne hgf] at hg
      exact h.range g hg
  · obtain ⟨hgf, hg⟩ := data_of_own rfl rfl hg
    rw [hmem, assign_of_ne hgf]
    exact h.page g hg

lemma mkdir (h : Rep ld m A) (hf : (A.own f).data = true) (hf' : A.own f ≠ .none)
    (hz : A.page f = Page.fill 0) : Rep ld m (A.mkdir f) := by
  have hnone : ∀ i, table m.mem f i = none := fun i => by
    rw [table, if_neg]
    rw [pde, ← h.page f hf, hz, Page.word_fill_zero]
    exact not_present_zero
  refine h.relabel hf hf' rfl (by simp) rfl rfl (fun _ _ => rfl) (fun q hq => ?_)
    (fun g hg => h.page g (data_of_own rfl rfl hg).2) (h.rest_eq ⟨rfl, rfl, rfl, rfl⟩)
  by_cases hqf : q = f
  · subst hqf
    rw [mkdir_tab, mkdir_ent, assign_self, assign_self]
    exact ⟨fun i _ => (hnone i).symm, fun n _ => (entry_of_none (hnone _)).symm,
      fun i _ g hg => by cases hg⟩
  · rw [mkdir_own, assign_of_ne hqf] at hq
    rw [mkdir_tab, mkdir_ent, assign_of_ne hqf, assign_of_ne hqf]
    exact h.dir_congr m hq (fun g i hg => own_of_data rfl hf (by rw [hg]; rfl)) rfl (fun _ _ _ => rfl)

lemma mktab (h : Rep ld m A) (hpd : A.own pd = .dir) (hf : (A.own f).data = true) (hf' : A.own f ≠ .none)
    (hz : A.page f = Page.fill 0) (habs : A.tab pd i = none) (hw : pframe w = f) (hwp : Present w)
    (hm : m'.mem = assign m.mem pd ((m.mem pd).setWord i w))
    (hrest : m'.freelist = m.freelist ∧ m'.calls = m.calls ∧ m'.deny = m.deny ∧ m'.trace = m.trace) :
    Rep ld m' (A.mktab pd i f) := by
  have hfpd : pd ≠ f := ne_of_data hf (by rw [hpd]; rfl)
  have hmem : ∀ g, g ≠ pd → m'.mem g = m.mem g := fun g hg => by rw [hm, assign_of_ne hg]
  have hself : table m'.mem pd i = some f := by
    rw [table, pde, hm, assign_self, Page.word_setWord_self, if_pos hwp, hw]
  have hother : ∀ j, j ≠ i → table m'.mem pd j = table m.mem pd j := fun j hj =>
    table_congr (by rw [pde, pde, hm, assign_self, Page.word_setWord_of_ne _ _ hj])
  refine h.relabel hf hf' rfl (by simp) hrest.1 rfl (fun g hg => hmem g ?_) (fun q hq => ?_)
    (fun g hg => ?_) (h.rest_eq hrest)
  · rintro rfl
    rw [hpd] at hg
    cases hg
  · obtain ⟨hqf, hq'⟩ := of_assign_eq hq (by simp)
    by_cases hqp : q = pd
    · subst hqp
      rw [mktab_tab, mktab_ent, assign_self]
      refine ⟨fun j hj => ?_, fun n hn => ?_, fun j hj g hg => ?_⟩
      · rw [assign_apply]
        split_ifs with hji
        · rw [hji, hself]
        · rw [hother j hji, h.tab q hq' j hj]
      · by_cases hni : n / 1024 = i
        · rw [h.ent_of_none hq' hn (by rw [hni, habs]), entry_of_some (g := f) (by rw [hni, hself]),
            hmem f hfpd.symm, ← h.page f hf, hz, Page.word_fill_zero]
        · rw [h.ent q hq' n hn]
          refine (entry_congr (hother _ hni) fun g hg => hmem g ?_).symm
          have hgt := h.own_tab q hq' (n / 1024) (by omega) g (by rw [h.tab q hq' _ (by omega), hg])
          rintro rfl
          rw [hq'] at hgt
          cases hgt
      · rw [assign_apply] at hg
        split_ifs at hg with hji
        · cases hg
          rw [mktab_own, assign_self, hji]
        · have hgt := h.own_tab q hq' j hj g hg
          exact (own_of_data rfl hf (by rw [hgt]; rfl)).trans hgt
    · rw [mktab_tab, mktab_ent, assign_of_ne hqp]
      refine h.dir_congr m' hq' (fun g j hg => own_of_data rfl hf (by rw [hg]; rfl)) (hmem q hqp)
        fun g j hg => hmem g ?_
      rintro rfl
      rw [hpd] at hg
      cases hg
  · replace hg := (data_of_own rfl rfl hg).2
    rw [hmem g]
    · exact h.page g hg
    · rintro rfl
      rw [hpd] at hg
      cases hg

lemma set {g : ℕ} (h : Rep ld m A) (hpd : A.own pd = .dir) (hn : n < 2 ^ 20)
    (hg : A.tab pd (n / 1024) = some g)
    (hm : m'.mem = assign m.mem g ((m.mem g).setWord (n % 1024) w))
    (hrest : m'.freelist = m.freelist ∧ m'.calls = m.calls ∧ m'.deny = m.deny ∧ m'.trace = m.trace) :
    Rep ld m' (A.set pd n w) := by
  have hgt := h.own_tab pd hpd (n / 1024) (by omega) g hg
  have hmem : ∀ f, A.own f ≠ .table pd (n / 1024) → m'.mem f = m.mem f := fun f hf => by
    rw [hm, assign_of_ne]
    rintro rfl
    exact hf hgt
  refine h.update hrest.1 rfl (fun f hf => hmem f (by simp [hf])) (fun _ => Iff.rfl) h.range
    (fun q hq => ?_) (fun f hf => ?_) (h.rest_eq hrest)
  · have hq' : A.own q = .dir := hq
    by_cases hqp : q = pd
    · subst hqp
      have htab : ∀ i, table m'.mem q i = table m.mem q i := fun i =>
        table_congr (by rw [pde, pde, hmem q (by simp [hq'])])
      have hgt' : table m'.mem q (n / 1024) = some g := by rw [htab, ← h.tab q hq' _ (by omega), hg]
      refine ⟨fun i hi => by rw [htab]; exact h.tab q hq' i hi, fun k hk => ?_,
        fun i hi f hf => h.own_tab q hq' i hi f hf⟩
      rw [set_ent, assign_self, assign_apply]
      split_ifs with hkn
      · rw [hkn, entry_of_some hgt', hm, assign_self, Page.word_setWord_self]
      · rw [h.ent q hq' k hk]
        by_cases hdiv : k / 1024 = n / 1024
        · rw [entry_of_some (g := g) (by rw [hdiv, ← htab, hgt']), entry_of_some (g := g)
            (by rw [hdiv, hgt']), hm, assign_self, Page.word_setWord_of_ne _ _ (by omega)]
        · refine (entry_congr (htab _) fun f hf => hmem f ?_).symm
          have hft := h.own_tab q hq' (k / 1024) (by omega) f (by rw [h.tab q hq' _ (by omega), hf])
          rw [hft]
          simp [hdiv]
    · rw [set_ent, assign_of_ne hqp]
      exact h.dir_congr m' hq' (fun _ _ _ => rfl) (hmem q (by simp [hq'])) fun f i hf => hmem f
        (by simp [hf, hqp])
  · rw [hmem f]
    · exact h.page f hf
    · intro hft
      rw [set_own, hft] at hf
      cases hf

end Rep

def Kernel.small : Kernel where
  data := 0x80108000
  kend := 0x80116000
  data_aligned := by decide
  link_lt_data := by decide
  data_le_end := by decide
  end_le := by decide

def Mem.blank : Mem := ⟨fun _ => Page.fill 0, 0, 0, fun _ => false, []⟩

def View.blank : View where
  own f := if 1024 ≤ f ∧ f < NFRAMES then .lost else .none
  free := []
  tab _ _ := none
  ent _ _ := 0
  page _ := Page.fill 0
  calls := 0
  deny _ := false
  trace := []

lemma View.blank_own (hf : 1024 ≤ f ∧ f < NFRAMES) : View.blank.own f = .lost := if_pos hf

lemma View.blank_data (f : ℕ) : (View.blank.own f).data = true := by
  rw [View.blank]
  dsimp only
  split_ifs <;> rfl

lemma Rep.blank (ld : Kernel) : Rep ld Mem.blank View.blank := by
  have hd : ∀ f o, View.blank.own f = o → o.data = false → False := by
    rintro f o rfl ho
    rw [blank_data] at ho
    cases ho
  refine ⟨rfl, List.nodup_nil, fun f => ⟨fun hf => (List.not_mem_nil hf).elim,
    fun hf => (hd f _ hf rfl).elim⟩,
    fun f hf => ?_, fun q hq => (hd q _ hq rfl).elim, fun q hq => (hd q _ hq rfl).elim,
    fun q hq => (hd q _ hq rfl).elim, fun f _ => rfl, rfl, rfl, rfl⟩
  have hlo := ld.lo_le
  by_cases hr : 1024 ≤ f ∧ f < NFRAMES
  · exact ⟨hlo.trans hr.1, hr.2⟩
  · exact absurd (if_neg hr) hf

def Mem.pushed (m : Mem) (l : List ℕ) : Mem := l.foldr (fun f m => m.push (kva f)) m

def View.given (A : View) (l : List ℕ) : View := l.foldr (fun f A => A.give f) A

section

variable {l : List ℕ}

lemma View.given_own (A : View) (hf : f ∉ l) : (A.given l).own f = A.own f := by
  induction l with
  | nil => rfl
  | cons g l ih =>
    rw [List.mem_cons, not_or] at hf
    exact (assign_of_ne hf.1 ..).trans (ih hf.2)

lemma View.given_rest (A : View) (l : List ℕ) : (A.given l).free = l ++ A.free ∧ (A.given l).tab = A.tab ∧
    (A.given l).ent = A.ent ∧ (A.given l).calls = A.calls ∧ (A.given l).deny = A.deny := by
  induction l with
  | nil => exact ⟨rfl, rfl, rfl, rfl, rfl⟩
  | cons g l ih => exact ⟨congrArg (g :: ·) ih.1, ih.2⟩

lemma Rep.pushed (h : Rep ld m A) (hl : l.Nodup) (hr : ∀ f ∈ l, (A.own f).data = true ∧ ld.lo ≤ f ∧
    f < NFRAMES) : Rep ld (m.pushed l) (A.given l) := by
  induction l with
  | nil => exact h
  | cons f l ih =>
    obtain ⟨hf, hl⟩ := List.nodup_cons.mp hl
    obtain ⟨hd, hlo, hlt⟩ := hr f List.mem_cons_self
    refine (ih hl fun g hg => hr g (List.mem_cons_of_mem f hg)).give ?_ hlo hlt
    rw [A.given_own hf, hd]

end

end Xv6.Vm
