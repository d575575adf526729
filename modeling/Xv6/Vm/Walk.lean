import Xv6.Vm.View

namespace Xv6.Vm

open Lib View

variable {ld : Kernel} {m m' : Mem} {A B C : View} {pd f g n : ℕ} {va w pa perm : UInt32}

namespace View

structure Sound (A : View) : Prop where
  nodup : A.free.Nodup
  mem_free : ∀ f, f ∈ A.free ↔ A.own f = .free

lemma Sound.head {l : List ℕ} (h : A.Sound) (hf : A.free = f :: l) : A.own f = .free :=
  (h.mem_free f).mp (by rw [hf]; exact List.mem_cons_self)

lemma Sound.ne_head {g : ℕ} {l : List ℕ} (h : A.Sound) (hf : A.free = f :: l)
    (hg : A.own g ≠ .free) : g ≠ f := by
  rintro rfl
  exact hg (h.head hf)

lemma Sound.take {l : List ℕ} (h : A.Sound) (hf : A.free = f :: l) (p : Page) : (A.take f p).Sound := by
  have hnd := h.nodup
  rw [hf, List.nodup_cons] at hnd
  refine ⟨by rw [take_free, hf]; exact hnd.2, fun g => ?_⟩
  rw [take_free, hf, List.tail_cons, take_own, assign_apply]
  split_ifs with hgf
  · exact iff_of_false (hgf ▸ hnd.1) (by simp)
  · rw [← h.mem_free, hf, List.mem_cons]
    exact ⟨.inr, fun hg => hg.resolve_left hgf⟩

lemma Sound.label {o : Owner} (h : A.Sound) (hf : A.own f ≠ .free) (ho : o ≠ .free) :
    (A.label f o).Sound := by
  refine ⟨h.nodup, fun g => ?_⟩
  rw [label_free, h.mem_free, label_own, assign_apply]
  split_ifs with hgf
  · exact iff_of_false (hgf ▸ hf) ho
  · exact Iff.rfl

lemma Sound.mktab {i : ℕ} (h : A.Sound) (hf : A.own f ≠ .free) : (A.mktab pd i f).Sound :=
  ⟨h.nodup, (h.label hf (o := .table pd i) (by simp)).mem_free⟩

def Starved (A : View) : Prop := A.deny A.calls = true ∨ A.free = []

instance (A : View) : Decidable A.Starved := inferInstanceAs (Decidable (_ ∨ _))

end View

lemma Rep.sound (h : Rep ld m A) : A.Sound := ⟨h.nodup, h.mem_free⟩

lemma kalloc_wp (h : Rep ld m A) : kalloc.Wp m (fun r m' => (r = 0 ∧ A.Starved ∧ Rep ld m' A.called) ∨
    ∃ f l, ¬ A.Starved ∧ A.free = f :: l ∧ r = kva f ∧ f < NFRAMES ∧ Rep ld m' (A.take f (m.mem f)))
    (fun _ _ => False) := by
  refine .bind (.get ?_)
  split_ifs with hc
  · refine .bind (Act.Wp.set (.pure (.inl ⟨rfl, ?_, ?_⟩)))
    · refine hc.imp (fun hd => by rw [h.deny, h.calls]; exact hd) fun hz => ?_
      have hl := h.linked
      cases hfree : A.free with
      | nil => rfl
      | cons f l =>
        rw [hfree, hz] at hl
        exact absurd hl.1.symm (kva_ne_zero
          (h.lt_of_eq ((h.mem_free f).mp (by rw [hfree]; exact List.mem_cons_self)) (by simp)))
    · refine h.congr rfl rfl ?_
      rw [called, h.calls, ← h.deny, ← h.trace]
  · rw [not_or] at hc
    obtain ⟨f, l, hfree, hfl, htake⟩ := h.take hc.2
    have hf := h.lt_of_eq ((h.mem_free f).mp (by rw [hfree]; exact List.mem_cons_self)) (by simp)
    refine .bind (Act.Wp.set (.pure (.inr ⟨f, l, ?_, hfree, hfl, hf, htake⟩)))
    rintro (hd | hn)
    · exact hc.1 (by rw [← h.deny, ← h.calls]; exact hd)
    · rw [hfree] at hn
      cases hn

lemma Kernel.le_kva_iff (hf : f < NFRAMES) : ld.kend ≤ kva f ↔ ld.lo ≤ f := by
  obtain ⟨h1, -, hv⟩ := ld.kend_bounds
  rw [UInt32.le_iff_toNat_le, toNat_kva hf, Kernel.lo, hv]
  omega

lemma kfree_on (hlo : ld.lo ≤ f) (hf : f < NFRAMES) :
    (kfree ld (kva f)).on m = (.ok (), m.push (kva f)) := by
  have h1 : kva f % PGSIZE = 0 := by
    rw [← UInt32.toNat_inj, UInt32.toNat_mod, toNat_kva hf]
    simp only [show (PGSIZE).toNat = 4096 from rfl, UInt32.toNat_zero]
    omega
  have h2 : ¬ kva f < ld.kend := UInt32.not_lt.mpr ((Kernel.le_kva_iff hf).mpr hlo)
  have h3 : ¬ v2p (kva f) ≥ PHYSTOP := by
    rw [ge_iff_le, UInt32.le_iff_toNat_le, toNat_v2p_kva hf, show (PHYSTOP).toNat = 57344 * 4096 from rfl]
    simp only [NFRAMES] at hf
    omega
  rw [kfree, if_neg (by simp [h1, h2, h3])]
  rfl

lemma kfree_panics (hf : f < 2 ^ 20) (h : ¬ (ld.lo ≤ f ∧ f < NFRAMES)) :
    (kfree ld (kva f)).on m = (.error (.panic .kfree), m) := by
  rw [kfree, if_pos]
  · rfl
  by_cases hlt : f < NFRAMES
  · exact .inr (.inl (UInt32.not_le.mp fun hle => h ⟨(Kernel.le_kva_iff hlt).mp hle, hlt⟩))
  · refine .inr (.inr ?_)
    rw [ge_iff_le, UInt32.le_iff_toNat_le, kva, v2p_p2v, UInt32.toNat_ofNat_of_lt'
      (by simp only [UInt32.size]; omega), show (PHYSTOP).toNat = 57344 * 4096 from rfl]
    simp only [NFRAMES] at hlt
    omega

lemma kfree_wp {Q : Unit → Mem → Prop} {B : Halt → Mem → Prop} (h : Rep ld m A)
    (hd : (A.own f).data = true)
    (hlo : ld.lo ≤ f) (hf : f < NFRAMES) (hq : ∀ m', Rep ld m' (A.give f) → Q () m') :
    (kfree ld (kva f)).Wp m Q B := by
  refine .of_ok (kfree_on hlo hf) ?_
  exact hq _ (h.give hd hlo hf)

def vpn (va : UInt32) : ℕ := va.toNat / 4096

lemma vpn_lt (va : UInt32) : vpn va < 2 ^ 20 := by
  have := va.toNat_lt
  unfold vpn
  omega

lemma pframe_lt (w : UInt32) : pframe w < 2 ^ 20 := by
  have := w.toNat_lt
  unfold pframe
  omega

lemma p2v_PTE_ADDR (w : UInt32) : p2v (PTE_ADDR w) = kva (pframe w) := by
  rw [kva, pframe, ← toNat_PTE_ADDR, UInt32.ofNat_toNat]

def ptr (g n : ℕ) : PtePtr := ⟨kva g, n % 1024⟩

namespace Rep

section

variable (h : Rep ld m A) (hd : A.own pd = .dir)
include h hd

lemma word_dir (i : ℕ) : m.word (kva pd) i = pde m.mem pd i := by
  rw [Mem.word, Mem.page, frame_kva (h.dir_lt hd), pde]

lemma table_lt (hn : n < 2 ^ 20) (hg : A.tab pd (n / 1024) = some g) : g < NFRAMES :=
  h.lt_of_eq (h.own_tab pd hd (n / 1024) (by omega) g hg) (by simp)

lemma pte_ptr (hn : n < 2 ^ 20) (hg : A.tab pd (n / 1024) = some g) : m.pte (ptr g n) = A.ent pd n := by
  rw [h.ent pd hd n hn, entry_of_some (by rw [← h.tab pd hd _ (by omega), hg]), Mem.pte, ptr,
    Mem.word, Mem.page, frame_kva (h.table_lt hd hn hg)]

lemma setPte (hn : n < 2 ^ 20) (hg : A.tab pd (n / 1024) = some g)
    (w : UInt32) : Rep ld (m.setPte (ptr g n) w) (A.set pd n w) := by
  refine h.set hd hn hg ?_ ⟨rfl, rfl, rfl, rfl⟩
  simp [Mem.setPte, ptr, Mem.setWord, Mem.setPage, Mem.page, frame_kva (h.table_lt hd hn hg)]

end

lemma log (h : Rep ld m A) (x : Access) : Rep ld (m.log x) (A.log x) := by
  refine h.congr rfl rfl ?_
  rw [View.log, Mem.log, h.trace, ← h.calls, ← h.deny]

lemma setPage (h : Rep ld m A) (hf : f < NFRAMES) (hd : (A.own f).data = true) (p : Page) :
    Rep ld (m.setPage (kva f) p) (A.write f p) :=
  h.write hd (by simp [Mem.setPage, frame_kva hf]) ⟨rfl, rfl, rfl, rfl⟩

end Rep

lemma walkpgdir_false_on (h : Rep ld m A) (hd : A.own pd = .dir) (va : UInt32) :
    (walkpgdir (kva pd) va false).on m =
      (.ok ((A.tab pd (vpn va / 1024)).map fun g => ptr g (vpn va)), m) := by
  have hi : vpn va / 1024 < 1024 := by
    have := vpn_lt va
    omega
  rw [walkpgdir, Act.on_bind_ok (Act.on_get m), h.word_dir hd, PDX_eq_div, PTX_eq_mod,
    h.tab pd hd _ hi, table, ← vpn]
  by_cases hp : Present (pde m.mem pd (vpn va / 1024))
  · rw [if_pos hp, if_pos (show _ ≠ _ from hp), p2v_PTE_ADDR]
    rfl
  · rw [if_neg hp, if_neg (show ¬ (_ ≠ _) from hp)]
    rfl

lemma pframe_pde (hf : f < NFRAMES) : pframe (v2p (kva f) ||| PTE_P ||| PTE_W ||| PTE_U) = f ∧
    Present (v2p (kva f) ||| PTE_P ||| PTE_W ||| PTE_U) := by
  have hentry : v2p (kva f) ||| PTE_P ||| PTE_W ||| PTE_U = v2p (kva f) ||| 6 ||| PTE_P := by
    simp only [UInt32.or_assoc]
    rfl
  rw [hentry]
  exact ⟨pframe_kva hf (by decide), present_entry _ _⟩

lemma Rep.setPde {i : ℕ} (h : Rep ld m A) (hd : A.own pd = .dir) (hf : A.own f = .lost)
    (hz : A.page f = Page.fill 0) (habs : A.tab pd i = none) :
    Rep ld (m.setWord (kva pd) i (v2p (kva f) ||| PTE_P ||| PTE_W ||| PTE_U)) (A.mktab pd i f) := by
  obtain ⟨hw, hwp⟩ := pframe_pde (h.lt_of_eq hf (by simp))
  refine h.mktab hd (by rw [hf]; rfl) (by rw [hf]; simp) hz habs hw hwp ?_ ⟨rfl, rfl, rfl, rfl⟩
  simp [Mem.setWord, Mem.setPage, Mem.page, frame_kva (h.dir_lt hd)]

lemma take_write (A : View) (f : ℕ) (p q : Page) : (A.take f p).write f q = A.take f q := by
  simp [take, write]

namespace View

def install (A : View) (pd i : ℕ) : Option View :=
  match A.tab pd i with
  | some _ => some A
  | none =>
    if A.Starved then none
    else some ((A.take (A.free.headD 0) (Page.fill 0)).mktab pd i (A.free.headD 0))

lemma install_some (h : A.tab pd n = some g) : A.install pd n = some A := by
  rw [install, h]

lemma install_starved (h : A.tab pd n = none) (hs : A.Starved) : A.install pd n = none := by
  rw [install, h]
  exact if_pos hs

lemma install_fresh {l : List ℕ} (h : A.tab pd n = none) (hs : ¬ A.Starved) (hf : A.free = f :: l) :
    A.install pd n = some ((A.take f (Page.fill 0)).mktab pd n f) := by
  rw [install, h, hf]
  exact if_neg hs

lemma install_cases (h : A.install pd i = some B) : A.tab pd i ≠ none ∧ B = A ∨
    ∃ f l, A.tab pd i = none ∧ ¬ A.Starved ∧ A.free = f :: l ∧
    B = (A.take f (Page.fill 0)).mktab pd i f := by
  cases htab : A.tab pd i with
  | some g =>
    rw [install_some htab] at h
    exact .inl ⟨by simp, (Option.some.inj h).symm⟩
  | none =>
    by_cases hs : A.Starved
    · rw [install_starved htab hs] at h
      cases h
    cases hfree : A.free with
    | nil => exact absurd (.inr hfree) hs
    | cons f l =>
      rw [install_fresh htab hs hfree] at h
      exact .inr ⟨f, l, rfl, hs, rfl, (Option.some.inj h).symm⟩

lemma install_eq_none (h : A.install pd i = none) : A.tab pd i = none ∧ A.Starved := by
  cases htab : A.tab pd i with
  | some g =>
    rw [install_some htab] at h
    cases h
  | none =>
    refine ⟨rfl, ?_⟩
    by_contra hs
    cases hfree : A.free with
    | nil => exact hs (.inr hfree)
    | cons f l =>
      rw [install_fresh htab hs hfree] at h
      cases h

end View

lemma walkpgdir_true_wp (h : Rep ld m A) (hd : A.own pd = .dir) (va : UInt32) :
    (walkpgdir (kva pd) va true).Wp m (fun r m' =>
      (r = none ∧ A.install pd (vpn va / 1024) = none ∧ Rep ld m' A.called) ∨
      ∃ B g, A.install pd (vpn va / 1024) = some B ∧ B.tab pd (vpn va / 1024) = some g ∧
        r = some (ptr g (vpn va)) ∧ Rep ld m' B) (fun _ _ => False) := by
  have hi : vpn va / 1024 < 1024 := by
    have := vpn_lt va
    omega
  have htab := h.tab pd hd _ hi
  refine .bind (.get ?_)
  rw [h.word_dir hd, PDX_eq_div, PTX_eq_mod, ← vpn]
  rw [table] at htab
  by_cases hp : Present (pde m.mem pd (vpn va / 1024))
  · rw [if_pos hp] at htab
    rw [if_pos (show _ ≠ _ from hp), p2v_PTE_ADDR]
    exact .pure (.inr ⟨A, _, install_some htab, htab, rfl, h⟩)
  rw [if_neg hp] at htab
  rw [if_neg (show ¬ (_ ≠ _) from hp), if_neg (by decide)]
  refine (kalloc_wp h).seq fun r m1 hr => ?_
  rcases hr with ⟨rfl, hs, h1⟩ | ⟨f, l, hs, hfree, rfl, hf, h1⟩
  · rw [if_pos rfl]
    exact .pure (.inl ⟨rfl, install_starved htab hs, h1⟩)
  · rw [if_neg (kva_ne_zero hf)]
    refine .bind (.modify (.bind (.modify (.pure (.inr ?_)))))
    have hfpd : pd ≠ f := h.sound.ne_head hfree (by simp [hd])
    have hlost : (A.take f (Page.fill 0)).own f = .lost := assign_self ..
    have hd' : (A.take f (Page.fill 0)).own pd = .dir := (assign_of_ne hfpd ..).trans hd
    have h2 := h1.setPage hf
      (by rw [show (A.take f (m.mem f)).own f = .lost from assign_self ..]; rfl) (Page.fill 0)
    rw [take_write] at h2
    refine ⟨_, f, install_fresh htab hs hfree, ?_, rfl, ?_⟩
    · rw [mktab_tab, assign_self, assign_self]
    · exact h2.setPde hd' hlost (assign_self ..) htab

structure Takes (pd : ℕ) (A B : View) : Prop where
  own : ∀ g, A.own g ≠ .free → B.own g = A.own g
  page : ∀ g, A.own g ≠ .free → B.page g = A.page g
  other : ∀ q, q ≠ pd → B.ent q = A.ent q ∧ B.tab q = A.tab q
  deny : B.deny = A.deny

namespace Takes

lemma not_free (h : Takes pd A B) {g : ℕ} (hg : A.own g ≠ .free) : B.own g ≠ .free := by
  rwa [h.own g hg]

lemma free_of_free (h : Takes pd A B) {g : ℕ} (hg : B.own g = .free) : A.own g = .free := by
  by_contra hne
  exact h.not_free hne hg

lemma dir (h : Takes pd A B) {q : ℕ} (hq : A.own q = .dir) : B.own q = .dir :=
    (h.own q (by simp [hq])).trans hq

lemma trans (h : Takes pd A B) (h' : Takes pd B C) : Takes pd A C :=
  ⟨fun g hg => (h'.own g (h.not_free hg)).trans (h.own g hg),
    fun g hg => (h'.page g (h.not_free hg)).trans (h.page g hg),
    fun q hq => ⟨(h'.other q hq).1.trans (h.other q hq).1, (h'.other q hq).2.trans
    (h.other q hq).2⟩, h'.deny.trans h.deny⟩

end Takes

structure Adds (pd : ℕ) (A B : View) : Prop extends Takes pd A B where
  tab : ∀ i, A.tab pd i ≠ none → B.tab pd i = A.tab pd i
  newtab : ∀ j g, B.tab pd j = some g → A.tab pd j = some g ∨ A.own g = .free

lemma Adds.of_eq (hown : B.own = A.own) (hpage : B.page = A.page) (hent : ∀ q, q ≠ pd → B.ent q = A.ent q)
    (htab : B.tab = A.tab) (hdeny : B.deny = A.deny) : Adds pd A B :=
  ⟨⟨fun _ _ => by rw [hown], fun _ _ => by rw [hpage], fun q hq => ⟨hent q hq, by rw [htab]⟩,
    hdeny⟩, fun _ _ => by rw [htab], fun _ _ hg => .inl (htab ▸ hg)⟩

lemma Adds.refl (pd : ℕ) (A : View) : Adds pd A A := .of_eq rfl rfl (fun _ _ => rfl) rfl rfl

lemma Adds.trans (h : Adds pd A B) (h' : Adds pd B C) : Adds pd A C := by
  refine ⟨h.toTakes.trans h'.toTakes, fun i hi => ?_, fun j g hg => ?_⟩
  · have hB := h.tab i hi
    rw [h'.tab i (hB ▸ hi), hB]
  · rcases h'.newtab j g hg with hB | hB
    · exact h.newtab j g hB
    · exact .inr (h.free_of_free hB)

structure Installed (pd i : ℕ) (A B : View) : Prop extends Adds pd A B where
  sound : B.Sound
  took : ∀ g, A.own g = .free → B.own g = .free ∨ B.own g = .table pd i ∧ B.tab pd i = some g
  ent : B.ent = A.ent
  trace : B.trace = A.trace

lemma View.Sound.installed {i : ℕ} (h : A.Sound) (hi : A.install pd i = some B) : Installed pd i A B := by
  rcases install_cases hi with ⟨-, rfl⟩ | ⟨f, l, htab, -, hfree, rfl⟩
  · exact ⟨.refl pd B, h, fun _ hg => .inl hg, rfl, rfl⟩
  have hf : (A.take f (Page.fill 0)).own f = .lost := assign_self ..
  refine ⟨⟨⟨fun g hg => ?_, fun g hg => ?_, fun q hq => ⟨rfl, ?_⟩, rfl⟩, fun j hj => ?_,
    fun j g hg => ?_⟩, (h.take hfree _).mktab (by rw [hf]; simp), fun g hg => ?_, rfl, rfl⟩
  · have hgf := h.ne_head hfree hg
    rw [mktab_own, assign_of_ne hgf, take_own, assign_of_ne hgf]
  · rw [mktab_page, take_page, assign_of_ne (h.ne_head hfree hg)]
  · rw [mktab_tab, take_tab, assign_of_ne hq]
  · rw [mktab_tab, take_tab, assign_self, assign_of_ne]
    rintro rfl
    exact hj htab
  · rw [mktab_tab, take_tab, assign_self, assign_apply] at hg
    split_ifs at hg
    · cases hg
      exact .inr (h.head hfree)
    · exact .inl hg
  · rw [mktab_own, assign_apply]
    split_ifs with hgf
    · rw [mktab_tab, assign_self, assign_self, hgf]
      exact .inr ⟨rfl, rfl⟩
    · rw [take_own, assign_of_ne hgf]
      exact .inl hg

namespace View

def mapPage (A : View) (pd n : ℕ) (w : UInt32) : Bool × View :=
  match A.install pd (n / 1024) with
  | some B => (true, B.set pd n w)
  | none => (false, A.called)

def mapRange (pd : ℕ) (perm : UInt32) : ℕ → View → ℕ → UInt32 → Bool × View
  | 0, A, _, _ => (true, A)
  | k + 1, A, n, pa =>
    match A.mapPage pd n (pa ||| perm ||| PTE_P) with
    | (true, B) => mapRange pd perm k B (n + 1) (pa + PGSIZE)
    | (false, B) => (false, B)

end View

lemma vpn_eq {a : UInt32} (ha : a.toNat = n * 4096) : vpn a = n := by
  rw [vpn, ha]
  omega

lemma View.mapRange_succ (k : ℕ) (pa : UInt32) : A.mapRange pd perm (k + 1) n pa =
    match A.mapPage pd n (pa ||| perm ||| PTE_P) with
    | (true, B) => B.mapRange pd perm k (n + 1) (pa + PGSIZE)
    | (false, B) => (false, B) := rfl

section

variable (h : Rep ld m A) (hd : A.own pd = .dir)
include h hd

lemma mapEntry_wp {a : UInt32} {rest : M Bool} {Q : Bool → Mem → Prop} {B : Halt → Mem → Prop}
    (ha : vpn a = n) (hfresh : ¬ Present (A.ent pd n)) (w : UInt32)
    (hno : ∀ m', A.mapPage pd n w = (false, A.called) → Rep ld m' A.called → Q false m')
    (hyes : ∀ C m', A.mapPage pd n w = (true, C.set pd n w) → Installed pd (n / 1024) A C →
    Rep ld m' (C.set pd n w) → rest.Wp m' Q B) :
    ((walkpgdir (kva pd) a true) >>= fun x => match x with
      | none => pure false
      | some pte => do
        let m ← get
        if m.pte pte &&& PTE_P ≠ 0 then throw (.panic .remap)
        else
          modify (fun m => m.setPte pte w)
          rest).Wp m Q B := by
  refine ((walkpgdir_true_wp h hd a).mono ?_ (fun _ _ hf => hf.elim)).bind
  rintro r m1 (⟨rfl, hi, h1⟩ | ⟨C, g, hi, hg, rfl, h1⟩)
  · refine .pure (hno m1 ?_ h1)
    rw [mapPage, ← ha, hi]
  · have hc := h.sound.installed hi
    have hlt := vpn_lt a
    have hd1 := hc.dir hd
    refine .bind (.get ?_)
    have hnp : ¬ (m1.pte (ptr g (vpn a)) &&& PTE_P ≠ 0) := by
      rw [h1.pte_ptr hd1 hlt hg, hc.ent, ha]
      exact hfresh
    rw [if_neg hnp]
    refine .bind (.modify (hyes C _ ?_ (ha ▸ hc) ?_))
    · rw [mapPage, ← ha, hi]
    · rw [← ha]
      exact h1.setPte hd1 hlt hg w

lemma mappagesLoop_wp {last : UInt32} {k fuel : ℕ} {a : UInt32}
    (ha : a.toNat = n * 4096) (hlast : last.toNat = (n + k) * 4096) (hfuel : k < fuel)
    (hfresh : ∀ j, n ≤ j → j ≤ n + k → ¬ Present (A.ent pd j)) :
    (mappagesLoop (kva pd) last perm fuel a pa).Wp m
    (fun r m' => r = (A.mapRange pd perm (k + 1) n pa).1 ∧
      Rep ld m' (A.mapRange pd perm (k + 1) n pa).2) (fun _ _ => False) := by
  induction k generalizing m A a pa n fuel with
  | zero =>
    obtain ⟨fuel, rfl⟩ := Nat.exists_eq_add_one.mpr (Nat.zero_lt_of_lt hfuel)
    have hal : a = last := UInt32.toNat_inj.mp (by rw [ha, hlast, Nat.add_zero])
    refine mapEntry_wp h hd (vpn_eq ha) (hfresh n le_rfl le_rfl) _
      (fun m' hm hr => ?_) fun C m' hm hc hr => ?_
    · rw [mapRange_succ, hm]
      exact ⟨rfl, hr⟩
    · rw [if_pos hal]
      refine .pure ?_
      rw [mapRange_succ, hm]
      exact ⟨rfl, hr⟩
  | succ k ih =>
    obtain ⟨fuel, rfl⟩ := Nat.exists_eq_add_one.mpr (Nat.zero_lt_of_lt hfuel)
    have hal : a ≠ last := fun he => by
      rw [he, hlast] at ha
      omega
    have hlt := last.toNat_lt
    have ha' : (a + PGSIZE).toNat = (n + 1) * 4096 := by
      rw [UInt32.toNat_add, ha, show (PGSIZE).toNat = 4096 from rfl]
      omega
    refine mapEntry_wp h hd (vpn_eq ha) (hfresh n le_rfl (by omega)) _
      (fun m' hm hr => ?_) fun C m' hm hc hr => ?_
    · rw [mapRange_succ, hm]
      exact ⟨rfl, hr⟩
    · rw [if_neg hal, mapRange_succ, hm]
      refine ih hr (hc.dir hd) ha' (by rw [hlast]; ring) (by omega) fun j h1 h2 => ?_
      rw [set_ent, assign_self, assign_of_ne (by omega), hc.ent]
      exact hfresh j (by omega) (by omega)

lemma mappages_wp {size : UInt32} {k : ℕ} (hva : va.toNat = n * 4096)
    (hsize : size.toNat = (k + 1) * 4096) (hk : n + k < 2 ^ 20)
    (hfresh : ∀ j, n ≤ j → j ≤ n + k → ¬ Present (A.ent pd j)) :
    (mappages (kva pd) va size pa perm).Wp m (fun r m' => r = (A.mapRange pd perm (k + 1) n pa).1 ∧
      Rep ld m' (A.mapRange pd perm (k + 1) n pa).2) (fun _ _ => False) := by
  have hlast : (va + size - 1).toNat = (n + k) * 4096 + 4095 := by
    rw [UInt32.toNat_sub, UInt32.toNat_add, hva, hsize, show (1 : UInt32).toNat = 1 from rfl]
    omega
  refine mappagesLoop_wp h hd ?_ ?_ (by omega) hfresh
  · rw [toNat_PGROUNDDOWN, hva]
    omega
  · rw [toNat_PGROUNDDOWN, hlast]
    omega

lemma mappages_page_wp (hva : va.toNat = n * 4096)
    (hfresh : ¬ Present (A.ent pd n)) : (mappages (kva pd) va PGSIZE pa perm).Wp m (fun r m' =>
      r = (A.mapPage pd n (pa ||| perm ||| PTE_P)).1 ∧
        Rep ld m' (A.mapPage pd n (pa ||| perm ||| PTE_P)).2)
      (fun _ _ => False) := by
  have hn : n < 2 ^ 20 := by
    have := va.toNat_lt
    omega
  refine (mappages_wp (k := 0) h hd hva rfl hn fun j h1 h2 => ?_).imp fun r m' hr => ?_
  · rwa [show j = n by omega]
  · rw [mapRange_succ] at hr
    cases hm : A.mapPage pd n (pa ||| perm ||| PTE_P) with
    | mk b B =>
      rw [hm] at hr
      cases b <;> exact hr

end

end Xv6.Vm
