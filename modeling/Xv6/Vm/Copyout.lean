import Xv6.Vm.Copy

namespace Xv6.Vm

open Lib

variable {ld : Kernel} {m m' : Mem} {A : View} {pd f n k x : ℕ} {va cr3 : UInt32}
  {b b' buf : List UInt8} {e : ℕ → UInt32}

def home (e : ℕ → UInt32) (x : ℕ) : ℕ × ℕ := (pframe (e (x / 4096)), x % 4096)

structure Stored (e : ℕ → UInt32) (x : ℕ) (b : List UInt8) (mem mem' : ℕ → Page) : Prop where
  hit : ∀ i (hi : i < b.length), mem' (home e (x + i)).1 (home e (x + i)).2 = b[i]
  miss : ∀ y : ℕ × ℕ, (∀ i < b.length, y ≠ home e (x + i)) → mem' y.1 y.2 = mem y.1 y.2

def Accessible (w : UInt32) : Prop := Present w ∧ User w

instance (w : UInt32) : Decidable (Accessible w) := inferInstanceAs (Decidable (_ ∧ _))

namespace Stored

variable {mem mem₁ mem' : ℕ → Page}

lemma nil (e : ℕ → UInt32) (x : ℕ) (mem : ℕ → Page) : Stored e x [] mem mem :=
  ⟨fun i hi => absurd hi (Nat.not_lt_zero i), fun _ _ => rfl⟩

lemma append (h : Stored e x b mem mem₁) (h' : Stored e (x + b.length) b' mem₁ mem')
    (hne : ∀ i < b.length, ∀ j < b'.length, home e (x + i) ≠ home e (x + b.length + j)) :
    Stored e x (b ++ b') mem mem' := by
  refine ⟨fun i hi => ?_, fun y hy => ?_⟩
  · by_cases hib : i < b.length
    · rw [h'.miss _ (hne i hib), h.hit i hib, List.getElem_append_left hib]
    · rw [List.length_append] at hi
      have hhit := h'.hit (i - b.length) (by omega)
      rw [show x + b.length + (i - b.length) = x + i by omega] at hhit
      rw [hhit, List.getElem_append_right (by omega)]
  · rw [List.length_append] at hy
    rw [h'.miss y fun j hj => ?_, h.miss y fun i hi => hy i (by omega)]
    have := hy (b.length + j) (by omega)
    rwa [← Nat.add_assoc] at this

lemma congr {e' : ℕ → UInt32} (h : Stored e x b mem mem')
    (he : ∀ i < b.length, e' ((x + i) / 4096) = e ((x + i) / 4096)) : Stored e' x b mem mem' := by
  have hhome : ∀ i < b.length, home e' (x + i) = home e (x + i) := fun i hi => by rw [home, home, he i hi]
  refine ⟨fun i hi => ?_, fun y hy => h.miss y fun i hi => ?_⟩
  · rw [hhome i hi, h.hit i hi]
  · rw [← hhome i hi]
    exact hy i hi

lemma start {y : ℕ} (h : Stored e x b mem mem') (hx : 0 < b.length → x = y) : Stored e y b mem mem' := by
  by_cases hb : 0 < b.length
  · rwa [← hx hb]
  · exact ⟨fun i hi => by omega, fun z _ => h.miss z fun i hi => by omega⟩

lemma page (hf : pframe (e (x / 4096)) = f) (hlen : x % 4096 + b.length ≤ 4096) :
    Stored e x b mem (assign mem f ((mem f).splice (x % 4096) b)) := by
  have hhome : ∀ i < b.length, home e (x + i) = (f, x % 4096 + i) := fun i hi => by
    rw [home, show (x + i) / 4096 = x / 4096 by omega, hf, show (x + i) % 4096 = x % 4096 + i by omega]
  refine ⟨fun i hi => ?_, fun y hy => ?_⟩
  · rw [hhome i hi, assign_self, Page.splice, if_pos (Nat.le_add_right _ i), Nat.add_sub_cancel_left,
      List.getD_eq_getElem _ _ hi]
  · rw [assign_apply]
    split_ifs with hyf
    · rw [Page.splice]
      split_ifs with hle
      · rw [hyf, List.getD_eq_default]
        by_contra hlt
        refine hy (y.2 - x % 4096) (by omega) ?_
        rw [hhome _ (by omega), ← hyf, Nat.add_sub_cancel' hle]
      · rw [hyf]
    · rfl

end Stored

lemma userPage_of_accessible {w : UInt32} (h : Accessible w) : userPage w = kva (pframe w) := by
  rw [userPage, if_neg h.1, if_neg h.2, p2v_PTE_ADDR]

lemma userPage_of_not {w : UInt32} (h : ¬ Accessible w) : userPage w = 0 := by
  rw [userPage]
  split_ifs with h1 h2
  · rfl
  · rfl
  · exact absurd ⟨h1, h2⟩ h

structure UserFrames (A : View) (e : ℕ → UInt32) : Prop where
  data : ∀ n < 2 ^ 20, Accessible (e n) → (A.own (pframe (e n))).data = true
  ram : ∀ n < 2 ^ 20, Accessible (e n) → pframe (e n) < NFRAMES
  inj : ∀ n < 2 ^ 20, ∀ k < 2 ^ 20, Accessible (e n) → Accessible (e k) → pframe (e n) = pframe
    (e k) → n = k

lemma UserFrames.congr {e' : ℕ → UInt32} (h : UserFrames A e) (he : ∀ n < 2 ^ 20, e' n = e n) :
    UserFrames A e' := by
  refine ⟨fun n hn hacc => ?_, fun n hn hacc => ?_, fun n hn k hk hacc hacc' hf => ?_⟩
  · rw [he n hn] at hacc ⊢
    exact h.data n hn hacc
  · rw [he n hn] at hacc ⊢
    exact h.ram n hn hacc
  · rw [he n hn] at hacc hf
    rw [he k hk] at hacc' hf
    exact h.inj n hn k hk hacc hacc' hf

lemma uva2ka_on {g : ℕ} (h : Rep ld m A) (hd : A.own pd = .dir)
    (htab : A.tab pd (vpn va / 1024) = some g) :
    (uva2ka cr3 (kva pd) va).on m = (.ok (userPage (A.ent pd (vpn va))), m) := by
  have hwalk := walkpgdir_false_on h hd va
  rw [htab, Option.map_some] at hwalk
  rw [uva2ka, Act.on_bind_ok hwalk]
  show ((get : M Mem) >>= fun m => pure (userPage (m.pte (ptr g (vpn va))))).on m = _
  rw [Act.on_bind_ok (Act.on_get m), h.pte_ptr hd (vpn_lt va) htab]
  rfl

lemma storePage_on (hf : f < NFRAMES) (off : ℕ) (b : List UInt8) :
    (storePage (kva f) off b).on m = (.ok (), m.setPage (kva f) ((m.mem f).splice off b)) := by
  rw [storePage, if_neg (kva_mapped hf), Act.on_modify, Mem.page, frame_kva hf]

lemma walkpgdir_false_same (pgdir va : UInt32) (m : Mem) {B : Halt → Mem → Prop} :
    (walkpgdir pgdir va false).Wp m (fun _ m' => m' = m) B := by
  refine .bind (.get ?_)
  by_cases hp : Present (m.word pgdir (PDX va))
  · rw [if_pos (show _ ≠ _ from hp)]
    exact .pure rfl
  · rw [if_neg (show ¬ (_ ≠ _) from hp), if_pos rfl]
    exact .pure rfl

lemma nullWord_same (cr3 : UInt32) (m : Mem) : (nullWord cr3).Wp m (fun _ m' => m' = m)
    (fun _ _ => True) := by
  refine (walkpgdir_false_same cr3 0 m).seq ?_
  rintro (_ | pte) m rfl
  · exact .throw trivial
  · refine .bind (.get ?_)
    split_ifs
    · exact .throw trivial
    · exact .pure rfl

lemma uva2ka_null (h : Rep ld m A) (hd : A.own pd = .dir) (htab : A.tab pd (vpn va / 1024) = none) :
    (uva2ka cr3 (kva pd) va).Wp m (fun _ m' => m.trace.length < m'.trace.length) (fun _ _ => True) := by
  have hwalk := walkpgdir_false_on h hd va
  rw [htab, Option.map_none] at hwalk
  refine .bind (.of_ok hwalk (.bind (.modify ?_)))
  refine (nullWord_same cr3 _).seq ?_
  rintro w m' rfl
  exact .pure (Nat.lt_succ_self _)

lemma uva2ka_trace (pgdir va : UInt32) (m : Mem) :
    (uva2ka cr3 pgdir va).Wp m (fun _ m' => m.trace.length ≤ m'.trace.length) (fun _ _ => True) := by
  refine (walkpgdir_false_same pgdir va m).seq ?_
  rintro (_ | pte) m rfl
  · refine .bind (.modify ((nullWord_same cr3 _).seq ?_))
    rintro w m' rfl
    exact .pure (Nat.le_succ _)
  · exact .bind (.get (.pure le_rfl))

lemma copyoutLoop_trace (pgdir : UInt32) (k : ℕ) (va : UInt32) (buf : List UInt8) (m : Mem) :
    (copyoutLoop cr3 pgdir k va buf).Wp m (fun _ m' => m.trace.length ≤ m'.trace.length)
    (fun _ _ => True) := by
  induction k generalizing va buf m with
  | zero => exact .throw trivial
  | succ k ih =>
    rw [copyoutLoop]
    split_ifs
    · refine (uva2ka_trace pgdir _ m).seq fun pa m1 h1 => ?_
      split_ifs
      · exact .pure h1
      · refine .bind ?_
        rw [storePage]
        split_ifs
        · exact .throw trivial
        · exact .modify ((ih _ _ _).imp fun r m2 h2 => h1.trans h2)
    · exact .pure le_rfl

def Touched (va : UInt32) (len n : ℕ) : Prop := ∃ i < len, n = (va.toNat + i) / 4096

def Comes (e : ℕ → UInt32) (va : UInt32) (len n : ℕ) : Prop :=
  Touched va len n ∧ ∀ k < n, Touched va len k → Accessible (e k)

inductive CopyoutEnd (ld : Kernel) (A : View) (pd : ℕ) (va : UInt32) (buf : List UInt8) (m : Mem)
    (r : Bool) (m' : Mem) : Prop
  | all (hr : r = true) (hall : ∀ n, Touched va buf.length n → Accessible (A.ent pd n))
      (hs : Stored (A.ent pd) va.toNat buf m.mem m'.mem) (h : Rep ld m' { A with page := m'.mem })
  | stop (n : ℕ) (b : List UInt8) (hr : r = false) (hn : Comes (A.ent pd) va buf.length n)
      (htab : A.tab pd (n / 1024) ≠ none) (hno : ¬ Accessible (A.ent pd n))
      (hb : b.length ≤ buf.length)
      (hacc : ∀ i < b.length, Accessible (A.ent pd ((va.toNat + i) / 4096)))
      (hs : Stored (A.ent pd) va.toNat b m.mem m'.mem) (h : Rep ld m' { A with page := m'.mem })
  | null (n : ℕ) (hn : Comes (A.ent pd) va buf.length n) (htab : A.tab pd (n / 1024) = none)
      (htrace : m.trace.length < m'.trace.length)

lemma Rep.pages (h : Rep ld m A) : Rep ld m { A with page := m.mem } :=
  { h with page := fun _ _ => rfl }

section

variable {c : ℕ}

structure Chunk (va : UInt32) (buf : List UInt8) (c : ℕ) : Prop where
  pos : 0 < c
  le : c ≤ buf.length
  fits : va.toNat % 4096 + c ≤ 4096
  full : c < buf.length → va.toNat % 4096 + c = 4096

lemma Chunk.touched_first (h : Chunk va buf c) : Touched va buf.length (va.toNat / 4096) :=
  ⟨0, h.pos.trans_le h.le, rfl⟩

lemma Chunk.touched_iff {va' : UInt32} (h : Chunk va buf c)
    (hva : c < buf.length → va'.toNat = va.toNat + c) :
    Touched va buf.length n ↔ n = va.toNat / 4096 ∨ Touched va' (buf.drop c).length n := by
  have hfits := h.fits
  rw [List.length_drop]
  constructor
  · rintro ⟨i, hi, rfl⟩
    by_cases hic : i < c
    · left
      omega
    · refine .inr ⟨i - c, by omega, ?_⟩
      rw [hva (by omega), show va.toNat + c + (i - c) = va.toNat + i by omega]
  · rintro (rfl | ⟨i, hi, rfl⟩)
    · exact h.touched_first
    · exact ⟨c + i, by omega, by rw [hva (by omega), Nat.add_assoc]⟩

lemma Chunk.comes {va' : UInt32} (h : Chunk va buf c) (hva : c < buf.length → va'.toNat = va.toNat + c)
    (hacc : Accessible (e (va.toNat / 4096))) (hn : Comes e va' (buf.drop c).length n) :
    Comes e va buf.length n := by
  refine ⟨(h.touched_iff hva).mpr (.inr hn.1), fun k hk ht => ?_⟩
  rcases (h.touched_iff hva).mp ht with rfl | ht
  · exact hacc
  · exact hn.2 k hk ht

lemma UserFrames.home_ne {y : ℕ} (h : UserFrames A e) (hx : x < 2 ^ 32) (hy : y < 2 ^ 32)
    (hex : Accessible (e (x / 4096)))
    (hey : Accessible (e (y / 4096))) (hne : x / 4096 ≠ y / 4096) : home e x ≠ home e y := by
  intro he
  exact hne (h.inj _ (by omega) _ (by omega) hex hey (congrArg Prod.fst he))

lemma Chunk.stored {mem mem₁ mem' : ℕ → Page} (h : Chunk va buf c) (hu : UserFrames A e)
    (hlt : va.toNat + buf.length ≤ 2 ^ 32)
    (hacc : Accessible (e (va.toNat / 4096))) (h1 : Stored e va.toNat (buf.take c) mem mem₁)
    (h2 : Stored e (va.toNat + c) b mem₁ mem') (hb : c + b.length ≤ buf.length)
    (hbacc : ∀ i < b.length, Accessible (e ((va.toNat + c + i) / 4096))) :
    Stored e va.toNat (buf.take c ++ b) mem mem' := by
  have hlen : (buf.take c).length = c := List.length_take_of_le h.le
  refine h1.append (by rwa [hlen]) fun i hi j hj => ?_
  rw [hlen] at hi ⊢
  have hfull := h.full (by omega)
  have hpage : (va.toNat + i) / 4096 = va.toNat / 4096 := by omega
  exact hu.home_ne (by omega) (by omega) (by rwa [hpage]) (hbacc j hj) (by omega)

lemma CopyoutEnd.cons {va' : UInt32} {m1 : Mem} {r : Bool} (h : Chunk va buf c)
    (hlt : va.toNat + buf.length ≤ 2 ^ 32)
    (hva : c < buf.length → va'.toNat = va.toNat + c) (hu : UserFrames A (A.ent pd))
    (hacc : Accessible (A.ent pd (va.toNat / 4096)))
    (hs1 : Stored (A.ent pd) va.toNat (buf.take c) m.mem m1.mem)
    (htr : m1.trace = m.trace) (hend : CopyoutEnd ld { A with page := m1.mem } pd va' (buf.drop c)
    m1 r m') : CopyoutEnd ld A pd va buf m r m' := by
  have hle := h.le
  cases hend with
  | all hr hall hs h' =>
    refine .all hr (fun n hn => ?_) ?_ h'
    · rcases (h.touched_iff hva).mp hn with rfl | hn
      · exact hacc
      · exact hall n hn
    · have hs' := hs.start (y := va.toNat + c) fun hpos => hva (by rw [List.length_drop] at hpos; omega)
      have hlen : (buf.drop c).length = buf.length - c := List.length_drop
      have hfinal := h.stored hu hlt hacc hs1 hs' (by omega) fun i hi => hall _
        ⟨i, hi, by rw [hva (by omega)]⟩
      rwa [List.take_append_drop] at hfinal
  | stop n b hr hn htab hno hb hbacc hs h' =>
    rw [List.length_drop] at hb
    have hs' := hs.start (y := va.toNat + c) fun hpos => hva (by omega)
    have hbacc' : ∀ i < b.length, Accessible (A.ent pd ((va.toNat + c + i) / 4096)) := fun i hi => by
      have := hbacc i hi
      rwa [hva (by omega)] at this
    have hlen : (buf.take c).length = c := List.length_take_of_le hle
    refine .stop n (buf.take c ++ b) hr (h.comes hva hacc hn) htab hno
      (by rw [List.length_append]; omega) (fun i hi => ?_)
      (h.stored hu hlt hacc hs1 hs' (by omega) hbacc') h'
    by_cases hic : i < c
    · have hfits := h.fits
      rwa [show (va.toNat + i) / 4096 = va.toNat / 4096 by omega]
    · rw [List.length_append, hlen] at hi
      have := hbacc' (i - c) (by omega)
      rwa [show va.toNat + c + (i - c) = va.toNat + i by omega] at this
  | null n hn htab htrace => exact .null n (h.comes hva hacc hn) htab (by rwa [htr] at htrace)

lemma UserFrames.pages (h : UserFrames A e) (p : ℕ → Page) : UserFrames { A with page := p } e :=
    ⟨h.data, h.ram, h.inj⟩

lemma Chunk.store (hc : Chunk va buf c) (h : Rep ld m A) (hu : UserFrames A (A.ent pd))
    (hacc : Accessible (A.ent pd (va.toNat / 4096))) :
    ∃ m1, (storePage (kva (pframe (A.ent pd (va.toNat / 4096)))) (va.toNat % 4096)
    (buf.take c)).on m = (.ok (), m1) ∧
      Stored (A.ent pd) va.toNat (buf.take c) m.mem m1.mem ∧ m1.trace = m.trace ∧
      Rep ld m1 { A with page := m1.mem } := by
  have hpage : va.toNat / 4096 < 2 ^ 20 := by
    have := va.toNat_lt
    omega
  have hram := hu.ram _ hpage hacc
  refine ⟨_, storePage_on hram _ _, ?_, rfl, (h.setPage hram (hu.data _ hpage hacc) _).pages⟩
  rw [Mem.setPage, frame_kva hram]
  exact Stored.page rfl (by rw [List.length_take_of_le hc.le]; exact hc.fits)

lemma chunk_of (hbuf : 0 < buf.length) :
    Chunk va buf (min (PGSIZE - (va - PGROUNDDOWN va)).toNat buf.length) ∧
    (va - PGROUNDDOWN va).toNat = va.toNat % 4096 := by
  have hdown := toNat_PGROUNDDOWN va
  have hoff : (va - PGROUNDDOWN va).toNat = va.toNat % 4096 := by
    rw [UInt32.toNat_sub_of_le _ _ (UInt32.le_iff_toNat_le.mpr (by omega)), hdown]
    omega
  have hrest : (PGSIZE - (va - PGROUNDDOWN va)).toNat = 4096 - va.toNat % 4096 := by
    rw [UInt32.toNat_sub_of_le, hoff]
    · rfl
    · rw [UInt32.le_iff_toNat_le, hoff, show (PGSIZE).toNat = 4096 from rfl]
      omega
  rw [hrest]
  exact ⟨⟨by omega, by omega, by omega, by omega⟩, hoff⟩

lemma copyoutLoop_wp (h : Rep ld m A) (hd : A.own pd = .dir) (hu : UserFrames A (A.ent pd))
    (hlt : 0 < buf.length → va.toNat + buf.length ≤ 2 ^ 32) (hpos : 0 < k)
    (hfuel : 0 < buf.length → (va.toNat % 4096 + buf.length + 4095) / 4096 < k) :
    (copyoutLoop cr3 (kva pd) k va buf).Wp m (CopyoutEnd ld A pd va buf m)
      (fun _ _ => ∃ n, Comes (A.ent pd) va buf.length n ∧ A.tab pd (n / 1024) = none) := by
  induction k generalizing m A va buf with
  | zero => exact absurd hpos (lt_irrefl 0)
  | succ k ih =>
    rw [copyoutLoop]
    by_cases hbuf : 0 < buf.length
    swap
    · obtain rfl : buf = [] := List.length_eq_zero_iff.mp (by omega)
      rw [if_neg hbuf]
      exact .pure (.all rfl (fun n ⟨i, hi, _⟩ => absurd hi (Nat.not_lt_zero i))
        (Stored.nil _ _ _) h.pages)
    rw [if_pos hbuf]
    obtain ⟨hchunk, hoff⟩ : Chunk va buf _ ∧ _ := chunk_of hbuf
    dsimp only
    generalize min (PGSIZE - (va - PGROUNDDOWN va)).toNat buf.length = c at hchunk ⊢
    have hvpn : vpn (PGROUNDDOWN va) = va.toNat / 4096 := by
      rw [vpn, toNat_PGROUNDDOWN]
      omega
    have hcomes : Comes (A.ent pd) va buf.length (va.toNat / 4096) := by
      refine ⟨hchunk.touched_first, ?_⟩
      rintro k hk ⟨i, -, rfl⟩
      omega
    cases htab : A.tab pd (va.toNat / 4096 / 1024) with
    | none =>
      have hnull : (uva2ka cr3 (kva pd) (PGROUNDDOWN va)).Wp m _ _ := uva2ka_null h hd (by rwa [hvpn])
      refine (hnull.mono (fun _ _ h => h) fun _ _ _ => ⟨_, hcomes, htab⟩).seq fun pa m1 h1 => ?_
      split_ifs
      · exact .pure (.null _ hcomes htab h1)
      · refine .bind ?_
        rw [storePage]
        split_ifs
        · exact .throw ⟨_, hcomes, htab⟩
        · refine .modify ((copyoutLoop_trace _ _ _ _ _).mono (fun r m2 h2 => ?_) fun _ _ _ =>
            ⟨_, hcomes, htab⟩)
          exact .null _ hcomes htab (h1.trans_le h2)
    | some g =>
      have hon : (uva2ka cr3 (kva pd) (PGROUNDDOWN va)).on m = _ :=
        uva2ka_on h hd (by rw [hvpn]; exact htab)
      rw [hvpn] at hon
      refine .bind (.of_ok hon ?_)
      by_cases hacc : Accessible (A.ent pd (va.toNat / 4096))
      swap
      · rw [userPage_of_not hacc, if_pos rfl]
        exact .pure (.stop _ [] rfl hcomes (by simp [htab]) hacc (Nat.zero_le _)
          (fun i hi => absurd hi (Nat.not_lt_zero i)) (Stored.nil _ _ _) h.pages)
      have hram := hu.ram _ (by have := va.toNat_lt; omega) hacc
      rw [userPage_of_accessible hacc, if_neg (kva_ne_zero hram), hoff]
      obtain ⟨m1, hon1, hs1, htr, h1⟩ := hchunk.store h hu hacc
      refine .bind (.of_ok hon1 ?_)
      have hva : c < buf.length → (PGROUNDDOWN va + PGSIZE).toNat = va.toNat + c := fun hc => by
        have hfull := hchunk.full hc
        have := hlt hbuf
        rw [UInt32.toNat_add, toNat_PGROUNDDOWN, show (PGSIZE).toNat = 4096 from rfl]
        omega
      have hnext : (copyoutLoop cr3 (kva pd) k (PGROUNDDOWN va + PGSIZE) (buf.drop c)).Wp m1 _ _ :=
        ih h1 hd (hu.pages _) (fun hr => ?_) ?_ fun hr => ?_
      · refine hnext.mono (fun r m' hend => hend.cons hchunk (hlt hbuf) hva hu hacc hs1 htr) ?_
        rintro - - ⟨n, hn, hnone⟩
        exact ⟨n, hchunk.comes hva hacc hn, hnone⟩
      all_goals
        have := hlt hbuf
        have := hfuel hbuf
        have := hchunk.full
        have := hchunk.fits
        have := hchunk.pos
      · rw [List.length_drop] at hr ⊢
        rw [hva (by omega)]
        omega
      · omega
      · rw [List.length_drop] at hr ⊢
        rw [hva (by omega)]
        omega

end

structure Precise (pd : ℕ) (va : UInt32) (buf : List UInt8) (m : Mem) (r : Bool) (m' : Mem) : Prop where
  lookups : m'.trace = m.trace
  freelist : m'.freelist = m.freelist
  ret : r = true ↔ ∀ n, Touched va buf.length n → Accessible (entry m.mem pd n)
  success : r = true → Stored (entry m.mem pd) va.toNat buf m.mem m'.mem
  failure : r = false → ∀ y : ℕ × ℕ, m'.mem y.1 y.2 ≠ m.mem y.1 y.2 →
    ∃ i < buf.length, Accessible (entry m.mem pd ((va.toNat + i) / 4096)) ∧
    y = home (entry m.mem pd) (va.toNat + i)

lemma Linked.start_eq {mem mem' : ℕ → Page} {v v' : UInt32} {l : List ℕ} (h : Linked mem v l)
    (h' : Linked mem' v' l) : v = v' := by
  cases l with
  | nil => exact h.trans h'.symm
  | cons f l => exact h.1.trans h'.1.symm

lemma copyout_wp (h : Rep ld m A) (hd : A.own pd = .dir) (hu : UserFrames A (A.ent pd))
    (hlt : va.toNat + buf.length ≤ 2 ^ 32) :
    (copyout cr3 (kva pd) va buf).Wp m (CopyoutEnd ld A pd va buf m)
      (fun _ _ => ∃ n, Comes (A.ent pd) va buf.length n ∧ A.tab pd (n / 1024) = none) :=
  copyoutLoop_wp h hd hu (fun _ => hlt) (Nat.succ_pos _) fun _ => by omega

section

variable (h : Rep ld m A) (hd : A.own pd = .dir) (hlt : va.toNat + buf.length ≤ 2 ^ 32)

include hlt in
lemma Touched.lt (hn : Touched va buf.length n) : n < 2 ^ 20 := by
  obtain ⟨i, hi, rfl⟩ := hn
  omega

include h hd hlt

lemma Rep.ent_touched (hn : Touched va buf.length n) : entry m.mem pd n = A.ent pd n :=
  (h.ent pd hd n (hn.lt hlt)).symm

lemma Rep.tab_touched (hn : Touched va buf.length n) :
    table m.mem pd (n / 1024) = A.tab pd (n / 1024) := by
  have := hn.lt hlt
  exact (h.tab pd hd _ (by omega)).symm

lemma Rep.comes_iff : Comes (entry m.mem pd) va buf.length n ↔ Comes (A.ent pd) va buf.length n :=
  and_congr_right fun _ => forall_congr' fun k => forall_congr' fun _ => forall_congr' fun ht => by
    rw [h.ent_touched hd hlt ht]

lemma Rep.precise_of_end {r : Bool} (hend : CopyoutEnd ld A pd va buf m r m')
    (hall : ∀ n, Comes (A.ent pd) va buf.length n → A.tab pd (n / 1024) ≠ none) :
    Precise pd va buf m r m' := by
  have hent : ∀ i < buf.length, entry m.mem pd ((va.toNat + i) / 4096) = A.ent pd
    ((va.toNat + i) / 4096) := fun i hi =>
    h.ent_touched hd hlt ⟨i, hi, rfl⟩
  cases hend with
  | all hr hacc hs h' =>
    subst hr
    have hacc' : ∀ n, Touched va buf.length n → Accessible (entry m.mem pd n) := fun n hn => by
      rw [h.ent_touched hd hlt hn]
      exact hacc n hn
    exact ⟨h'.trace.symm.trans h.trace, h'.linked.start_eq h.linked, iff_of_true rfl hacc',
      fun _ => hs.congr hent, fun hf => absurd hf.symm Bool.false_ne_true⟩
  | stop n b hr hn ht hno hb hbacc hs h' =>
    subst hr
    refine ⟨h'.trace.symm.trans h.trace, h'.linked.start_eq h.linked,
      iff_of_false Bool.false_ne_true fun hacc => ?_,
      fun hf => absurd hf Bool.false_ne_true, fun _ y hy => ?_⟩
    · have := hacc n hn.1
      rw [h.ent_touched hd hlt hn.1] at this
      exact hno this
    · by_contra hmiss
      push Not at hmiss
      refine hy (hs.miss y fun i hi he => hmiss i (by omega) ?_ ?_)
      · rw [hent i (by omega)]
        exact hbacc i hi
      · rw [he, home, home, hent i (by omega)]
  | null n hn ht htrace => exact absurd ht (hall n hn)

lemma Rep.tabled_of_precise {r : Bool} (hend : CopyoutEnd ld A pd va buf m r m')
    (hp : Precise pd va buf m r m')
    (hn : Comes (A.ent pd) va buf.length n) : A.tab pd (n / 1024) ≠ none := by
  cases hend with
  | all hr hacc hs h' => exact h.tab_ne_none hd (hn.1.lt hlt) (hacc n hn.1).1
  | stop k b hr hk ht hno hb hbacc hs h' =>
    rcases lt_trichotomy n k with hnk | rfl | hkn
    · exact h.tab_ne_none hd (hn.1.lt hlt) (hk.2 n hnk hn.1).1
    · exact ht
    · exact absurd (hn.2 k hkn hk.1) hno
  | null k hk ht htrace =>
    rw [hp.lookups] at htrace
    exact absurd htrace (lt_irrefl _)

lemma Rep.not_precise (hu : UserFrames A (A.ent pd)) (hn : Comes (A.ent pd) va buf.length n)
    (ht : A.tab pd (n / 1024) = none) :
    ¬ (copyout cr3 (kva pd) va buf).Wp m (Precise pd va buf m) (fun _ _ => False) := fun hw => by
  rcases ((copyout_wp h hd hu hlt).and hw).outcome with ⟨r, m', hend, hp⟩ | ⟨-, -, -, hf⟩
  · exact h.tabled_of_precise hd hlt hend hp hn ht
  · exact hf

end

theorem copyout_precise_iff (h : Rep ld m A) (hd : A.own pd = .dir) (hu : UserFrames A (entry m.mem pd))
    (hlt : va.toNat + buf.length ≤ 2 ^ 32) :
    (copyout cr3 (kva pd) va buf).Wp m (Precise pd va buf m) (fun _ _ => False) ↔
      ∀ n, Comes (entry m.mem pd) va buf.length n → table m.mem pd (n / 1024) ≠ none := by
  have hu' := hu.congr fun n hn => h.ent pd hd n hn
  have hiff : (∀ n, Comes (entry m.mem pd) va buf.length n → table m.mem pd (n / 1024) ≠ none) ↔
      ∀ n, Comes (A.ent pd) va buf.length n → A.tab pd (n / 1024) ≠ none := by
    refine forall_congr' fun n => ?_
    rw [h.comes_iff hd hlt]
    refine forall_congr' fun hn => ?_
    rw [h.tab_touched hd hlt hn.1]
  rw [hiff]
  constructor
  · intro hw n hn ht
    exact h.not_precise hd hlt hu' hn ht hw
  · intro hall
    exact (copyout_wp h hd hu' hlt).mono (fun r m' hend => h.precise_of_end hd hlt hend hall)
      fun _ _ ⟨n, hn, ht⟩ => hall n hn ht

lemma userFrames_onePage : UserFrames (onePageView 0) (entry (onePage 0).mem 2000) := by
  have hone : ∀ n < 2 ^ 20, Accessible (entry (onePage 0).mem 2000 n) → n = 0 := fun n hn hacc =>
    (present_onePage (by decide) hn).mp hacc.1
  refine ⟨fun n hn hacc => ?_, fun n hn hacc => ?_, fun n hn k hk hacc hacc' _ => ?_⟩
  · rw [hone n hn hacc, pframe_onePage (by decide)]
    rfl
  · rw [hone n hn hacc, pframe_onePage (by decide)]
    decide
  · rw [hone n hn hacc, hone k hk hacc']

theorem copyout_precise_in_page :
    (copyout (kva 2000) (kva 2000) 4000 [1, 2, 3]).Wp (onePage 0)
    (Precise 2000 4000 [1, 2, 3] (onePage 0)) (fun _ _ => False) := by
  have h := rep_onePage Kernel.small (n := 0) (by decide)
  refine (copyout_precise_iff h rfl userFrames_onePage (by decide)).mpr fun n hn => ?_
  obtain ⟨i, hi, rfl⟩ := hn.1
  rw [show (4000 : UInt32).toNat = 4000 from rfl, show (4000 + i) / 4096 / 1024 = 0 by
    rw [List.length_cons, List.length_cons, List.length_cons, List.length_nil] at hi
    omega, ← h.tab 2000 rfl 0 (by decide)]
  exact Option.some_ne_none 2001

theorem copyout_looks_up_null :
    Rep Kernel.small (onePage 0) (onePageView 0) ∧ (onePageView 0).own 2000 = .dir ∧
      UserFrames (onePageView 0) (entry (onePage 0).mem 2000) ∧
      ¬ (copyout (kva 2000) (kva 2000) 0x400000 [1]).Wp (onePage 0)
      (Precise 2000 0x400000 [1] (onePage 0)) (fun _ _ => False) := by
  have h := rep_onePage Kernel.small (n := 0) (by decide)
  refine ⟨h, rfl, userFrames_onePage, h.not_precise rfl (n := 1024) (by decide) ?_ ?_ rfl⟩
  · exact userFrames_onePage.congr fun n hn => h.ent 2000 rfl n hn
  · refine ⟨⟨0, by decide, rfl⟩, ?_⟩
    rintro k hk ⟨i, hi, rfl⟩
    rw [show (0x400000 : UInt32).toNat = 4194304 from rfl] at hk
    omega

end Xv6.Vm
