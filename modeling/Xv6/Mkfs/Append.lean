import Xv6.Mkfs.Mirror

namespace Xv6.Mkfs

open Lib Fs

def nblocks (n : ℕ) : ℕ := (n + BSIZE - 1) / BSIZE + if NDIRECT * BSIZE < n then 1 else 0

lemma nblocks_zero : nblocks 0 = 0 := by decide

lemma nblocks_mono {a b : ℕ} (h : a ≤ b) : nblocks a ≤ nblocks b := by
  have hB : BSIZE = 512 := rfl
  have hN : NDIRECT = 12 := rfl
  simp only [nblocks, hB, hN]
  split_ifs <;> omega

structure Exact (disk : Disk) (ip : Dinode) (n : ℕ) : Prop where
  slot : ∀ bn < MAXFILE, slotAddr disk ip (dataSlot bn) ≠ 0 ↔ bn * BSIZE < n
  indirect : ip.addr NDIRECT ≠ 0 ↔ NDIRECT * BSIZE < n

namespace Exact

variable {disk disk' : Disk} {ip ip' : Dinode} {off k : ℕ}

lemma congr {n : ℕ} (h : Exact disk ip n) (hs : slotAddr disk' ip' = slotAddr disk ip) :
    Exact disk' ip' n := by
  have ha : ip'.addr NDIRECT = ip.addr NDIRECT := by
    rw [← Holds.indirect_eq disk', hs, Holds.indirect_eq]
  refine ⟨fun bn hbn => ?_, ?_⟩
  · rw [hs]
    exact h.slot bn hbn
  · rw [ha]
    exact h.indirect

lemma need (h : Exact disk ip off) (hbn : off / BSIZE < MAXFILE) (hk : 0 < k)
    (hfit : off % BSIZE + k ≤ BSIZE) :
    nblocks off + bmapNeed disk ip (off / BSIZE) = nblocks (off + k) := by
  have hB : BSIZE = 512 := rfl
  have hN : NDIRECT = 12 := rfl
  have hs : slotAddr disk ip (dataSlot (off / BSIZE)) = 0 ↔ off % BSIZE = 0 := by
    have := h.slot _ hbn
    rw [hB] at this ⊢
    omega
  have hi : ip.addr NDIRECT = 0 ↔ off ≤ NDIRECT * BSIZE := by
    have := h.indirect
    omega
  simp only [nblocks, bmapNeed, hs, hi, hB, hN] at hfit ⊢
  split_ifs <;> omega

lemma grow {b : ℕ} (h : Exact disk ip off) (hb : b ≠ 0) (hk : 0 < k) (hfit : off % BSIZE + k ≤ BSIZE)
    (hs : ∀ n < MAXFILE, slotAddr disk' ip' (dataSlot n) =
      if n = off / BSIZE then b else slotAddr disk ip (dataSlot n))
    (hind : ip'.addr NDIRECT = 0 ↔ ip.addr NDIRECT = 0 ∧ off / BSIZE < NDIRECT) :
      Exact disk' ip' (off + k) := by
  have hB : BSIZE = 512 := rfl
  have hN : NDIRECT = 12 := rfl
  refine ⟨fun n hn => ?_, ?_⟩
  · have hold := h.slot n hn
    rw [hs n hn]
    split_ifs with he
    · simp only [ne_eq, hb, not_false_eq_true, true_iff]
      rw [hB] at he hfit ⊢
      omega
    · rw [hold]
      rw [hB] at he hfit ⊢
      omega
  · have hold := h.indirect
    rw [ne_eq, hind]
    rw [hB] at hfit hold ⊢
    rw [hN] at hold ⊢
    omega

end Exact

def Stops (m : Image) (off n : ℕ) (e : Exit) : Prop :=
  (e = .assertion ∧ MAXFILE * BSIZE < off + n) ∨
    (e = .read ∧ FSSIZE + nblocks off < m.freeblock + nblocks (off + n))

lemma assert_spec {p : Prop} [Decidable p] {m : Image} {Q : PUnit → Image → Prop} {B : Exit → Prop}
    (hq : p → Q ⟨⟩ m) (hb : ¬ p → B .assertion) : Spec (assert p) m Q B := by
  unfold assert
  split_ifs with hp
  · exact hq hp
  · exact hb hp

structure Appended (v : ℕ → Dinode) (i : ℕ) (m : Image) (st : Store) (off : ℕ) (p : List UInt8)
    (r : Dinode × ℕ) (m' : Image) (st' : Store) : Prop where
  mirrors : Mirrors m' st'
  written : Written v i st off p r.1 st'
  exact : Exact st'.disk r.1 (off + p.length)
  offset : r.2 = off + p.length
  le : off + p.length ≤ MAXFILE * BSIZE
  freeinode : m'.freeinode = m.freeinode
  freeblock : m'.freeblock + nblocks off = m.freeblock + nblocks (off + p.length)

lemma add_le_of_fit {off k : ℕ} (hbn : off / BSIZE < MAXFILE) (hfit : off % BSIZE + k ≤ BSIZE) :
    off + k ≤ MAXFILE * BSIZE := by
  have := (Nat.div_lt_iff_lt_mul (by decide)).mp hbn
  rw [show MAXFILE * BSIZE = 140 * 512 from rfl] at this ⊢
  rw [show BSIZE = 512 from rfl] at hfit
  omega

section

variable {m : Image} {st : Store} {v : ℕ → Dinode} {i : ℕ}

lemma iappendLoop_spec (h : Mirrors m st) (hh : Holds st v) (hi : i < islots) (ht : (v i).type ≠ 0)
    {off fuel : ℕ} {p : List UInt8} (hx : Exact st.disk (v i) off) (hoff : off ≤ MAXFILE * BSIZE)
    (hf : p.length ≤ fuel) :
    Spec (iappendLoop fuel (v i) off p) m (fun r m' => ∃ st', Appended v i m st off p r m' st')
      (Stops m off p.length) := by
  induction fuel generalizing m st v off p with
  | zero =>
    obtain rfl : p = [] := List.length_eq_zero_iff.mp (by omega)
    exact ⟨st, h, .nil hh off, hx, rfl, hoff, rfl, rfl⟩
  | succ fuel ih =>
    by_cases hp : p = []
    · subst hp
      exact ⟨st, h, .nil hh off, hx, rfl, hoff, rfl, rfl⟩
    have hpos := List.length_pos_of_ne_nil hp
    have hmod : off % BSIZE < BSIZE := Nat.mod_lt _ (by decide)
    have hi' : i < st.sb.ninodes := by rwa [h.sb]
    unfold iappendLoop
    rw [if_neg hp]
    apply Spec.bind
    refine assert_spec (fun hbn => ?_) (fun hbn => .inl ⟨rfl, ?_⟩)
    swap
    · have := (Nat.le_div_iff_mul_le (by decide)).mp (not_lt.mp hbn)
      omega
    have hn1 : min p.length ((off / BSIZE + 1) * BSIZE - off) = min p.length (BSIZE - off % BSIZE) := by
      rw [show BSIZE = 512 from rfl]
      omega
    have hcol : off - off / BSIZE * BSIZE = off % BSIZE := by
      rw [show BSIZE = 512 from rfl]
      omega
    simp only [hn1, hcol]
    set k := min p.length (BSIZE - off % BSIZE) with hk
    have hfit : off % BSIZE + k ≤ BSIZE := by omega
    have hneed := hx.need hbn (k := k) (by omega) hfit
    have hmono : nblocks (off + k) ≤ nblocks (off + p.length) := nblocks_mono (by omega)
    apply Spec.bind
    refine (fileBlock_spec h hh hi' ht hbn).mono ?_ (fun e he => .inr ⟨he.1, by omega⟩)
    rintro ⟨x, ip'⟩ m' ⟨hino, hblock⟩
    rcases hblock with ⟨st', hm, h'⟩ | ⟨hpast, hfull⟩
    swap
    · apply Spec.bind
      exact rsect_fails hpast (.inr ⟨rfl, by omega⟩)
    have hfb := h.freeblock_eq h' hm hh hi' ht
    have hmap : Mapped v i _ st x ip' st' := hm.mapped hh hi' ht hbn
    have hv : assign v i ip' i = ip' := assign_self ..
    have ht' := hmap.type_ne ht
    obtain ⟨hlo, hhi, hused⟩ :=
      h'.held hmap.effect.holds (hmap.lt hi') ht' (dataSlot_lt hbn) hmap.slot_assign hmap.ne_zero
    apply Spec.bind
    refine rsect_spec h'.len hhi ?_
    apply Spec.bind
    refine wsect_spec h'.len hhi ?_
    rw [← h'.data x hlo]
    have hlen : (p.take k).length = k := by rw [List.length_take]; omega
    have hw := hmap.write hi' ht (fun h0 => (hm.eq_of_mapped h0).1) hbn rfl
      (show off % BSIZE + (p.take k).length ≤ BSIZE by omega) (List.ne_nil_of_length_pos (by omega))
    have hslots := hmap.slots_write hi' ht hbn ((st'.disk x).splice (off % BSIZE) (p.take k))
    have hx' := hx.grow hmap.ne_zero (k := k) (by omega) hfit
      (fun n hn => hm.slots hh hi' ht hbn hn) (hm.indirect hh)
    have hrec := ih (h'.write hlo hused ((st'.disk x).splice (off % BSIZE) (p.take k)))
      hw.effect.holds ht' (by rw [hv]; exact hx'.congr hslots) (p := p.drop k)
      (add_le_of_fit hbn hfit) (by rw [List.length_drop]; omega)
    rw [hv] at hrec
    have hsum : off + k + (p.drop k).length = off + p.length := by rw [List.length_drop]; omega
    refine hrec.mono ?_ ?_
    · rintro r m'' ⟨st'', ha⟩
      have hle := ha.le
      have happ := hw.append (b := p.drop k) (by rw [hlen]; exact ha.written)
        (by rw [List.take_append_drop]; omega)
      rw [List.take_append_drop] at happ
      have hfb' := ha.freeblock
      have hx'' := ha.exact
      rw [hsum] at hle hfb' hx''
      refine ⟨st'', ha.mirrors, happ, hx'', ha.offset.trans hsum, hle, ha.freeinode.trans hino, ?_⟩
      have : (m'.put x ((st'.disk x).splice (off % BSIZE) (p.take k))).freeblock = m'.freeblock := rfl
      omega
    · rintro e (⟨rfl, he⟩ | ⟨rfl, he⟩)
      · exact .inl ⟨rfl, by omega⟩
      · refine .inr ⟨rfl, ?_⟩
        rw [hsum] at he
        have : (m'.put x ((st'.disk x).splice (off % BSIZE) (p.take k))).freeblock = m'.freeblock := rfl
        omega

end

end Xv6.Mkfs
