import Xv6.Lib.Words
import Xv6.Umalloc.Heap
import Xv6.Vm.Grow

namespace Xv6.Umalloc

open Lib

abbrev KERNBASE : ℕ := 0x80000000

def pgroundup (a : ℕ) : ℕ := (a + 4095) / 4096 * 4096

structure Mem where
  sz : ℕ
  mapped : ℕ

namespace Mem

def allocuvm (m : Mem) (newsz : ℕ) (ok : Bool) : Mem × ℕ :=
  if KERNBASE ≤ newsz then (m, 0)
  else if newsz < m.sz then (m, m.sz)
  else if ok then ({ m with mapped := pgroundup newsz }, newsz)
  else (m, 0)

def deallocuvm (m : Mem) (newsz : ℕ) : Mem × ℕ :=
  if m.sz ≤ newsz then (m, m.sz) else ({ m with mapped := pgroundup newsz }, newsz)

def plus (sz : ℕ) (n : Int32) : ℕ := (UInt32.ofNat sz + n.toUInt32).toNat

/-- `false` is the return value `-1`. -/
def growproc (m : Mem) (n : Int32) (ok : Bool) : Mem × Bool :=
  if 0 < n then
    let r := m.allocuvm (plus m.sz n) ok
    if r.2 = 0 then (r.1, false) else ({ r.1 with sz := r.2 }, true)
  else if n < 0 then
    let r := m.deallocuvm (plus m.sz n)
    if r.2 = 0 then (r.1, false) else ({ r.1 with sz := r.2 }, true)
  else (m, true)

/-- `none` is the return value `-1`. -/
def sys_sbrk (m : Mem) (n : Int32) (ok : Bool) : Mem × Option ℕ :=
  ((m.growproc n ok).1, if (m.growproc n ok).2 then some m.sz else none)

def answers (n : Int32) : ℕ → Mem → (ℕ → Bool) → List (Option ℕ)
  | 0, _, _ => []
  | k + 1, m, ok => (m.sys_sbrk n (ok 0)).2 :: answers n k (m.sys_sbrk n (ok 0)).1 fun i => ok (i + 1)

def after (n : Int32) : ℕ → Mem → (ℕ → Bool) → Mem
  | 0, m, _ => m
  | k + 1, m, ok => after n k (m.sys_sbrk n (ok 0)).1 fun i => ok (i + 1)

variable {m : Mem} {N : ℕ} {ok : Bool}

lemma toInt_toInt32 (hN : N < 2 ^ 31) : (UInt32.ofNat N).toInt32.toInt = N := by
  rcases toInt_cases (UInt32.ofNat N).toInt32 with ⟨h, hi⟩ | ⟨h, -⟩
  all_goals
    rw [UInt32.toUInt32_toInt32, UInt32.toNat_ofNat', Nat.mod_eq_of_lt (by omega)] at *
  · exact hi
  · omega

lemma toInt_toInt32_neg (h : 2 ^ 31 ≤ N) (hN : N < 2 ^ 32) :
    (UInt32.ofNat N).toInt32.toInt = N - 2 ^ 32 := by
  rcases toInt_cases (UInt32.ofNat N).toInt32 with ⟨h', -⟩ | ⟨-, hi⟩
  all_goals
    rw [UInt32.toUInt32_toInt32, UInt32.toNat_ofNat', Nat.mod_eq_of_lt (by omega)] at *
  · omega
  · exact hi

lemma plus_toInt32 (sz : ℕ) : plus sz (UInt32.ofNat N).toInt32 = (sz + N) % 2 ^ 32 := by
  rw [plus, UInt32.toUInt32_toInt32, UInt32.toNat_add, UInt32.toNat_ofNat', UInt32.toNat_ofNat',
    ← Nat.add_mod]

lemma growproc_grow {n : Int32} (hn : 0 < n) (hK : plus m.sz n < KERNBASE)
    (hle : m.sz ≤ plus m.sz n) (h0 : plus m.sz n ≠ 0) :
    m.growproc n ok = if ok then (⟨plus m.sz n, pgroundup (plus m.sz n)⟩, true) else (m, false) := by
  have halloc : m.allocuvm (plus m.sz n) ok =
    if ok then ({ m with mapped := pgroundup (plus m.sz n) }, plus m.sz n) else (m, 0) := by
    rw [allocuvm, if_neg (not_le.mpr hK), if_neg (not_lt.mpr hle)]
  rw [growproc, if_pos hn, halloc]
  cases ok with
  | false => rfl
  | true => exact if_neg h0

lemma growproc_over {n : Int32} (hn : 0 < n) (hK : ¬ plus m.sz n < KERNBASE) :
    m.growproc n ok = (m, false) := by
  have halloc : m.allocuvm (plus m.sz n) ok = (m, 0) := if_pos (not_lt.mp hK)
  rw [growproc, if_pos hn, halloc]
  rfl

lemma sys_sbrk_grow (h0 : 0 < N) (hN : N < 2 ^ 31) (hsz : m.sz < KERNBASE) :
    m.sys_sbrk (UInt32.ofNat N).toInt32 ok =
      if m.sz + N < KERNBASE ∧ ok then (⟨m.sz + N, pgroundup (m.sz + N)⟩, some m.sz) else (m, none) := by
  have hK : KERNBASE = 2 ^ 31 := rfl
  have hpos : 0 < (UInt32.ofNat N).toInt32 := by
    rw [Int32.lt_iff_toInt_lt, toInt_toInt32 hN]
    change (0 : ℤ) < N
    omega
  have hplus : plus m.sz (UInt32.ofNat N).toInt32 = m.sz + N := by
    rw [plus_toInt32, Nat.mod_eq_of_lt (by omega)]
  by_cases hk : m.sz + N < KERNBASE
  · rw [sys_sbrk, growproc_grow hpos (by omega) (by omega) (by omega), hplus]
    cases ok <;> simp [hk]
  · rw [sys_sbrk, growproc_over hpos (hplus ▸ hk)]
    simp [hk]

lemma sys_sbrk_zero : m.sys_sbrk (UInt32.ofNat (2 ^ 32)).toInt32 ok = (m, some m.sz) := rfl

lemma sys_sbrk_neg (h : 2 ^ 31 ≤ N) (hN : N < 2 ^ 32) (h0 : 0 < m.sz) (hsz : m.sz < KERNBASE) :
    m.sys_sbrk (UInt32.ofNat N).toInt32 ok =
      if m.sz + N < 2 ^ 32 then (m, some m.sz)
      else if m.sz + N = 2 ^ 32 then (⟨m.sz, 0⟩, none)
      else (⟨m.sz + N - 2 ^ 32, pgroundup (m.sz + N - 2 ^ 32)⟩, some m.sz) := by
  have hK : KERNBASE = 2 ^ 31 := rfl
  have hneg : (UInt32.ofNat N).toInt32 < 0 := by
    rw [Int32.lt_iff_toInt_lt, toInt_toInt32_neg h hN]
    change (N : ℤ) - 2 ^ 32 < 0
    omega
  have hnot : ¬ 0 < (UInt32.ofNat N).toInt32 := by
    rw [Int32.lt_iff_toInt_lt] at hneg ⊢
    omega
  have hdealloc : m.deallocuvm ((m.sz + N) % 2 ^ 32) = if m.sz + N < 2 ^ 32 then (m, m.sz) else
      ({ m with mapped := pgroundup (m.sz + N - 2 ^ 32) }, m.sz + N - 2 ^ 32) := by
    by_cases hlt : m.sz + N < 2 ^ 32
    · rw [deallocuvm, Nat.mod_eq_of_lt hlt, if_pos (by omega), if_pos hlt]
    · have hmod : (m.sz + N) % 2 ^ 32 = m.sz + N - 2 ^ 32 := by omega
      rw [deallocuvm, hmod, if_neg (by omega), if_neg hlt]
  simp only [sys_sbrk, growproc, if_neg hnot, if_pos hneg, plus_toInt32, hdealloc]
  by_cases hlt : m.sz + N < 2 ^ 32
  · rw [if_pos hlt, if_pos hlt]
    simp [h0.ne']
  rw [if_neg hlt, if_neg hlt]
  by_cases heq : m.sz + N = 2 ^ 32
  · rw [if_pos heq]
    simp [heq, pgroundup]
  · have hne : m.sz + N - 2 ^ 32 ≠ 0 := by omega
    rw [if_neg heq]
    simp only [hne, if_false, if_true]

end Mem

section

variable {ld : Vm.Kernel} {m m' : Vm.Mem} {A : Vm.View} {pd : ℕ} {p : Vm.Proc} {n : Int32}

def ofProc (p : Vm.Proc) : Mem := ⟨p.sz.toNat, pgroundup p.sz.toNat⟩

structure Answers (pd : ℕ) (r : Int × Vm.Proc) (m' : Vm.Mem) (a : Mem × Bool) : Prop where
  ret : r.1 = 0 ↔ a.2 = true
  sz : r.2.sz.toNat = a.1.sz
  mapped : ∀ k < 2 ^ 19, Vm.Present (Vm.entry m'.mem pd k) ↔ k * 4096 < a.1.mapped

lemma lt_pgroundup {sz : UInt32} {k : ℕ} : k * 4096 < pgroundup sz.toNat ↔ k < Vm.npages sz := by
  rw [pgroundup, Vm.npages]
  omega

lemma plus_toNat (sz : UInt32) (n : Int32) : Mem.plus sz.toNat n = (sz + n.toUInt32).toNat := by
  rw [Mem.plus, UInt32.ofNat_toNat]

lemma answers_ended {a : Mem} (sz : UInt32) (hsz : p.sz.toNat = a.sz)
    (hm : ∀ k < 2 ^ 19, Vm.Present (Vm.entry m'.mem pd k) ↔ k * 4096 < a.mapped) :
    Answers pd (Vm.ended p sz) m' (if sz.toNat = 0 then (a, false) else ({ a with sz := sz.toNat },
    true)) := by
  rw [Vm.ended]
  by_cases hz : sz = 0
  · rw [if_pos hz, if_pos (by rw [hz]; rfl)]
    exact ⟨by simp, hsz, hm⟩
  · rw [if_neg hz, if_neg (show sz.toNat ≠ 0 from fun h0 => hz (UInt32.toNat_inj.mp h0))]
    exact ⟨by simp, rfl, hm⟩

theorem growproc_refines (h : Vm.Runs ld m A pd p) (hdeny : ∀ j, A.deny j = false)
    (hlast : 0 < n.toInt → p.sz + n.toUInt32 < Vm.KERNBASE →
      ¬ A.LastTable pd (Vm.npages p.sz) (Vm.npages (p.sz + n.toUInt32))) :
    (Vm.growproc ld p n).Wp m (fun r m' => ∃ ok, Answers pd r m' ((ofProc p).growproc n ok))
      (fun _ _ => False) := by
  have hmapped : ∀ k < 2 ^ 19, Vm.Present (Vm.entry m.mem pd k) ↔ k * 4096 < (ofProc p).mapped :=
    fun k hk => by
    rw [ofProc, lt_pgroundup, h.mapped]
    exact (and_iff_right hk).symm
  have hpos : 0 < n ↔ 0 < n.toInt := Int32.lt_iff_toInt_lt
  have hneg : n < 0 ↔ n.toInt < 0 := Int32.lt_iff_toInt_lt
  rcases lt_trichotomy n.toInt 0 with hn | hn | hn
  · refine (Vm.growproc_shrinks h hn).imp ?_
    rintro r m' (⟨-, hge, rfl, rfl⟩ | ⟨hlt, -, rfl, hexact⟩)
    all_goals
      refine ⟨true, ?_⟩
      rw [Mem.growproc, if_neg (by rw [hpos]; omega), if_pos (hneg.mpr hn)]
      dsimp only
      rw [ofProc, plus_toNat, Mem.deallocuvm]
    · rw [if_pos (UInt32.le_iff_toNat_le.mp hge)]
      exact answers_ended p.sz rfl hmapped
    · rw [if_neg (not_le.mpr (UInt32.lt_iff_toNat_lt.mp hlt))]
      refine answers_ended _ rfl fun k hk => ?_
      rw [lt_pgroundup]
      exact hexact.mapped rfl k hk
  · refine (Vm.growproc_zero h hn).imp ?_
    rintro r m' ⟨rfl, rfl⟩
    refine ⟨true, ?_⟩
    rw [Mem.growproc, if_neg (by rw [hpos]; omega), if_neg (by rw [hneg]; omega)]
    exact ⟨by simp, rfl, hmapped⟩
  have hsz := Vm.toNat_grow h hn
  have hplus : Mem.plus (ofProc p).sz n = (p.sz + n.toUInt32).toNat := plus_toNat p.sz n
  have hbase : p.sz + n.toUInt32 < Vm.KERNBASE ↔ Mem.plus (ofProc p).sz n < KERNBASE := by
    rw [hplus]
    exact UInt32.lt_iff_toNat_lt
  by_cases hlt : p.sz + n.toUInt32 < Vm.KERNBASE
  swap
  · refine (Vm.growproc_over h hn hlt).imp ?_
    rintro r m' ⟨rfl, rfl⟩
    refine ⟨false, ?_⟩
    rw [Mem.growproc_over (hpos.mpr hn) (mt hbase.mpr hlt)]
    exact ⟨by simp, rfl, hmapped⟩
  have hle : p.sz.toNat ≤ (p.sz + n.toUInt32).toNat := by omega
  refine (Vm.growproc_pos h hdeny hn hlt).imp fun r m' hr => ?_
  have hexact := hr.mpr (hlast hn hlt)
  rcases hexact.ret with h0 | h1
  · have hsize : r.2.sz.toNat = (p.sz + n.toUInt32).toNat := by
      have := hexact.size h0
      omega
    refine ⟨true, ?_⟩
    rw [Mem.growproc_grow (hpos.mpr hn) (hbase.mp hlt) (hplus ▸ hle) (by omega), hplus]
    refine ⟨by simpa using h0, hsize, fun k hk => ?_⟩
    rw [hexact.mapped h0 k hk, UInt32.toNat_inj.mp hsize]
    exact lt_pgroundup.symm
  · obtain ⟨hkept, hsame⟩ := hexact.kept h1
    refine ⟨false, ?_⟩
    rw [Mem.growproc_grow (hpos.mpr hn) (hbase.mp hlt) (hplus ▸ hle) (by omega)]
    exact ⟨by simp [h1], by rw [hkept]; rfl, fun k hk => (hsame k hk).1.trans (hmapped k hk)⟩

end

def sbrkArg (nbytes : ℕ) : Int32 := (UInt32.ofNat (8 * Heap.request (Heap.nunits nbytes))).toInt32

end Xv6.Umalloc
