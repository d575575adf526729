import Xv6.Block
import Xv6.Lib.Writes

namespace Xv6.Log

open Lib Writes

structure Area where
  start : ℕ
  size : ℕ

def Area.Mem (log : Area) (b : ℕ) : Prop := log.start ≤ b ∧ b < log.start + log.size

instance (log : Area) (b : ℕ) : Decidable (log.Mem b) := inferInstanceAs (Decidable (_ ∧ _))

structure Buf where
  data : Block
  dirty : Bool

structure Machine where
  disk : Disk
  cache : ℕ → Option Buf
  writes : List (ℕ × Block)
  reads : ℕ

abbrev Policy := ℕ → ℕ → Bool

def boot (d : Disk) : Machine := ⟨d, fun _ => none, [], 0⟩

def recycle (p : Policy) (m : Machine) : ℕ → Option Buf := fun b =>
  (m.cache b).filter (fun buf => buf.dirty || !p m.reads b)

def bread (p : Policy) (b : ℕ) (m : Machine) : Block × Machine :=
  match recycle p m b with
  | some buf => (buf.data, { m with cache := recycle p m, reads := m.reads + 1 })
  | none => (m.disk b,
      { m with cache := assign (recycle p m) b (some ⟨m.disk b, false⟩), reads := m.reads + 1 })

def bwrite (b : ℕ) (data : Block) (m : Machine) : Machine :=
  { m with
    disk := assign m.disk b data
    cache := assign m.cache b (some ⟨data, false⟩)
    writes := m.writes ++ [(b, data)] }

def headerCount (hb : Block) : ℤ := (hb.word 0).toInt32.toInt

def headerBlocks (hb : Block) : List ℕ :=
  (List.range (headerCount hb).toNat).map (fun i => (hb.word (i + 1)).toNat)

def putBlocks (hb : Block) (i : ℕ) : List ℕ → Block
  | [] => hb
  | b :: bs => putBlocks (hb.setWord (i + 1) (UInt32.ofNat b)) (i + 1) bs

def putHeader (hb : Block) (lh : List ℕ) : Block :=
  putBlocks (hb.setWord 0 (UInt32.ofNat lh.length)) 0 lh

def writeLog (log : Area) (p : Policy) : List ℕ → ℕ → Machine → Machine
  | [], _, m => m
  | b :: bs, tail, m =>
    let (_, m) := bread p (log.start + tail + 1) m
    let (frm, m) := bread p b m
    writeLog log p bs (tail + 1) (bwrite (log.start + tail + 1) frm m)

def writeHead (log : Area) (p : Policy) (lh : List ℕ) (m : Machine) : Machine :=
  let (hb, m) := bread p log.start m
  bwrite log.start (putHeader hb lh) m

def readHead (log : Area) (p : Policy) (m : Machine) : List ℕ × Machine :=
  let (hb, m) := bread p log.start m
  (headerBlocks hb, m)

def installTrans (log : Area) (p : Policy) : List ℕ → ℕ → Machine → Machine
  | [], _, m => m
  | b :: bs, tail, m =>
    let (lbuf, m) := bread p (log.start + tail + 1) m
    let (_, m) := bread p b m
    installTrans log p bs (tail + 1) (bwrite b lbuf m)

def commit (log : Area) (p : Policy) (lh : List ℕ) (m : Machine) : Machine :=
  if lh.length > 0 then
    let m := writeLog log p lh 0 m
    let m := writeHead log p lh m
    let m := installTrans log p lh 0 m
    writeHead log p [] m
  else m

def recoverFromLog (log : Area) (p : Policy) (m : Machine) : Machine :=
  let (lh, m) := readHead log p m
  let m := installTrans log p lh 0 m
  writeHead log p [] m

def crashed (d : Disk) (m : Machine) (k : ℕ) : Disk := applyWrites d (m.writes.take k)

namespace Machine

def content (m : Machine) (b : ℕ) : Block := (m.cache b).elim (m.disk b) Buf.data

def Coherent (m : Machine) : Prop :=
  ∀ b buf, m.cache b = some buf → buf.dirty = false → buf.data = m.disk b

structure Wrote (m : Machine) (ws : List (ℕ × Block)) (m' : Machine) : Prop where
  coherent : m'.Coherent
  writes : m'.writes = m.writes ++ ws
  disk : m'.disk = applyWrites m.disk ws
  content : m'.content = applyWrites m.content ws

lemma Wrote.refl {m : Machine} (h : m.Coherent) : Wrote m [] m :=
  ⟨h, by simp, rfl, rfl⟩

lemma Wrote.trans {m1 m2 m3 : Machine} {ws vs : List (ℕ × Block)}
    (h1 : Wrote m1 ws m2) (h2 : Wrote m2 vs m3) : Wrote m1 (ws ++ vs) m3 where
  coherent := h2.coherent
  writes := by rw [h2.writes, h1.writes, List.append_assoc]
  disk := by rw [h2.disk, h1.disk, applyWrites_append]
  content := by rw [h2.content, h1.content, applyWrites_append]

lemma Wrote.congr_writes {m m' : Machine} {ws vs : List (ℕ × Block)} (h : Wrote m ws m') (he : ws = vs) :
    Wrote m vs m' := he ▸ h

lemma coherent_boot (d : Disk) : (boot d).Coherent := by
  intro b buf h
  simp [boot] at h

lemma content_boot (d : Disk) : (boot d).content = d := rfl

end Machine

open Machine

lemma recycle_some {p : Policy} {m : Machine} {b : ℕ} {buf : Buf} (h : recycle p m b = some buf) :
    m.cache b = some buf :=
  (Option.filter_eq_some_iff.mp h).1

lemma recycle_content (p : Policy) {m : Machine} (hm : m.Coherent) (b : ℕ) :
    (recycle p m b).elim (m.disk b) Buf.data = m.content b := by
  unfold content
  cases hc : m.cache b with
  | none => simp [recycle, hc]
  | some buf =>
    by_cases hk : buf.dirty || !p m.reads b
    · simp [recycle, hc, Option.filter, hk]
    · have hd : buf.dirty = false := by
        simp only [Bool.or_eq_true, not_or] at hk
        simpa using hk.1
      simp [recycle, hc, Option.filter, hk, hm b buf hc hd]

lemma bread_fst (p : Policy) (b : ℕ) {m : Machine} (hm : m.Coherent) : (bread p b m).1 = m.content b := by
  rw [← recycle_content p hm b]
  unfold bread
  split <;> simp_all

lemma bread_wrote (p : Policy) (b : ℕ) {m : Machine} (hm : m.Coherent) : Wrote m [] (bread p b m).2 := by
  unfold bread
  split
  · refine ⟨?_, by simp, rfl, ?_⟩
    · intro x buf hx hd
      exact hm x buf (recycle_some hx) hd
    · funext x
      exact recycle_content p hm x
  · rename_i hb
    refine ⟨?_, by simp, rfl, ?_⟩
    · intro x buf hx hd
      by_cases hxb : x = b
      · subst hxb
        simp only [assign_self, Option.some.injEq] at hx
        rw [← hx]
      · simp only [assign_of_ne hxb] at hx
        exact hm x buf (recycle_some hx) hd
    · funext x
      by_cases hxb : x = b
      · subst hxb
        rw [applyWrites_nil, ← recycle_content p hm x, hb]
        simp [content]
      · rw [applyWrites_nil, ← recycle_content p hm x]
        simp [content, assign_of_ne hxb]

lemma bwrite_wrote (b : ℕ) (data : Block) {m : Machine} (hm : m.Coherent) :
    Wrote m [(b, data)] (bwrite b data m) := by
  refine ⟨?_, rfl, rfl, ?_⟩
  · intro x buf hx hd
    by_cases hxb : x = b
    · subst hxb
      simp only [bwrite, assign_self, Option.some.injEq] at hx
      simp [bwrite, ← hx]
    · simp only [bwrite, assign_of_ne hxb] at hx ⊢
      exact hm x buf hx hd
  · funext x
    by_cases hxb : x = b
    · subst hxb
      simp [content, bwrite]
    · simp [content, bwrite, assign_of_ne hxb]

def logCopies (log : Area) (f : ℕ → Block) : List ℕ → ℕ → List (ℕ × Block)
  | [], _ => []
  | b :: bs, tail => (log.start + tail + 1, f b) :: logCopies log f bs (tail + 1)

def homeCopies (log : Area) (f : ℕ → Block) : List ℕ → ℕ → List (ℕ × Block)
  | [], _ => []
  | b :: bs, tail => (b, f (log.start + tail + 1)) :: homeCopies log f bs (tail + 1)

lemma logCopies_congr (log : Area) {f g : ℕ → Block} {bs : List ℕ} (h : ∀ b ∈ bs, f b = g b) (tail : ℕ) :
    logCopies log f bs tail = logCopies log g bs tail := by
  induction bs generalizing tail with
  | nil => rfl
  | cons b bs ih =>
    simp only [logCopies, h b List.mem_cons_self, ih (fun x hx => h x (List.mem_cons_of_mem _ hx))]

lemma homeCopies_congr (log : Area) {f g : ℕ → Block} {bs : List ℕ} {tail : ℕ}
    (h : ∀ i, tail ≤ i → i < tail + bs.length → f (log.start + i + 1) = g (log.start + i + 1)) :
    homeCopies log f bs tail = homeCopies log g bs tail := by
  induction bs generalizing tail with
  | nil => rfl
  | cons b bs ih =>
    simp only [List.length_cons] at h
    rw [homeCopies, homeCopies, h tail (by omega) (by omega)]
    rw [ih (fun i hi hj => h i (by omega) (by omega))]

lemma copy_wrote (p : Policy) (a b c : ℕ) (data : Block) {m : Machine} (hm : m.Coherent) :
    Wrote m [(c, data)] (bwrite c data (bread p b (bread p a m).2).2) := by
  have h1 := bread_wrote p a hm
  have h2 := h1.trans (bread_wrote p b h1.coherent)
  exact h2.trans (bwrite_wrote c data h2.coherent)

lemma writeLog_wrote (log : Area) (p : Policy) (bs : List ℕ) (tail : ℕ) {m : Machine} (hm : m.Coherent)
    (hout : ∀ b ∈ bs, ¬ log.Mem b) (hfit : tail + bs.length + 1 ≤ log.size) :
    Wrote m (logCopies log m.content bs tail) (writeLog log p bs tail m) := by
  induction bs generalizing tail m with
  | nil => exact Wrote.refl hm
  | cons b bs ih =>
    simp only [List.length_cons] at hfit
    have hout' : ∀ x ∈ bs, ¬ log.Mem x := fun x hx => hout x (List.mem_cons_of_mem _ hx)
    have h1 := bread_wrote p (log.start + tail + 1) hm
    have hf : (bread p b (bread p (log.start + tail + 1) m).2).1 = m.content b := by
      rw [bread_fst p b h1.coherent, h1.content, applyWrites_nil]
    have h2 := copy_wrote p (log.start + tail + 1) b (log.start + tail + 1) (m.content b) hm
    simp only [writeLog, hf]
    refine (h2.trans (ih (tail + 1) h2.coherent hout' (by omega))).congr_writes ?_
    -- the blocks still to be copied lie outside the log area
    rw [logCopies, List.singleton_append, h2.content]
    refine congrArg _ (logCopies_congr log (fun x hx => assign_of_ne ?_ ..) _)
    rintro rfl
    exact hout' _ hx ⟨by omega, by omega⟩

lemma writeHead_wrote (log : Area) (p : Policy) (lh : List ℕ) {m : Machine} (hm : m.Coherent) :
    Wrote m [(log.start, putHeader (m.content log.start) lh)] (writeHead log p lh m) := by
  have h1 := bread_wrote p log.start hm
  simp only [writeHead, bread_fst p log.start hm]
  exact h1.trans (bwrite_wrote _ _ h1.coherent)

lemma installTrans_wrote (log : Area) (p : Policy) (bs : List ℕ) (tail : ℕ) {m : Machine}
    (hm : m.Coherent) (hout : ∀ b ∈ bs, ¬ log.Mem b) (hfit : tail + bs.length + 1 ≤ log.size) :
    Wrote m (homeCopies log m.content bs tail) (installTrans log p bs tail m) := by
  induction bs generalizing tail m with
  | nil => exact Wrote.refl hm
  | cons b bs ih =>
    simp only [List.length_cons] at hfit
    have hout' : ∀ x ∈ bs, ¬ log.Mem x := fun x hx => hout x (List.mem_cons_of_mem _ hx)
    have h1 := copy_wrote p (log.start + tail + 1) b b (m.content (log.start + tail + 1)) hm
    simp only [installTrans, bread_fst p (log.start + tail + 1) hm]
    refine (h1.trans (ih (tail + 1) h1.coherent hout' (by omega))).congr_writes ?_
    rw [homeCopies, List.singleton_append, h1.content]
    refine congrArg _ (homeCopies_congr log fun i hi hj => assign_of_ne ?_ ..)
    rintro rfl
    exact hout _ List.mem_cons_self ⟨by omega, by omega⟩

end Xv6.Log
