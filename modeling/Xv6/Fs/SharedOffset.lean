import Xv6.Fs.FiniteMap
import Xv6.Fs.Sysfile
import Xv6.Lib.Run

namespace Xv6.Fs

open Lib Prog

namespace Sys

def fileread (f : ℕ) (n : UInt32) : FsProg (Option (List UInt8)) := do
  let file := (← kget).ftable f
  if ¬ file.readable then return none
  else match file.type with
    | .pipe => device
    | .inode => do
      ilock file.ip
      let file := (← kget).ftable f
      let r ← readi file.ip file.off n
      if 0 < (r.getD []).length then
        kset ((← kget).setFile f { file with off := file.off + UInt32.ofNat (r.getD []).length })
      iunlock file.ip
      return r
    | .none => panic .fileread

end Sys

lemma Wf.clear {st : Store} (h : Wf st) (l : List ℕ) : Wf { st with logged := l } :=
  ⟨⟨h.holds.sb, h.holds.ordered, h.holds.ledger⟩, h.sized⟩

namespace Shared

/-- Where a process is: outside the file system, in the loop of `filewrite` with `rest` still to
write, or on its way out of that loop after a refused write. -/
inductive Pc
  | idle
  | write (n : ℕ) (rest : List UInt8)
  | refused

structure Sharing where
  fs : FsState
  pc : ℕ → Pc

inductive Label
  | call (t : ℕ) (src : List UInt8)
  | chunk (t : ℕ) (src : List UInt8) (r : Option ℕ)
  | ret (t : ℕ) (r : Option ℕ)
  | read (t : ℕ) (n : UInt32) (r : Option (List UInt8))

inductive Step (f : ℕ) : Sharing → Label → Sharing → Prop
  | call {s : Sharing} {t : ℕ} {src : List UInt8} : s.pc t = .idle →
      (s.fs.kern.ftable f).writable = true →
      Step f s (.call t src) { s with pc := assign s.pc t (.write src.length src) }
  | chunk {s : Sharing} {t n : ℕ} {rest : List UInt8} {fs' : FsState} : s.pc t = .write n rest →
      rest ≠ [] →
      ((Sys.filewriteChunk f (rest.take MAXWRITE)).run handler).run s.fs =
        .ok (some (rest.take MAXWRITE).length, fs') →
      Step f s (.chunk t (rest.take MAXWRITE) (some (rest.take MAXWRITE).length))
        ⟨fs', assign s.pc t (.write n (rest.drop MAXWRITE))⟩
  | refuse {s : Sharing} {t n : ℕ} {rest : List UInt8} {fs' : FsState} : s.pc t = .write n rest →
      rest ≠ [] →
      ((Sys.filewriteChunk f (rest.take MAXWRITE)).run handler).run s.fs = .ok (none, fs') →
      Step f s (.chunk t (rest.take MAXWRITE) none) ⟨fs', assign s.pc t .refused⟩
  | ret {s : Sharing} {t n : ℕ} : s.pc t = .write n [] →
      Step f s (.ret t (some n)) { s with pc := assign s.pc t .idle }
  | fail {s : Sharing} {t : ℕ} : s.pc t = .refused →
      Step f s (.ret t none) { s with pc := assign s.pc t .idle }
  | read {s : Sharing} {t : ℕ} {n : UInt32} {r : Option (List UInt8)} {fs' : FsState} : s.pc t = .idle →
      ((Sys.fileread f n).run handler).run s.fs = .ok (r, fs') → Step f s (.read t n r) ⟨fs', s.pc⟩

structure Opened (fs : FsState) (f i : ℕ) : Prop where
  wf : Wf fs.store
  lt : i < fs.store.sb.ninodes
  file : (fs.store.inode i).type = T_FILE
  entry : ∃ r d, fs.icache i = some ⟨r, false, d⟩ ∧ ∀ ip, d = some ip → fs.store.inode i = ip
  type : (fs.kern.ftable f).type = .inode
  ip : (fs.kern.ftable f).ip = i

abbrev fileData (fs : FsState) (i : ℕ) : List UInt8 := contents fs.store.disk (fs.store.inode i)

section

variable {fs : FsState} {f i : ℕ}

namespace Opened

variable (h : Opened fs f i)

include h

lemma not_dev : (fs.store.inode i).type ≠ T_DEV := by rw [h.file]; decide

lemma used : (fs.store.inode i).type ≠ 0 := by rw [h.file]; decide

lemma ftable : ∃ c rd wr off, fs.kern.ftable f = ⟨.inode, c, rd, wr, i, off⟩ := by
  have h1 := h.type
  have h2 := h.ip
  rcases hf : fs.kern.ftable f with ⟨t, c, rd, wr, j, off⟩
  rw [hf] at h1 h2
  exact ⟨c, rd, wr, off, by rw [show t = _ from h1, show j = _ from h2]⟩

lemma ilock : ∃ r, (Fs.ilock i).run fs = .ok (⟨⟩, fs.setEntry i ⟨r, true, some (fs.store.inode i)⟩) := by
  obtain ⟨r, d, he, hd⟩ := h.entry
  refine ⟨r, ?_⟩
  rw [StateT.run]
  unfold Fs.ilock
  simp only [he, Bool.false_eq_true, if_false]
  cases d with
  | none => simp only [if_neg h.used]
  | some ip => rw [hd ip rfl]

end Opened

def round (fs : FsState) (i r : ℕ) (busy : Bool) (ip : Dinode) (st : Store) (k : Kern) : FsState where
  store := st
  icache := assign fs.icache i (some ⟨r, busy, some ip⟩)
  used := fs.used
  kern := k

abbrev begun (fs : FsState) : Store := { fs.store with logged := [] }

def setOff (k : Kern) (f : ℕ) (off : UInt32) : Kern := k.setFile f { k.ftable f with off := off }

lemma ftable_setOff (k : Kern) (f : ℕ) (off : UInt32) :
    (setOff k f off).ftable f = { k.ftable f with off := off } :=
  assign_self ..

lemma setOff_self (k : Kern) (f : ℕ) : setOff k f (k.ftable f).off = k := by
  rw [setOff, Kern.setFile, assign_eq_self rfl]

section Rounds

variable {r : ℕ} {ip ip' : Dinode} {st st' : Store} {k : Kern} {b : Bool}

lemma iunlock_round :
    ((Sys.iunlock i).run handler).run (round fs i r true ip st k) = .ok
    (⟨⟩, round fs i r false ip st k) := by
  have he : (round fs i r true ip st k).icache i = some ⟨r, true, some ip⟩ := assign_self ..
  refine run_call ?_
  change (iunlock i) (round fs i r true ip st k) = _
  unfold iunlock
  simp only [he, if_true, FsState.setEntry]
  simp only [round, assign_assign]

lemma onInode_round {α : Type} {m : Dinode → BlockM (α × Dinode)} {a : α}
    (hm : (m ip).run st = .ok ((a, ip'), st')) :
    (onInode i m).run (round fs i r true ip st k) = .ok (a, round fs i r true ip' st' k) := by
  have he : (round fs i r true ip st k).icache i = some ⟨r, true, some ip⟩ := assign_self ..
  rw [onInode_run he hm]
  simp only [FsState.setEntry, round, assign_assign]

lemma onInode_round_error {α : Type} {m : Dinode → BlockM (α × Dinode)} {e : Halt}
    (hm : (m ip).run st = .error e) : (onInode i m).run (round fs i r true ip st k) = .error e := by
  have he : (round fs i r true ip st k).icache i = some ⟨r, true, some ip⟩ := assign_self ..
  rw [StateT.run]
  unfold onInode
  simp only [he]
  rw [show (round fs i r true ip st k).store = st from rfl, hm]

lemma round_kern : (round fs i r b ip st k).kern = k := rfl

lemma kget_run (fs : FsState) : (Sys.kget.run handler).run fs = .ok (fs.kern, fs) := rfl

lemma kset_round (k' : Kern) :
    ((Sys.kset k').run handler).run (round fs i r b ip st k) = .ok (⟨⟩, round fs i r b ip st k') := rfl

end Rounds

instance (ip : Dinode) (off n : UInt32) : Decidable (InFile ip off n) :=
    inferInstanceAs (Decidable (_ ∧ _))

def answer (ip : Dinode) (data : List UInt8) (off n : UInt32) : Option (List UInt8) :=
  if InFile ip off n then some ((data.drop off.toNat).take n.toNat) else none

lemma readi_answer (h : Opened fs f i) (off n : UInt32) : (readi (fs.store.inode i) off n).run fs.store =
      .ok ((answer (fs.store.inode i) (fileData fs i) off n, fs.store.inode i), fs.store) := by
  unfold answer
  split_ifs with hin
  · exact h.wf.readi_run h.lt h.used h.not_dev hin
  · exact h.wf.readi_reject h.lt h.used h.not_dev hin

lemma fileread_run (h : Opened fs f i) (hread : (fs.kern.ftable f).readable = true) (n : UInt32) :
    ∃ r, ((Sys.fileread f n).run handler).run fs =
      .ok (answer (fs.store.inode i) (fileData fs i) (fs.kern.ftable f).off n,
        round fs i r false (fs.store.inode i) fs.store (setOff fs.kern f ((fs.kern.ftable f).off +
          UInt32.ofNat ((answer (fs.store.inode i) (fileData fs i)
          (fs.kern.ftable f).off n).getD []).length))) := by
  obtain ⟨r, hlock⟩ := h.ilock
  have hanswer := readi_answer h (fs.kern.ftable f).off n
  refine ⟨r, ?_⟩
  generalize answer (fs.store.inode i) (fileData fs i) (fs.kern.ftable f).off n = q at hanswer ⊢
  have hlock' : ((Sys.ilock i).run handler).run fs =
      .ok (⟨⟩, round fs i r true (fs.store.inode i) fs.store fs.kern) := run_call hlock
  have hreadi : ((Sys.readi i (fs.kern.ftable f).off n).run handler).run
      (round fs i r true (fs.store.inode i) fs.store fs.kern) =
      .ok (q, round fs i r true (fs.store.inode i) fs.store fs.kern) := run_call (onInode_round hanswer)
  obtain ⟨c, rd, wr, off, hf⟩ := h.ftable
  have hself := setOff_self fs.kern f
  rw [setOff, hf] at hself
  rw [hf] at hread hreadi ⊢
  unfold Sys.fileread
  rw [run_bind_ok (kget_run fs), hf]
  dsimp only at hread hreadi hself ⊢
  rw [if_neg (by rw [hread]; simp), run_bind_ok hlock', run_bind_ok (kget_run _)]
  simp only [round_kern, hf]
  rw [run_bind_ok hreadi, setOff, hf]
  split_ifs with hlen
  · rw [run_bind_ok (kget_run _), run_bind_ok (kset_round _), run_bind_ok iunlock_round]
    rfl
  · rw [run_bind_ok iunlock_round, Nat.eq_zero_of_not_pos hlen]
    dsimp only
    rw [show off + UInt32.ofNat 0 = off from UInt32.add_zero off, hself]
    rfl

lemma writei_append (h : Opened fs f i) {src : List UInt8}
    (hmax : (fs.store.inode i).size.toNat + src.length ≤ MAXFILE * BSIZE) :
    Spec (writei i (fs.store.inode i) src (fs.store.inode i).size) (begun fs)
      (fun q st => q.1 = some src.length ∧ q.2.type = T_FILE ∧ Changed fs.store i q.2
      (fileData fs i ++ src) st) (fun e => e = .panic .ballocOutOfBlocks) := by
  have hM := maxfile_lt
  have hlen : src.length < 2 ^ 32 := by omega
  have hn : (UInt32.ofNat src.length).toNat = src.length := UInt32.toNat_ofNat_of_lt' hlen
  have hW : Writable (fs.store.inode i) (fs.store.inode i).size (UInt32.ofNat src.length) :=
    ⟨⟨le_refl _, by omega⟩, by omega⟩
  refine ((h.wf.clear []).writei h.lt h.used h.not_dev hlen (fs.store.inode i).size).imp ?_
  rintro ⟨q, ip⟩ st ⟨hok, -⟩
  obtain ⟨hq, ⟨a, n, hip⟩, hch⟩ := hok hW
  refine ⟨hq, ?_, ?_⟩
  · rw [show ip = _ from hip]
    exact h.file
  · have hover : overwrite (fileData fs i) (fs.store.inode i).size.toNat src = fileData fs i ++ src := by
      rw [overwrite, ← contents_length fs.store.disk (fs.store.inode i), List.take_length,
        List.drop_eq_nil_of_le (Nat.le_add_right _ _), List.append_nil]
    rw [← hover]
    exact { hch with }

section Chunk

variable (h : Opened fs f i) (hoff : (fs.kern.ftable f).off = (fs.store.inode i).size) {src : List UInt8}

include h hoff

variable (src) in
lemma filewriteChunk_locked : ∃ r, ((Sys.filewriteChunk f src).run handler).run fs =
    ((do
      let q ← Sys.writei i src (fs.store.inode i).size
      if 0 < q.getD 0 then
        Sys.kset ((← Sys.kget).setFile f { fs.kern.ftable f with
          off := (fs.store.inode i).size + UInt32.ofNat (q.getD 0) })
      Sys.iunlock i
      Sys.endOp
      return q : FsProg (Option ℕ)).run handler).run
        (round fs i r true (fs.store.inode i) (begun fs) fs.kern) := by
  have hbegin : (Sys.beginOp.run handler).run fs = .ok (⟨⟩, { fs with store := begun fs }) := rfl
  have h' : Opened { fs with store := begun fs } f i :=
    ⟨h.wf.clear [], h.lt, h.file, h.entry, h.type, h.ip⟩
  obtain ⟨r, hlock⟩ := h'.ilock
  have hlock' : ((Sys.ilock i).run handler).run { fs with store := begun fs } =
      .ok (⟨⟩, round fs i r true (fs.store.inode i) (begun fs) fs.kern) := run_call hlock
  obtain ⟨c, rd, wr, off, hf⟩ := h.ftable
  obtain rfl : off = (fs.store.inode i).size := by rwa [hf] at hoff
  refine ⟨r, ?_⟩
  unfold Sys.filewriteChunk
  rw [run_bind_ok hbegin, run_bind_ok (kget_run _)]
  dsimp only
  rw [hf]
  dsimp only
  rw [run_bind_ok hlock', run_bind_ok (kget_run _)]
  simp only [round_kern, hf]

lemma filewriteChunk_run {ip : Dinode} {st : Store} (hsrc : src ≠ [])
    (hw : (writei i (fs.store.inode i) src (fs.store.inode i).size).run (begun fs) =
      .ok ((some src.length, ip), st)) : ∃ r, ((Sys.filewriteChunk f src).run handler).run fs = .ok
      (some src.length,
      round fs i r false ip st (setOff fs.kern f
      ((fs.store.inode i).size + UInt32.ofNat src.length))) := by
  obtain ⟨r, hr⟩ := filewriteChunk_locked h hoff src
  have hpos : 0 < (some src.length).getD 0 := List.length_pos_of_ne_nil hsrc
  have hwrite : ((Sys.writei i src (fs.store.inode i).size).run handler).run
      (round fs i r true (fs.store.inode i) (begun fs) fs.kern) =
      .ok (some src.length, round fs i r true ip st fs.kern) := run_call (onInode_round hw)
  refine ⟨r, ?_⟩
  rw [hr, run_bind_ok hwrite, if_pos hpos, run_bind_ok (kget_run _), run_bind_ok (kset_round _),
    run_bind_ok iunlock_round]
  rfl

lemma filewriteChunk_error {e : Halt}
    (hw : (writei i (fs.store.inode i) src (fs.store.inode i).size).run (begun fs) = .error e) :
    ((Sys.filewriteChunk f src).run handler).run fs = .error e := by
  obtain ⟨r, hr⟩ := filewriteChunk_locked h hoff src
  have hwrite : ((Sys.writei i src (fs.store.inode i).size).run handler).run
      (round fs i r true (fs.store.inode i) (begun fs) fs.kern) = .error e :=
    run_call (onInode_round_error hw)
  rw [hr, run_bind_error hwrite]

lemma filewriteChunk_inv (hsrc : src ≠ [])
    (hmax : (fs.store.inode i).size.toNat + src.length ≤ MAXFILE * BSIZE) {q : Option ℕ} {fs' : FsState}
    (hrun : ((Sys.filewriteChunk f src).run handler).run fs = .ok (q, fs')) :
    q = some src.length ∧ ∃ r ip st, Changed fs.store i ip (fileData fs i ++ src) st ∧ ip.type = T_FILE ∧
      fs' = round fs i r false ip st
      (setOff fs.kern f ((fs.store.inode i).size + UInt32.ofNat src.length)) := by
  have hspec := writei_append h hmax
  cases hw : (writei i (fs.store.inode i) src (fs.store.inode i).size).run (begun fs) with
  | error e =>
    rw [filewriteChunk_error h hoff hw] at hrun
    cases hrun
  | ok res =>
    obtain ⟨⟨n, ip⟩, st⟩ := res
    obtain ⟨rfl, ht, hch⟩ := hspec.of_run_ok hw
    obtain ⟨r, hr⟩ := filewriteChunk_run h hoff hsrc hw
    obtain ⟨hq, hfs⟩ := Prod.mk.inj (Except.ok.inj (hr.symm.trans hrun))
    exact ⟨hq.symm, r, ip, st, hch, ht, hfs.symm⟩

end Chunk

lemma Opened.round {r : ℕ} {ip : Dinode} {st : Store} {c : List UInt8} {off : UInt32} (h : Opened fs f i)
    (hch : Changed fs.store i ip c st) (ht : ip.type = T_FILE) :
    Opened (round fs i r false ip st (setOff fs.kern f off)) f i where
  wf := hch.wf
  lt := show i < st.sb.ninodes by
    rw [hch.sb]
    exact h.lt
  file := show (st.inode i).type = T_FILE by rwa [hch.inode]
  entry := by
    refine ⟨r, some ip, assign_self .., fun ip' hip => ?_⟩
    rw [← Option.some.inj hip]
    exact hch.inode
  type := show ((setOff fs.kern f off).ftable f).type = _ by rw [ftable_setOff, h.type]
  ip := show ((setOff fs.kern f off).ftable f).ip = _ by rw [ftable_setOff, h.ip]

lemma Changed.refl {st : Store} (h : Wf st) (i : ℕ) :
    Changed st i (st.inode i) (contents st.disk (st.inode i)) st :=
  ⟨h, rfl, rfl, rfl, fun _ _ _ => rfl, fun _ _ _ _ => rfl⟩

lemma fileread_inv (h : Opened fs f i) {n : UInt32} {r : Option (List UInt8)} {fs' : FsState}
    (hrun : ((Sys.fileread f n).run handler).run fs = .ok (r, fs')) :
    (r = none ∨ r = answer (fs.store.inode i) (fileData fs i) (fs.kern.ftable f).off n) ∧ Opened fs' f i ∧
      fs'.store = fs.store ∧ (fs'.kern.ftable f).off = (fs.kern.ftable f).off + UInt32.ofNat
      (r.getD []).length := by
  by_cases hread : (fs.kern.ftable f).readable = true
  · obtain ⟨c, hr⟩ := fileread_run h hread n
    rw [hr] at hrun
    obtain ⟨rfl, rfl⟩ := Prod.mk.inj (Except.ok.inj hrun)
    exact ⟨.inr rfl, h.round (Changed.refl h.wf i) h.file, rfl, congrArg File.off (ftable_setOff ..)⟩
  · unfold Sys.fileread at hrun
    rw [run_bind_ok (kget_run fs)] at hrun
    dsimp only at hrun
    rw [if_pos hread] at hrun
    obtain ⟨rfl, rfl⟩ := Prod.mk.inj (Except.ok.inj hrun)
    exact ⟨.inl rfl, h, rfl, (UInt32.add_zero _).symm⟩

end

def Label.written : Label → Option (List UInt8)
  | .chunk _ src _ => some src
  | _ => none

def Label.writtenBy (t : ℕ) : Label → Option (List UInt8)
  | .chunk u src _ => if u = t then some src else none
  | _ => none

def Label.calledBy (t : ℕ) : Label → Option (List UInt8)
  | .call u src => if u = t then some src else none
  | _ => none

def Label.input : Label → Option (List UInt8)
  | .read _ _ r => r
  | _ => none

def pending : Pc → List UInt8
  | .write _ rest => rest
  | _ => []

def gather (g : Label → Option (List UInt8)) (l : List Label) : List UInt8 := (l.filterMap g).flatten

lemma gather_append (g : Label → Option (List UInt8)) (l l' : List Label) :
    gather g (l ++ l') = gather g l ++ gather g l' := by
  rw [gather, List.filterMap_append, List.flatten_append]
  rfl

lemma gather_snoc (g : Label → Option (List UInt8)) (l : List Label) (e : Label) :
    gather g (l ++ [e]) = gather g l ++ (g e).getD [] := by
  rw [gather_append]
  cases h : g e <;> simp [gather, h]

structure Inv (f i : ℕ) (l : List Label) (s : Sharing) : Prop where
  opened : Opened s.fs f i
  off : (s.fs.kern.ftable f).off = (s.fs.store.inode i).size
  bytes : fileData s.fs i = gather Label.written l
  order : ∀ t, gather (Label.writtenBy t) l ++ pending (s.pc t) = gather (Label.calledBy t) l
  whole : ∀ t src r, Label.chunk t src r ∈ l → r = some src.length
  running : ∀ t, s.pc t ≠ .refused

section Steps

variable {f i t : ℕ} {l : List Label} {s s' : Sharing} {e : Label} {p : Pc}

lemma order_step {pc : ℕ → Pc} (h : ∀ t, gather (Label.writtenBy t) l ++ pending (pc t) = gather
    (Label.calledBy t) l) (hothers : ∀ u ≠ t, e.writtenBy u = none ∧ e.calledBy u = none)
    (hself : (e.writtenBy t).getD [] ++ pending p = pending (pc t) ++ (e.calledBy t).getD []) (u : ℕ) :
    gather (Label.writtenBy u) (l ++ [e]) ++ pending (assign pc t p u) = gather (Label.calledBy u)
    (l ++ [e]) := by
  rw [gather_snoc, gather_snoc, ← h u, assign_apply]
  split_ifs with hut
  · rw [hut, List.append_assoc, hself, List.append_assoc]
  · rw [(hothers u hut).1, (hothers u hut).2]
    simp

lemma running_step {pc : ℕ → Pc} (h : ∀ t, pc t ≠ .refused) (hp : p ≠ .refused) (u : ℕ) :
    assign pc t p u ≠ .refused := by
  rw [assign_apply]
  split_ifs
  · exact hp
  · exact h u

lemma whole_step (h : ∀ t src r, Label.chunk t src r ∈ l → r = some src.length)
    (he : ∀ t src r, Label.chunk t src r = e → r = some src.length) (t : ℕ) (src : List UInt8)
    (r : Option ℕ) (hm : Label.chunk t src r ∈ l ++ [e]) : r = some src.length := by
  rcases List.mem_append.mp hm with hm | hm
  · exact h t src r hm
  · exact he t src r (List.mem_singleton.mp hm)

lemma Inv.chunk {n : ℕ} {rest : List UInt8} {q : Option ℕ} {fs' : FsState} (h : Inv f i l s)
    (hpc : s.pc t = .write n rest) (hne : rest ≠ [])
    (hmax : (gather Label.written (l ++ [.chunk t (rest.take MAXWRITE) q])).length ≤ MAXFILE * BSIZE)
    (hrun : ((Sys.filewriteChunk f (rest.take MAXWRITE)).run handler).run s.fs = .ok (q, fs')) :
    q = some (rest.take MAXWRITE).length ∧ Inv f i (l ++ [.chunk t (rest.take MAXWRITE) q])
      ⟨fs', assign s.pc t (.write n (rest.drop MAXWRITE))⟩ := by
  have hsize : (s.fs.store.inode i).size.toNat = (gather Label.written l).length := by
    rw [← h.bytes, contents_length]
  have hsrc : rest.take MAXWRITE ≠ [] := by
    rw [Ne, List.take_eq_nil_iff, not_or]
    exact ⟨by decide, hne⟩
  rw [gather_snoc, List.length_append] at hmax
  replace hmax : (gather Label.written l).length + (rest.take MAXWRITE).length ≤ MAXFILE * BSIZE := hmax
  obtain ⟨rfl, r, ip, st, hch, ht, rfl⟩ :=
    filewriteChunk_inv h.opened h.off hsrc (by rwa [hsize]) hrun
  refine ⟨rfl, h.opened.round hch ht, ?_, ?_, ?_, ?_, running_step h.running (by simp)⟩
  · have hM := maxfile_lt
    have hnew : ip.size.toNat = (s.fs.store.inode i).size.toNat + (rest.take MAXWRITE).length := by
      rw [← contents_length st.disk ip, hch.contents, List.length_append, contents_length]
    change ((setOff s.fs.kern f _).ftable f).off = (st.inode i).size
    rw [ftable_setOff, hch.inode, ← UInt32.toNat_inj, UInt32.toNat_add, hnew,
      toNat_offset (by omega)]
    exact Nat.mod_eq_of_lt (by omega)
  · change contents st.disk (st.inode i) = _
    rw [hch.inode, hch.contents, gather_snoc, h.bytes]
    rfl
  · refine order_step h.order (fun u hu => ⟨if_neg hu.symm, rfl⟩) ?_
    rw [hpc]
    change (if t = t then some (rest.take MAXWRITE) else none).getD [] ++ rest.drop MAXWRITE = rest ++ []
    rw [if_pos rfl, Option.getD_some, List.take_append_drop, List.append_nil]
  · exact whole_step h.whole (fun u src r he => by cases he; rfl)

lemma Inv.read {n : UInt32} {r : Option (List UInt8)} {fs' : FsState} (h : Inv f i l s)
    (hrun : ((Sys.fileread f n).run handler).run s.fs = .ok (r, fs')) :
    Inv f i (l ++ [.read t n r]) ⟨fs', s.pc⟩ := by
  obtain ⟨hr, hopened, hst, hoff⟩ := fileread_inv h.opened hrun
  -- the offset is at the end, where there is nothing to read
  have hnil : r.getD [] = [] := by
    rcases hr with rfl | rfl
    · rfl
    · unfold answer
      split_ifs
      · rw [h.off, Option.getD_some, ← contents_length s.fs.store.disk, List.drop_length, List.take_nil]
      · rfl
  rw [hnil, show UInt32.ofNat ([] : List UInt8).length = 0 from rfl, UInt32.add_zero] at hoff
  refine ⟨hopened, ?_, ?_, fun u => ?_, whole_step h.whole (fun u src r he => by cases he), h.running⟩
  · rw [hoff, h.off, hst]
  · rw [gather_snoc, ← h.bytes]
    dsimp only [fileData]
    rw [hst]
    exact (List.append_nil _).symm
  · rw [gather_snoc, gather_snoc, ← h.order u]
    simp [Label.writtenBy, Label.calledBy]

lemma Inv.step (h : Inv f i l s) (hs : Step f s e s')
    (hmax : (gather Label.written (l ++ [e])).length ≤ MAXFILE * BSIZE) : Inv f i (l ++ [e]) s' := by
  have hquiet : ∀ e : Label, e.written = none → fileData s.fs i = gather Label.written (l ++ [e]) := by
    intro e he
    rw [gather_snoc, he, h.bytes]
    exact (List.append_nil _).symm
  cases hs with
  | @call t src hpc hw =>
    refine ⟨h.opened, h.off, hquiet _ rfl, order_step h.order (fun u hu => ⟨rfl, if_neg hu.symm⟩) ?_,
      whole_step h.whole (fun u src r he => by cases he), running_step h.running (by simp)⟩
    rw [hpc]
    change [] ++ src = [] ++ (if t = t then some src else none).getD []
    rw [if_pos rfl, Option.getD_some]
  | chunk hpc hne hrun => exact (h.chunk hpc hne hmax hrun).2
  | refuse hpc hne hrun => cases (h.chunk hpc hne hmax hrun).1
  | ret hpc =>
    refine ⟨h.opened, h.off, hquiet _ rfl, order_step h.order (fun u hu => ⟨rfl, rfl⟩) ?_,
      whole_step h.whole (fun u src r he => by cases he), running_step h.running (by simp)⟩
    rw [hpc]
    rfl
  | fail hpc => exact absurd hpc (h.running _)
  | read hpc hrun => exact h.read hrun

end Steps

structure Reading (f i : ℕ) (data : List UInt8) (base : ℕ) (l : List Label) (s : Sharing) : Prop where
  opened : Opened s.fs f i
  bytes : fileData s.fs i = data
  off : (s.fs.kern.ftable f).off.toNat = base + (gather Label.input l).length
  inside : base + (gather Label.input l).length ≤ data.length
  inputs : gather Label.input l <+: data.drop base

lemma Reading.step {f i t base : ℕ} {data : List UInt8} {l : List Label} {s : Sharing} {n : UInt32}
    {r : Option (List UInt8)} {fs' : FsState} (h : Reading f i data base l s)
    (hrun : ((Sys.fileread f n).run handler).run s.fs = .ok (r, fs')) :
    (r = none ∨ r = some ((data.drop (base + (gather Label.input l).length)).take n.toNat)) ∧
    Reading f i data base (l ++ [.read t n r]) ⟨fs', s.pc⟩ := by
  obtain ⟨hr, hopened, hst, hoff⟩ := fileread_inv h.opened hrun
  have hr' : r = none ∨ r = some ((data.drop (base + (gather Label.input l).length)).take n.toNat) := by
    rcases hr with hr | hr
    · exact .inl hr
    · rw [hr, answer, h.bytes, h.off]
      split_ifs
      · exact .inr rfl
      · exact .inl rfl
  have hpre : r.getD [] <+: data.drop (base + (gather Label.input l).length) := by
    rcases hr' with rfl | rfl
    · exact List.nil_prefix
    · exact List.take_prefix _ _
  have hlen := hpre.length_le
  rw [List.length_drop] at hlen
  have hinside := h.inside
  have hM := maxfile_lt
  have hsmall : data.length ≤ MAXFILE * BSIZE := by
    rw [← h.bytes, contents_length]
    exact (h.opened.wf.sized i h.opened.lt h.opened.used).2
  have hnext : gather Label.input (l ++ [.read t n r]) = gather Label.input l ++ r.getD [] :=
    gather_snoc ..
  refine ⟨hr', hopened, ?_, ?_, ?_, ?_⟩
  · dsimp only [fileData]
    rw [hst]
    exact h.bytes
  · rw [hoff, hnext, List.length_append, UInt32.toNat_add, h.off,
      toNat_offset (by omega), Nat.mod_eq_of_lt (by omega)]
    omega
  · rw [hnext, List.length_append]
    omega
  · rw [hnext]
    obtain ⟨tail, htail⟩ := h.inputs
    rw [← List.drop_drop, ← htail, List.drop_left] at hpre
    rw [← htail]
    exact (List.prefix_append_right_inj _).mpr hpre

def initial (fs : FsState) : Sharing := ⟨fs, fun _ => .idle⟩

section Runs

variable {fs : FsState} {f i : ℕ} {l : List Label} {s : Sharing}

lemma Inv.init (h : Opened fs f i) (hempty : fileData fs i = []) (hoff : (fs.kern.ftable f).off = 0) :
    Inv f i [] (initial fs) := by
  refine ⟨h, ?_, hempty, fun _ => rfl, (fun _ _ _ hm => by cases hm), (fun _ hc => by cases hc)⟩
  have hsize : (fs.store.inode i).size.toNat = 0 := by
    rw [← contents_length fs.store.disk, show contents _ _ = [] from hempty, List.length_nil]
  rw [initial, hoff, ← UInt32.toNat_inj, hsize]
  rfl

section Reads

variable (hrun : Run (Step f) (initial fs) l s) (hread : ∀ e ∈ l, ∃ t n r, e = Label.read t n r)
  (h : Opened fs f i) (hoff : (fs.kern.ftable f).off.toNat ≤ (fileData fs i).length)

include hrun hread h hoff

variable {t : ℕ} {n : UInt32}

end Reads

end Runs

end Shared

end Xv6.Fs
