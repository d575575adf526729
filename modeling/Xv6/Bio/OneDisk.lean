import Xv6.Bio.Coherent

namespace Xv6.Logged

open Lib Bio
open Xv6.Log (Sys Stage)

variable {start size disksize : ℕ} {d : Disk} {s s' : State} {p q b : ℕ} {k : UInt32}

def Cont.bufs : Cont → List ℕ
  | .second b => [b]
  | _ => []

namespace Io

def bufs : Io → List ℕ
  | .idle => []
  | .getting c => c.bufs
  | .loading b c => b :: c.bufs
  | .one b | .last b => [b]
  | .finished => []
  | .two b b' | .wrote b b' => [b, b']

def done : Io → ℕ
  | .wrote _ _ | .last _ | .finished => 1
  | _ => 0

end Io

namespace State

def contents (d : Disk) (s : State) (k : UInt32) : Block := (s.written k).getD (d k.toNat)

def Pinned (s : State) (k : UInt32) : Prop := k.toNat ∈ s.sys.log.lh ∧ k.toNat ∉ s.installed

def Wants (s : State) (p : ℕ) (k : UInt32) : Prop :=
  s.bio.want p = .awake ROOTDEV k ∨ ∃ b, s.bio.want p = .asleep ROOTDEV k b

def Has (s : State) (p b : ℕ) (k : UInt32) : Prop :=
  b ∈ s.bio.held p ∧ (s.buf b).dev = ROOTDEV ∧ (s.buf b).blockno = k

def At (s : State) (p : ℕ) (st : Stage) : Prop := (s.sys.proc p).stage? = some st

def Opens (s : State) (k : UInt32) : Stage → Prop
  | .writeLog tail | .installTrans tail =>
    k = logBlock s.sys.log.start (tail + 1) ∧ tail < s.sys.log.lh.length
  | .writeHead | .clear => k = logBlock s.sys.log.start 0
  | .finish => False

def Round (s : State) (p tail : ℕ) : Prop := s.At p (.writeLog tail) ∨ s.At p (.installTrans tail)

def Aim (start size : ℕ) (s : State) (p : ℕ) (k : UInt32) : Cont → Prop
  | .client k' => k = k' ∧ Home start size k
  | .first => ∃ st, s.At p st ∧ s.Opens k st
  | .second b => ∃ tail, s.Round p tail ∧ s.sys.log.lh[tail]? = some k.toNat ∧
      s.Has p b (logBlock s.sys.log.start (tail + 1))

def Phase (start size : ℕ) (s : State) (p : ℕ) : Io → Prop
  | .idle => True
  | .getting c => ∃ k, s.Wants p k ∧ s.Aim start size p k c
  | .loading b c => ∃ k, s.Has p b k ∧ s.Aim start size p k c
  | .one b => ∃ st k, s.At p st ∧ s.Opens k st ∧ s.Has p b k
  | .two b b' | .wrote b b' => ∃ tail k, s.Round p tail ∧ s.sys.log.lh[tail]? = some k.toNat ∧
      s.Has p b (logBlock s.sys.log.start (tail + 1)) ∧ s.Has p b' k
  | .last b => ∃ st k, s.At p st ∧ s.Opens k st ∧ b ∈ s.bio.held p
  | .finished => ∃ st k, s.At p st ∧ s.Opens k st

def Copied (d : Disk) (s : State) (n : ℕ) : Prop :=
  ∀ j < n, ∀ k : UInt32, s.sys.log.lh[j]? = some k.toNat →
    s.disk (logBlock s.sys.log.start (j + 1)).toNat = s.contents d k

def Progress (d : Disk) (s : State) (p : ℕ) : Stage → Prop
  | .writeLog tail => s.sys.log.lh ≠ [] ∧ s.installed = [] ∧ s.Copied d (tail + (s.io p).done)
  | .writeHead => s.sys.log.lh ≠ [] ∧ s.installed = [] ∧ s.Copied d s.sys.log.lh.length
  | .installTrans tail => s.sys.log.lh ≠ [] ∧ s.installed = s.sys.log.lh.take (tail + (s.io p).done) ∧
      s.Copied d s.sys.log.lh.length
  | .clear => s.sys.log.lh ≠ [] ∧ s.installed = s.sys.log.lh
  | .finish => s.installed = [] ∧ s.sys.log.lh = []

structure Own (start size : ℕ) (d : Disk) (s : State) (p : ℕ) : Prop where
  valid : ∀ b ∈ s.bio.held p, (∀ c, s.io p ≠ .loading b c) → (s.buf b).valid = true
  client : ∀ b ∈ s.bio.held p, b ∉ (s.io p).bufs → (s.buf b).dev = ROOTDEV ∧
    Home start size (s.buf b).blockno
  phase : s.Phase start size p (s.io p)
  progress : ∀ st, s.At p st → s.Progress d p st

structure Listing (start size : ℕ) (s : State) : Prop where
  area : s.sys.log.start = start ∧ s.sys.log.size = size
  nodup : s.sys.log.lh.Nodup
  range : ∀ k ∈ s.sys.log.lh, k < 2 ^ 32
  home : ∀ k : UInt32, k.toNat ∈ s.sys.log.lh → Home start size k
  room : ∀ j < s.sys.log.lh.length, j + 1 < size
  few : s.sys.log.lh.length ≤ LOGSIZE
  quiet : s.sys.log.committing = false → s.installed = []

structure Inv (start size : ℕ) (d : Disk) (s : State) : Prop where
  bio : ∃ l, Bio.State.Inv s.bio l
  sys : Sys.Inv s.sys
  listing : Listing start size s
  coherent : Coherent (Home start size) (s.contents d) s.Pinned s.buf s.disk
  own : ∀ p, Own start size d s p

structure Frame (d : Disk) (s s' : State) (p : ℕ) : Prop where
  held : ∀ q, q ≠ p → s'.bio.held q = s.bio.held q
  buf : ∀ q b, q ≠ p → b ∈ s.bio.held q → s'.buf b = s.buf b
  want : ∀ q k, q ≠ p → s.Wants q k → s'.Wants q k
  io : ∀ q, q ≠ p → s'.io q = s.io q
  stage : ∀ q, q ≠ p → (s'.sys.proc q).stage? = (s.sys.proc q).stage?
  log : (∀ q st, q ≠ p → ¬ s.At q st) ∨
    s'.sys.log.lh = s.sys.log.lh ∧ s'.sys.log.start = s.sys.log.start ∧ s'.disk = s.disk ∧
      s'.written = s.written ∧ s'.installed = s.installed

lemma opens_congr {st : Stage} (hlh : s'.sys.log.lh = s.sys.log.lh)
    (hstart : s'.sys.log.start = s.sys.log.start) : s'.Opens k st ↔ s.Opens k st := by
  cases st <;> simp only [Opens, hlh, hstart]

section

variable (hf : Frame d s s' p) (hq : q ≠ p)
include hf hq

lemma Frame.has (h : s.Has q b k) : s'.Has q b k := by
  obtain ⟨h1, h2, h3⟩ := h
  rw [Has, hf.held q hq, hf.buf q b hq h1]
  exact ⟨h1, h2, h3⟩

lemma Frame.at_iff {st : Stage} : s'.At q st ↔ s.At q st := by
  rw [At, At, hf.stage q hq]

lemma Frame.log_of_at {st : Stage} (h : s.At q st) :
    s'.sys.log.lh = s.sys.log.lh ∧ s'.sys.log.start = s.sys.log.start ∧ s'.disk = s.disk ∧
      s'.written = s.written ∧ s'.installed = s.installed :=
  hf.log.resolve_left (fun hno => hno q st hq h)

lemma Frame.opens {st : Stage} (h : s.At q st) (ho : s.Opens k st) : s'.Opens k st := by
  obtain ⟨h1, h2, -⟩ := hf.log_of_at hq h
  exact (opens_congr h1 h2).2 ho

lemma Frame.round {tail : ℕ} (h : s.Round q tail) :
    s'.Round q tail ∧ s'.sys.log.lh = s.sys.log.lh ∧ s'.sys.log.start = s.sys.log.start := by
  rcases h with h | h
  · exact ⟨.inl ((hf.at_iff hq).mpr h), (hf.log_of_at hq h).1, (hf.log_of_at hq h).2.1⟩
  · exact ⟨.inr ((hf.at_iff hq).mpr h), (hf.log_of_at hq h).1, (hf.log_of_at hq h).2.1⟩

lemma Frame.aim {c : Cont} (h : s.Aim start size q k c) : s'.Aim start size q k c := by
  cases c with
  | client _ => exact h
  | first =>
    obtain ⟨st, hst, ho⟩ := h
    exact ⟨st, (hf.at_iff hq).mpr hst, hf.opens hq hst ho⟩
  | second b =>
    obtain ⟨tail, hr, hk, hb⟩ := h
    obtain ⟨hr', hlh, hstart⟩ := hf.round hq hr
    refine ⟨tail, hr', by rwa [hlh], ?_⟩
    rw [hstart]
    exact hf.has hq hb

lemma Frame.phase {x : Io} (h : s.Phase start size q x) : s'.Phase start size q x := by
  cases x with
  | idle => trivial
  | getting c =>
    obtain ⟨k, hw, ha⟩ := h
    exact ⟨k, hf.want q k hq hw, hf.aim hq ha⟩
  | loading b c =>
    obtain ⟨k, hb, ha⟩ := h
    exact ⟨k, hf.has hq hb, hf.aim hq ha⟩
  | one b =>
    obtain ⟨st, k, hst, ho, hb⟩ := h
    exact ⟨st, k, (hf.at_iff hq).mpr hst, hf.opens hq hst ho, hf.has hq hb⟩
  | two b b' | wrote b b' =>
    obtain ⟨tail, k, hr, hk, hb, hb'⟩ := h
    obtain ⟨hr', hlh, hstart⟩ := hf.round hq hr
    exact ⟨tail, k, hr', by rwa [hlh], by rw [hstart]; exact hf.has hq hb, hf.has hq hb'⟩
  | last b =>
    obtain ⟨st, k, hst, ho, hb⟩ := h
    exact ⟨st, k, (hf.at_iff hq).mpr hst, hf.opens hq hst ho, by rwa [hf.held q hq]⟩
  | finished =>
    obtain ⟨st, k, hst, ho⟩ := h
    exact ⟨st, k, (hf.at_iff hq).mpr hst, hf.opens hq hst ho⟩

end

lemma Own.frame (h : Own start size d s q) (hf : Frame d s s' p) (hq : q ≠ p) :
    Own start size d s' q := by
  refine ⟨fun b hb hl => ?_, fun b hb hn => ?_, hf.phase hq (hf.io q hq ▸ h.phase), fun st hst => ?_⟩
  · rw [hf.held q hq] at hb
    rw [hf.io q hq] at hl
    rw [hf.buf q b hq hb]
    exact h.valid b hb hl
  · rw [hf.held q hq] at hb
    rw [hf.io q hq] at hn
    rw [hf.buf q b hq hb]
    exact h.client b hb hn
  · have hst := (hf.at_iff hq).mp hst
    obtain ⟨h1, h2, h3, h4, h5⟩ := hf.log_of_at hq hst
    have := h.progress st hst
    cases st <;> simpa only [Progress, Copied, contents, h1, h2, h3, h4, h5, hf.io q hq] using this

lemma bio_scan_cases {t t' : Bio.State} {l : List ℕ} (h : Bio.State.Inv t l)
    (hs : t.scan p ROOTDEV k = some t') :
    (∃ b, (t.cache.bget ROOTDEV k).1 = .sleep b ∧ t'.cache = t.cache ∧ t'.held = t.held ∧
      t'.want = assign t.want p (.asleep ROOTDEV k b)) ∨
    ∃ b x, ((t.cache.bget ROOTDEV k).1 = .hit b ∨ (t.cache.bget ROOTDEV k).1 = .recycled b) ∧ b < NBUF ∧
      (∀ q, b ∉ t.held q) ∧ t'.cache.buf = assign t.cache.buf b x ∧ t'.held = assign t.held p
      (insert b (t.held p)) ∧
      t'.want = assign t.want p .nothing ∧ x.dev = ROOTDEV ∧ x.blockno = k ∧
      (x = { t.cache.buf b with busy := true } ∨
        x = ⟨true, false, false, ROOTDEV, k, (t.cache.buf b).data⟩ ∧ (t.cache.buf b).dirty = false ∧
        ∀ b' < NBUF, (t.cache.buf b').dev = ROOTDEV → (t.cache.buf b').blockno ≠ k) := by
  have hfree : ∀ b, (t.cache.buf b).busy = false → ∀ q, b ∉ t.held q := by
    intro b hb q hq
    rw [(h.held q b hq).2] at hb
    cases hb
  unfold Bio.State.scan at hs
  rcases h.listed.bget ROOTDEV k with
    ⟨b, hb, hc, hbusy, heq⟩ | ⟨b, hb, hc, hnb, heq⟩ | ⟨l1, b, l2, hl, hno, hidle, -, heq⟩ | ⟨-, -, heq⟩
  · rw [heq] at hs ⊢
    cases hs
    exact .inl ⟨b, rfl, rfl, rfl, rfl⟩
  · rw [heq] at hs ⊢
    cases hs
    obtain ⟨hdev, hk⟩ := of_decide_eq_true hc
    exact .inr ⟨b, _, .inl rfl, hb, hfree b hnb, rfl, rfl, rfl, hdev, hk, .inl rfl⟩
  · rw [heq] at hs ⊢
    cases hs
    obtain ⟨hnb, hclean⟩ := of_decide_eq_true hidle
    refine .inr ⟨b, _, .inr rfl, (h.listed.mem b).mp (by rw [hl]; simp), hfree b hnb, rfl, rfl, rfl,
      rfl, rfl, .inr ⟨rfl, hclean, fun b' hb' hdev hk => ?_⟩⟩
    have := hno b' hb'
    simp [Bcache.carries, hdev, hk] at this
  · rw [heq] at hs
    cases hs

lemma Listing.congr (h : Listing start size s) (hs : s'.sys.log.start = s.sys.log.start)
    (hz : s'.sys.log.size = s.sys.log.size) (hlh : s'.sys.log.lh = s.sys.log.lh)
    (hq : s'.sys.log.committing = false → s'.installed = []) : Listing start size s' := by
  obtain ⟨h1, h2, h3, h4, h5, h6, -⟩ := h
  exact ⟨⟨hs.trans h1.1, hz.trans h1.2⟩, hlh ▸ h2, hlh ▸ h3, hlh ▸ h4, hlh ▸ h5, hlh ▸ h6, hq⟩

lemma Listing.of_sys (h : Listing start size s) (hsys : s'.sys = s.sys)
    (hq : s.sys.log.committing = false → s'.installed = []) : Listing start size s' :=
  h.congr (by rw [hsys]) (by rw [hsys]) (by rw [hsys]) (by rwa [hsys])

lemma Inv.phase (h : Inv start size d s) {x : Io} (hio : s.io p = x) : s.Phase start size p x :=
    hio ▸ (h.own p).phase

lemma Inv.local (h : Inv start size d s) (hf : Frame d s s' p) (hbio : ∃ l, Bio.State.Inv s'.bio l)
    (hsys : s'.sys = s.sys) (hinst : s'.installed = s.installed)
    (hcoh : Coherent (Home start size) (s'.contents d) s'.Pinned s'.buf s'.disk)
    (hown : Own start size d s' p) : Inv start size d s' := by
  refine ⟨hbio, hsys ▸ h.sys, h.listing.of_sys hsys (hinst ▸ h.listing.quiet), hcoh, fun q => ?_⟩
  by_cases hq : q = p
  · exact hq ▸ hown
  · exact (h.own q).frame hf hq

lemma Aim.mono (hsys : s'.sys = s.sys) (hhas : ∀ b k, s.Has p b k → s'.Has p b k) {c : Cont}
    (h : s.Aim start size p k c) : s'.Aim start size p k c := by
  cases c with
  | client _ => exact h
  | first =>
    obtain ⟨st, hst, ho⟩ := h
    exact ⟨st, by rwa [At, hsys], (opens_congr (by rw [hsys]) (by rw [hsys])).2 ho⟩
  | second b =>
    obtain ⟨tail, hr, hk, hb⟩ := h
    refine ⟨tail, by simpa only [Round, At, hsys] using hr, by rwa [hsys], ?_⟩
    rw [hsys]
    exact hhas b _ hb

lemma Progress.congr (hsys : s'.sys = s.sys) (hdisk : s'.disk = s.disk) (hw : s'.written = s.written)
    (hinst : s'.installed = s.installed) (hdone : (s'.io p).done = (s.io p).done) {st : Stage}
    (h : s.Progress d p st) : s'.Progress d p st := by
  cases st <;> simpa only [Progress, Copied, contents, hsys, hdisk, hw, hinst, hdone] using h

lemma Inv.scan (h : Inv start size d s) {e : Bio.Event} {c : Cont} (hs : s.scan e p k c = some s')
    (he : ∀ bio, s.bio.step e = some bio → s.bio.scan p ROOTDEV k = some bio)
    (haim : s.Aim start size p k c) (hbufs : (s.io p).bufs = c.bufs) (hdone : (s.io p).done = 0)
    (hload : ∀ b c, s.io p ≠ .loading b c) : Inv start size d s' := by
  unfold State.scan at hs
  split at hs
  · rename_i bio hbio
    cases hs
    obtain ⟨l, hl⟩ := h.bio
    have hbio' := hl.step hbio
    have hown := h.own p
    rcases bio_scan_cases hl (he bio hbio) with ⟨b, hg, hc, hh, hw⟩
      | ⟨b, x, hg, hb, hfree, hc, hh, hw, hdev, hk, hx⟩
    · set t := { s with bio := bio }.setIo p _ with ht
      have hsys : t.sys = s.sys := rfl
      have hio : t.io p = .getting c := by
        simp only [ht, setIo, assign_self, hg]
      have hbuf : t.buf = s.buf := funext fun b => congrFun (congrArg Bcache.buf hc) b
      have hhas : ∀ q b k, s.Has q b k → t.Has q b k := by
        intro q b k hb
        rw [Has, hbuf]
        exact ⟨(congrFun hh q).symm ▸ hb.1, hb.2⟩
      refine h.local (p := p) ⟨fun q _ => congrFun hh q, fun q b _ _ => congrFun hbuf b,
        fun q k' hq hw' => ?_,
        fun q hq => assign_of_ne hq .., fun _ _ => rfl,
        .inr ⟨rfl, rfl, rfl, rfl, rfl⟩⟩ hbio' rfl rfl ?_ ?_
      · simpa only [Wants, ht, setIo, hw, assign_of_ne hq] using hw'
      · rw [hbuf]
        exact h.coherent
      · refine ⟨fun b' hb' _ => ?_, fun b' hb' hn => ?_, ?_, fun st hst => ?_⟩
        · rw [hbuf]
          exact hown.valid b' ((congrFun hh p) ▸ hb') (hload b')
        · rw [hbuf]
          rw [hio] at hn
          exact hown.client b' ((congrFun hh p) ▸ hb') (hbufs ▸ hn)
        · rw [hio]
          exact ⟨k, .inr ⟨b, by simp only [ht, setIo, hw, assign_self]⟩, haim.mono hsys (hhas p)⟩
        · refine Progress.congr hsys rfl rfl rfl ?_ (hown.progress st hst)
          rw [hio, hdone]
          rfl
    · set t := { s with bio := bio }.setIo p _ with ht
      have hsys : t.sys = s.sys := rfl
      have hio : t.io p = .loading b c := by
        rcases hg with hg | hg <;> simp only [ht, setIo, assign_self, hg]
      have hbuf : t.buf = assign s.buf b x := hc
      have hother : ∀ q b', b' ∈ s.bio.held q → t.buf b' = s.buf b' := by
        intro q b' hb'
        have hne : b' ≠ b := fun heq => hfree q (heq ▸ hb')
        rw [hbuf, assign_of_ne hne]
      have hheld : t.bio.held = assign s.bio.held p (insert b (s.bio.held p)) := hh
      have hhas : ∀ b' k', s.Has p b' k' → t.Has p b' k' := by
        rintro b' k' ⟨h1, h2⟩
        rw [Has, hother p b' h1, hheld, assign_self]
        exact ⟨Finset.mem_insert_of_mem h1, h2⟩
      have hb' : t.Has p b k := by
        rw [Has, hbuf, hheld, assign_self, assign_self]
        exact ⟨Finset.mem_insert_self .., hdev, hk⟩
      refine h.local (p := p) ⟨fun q hq => ?_, fun q b' _ => hother q b', fun q k' hq hw' => ?_,
        fun q hq => assign_of_ne hq .., fun _ _ => rfl,
        .inr ⟨rfl, rfl, rfl, rfl, rfl⟩⟩ hbio' rfl rfl ?_ ?_
      · rw [hheld, assign_of_ne hq]
      · simpa only [Wants, ht, setIo, hw, assign_of_ne hq] using hw'
      · rw [hbuf]
        rcases hx with rfl | ⟨rfl, hclean, hno⟩
        · exact h.coherent.setBusy true
        · exact h.coherent.recycle hclean hb hno
      · refine ⟨fun b' hb' hl => ?_, fun b' hb' hn => ?_, ?_, fun st hst => ?_⟩
        · rw [hheld, assign_self, Finset.mem_insert] at hb'
          rcases hb' with rfl | hb'
          · exact absurd hio (hl c)
          · rw [hother p b' hb']
            exact hown.valid b' hb' (hload b')
        · rw [hheld, assign_self, Finset.mem_insert] at hb'
          rw [hio, Io.bufs, List.mem_cons, not_or] at hn
          rw [hother p b' (hb'.resolve_left hn.1)]
          exact hown.client b' (hb'.resolve_left hn.1) (hbufs ▸ hn.2)
        · rw [hio]
          exact ⟨k, hb', haim.mono hsys hhas⟩
        · refine Progress.congr hsys rfl rfl rfl ?_ (hown.progress st hst)
          rw [hio, hdone]
          rfl
  · cases hs

structure Rewrote (s s' : State) (p b : ℕ) (valid dirty : Bool) (data : Block) (disk : Disk) : Prop where
  mem : b ∈ s.bio.held p
  inv : ∃ l, Bio.State.Inv s'.bio l
  buf : s'.buf = assign s.buf b { s.buf b with valid := valid, dirty := dirty, data := data }
  held : s'.bio.held = s.bio.held
  want : s'.bio.want = s.bio.want
  disk : s'.disk = disk
  sys : s'.sys = s.sys
  io : ∀ q, q ≠ p → s'.io q = s.io q
  written : s'.written = s.written

lemma Inv.iderw (h : Inv start size d s) {x : Buf} (hs : s.iderw disksize p b x = some s') :
    ∃ y disk, Ide.memideRw disksize x s.disk = .ok (y, disk) ∧
    Rewrote s s' p b y.valid y.dirty y.data disk ∧
      s'.io = s.io ∧ s'.installed = s.installed := by
  obtain ⟨l, hl⟩ := h.bio
  unfold State.iderw at hs
  split at hs
  · rename_i y disk hm
    split at hs
    · rename_i bio hbio
      have hinv := hl.step hbio
      simp only [Bio.State.step] at hbio
      split_ifs at hbio with hb
      cases hbio
      cases hs
      exact ⟨y, disk, hm, ⟨hb, hinv, rfl, rfl, rfl, rfl, rfl, fun _ _ => rfl, rfl⟩, rfl, rfl⟩
    · cases hs
  · cases hs

namespace Rewrote

variable {valid dirty : Bool} {data : Block} {disk : Disk} (hr : Rewrote s s' p b valid dirty data disk)
include hr

lemma named (b' : ℕ) : (s'.buf b').dev = (s.buf b').dev ∧ (s'.buf b').blockno = (s.buf b').blockno := by
  rw [hr.buf, assign_apply]
  split_ifs with hb
  · rw [hb]
    exact ⟨rfl, rfl⟩
  · exact ⟨rfl, rfl⟩

lemma has {b' : ℕ} : s'.Has q b' k ↔ s.Has q b' k := by
  rw [Has, Has, hr.held, (hr.named b').1, (hr.named b').2]

lemma contents : s'.contents d = s.contents d := by
  funext k
  rw [State.contents, State.contents, hr.written]

lemma wrote {tail b₁ b₂ : ℕ} (hround : s.Round p tail) (hk : s.sys.log.lh[tail]? = some k.toNat)
    (hb₁ : s.Has p b₁ (logBlock s.sys.log.start (tail + 1))) (hb₂ : s.Has p b₂ k) :
    s'.Phase start size p (.wrote b₁ b₂) := by
  refine ⟨tail, k, by simpa only [Round, At, hr.sys] using hround, by rwa [hr.sys], ?_, hr.has.mpr hb₂⟩
  rw [hr.sys]
  exact hr.has.mpr hb₁

lemma copied {n : ℕ} (h : ∀ j < n, ∀ k : UInt32, s.sys.log.lh[j]? = some k.toNat →
    disk (logBlock s.sys.log.start (j + 1)).toNat = s.contents d k) : s'.Copied d n := by
  intro j hj k hk
  rw [hr.sys] at hk ⊢
  rw [hr.disk, hr.contents]
  exact h j hj k hk

end Rewrote

section

variable (h : Inv start size d s)
include h

lemma Inv.other (hb : b ∈ s.bio.held p) {b' : ℕ} (hq : q ≠ p) (hb' : b' ∈ s.bio.held q) : b' ≠ b := by
  obtain ⟨l, hl⟩ := h.bio
  rintro rfl
  exact hq (hl.single q p b' hb' hb)

lemma Inv.lt (hb : b ∈ s.bio.held p) : b < NBUF := by
  obtain ⟨l, hl⟩ := h.bio
  exact (hl.held p b hb).1

lemma Inv.frame {valid dirty : Bool} {data : Block} {disk : Disk}
    (hr : Rewrote s s' p b valid dirty data disk)
    (hlog : (∀ q st, q ≠ p → ¬ s.At q st) ∨ s'.disk = s.disk ∧ s'.installed = s.installed) :
    Frame d s s' p := by
  refine ⟨fun q _ => by rw [hr.held], fun q b' hq hb' => ?_, fun q k _ hw => ?_, hr.io,
    fun q _ => by rw [hr.sys],
    hlog.imp_right fun hl => ⟨by rw [hr.sys], by rw [hr.sys], hl.1, hr.written, hl.2⟩⟩
  · rw [hr.buf, assign_of_ne (h.other hr.mem hq hb')]
  · simpa only [Wants, hr.want] using hw

lemma Inv.read_rewrote (hv : (s.buf b).valid = false) (hs : s.iderw disksize p b (s.buf b) = some s') :
    Rewrote s s' p b true false (s.disk (s.buf b).blockno.toNat) s.disk ∧ s'.io = s.io ∧
    s'.installed = s.installed := by
  obtain ⟨y, disk, hm, hr, hsame⟩ := h.iderw hs
  have hclean := h.coherent.clean_of_invalid (h.lt hr.mem) hv
  unfold Ide.memideRw at hm
  simp only [hv, hclean, Bool.false_eq_true, if_false, false_and] at hm
  split_ifs at hm
  cases hm
  exact ⟨hclean ▸ hr, hsame⟩

lemma Inv.read {c : Cont} (hio : s.io p = .loading b c) (hv : (s.buf b).valid = false)
    (hs : s.iderw disksize p b (s.buf b) = some s') :
    Inv start size d s' ∧ s'.io p = .loading b c ∧ (s'.buf b).valid = true := by
  have hown := h.own p
  obtain ⟨k, hb, haim⟩ := h.phase hio
  obtain ⟨hr, hsame, hinst⟩ := h.read_rewrote hv hs
  have hio' : s'.io p = .loading b c := by rw [hsame, hio]
  have hpin : s'.Pinned = s.Pinned := by
    funext k
    rw [Pinned, Pinned, hr.sys, hinst]
  refine ⟨h.local (h.frame hr (.inr ⟨hr.disk, hinst⟩)) hr.inv hr.sys hinst ?_
    ⟨fun b' hb' hl => ?_, fun b' hb' hn => ?_, ?_, fun st hst => ?_⟩, hio', ?_⟩
  · rw [hr.contents, hpin, hr.disk, hr.buf]
    exact h.coherent.load (h.lt hb.1) hb.2.1 hv
  · rw [hr.held] at hb'
    have hne : b' ≠ b := by
      rintro rfl
      exact hl c hio'
    rw [hr.buf, assign_of_ne hne]
    exact hown.valid b' hb' (by rwa [← hsame])
  · rw [hr.held] at hb'
    rw [(hr.named b').1, (hr.named b').2]
    exact hown.client b' hb' (by rwa [← hsame])
  · rw [hio']
    exact ⟨k, hr.has.mpr hb, haim.mono hr.sys (fun _ _ => hr.has.mpr)⟩
  · refine Progress.congr hr.sys hr.disk hr.written hinst (by rw [hsame]) (hown.progress st ?_)
    rwa [At, ← hr.sys]
  · rw [hr.buf, assign_self]

lemma Inv.returns {c : Cont} (hio : s.io p = .loading b c) (hv : (s.buf b).valid = true) :
    Inv start size d (s.setIo p (c.returned b)) := by
  have hown := h.own p
  obtain ⟨k, hb, haim⟩ := h.phase hio
  have hio' : (s.setIo p (c.returned b)).io p = c.returned b := assign_self ..
  refine h.local (p := p) ⟨fun _ _ => rfl, fun _ _ _ _ => rfl, fun _ _ _ hw => hw,
    fun q hq => assign_of_ne hq ..,
    fun _ _ => rfl, .inr ⟨rfl, rfl, rfl, rfl, rfl⟩⟩ h.bio rfl rfl h.coherent
    ⟨fun b' hb' _ => ?_, fun b' hb' hn => ?_, ?_, fun st hst => ?_⟩
  · by_cases hbb : b' = b
    · exact hbb ▸ hv
    · refine hown.valid b' hb' (fun c' hc' => ?_)
      rw [hio] at hc'
      cases hc'
      exact hbb rfl
  · rw [hio'] at hn
    by_cases hbb : b' = b
    · subst hbb
      cases c with
      | client _ => exact ⟨hb.2.1, hb.2.2 ▸ haim.2⟩
      | first => exact absurd (List.mem_singleton_self _) hn
      | second b1 => exact absurd (by simp [Cont.returned, Io.bufs]) hn
    · refine hown.client b' hb' ?_
      rw [hio]
      cases c <;> simp_all [Cont.returned, Io.bufs, Cont.bufs]
  · rw [hio']
    cases c with
    | client _ => trivial
    | first =>
      obtain ⟨st, hst, ho⟩ := haim
      exact ⟨st, k, hst, ho, hb⟩
    | second b1 =>
      obtain ⟨tail, hr, hk, hb1⟩ := haim
      exact ⟨tail, k, hr, hk, hb1, hb⟩
  · have hsys : (s.setIo p (c.returned b)).sys = s.sys := rfl
    refine Progress.congr hsys rfl rfl rfl ?_ (hown.progress st hst)
    rw [hio', hio]
    cases c <;> rfl

lemma Inv.alone {st : Stage} (hst : s.At p st) (q : ℕ) (st' : Stage) (hq : q ≠ p) : ¬ s.At q st' := by
  intro hst'
  exact hq (h.sys.unique q p (by rw [hst']; simp) (by rw [hst]; simp))

lemma Inv.committing {st : Stage} (hst : s.At p st) : s.sys.log.committing = true :=
  h.sys.committer p (by rw [hst]; simp)

lemma Inv.bwrite {st : Stage} (hst : s.At p st) {data : Block}
    (hr : Rewrote s s' p b true false data (assign s.disk (s.buf b).blockno.toNat data))
    (hdev : (s.buf b).dev = ROOTDEV)
    (hdata : Home start size (s.buf b).blockno → data = s.contents d (s.buf b).blockno)
    (hpin : ∀ k : UInt32, k.toNat ∈ s.sys.log.lh →
      (k.toNat ∉ s'.installed ↔ k.toNat ∉ s.installed ∧ k ≠ (s.buf b).blockno))
    (hown : Own start size d s' p) : Inv start size d s' := by
  refine ⟨hr.inv, hr.sys ▸ h.sys, h.listing.of_sys hr.sys fun hc => ?_, ?_, fun q => ?_⟩
  · rw [h.committing hst] at hc
    cases hc
  · have hP : s'.Pinned = fun k => s.Pinned k ∧ k ≠ (s.buf b).blockno := by
      funext k
      rw [Pinned, hr.sys]
      refine propext ⟨fun hk => ?_, fun hk => ?_⟩
      · exact ⟨⟨hk.1, ((hpin k hk.1).mp hk.2).1⟩, ((hpin k hk.1).mp hk.2).2⟩
      · exact ⟨hk.1.1, (hpin k hk.1.1).mpr ⟨hk.1.2, hk.2⟩⟩
    rw [hr.contents, hP, hr.buf, hr.disk]
    exact h.coherent.bwrite (h.lt hr.mem) hdev hdata
  · by_cases hq : q = p
    · exact hq ▸ hown
    · exact (h.own q).frame (h.frame hr (.inl fun q st' hq => h.alone hst q st' hq)) hq

lemma Inv.bwrite_log {st : Stage} (hst : s.At p st) {data : Block}
    (hr : Rewrote s s' p b true false data (assign s.disk (s.buf b).blockno.toNat data))
    (hb : s.Has p b k)
    (hlog : ¬ Home start size k) (hinst : s'.installed = s.installed) (hown : Own start size d s' p) :
    Inv start size d s' := by
  obtain ⟨-, hdev, rfl⟩ := hb
  refine h.bwrite hst hr hdev (fun hh => absurd hh hlog) (fun k hk => ?_) hown
  rw [hinst]
  refine ⟨fun hn => ⟨hn, ?_⟩, fun hn => hn.1⟩
  rintro rfl
  exact hlog (h.listing.home _ hk)

lemma Inv.bwrite_cases {data : Block} {x : Io} (hs : s.bwrite disksize p b data x = some s') :
    Rewrote s s' p b true false data (assign s.disk (s.buf b).blockno.toNat data) ∧ s'.io p = x ∧
      s'.installed = s.installed := by
  obtain ⟨t, ht, rfl⟩ := Option.map_eq_some_iff.mp hs
  obtain ⟨y, disk, hm, hr, -, hinst⟩ := h.iderw ht
  unfold Ide.memideRw at hm
  split_ifs at hm
  · cases hm
    exact ⟨{ hr with io := fun q hq => (assign_of_ne hq ..).trans (hr.io q hq) }, assign_self .., hinst⟩
  · simp at *

end

lemma Own.rewrote {data : Block} {disk : Disk} (hown : Own start size d s p)
    (hr : Rewrote s s' p b true false data disk)
    (hload : ∀ b c, s.io p ≠ .loading b c) (hbufs : ∀ b' ∈ (s.io p).bufs, b' ∈ (s'.io p).bufs)
    (hphase : s'.Phase start size p (s'.io p)) (hprog : ∀ st, s.At p st → s'.Progress d p st) :
    Own start size d s' p := by
  refine ⟨fun b' hb' _ => ?_, fun b' hb' hn => ?_, hphase, fun st hst => hprog st ?_⟩
  · rw [hr.held] at hb'
    rw [hr.buf, assign_apply]
    split_ifs
    · rfl
    · exact hown.valid b' hb' (hload b')
  · rw [hr.held] at hb'
    rw [(hr.named b').1, (hr.named b').2]
    exact hown.client b' hb' (fun hm => hn (hbufs b' hm))
  · rwa [At, ← hr.sys]

lemma logBlock_inj {i j : ℕ} (hi : i ≤ LOGSIZE) (hj : j ≤ LOGSIZE)
    (h : logBlock start i = logBlock start j) : i = j := by
  have := congrArg UInt32.toNat h
  simp only [logBlock, UInt32.toNat_ofNat'] at this
  simp only [LOGSIZE, MAXOPBLOCKS] at hi hj
  omega

lemma Listing.log_block (h : Listing start size s) {j : ℕ} (hj : j < s.sys.log.lh.length) :
    ¬ Home start size (logBlock s.sys.log.start (j + 1)) := by
  rw [h.area.1]
  exact fun hh => hh (j + 1) (h.room j hj) rfl

lemma Listing.head_block (h : Listing start size s) (hne : s.sys.log.lh ≠ []) :
    ¬ Home start size (logBlock s.sys.log.start 0) := by
  have := h.room 0 (List.length_pos_iff.mpr hne)
  rw [h.area.1]
  exact fun hh => hh 0 (by omega) rfl

lemma Round.eq_tail {tail tail' : ℕ} (h : s.Round p tail')
    (hst : s.At p (.writeLog tail) ∨ s.At p (.installTrans tail)) : tail' = tail := by
  rcases h with h | h <;> rcases hst with hst | hst <;> rw [At] at h hst <;> rw [h] at hst <;>
    cases hst <;> rfl

lemma At.unique {st st' : Stage} (h : s.At p st) (h' : s.At p st') : st' = st := by
  rw [At] at h h'
  rw [h] at h'
  cases h'
  rfl

lemma Inv.at_one (h : Inv start size d s) {st : Stage} (hst : s.At p st) (hio : s.io p = .one b) :
    ∃ k, s.Opens k st ∧ s.Has p b k := by
  obtain ⟨st', k, hst', hopen, hb⟩ := h.phase hio
  obtain rfl := At.unique hst hst'
  exact ⟨k, hopen, hb⟩

lemma Inv.at_two (h : Inv start size d s) {tail b' : ℕ} (hst : s.Round p tail)
    (hio : s.io p = .two b b') :
    ∃ k : UInt32, s.sys.log.lh[tail]? = some k.toNat ∧ s.Has p b (logBlock s.sys.log.start (tail + 1)) ∧
      s.Has p b' k := by
  obtain ⟨tail', k, hround, hphase⟩ := h.phase hio
  obtain rfl := hround.eq_tail hst
  exact ⟨k, hphase⟩

section

variable (h : Inv start size d s)
include h

lemma Inv.logBlock_ne {i j : ℕ} (hi : i < s.sys.log.lh.length) (hj : j ≤ s.sys.log.lh.length)
    (hne : i + 1 ≠ j) : (logBlock s.sys.log.start (i + 1)).toNat ≠
      (logBlock s.sys.log.start j).toNat := by
  have := h.listing.few
  exact fun heq => hne (logBlock_inj (by omega) (by omega) (UInt32.toNat_inj.mp heq))

lemma Inv.copy {tail tbuf fbuf : ℕ} (hst : s.At p (.writeLog tail)) (hio : s.io p = .two tbuf fbuf)
    (hs : s.bwrite disksize p tbuf (s.buf fbuf).data (.wrote tbuf fbuf) = some s') :
    Inv start size d s' := by
  have hown := h.own p
  have hround : s.Round p tail := .inl hst
  obtain ⟨k, hk, htb, hfb⟩ := h.at_two hround hio
  obtain ⟨hne, hinst, hcopied⟩ := hown.progress _ hst
  have hlt : tail < s.sys.log.lh.length := (List.getElem?_eq_some_iff.mp hk).1
  have hlog := h.listing.log_block hlt
  have hdata : (s.buf fbuf).data = s.contents d k := by
    have := h.coherent.shows fbuf (h.lt hfb.1) hfb.2.1 (hown.valid fbuf hfb.1 (by simp [hio]))
      (hfb.2.2 ▸ h.listing.home k (List.mem_of_getElem? hk))
    rw [this, hfb.2.2]
  obtain ⟨hr, hio', hinst'⟩ := h.bwrite_cases hs
  refine h.bwrite_log hst hr htb hlog hinst'
    (hown.rewrote hr (by simp [hio]) (by simp [hio, hio', Io.bufs]) ?_ ?_)
  · rw [hio']
    exact hr.wrote hround hk htb hfb
  · intro st hst'
    obtain rfl := At.unique hst hst'
    refine ⟨by rwa [hr.sys], hinst'.trans hinst, ?_⟩
    rw [hio']
    refine hr.copied (fun j hj k' hk' => ?_)
    have hjl : j < s.sys.log.lh.length := (List.getElem?_eq_some_iff.mp hk').1
    rw [htb.2.2]
    by_cases hjt : j = tail
    · subst hjt
      rw [hk] at hk'
      obtain rfl : k = k' := UInt32.toNat_inj.mp (Option.some.inj hk')
      rw [assign_self, hdata]
    · rw [assign_of_ne (h.logBlock_ne hjl (by omega) (by omega))]
      refine hcopied j ?_ k' hk'
      simp only [hio, Io.done] at hj ⊢
      omega

lemma Inv.header {st : Stage} (hst : s.At p st) (hstage : st = .writeHead ∨ st = .clear)
    (hio : s.io p = .one b) {data : Block} (hs : s.bwrite disksize p b data (.last b) = some s') :
    Inv start size d s' := by
  have hown := h.own p
  obtain ⟨k, hopen, hb⟩ := h.at_one hst hio
  have hprog := hown.progress _ hst
  obtain ⟨rfl, hne⟩ : k = logBlock s.sys.log.start 0 ∧ s.sys.log.lh ≠ [] := by
    rcases hstage with rfl | rfl
    · exact ⟨hopen, hprog.1⟩
    · exact ⟨hopen, hprog.1⟩
  have hlog := h.listing.head_block hne
  obtain ⟨hr, hio', hinst'⟩ := h.bwrite_cases hs
  refine h.bwrite_log hst hr hb hlog hinst'
    (hown.rewrote hr (by simp [hio]) (by simp [hio, hio', Io.bufs]) ?_ ?_)
  · rw [hio']
    refine ⟨st, logBlock s.sys.log.start 0, by rwa [At, hr.sys], ?_, hr.held ▸ hb.1⟩
    rcases hstage with rfl | rfl <;> simp only [Opens, hr.sys]
  · intro st'' hst''
    obtain rfl := At.unique hst hst''
    rcases hstage with rfl | rfl
    · refine ⟨by rwa [hr.sys], hinst'.trans hprog.2.1, hr.copied (fun j hj k' hk' => ?_)⟩
      rw [hr.sys] at hj
      rw [hb.2.2, assign_of_ne (h.logBlock_ne hj (Nat.zero_le _) (by omega))]
      exact hprog.2.2 j hj k' hk'
    · exact ⟨by rwa [hr.sys], by rw [hinst', hr.sys]; exact hprog.2⟩

lemma Inv.install {tail lbuf dbuf : ℕ} (hst : s.At p (.installTrans tail))
    (hio : s.io p = .two lbuf dbuf) {t : State}
    (hs : s.bwrite disksize p dbuf (s.buf lbuf).data (.wrote lbuf dbuf) = some t) :
    Inv start size d { t with installed := s.installed ++ [(s.buf dbuf).blockno.toNat] } := by
  have hown := h.own p
  have hround : s.Round p tail := .inr hst
  obtain ⟨k, hk, hlb, hdb⟩ := h.at_two hround hio
  obtain ⟨hne, hinst, hcopied⟩ := hown.progress _ hst
  have hlt : tail < s.sys.log.lh.length := (List.getElem?_eq_some_iff.mp hk).1
  have hlog := h.listing.log_block hlt
  have hhome := h.listing.home k (List.mem_of_getElem? hk)
  have hdata : (s.buf lbuf).data = s.contents d k := by
    have := h.coherent.copies lbuf (h.lt hlb.1) hlb.2.1 (hown.valid lbuf hlb.1 (by simp [hio]))
      (hlb.2.2 ▸ hlog)
    rw [this, hlb.2.2]
    exact hcopied tail hlt k hk
  obtain ⟨hr, hio', -⟩ := h.bwrite_cases hs
  replace hr : Rewrote s { t with installed := s.installed ++ [(s.buf dbuf).blockno.toNat] } p dbuf
    true false _ _ :=
    { hr with }
  refine h.bwrite hst hr hdb.2.1 (fun _ => by rw [hdata, hdb.2.2]) (fun k' _ => ?_)
    (hown.rewrote hr (by simp [hio]) (by simp [hio, hio', Io.bufs]) ?_ ?_)
  · rw [List.mem_append, List.mem_singleton, not_or, UInt32.toNat_inj]
  · dsimp only
    rw [hio']
    exact hr.wrote hround hk hlb hdb
  · intro st hst'
    obtain rfl := At.unique hst hst'
    refine ⟨by rwa [hr.sys], ?_, hr.copied (fun j hj k' hk' => ?_)⟩
    · simp only [hio, Io.done, Nat.add_zero] at hinst
      rw [hr.sys, show ({ t with installed := _ } : State).io p = _ from hio', Io.done]
      dsimp only
      rw [hinst, hdb.2.2, List.take_add_one, hk]
      rfl
    · rw [hr.sys] at hj
      have hne' : (logBlock s.sys.log.start (j + 1)).toNat ≠ k.toNat := by
        intro heq
        exact h.listing.log_block hj (UInt32.toNat_inj.mp heq ▸ hhome)
      rw [hdb.2.2, assign_of_ne hne']
      exact hcopied j hj k' hk'

lemma Inv.brelse {x : Io} (hs : s.brelse p b x = some s')
    (hload : ∀ b c, s.io p ≠ .loading b c) (hbufs : ∀ b' ∈ (s.io p).bufs, b' = b ∨ b' ∈ x.bufs)
    (hdone : x.done = (s.io p).done)
    (hphase : s'.sys = s.sys → s'.io p = x → (∀ b' ∈ s.bio.held p, b' ≠ b → b' ∈ s'.bio.held p) →
      s'.Phase start size p x) : Inv start size d s' := by
  obtain ⟨l, hl⟩ := h.bio
  unfold State.brelse at hs
  split at hs
  · rename_i bio hbio
    have hinv := hl.step hbio
    simp only [Bio.State.step] at hbio
    split_ifs at hbio with hb
    cases hbio
    cases hs
    have hown := h.own p
    set t : State := ({ s with bio := _ } : State).setIo p x with ht
    have hsys : t.sys = s.sys := rfl
    have hbuf : t.buf = assign s.buf b { s.buf b with busy := false } := rfl
    have hheld : ∀ q, t.bio.held q = if q = p then (s.bio.held p).erase b else s.bio.held q :=
      fun _ => rfl
    have hio : t.io p = x := assign_self ..
    have hmem : ∀ b', b' ∈ t.bio.held p ↔ b' ≠ b ∧ b' ∈ s.bio.held p := by
      intro b'
      rw [hheld, if_pos rfl, Finset.mem_erase]
    refine h.local (p := p) ⟨fun q hq => by rw [hheld, if_neg hq], fun q b' hq hb' => ?_,
      fun q k hq hw => ?_,
      fun q hq => assign_of_ne hq .., fun _ _ => rfl, .inr ⟨rfl, rfl, rfl, rfl, rfl⟩⟩ hinv rfl rfl ?_
      ⟨fun b' hb' _ => ?_, fun b' hb' hn => ?_, ?_, fun st hst => ?_⟩
    · rw [hbuf, assign_of_ne (h.other hb hq hb')]
    · show Bio.State.wake b (s.bio.want q) = _ ∨ ∃ b', Bio.State.wake b (s.bio.want q) = _
      rcases hw with hw | ⟨b', hw⟩
      · exact .inl (by rw [hw]; rfl)
      · rw [hw, Bio.State.wake]
        split_ifs
        · exact .inl rfl
        · exact .inr ⟨b', rfl⟩
    · exact h.coherent.setBusy false
    · obtain ⟨hne, hb'⟩ := (hmem b').mp hb'
      rw [hbuf, assign_of_ne hne]
      exact hown.valid b' hb' (hload b')
    · obtain ⟨hne, hb'⟩ := (hmem b').mp hb'
      rw [hio] at hn
      rw [hbuf, assign_of_ne hne]
      exact hown.client b' hb' (fun hm => (hbufs b' hm).elim hne hn)
    · rw [hio]
      exact hphase hsys hio (fun b' hb' hne => (hmem b').mpr ⟨hne, hb'⟩)
    · exact Progress.congr hsys rfl rfl rfl (by rw [hio, hdone]) (hown.progress st hst)
  · cases hs

lemma Inv.control {sys : Sys} {inst : List ℕ} (hio : s.io p = .idle ∨ s.io p = .finished)
    (hsys : Sys.Inv sys) (hlist : Listing start size ({ s with sys := sys, installed := inst } : State))
    (hstage : ∀ q, q ≠ p → (sys.proc q).stage? = (s.sys.proc q).stage?)
    (hlog : (∀ q st, q ≠ p → ¬ s.At q st) ∨ sys.log.lh = s.sys.log.lh ∧ inst = s.installed)
    (hpin : ∀ k, k ∈ sys.log.lh ∧ k ∉ inst ↔ k ∈ s.sys.log.lh ∧ k ∉ s.installed)
    (hprog : ∀ st, (sys.proc p).stage? = some st →
      (({ s with sys := sys, installed := inst } : State).setIo p .idle).Progress d p st) :
    Inv start size d (({ s with sys := sys, installed := inst } : State).setIo p .idle) := by
  have hown := h.own p
  have harea : sys.log.start = s.sys.log.start := hlist.area.1.trans h.listing.area.1.symm
  refine ⟨h.bio, hsys, hlist.congr rfl rfl rfl hlist.quiet, ?_, fun q => ?_⟩
  · have hP : (({ s with sys := sys, installed := inst } : State).setIo p .idle).Pinned = s.Pinned := by
      funext k
      exact propext (hpin k.toNat)
    rw [hP]
    exact h.coherent
  · by_cases hq : q = p
    · subst hq
      have hidle : (({ s with sys := sys, installed := inst } : State).setIo q .idle).io q =
        .idle := assign_self ..
      refine ⟨fun b' hb' _ => hown.valid b' hb' ?_, fun b' hb' _ => hown.client b' hb' ?_, ?_, hprog⟩
      · rcases hio with hio | hio <;> simp [hio]
      · rcases hio with hio | hio <;> simp [hio, Io.bufs]
      · rw [hidle]
        trivial
    · refine (h.own q).frame (p := p) ⟨fun _ _ => rfl, fun _ _ _ _ => rfl, fun _ _ _ hw => hw,
        fun q hq => assign_of_ne hq .., hstage, hlog.imp_right fun hl => ⟨hl.1, harea, rfl, rfl, hl.2⟩⟩ hq

end

lemma At.proc {st : Stage} (h : s.At p st) : s.sys.proc p = .committing st := by
  unfold At at h
  cases hp : s.sys.proc p <;> rw [hp] at h <;> cases h
  rfl

lemma Inv.goto (h : Inv start size d s) {st st' : Stage} (hst : s.At p st)
    (hio : s.io p = .idle ∨ s.io p = .finished) (hsys : Sys.Inv (s.sys.set p (.committing st')))
    (hprog : (({ s with sys := s.sys.set p (.committing st') } : State).setIo p .idle).Progress d p st') :
    Inv start size d (({ s with sys := s.sys.set p (.committing st') } : State).setIo p .idle) := by
  refine h.control hio hsys (h.listing.congr rfl rfl rfl fun hc => ?_) (fun q hq => ?_)
    (.inl fun q st' hq => h.alone hst q st' hq) (fun k => Iff.rfl) (fun st'' hst'' => ?_)
  · rw [Sys.set_log, h.committing hst] at hc
    cases hc
  · rw [Sys.set_proc, if_neg hq]
  · rw [Sys.set_proc, if_pos rfl] at hst''
    cases hst''
    exact hprog

lemma Inv.advance (h : Inv start size d s) {st : Stage} (hst : s.At p st)
    (hio : s.io p = .idle ∧ (st = .finish ∨ ∃ tail, (st = .writeLog tail ∨ st = .installTrans tail) ∧
      s.sys.log.lh.length ≤ tail) ∨ s.io p = .finished) (hs : s.advance p st = some s') :
      Inv start size d s' := by
  have hprog := (h.own p).progress st hst
  unfold State.advance at hs
  split at hs
  · rename_i sys hcall
    cases hs
    have hsys := h.sys.call hcall
    have hio' : s.io p = .idle ∨ s.io p = .finished := hio.imp (fun hx => hx.1) id
    obtain rfl : s.sys.commitStep p st = sys := by
      simp only [Sys.call, Sys.step, hst.proc] at hcall
      split_ifs at hcall
      exact Option.some.inj hcall
    cases st with
    | writeLog tail =>
      obtain ⟨hne, hinst, hcop⟩ := hprog
      rw [if_neg (by simp)]
      refine h.goto hst hio' hsys ?_
      by_cases hlt : tail < s.sys.log.lh.length
      · have hf : s.io p = .finished :=
          hio.resolve_left (by rintro ⟨-, h' | ⟨t, h' | h', hle⟩⟩ <;> cases h'; omega)
        rw [if_pos hlt]
        refine ⟨hne, hinst, fun j hj k hk => hcop j ?_ k hk⟩
        simpa only [setIo, assign_self, hf, Io.done] using hj
      · rw [if_neg hlt]
        refine ⟨hne, hinst, fun j hj k hk => hcop j ?_ k hk⟩
        have : j < s.sys.log.lh.length := hj
        omega
    | writeHead =>
      obtain ⟨hne, hinst, hcop⟩ := hprog
      rw [if_neg (by simp)]
      refine h.goto hst hio' hsys ⟨hne, ?_, hcop⟩
      simp only [setIo, assign_self, Io.done]
      exact hinst
    | installTrans tail =>
      obtain ⟨hne, hinst, hcop⟩ := hprog
      rw [if_neg (by simp)]
      refine h.goto hst hio' hsys ?_
      by_cases hlt : tail < s.sys.log.lh.length
      · have hf : s.io p = .finished :=
          hio.resolve_left (by rintro ⟨-, h' | ⟨t, h' | h', hle⟩⟩ <;> cases h'; omega)
        rw [if_pos hlt]
        refine ⟨hne, ?_, hcop⟩
        simp only [setIo, assign_self, Io.done]
        rw [hf] at hinst
        exact hinst
      · rw [if_neg hlt]
        refine ⟨hne, hinst.trans ?_⟩
        rw [List.take_of_length_le (by omega)]
        rfl
    | clear =>
      obtain ⟨hne, hinst⟩ := hprog
      rw [if_pos rfl]
      refine h.control hio' hsys ?_ (fun q hq => ?_) (.inl fun q st' hq => h.alone hst q st' hq)
        (fun k => ?_) (fun st' hst' => ?_)
      · exact ⟨h.listing.area, List.nodup_nil, fun k hk => absurd hk List.not_mem_nil,
          fun k hk => absurd hk List.not_mem_nil, fun j hj => absurd hj (Nat.not_lt_zero j),
          Nat.zero_le _, fun _ => rfl⟩
      · rw [Sys.commitStep, Sys.set_proc, if_neg hq]
      · rw [hinst]
        exact iff_of_false (fun hk => absurd hk.1 List.not_mem_nil) (fun hk => hk.2 hk.1)
      · rw [Sys.commitStep, Sys.set_proc, if_pos rfl] at hst'
        cases hst'
        exact ⟨rfl, rfl⟩
    | finish =>
      obtain ⟨hinst, hlh⟩ := hprog
      rw [if_neg (by simp)]
      refine h.control hio' hsys (h.listing.congr rfl rfl rfl fun _ => hinst) (fun q hq => ?_)
        (.inl fun q st' hq => h.alone hst q st' hq) (fun k => Iff.rfl) (fun st' hst' => ?_)
      · rw [Sys.commitStep, Sys.wakeup_proc, Log.Proc.stage?_wake, Sys.set_proc, if_neg hq]
      · rw [Sys.commitStep, Sys.wakeup_proc, Log.Proc.stage?_wake, Sys.set_proc, if_pos rfl] at hst'
        cases hst'
  · cases hs

lemma setIo_idle {t : State} (h : t.io p = .idle) : t = t.setIo p .idle := by
  rw [setIo, assign_eq_self h]

lemma Inv.outside (h : Inv start size d s) {sys : Sys} (hio : s.io p = .idle) (hsys : Sys.Inv sys)
    (hlist : Listing start size ({ s with sys := sys } : State)) (hlh : sys.log.lh = s.sys.log.lh)
    (hother : ∀ q, q ≠ p → (sys.proc q).stage? = (s.sys.proc q).stage?)
    (hprog : ∀ st, (sys.proc p).stage? = some st → ({ s with sys := sys } : State).Progress d p st) :
    Inv start size d { s with sys := sys } := by
  have hfin : ({ s with sys := sys } : State) = ({ s with sys := sys, installed := s.installed } :
    State).setIo p .idle :=
    setIo_idle hio
  rw [hfin] at hprog ⊢
  exact h.control (.inl hio) hsys hlist hother (.inr ⟨hlh, rfl⟩) (fun k => by rw [hlh]) hprog

lemma Inv.beginOp (h : Inv start size d s) {sys : Sys} (hio : s.io p = .idle)
    (hs : s.sys.call (.beginOp p) = some sys) : Inv start size d { s with sys := sys } := by
  have hsys := h.sys.call hs
  have hstep : Sys.Step s.sys (.beginOp p) sys := hs
  obtain ⟨-, hmove⟩ := hstep.move
  cases hmove with
  | sleep | start =>
    refine h.outside hio hsys (h.listing.congr rfl rfl rfl h.listing.quiet) rfl (fun q hq => ?_)
      (fun st hst => ?_)
    · rw [Sys.set_proc, if_neg hq]
    · rw [Sys.set_proc, if_pos rfl] at hst
      cases hst

lemma Inv.endOp (h : Inv start size d s) {sys : Sys} (hio : s.io p = .idle)
    (hs : s.sys.call (.endOp p) = some sys) : Inv start size d { s with sys := sys } := by
  have hsys := h.sys.call hs
  have hstep : Sys.Step s.sys (.endOp p) sys := hs
  obtain ⟨-, hmove⟩ := hstep.move
  cases hmove with
  | endPanic hp hc =>
    rw [h.sys.not_committing (p := p) (by rw [hp]; simp [Log.Proc.op?])] at hc
    cases hc
  | endLast hp hc _ =>
    have hinst := h.listing.quiet hc
    refine h.outside hio hsys (h.listing.congr rfl rfl rfl fun _ => hinst) rfl (fun q hq => ?_)
      (fun st hst => ?_)
    · rw [Sys.set_proc, if_neg hq]
    · rw [Sys.set_proc, if_pos rfl] at hst
      cases hst
      unfold Sys.firstStage
      split_ifs with hlen
      · refine ⟨List.length_pos_iff.mp hlen, hinst, fun j hj => ?_⟩
        simp only [hio, Io.done] at hj
        omega
      · exact ⟨hinst, List.length_eq_zero_iff.mp (Nat.eq_zero_of_not_pos hlen)⟩
  | endMore hp hc _ =>
    refine h.outside hio hsys (h.listing.congr rfl rfl rfl h.listing.quiet) rfl (fun q hq => ?_)
      (fun st hst => ?_)
    · rw [Sys.wakeup_proc, Log.Proc.stage?_wake, Sys.set_proc, if_neg hq]
    · rw [Sys.wakeup_proc, Log.Proc.stage?_wake, Sys.set_proc, if_pos rfl] at hst
      cases hst

lemma call_logWrite {t sys : Sys} {b : ℕ} (hs : t.call (.logWrite p b) = some sys)
    (hn : sys.panic = none) :
    (t.proc p).op? ≠ none ∧ t.log.lh.length < LOGSIZE ∧ (t.log.lh.length : ℤ) < t.log.size - 1 ∧
      sys.log = t.log.logWriteAppend b ∧ sys.proc = t.proc := by
  simp only [Sys.call] at hs
  split_ifs at hs with hp
  split at hs
  · rename_i op hop
    cases hs
    unfold Sys.logWrite at hn ⊢
    unfold Log.LogState.logWrite at hn ⊢
    cases hc : t.log.logWriteCheck with
    | error e =>
      rw [hc] at hn
      cases hn
    | ok u =>
      simp only [Log.LogState.logWriteCheck] at hc
      split_ifs at hc with h1 h2
      push Not at h1
      exact ⟨by rw [hop]; simp [Log.Proc.op?], h1.1, h1.2, rfl, rfl⟩
  · cases hs

section logWrite

variable {t : State} {x : UInt32} {data : Block} (hlog : t.sys.log = s.sys.log.logWriteAppend x.toNat)
include hlog

lemma Listing.logWrite (h : Listing start size s) (hhome : Home start size x) (hinst : t.installed = [])
    (hlen : s.sys.log.lh.length < LOGSIZE) (hroom : (s.sys.log.lh.length : ℤ) < s.sys.log.size - 1) :
    Listing start size t := by
  have hmore := Log.Sys.logWriteAppend_length s.sys.log x.toNat
  refine ⟨?_, ?_, fun k hk => ?_, fun k hk => ?_, fun j hj => ?_, ?_, fun _ => hinst⟩
  · rw [hlog, Log.Sys.logWriteAppend_start, Log.Sys.logWriteAppend_size]
    exact h.area
  · rw [hlog]
    exact Log.Sys.nodup_logWriteAppend h.nodup _
  · rw [hlog, Log.Sys.mem_logWriteAppend] at hk
    rcases hk with rfl | hk
    · exact x.toNat_lt
    · exact h.range k hk
  · rw [hlog, Log.Sys.mem_logWriteAppend] at hk
    rcases hk with hk | hk
    · rw [UInt32.toNat_inj.mp hk]
      exact hhome
    · exact h.home k hk
  · rw [hlog] at hj
    have := h.area.2
    omega
  · rw [hlog]
    omega

lemma pinned_logWrite (hs : s.installed = []) (ht : t.installed = []) :
    t.Pinned = fun k => s.Pinned k ∨ k = x := by
  funext k
  unfold Pinned
  rw [hlog, hs, ht, Log.Sys.mem_logWriteAppend, ← UInt32.toNat_inj]
  simp [or_comm]

end logWrite

lemma contents_assign {t : State} {x : UInt32} {data : Block}
    (hw : t.written = assign s.written x (some data)) :
    t.contents d = assign (s.contents d) x data := by
  funext k
  unfold contents
  by_cases hk : k = x
  · simp [hw, hk]
  · simp [hw, assign_of_ne hk]

lemma Own.of_idle (h : Own start size d s p) (hio : s.io p = .idle) (hio' : s'.io p = .idle)
    (hheld : s'.bio.held p = s.bio.held p) (hat : ∀ st, ¬ s'.At p st)
    (hbuf : ∀ b, (s'.buf b).dev = (s.buf b).dev ∧ (s'.buf b).blockno = (s.buf b).blockno ∧
      (s'.buf b).valid = (s.buf b).valid) : Own start size d s' p := by
  refine ⟨fun b hb _ => ?_, fun b hb _ => ?_, ?_, fun st hst => absurd hst (hat st)⟩
  · rw [(hbuf b).2.2]
    exact h.valid b (hheld ▸ hb) (by simp [hio])
  · rw [(hbuf b).1, (hbuf b).2.1]
    exact h.client b (hheld ▸ hb) (by simp [hio, Io.bufs])
  · rw [hio']
    trivial

lemma Inv.logWrite (h : Inv start size d s) {sys : Sys} {bio : Bio.State} {data : Block}
    (hio : s.io p = .idle)
    (hs : s.sys.call (.logWrite p (s.buf b).blockno.toNat) = some sys) (hn : sys.panic = none)
    (hu : s.bio.step (.update p b (s.buf b).valid true data) = some bio) : Inv start size d
      { s with sys := sys, bio := bio, written := assign s.written (s.buf b).blockno (some data) } := by
  obtain ⟨l, hl⟩ := h.bio
  have hinv := hl.step hu
  obtain ⟨hop, hlen, hroom, hlog, hproc⟩ := call_logWrite hs hn
  have hnc := h.sys.not_committing hop
  have hinst := h.listing.quiet hnc
  simp only [Bio.State.step] at hu
  split_ifs at hu with hb
  cases hu
  obtain ⟨hdev, hhome⟩ := (h.own p).client b hb (by simp [hio, Io.bufs])
  have hv := (h.own p).valid b hb (by simp [hio])
  set t : State := { s with
    sys := sys, bio := _, written := assign s.written (s.buf b).blockno (some data) } with ht
  have hbuf : t.buf = assign s.buf b { s.buf b with dirty := true, data := data } := rfl
  have hstage : ∀ r, (t.sys.proc r).stage? = (s.sys.proc r).stage? :=
    fun r => by rw [show t.sys.proc = _ from hproc]
  -- no process is inside `commit` here
  have hnone : ∀ q st, ¬ s.At q st := by
    intro q st hst
    rw [h.committing hst] at hnc
    cases hnc
  refine ⟨hinv, h.sys.call hs, h.listing.logWrite hlog hhome hinst hlen hroom, ?_, fun q => ?_⟩
  · rw [contents_assign (t := t) rfl, pinned_logWrite (t := t) hlog hinst hinst, hbuf]
    exact h.coherent.logWrite (h.lt hb) hdev hv hhome
  by_cases hq : q = p
  · subst hq
    refine (h.own q).of_idle hio hio rfl (fun st hst => hnone q st (by rwa [At, hstage] at hst))
      fun b' => ?_
    rw [hbuf, assign_apply]
    split_ifs with hbb
    · rw [hbb]
      exact ⟨rfl, rfl, rfl⟩
    · exact ⟨rfl, rfl, rfl⟩
  · refine (h.own q).frame (p := p) ⟨fun _ _ => rfl, fun q b' hq hb' => ?_, fun _ _ _ hw => hw,
      fun _ _ => rfl, fun q _ => hstage q, .inl fun q st _ => hnone q st⟩ hq
    rw [hbuf, assign_of_ne (h.other hb hq hb')]

lemma bio_bget {t t' : Bio.State} (h : t.step (.bget p ROOTDEV k) = some t') :
    t.scan p ROOTDEV k = some t' := by
  simp only [Bio.State.step] at h
  split at h
  · exact h
  · cases h

section

variable (h : Inv start size d s)
include h

lemma Inv.bget_first {st : Stage} (hst : s.At p st) (hio : s.io p = .idle)
    (hopen : s.Opens k st) (hs : s.bget p k .first = some s') : Inv start size d s' :=
  h.scan hs (fun _ => bio_bget) ⟨st, hst, hopen⟩ (by rw [hio]; rfl) (by rw [hio]; rfl) (by simp [hio])

lemma Inv.bget_second {tail k : ℕ} (hst : s.Round p tail) (hio : s.io p = .one b)
    (hk : s.sys.log.lh[tail]? = some k) (hs : s.bget p (UInt32.ofNat k) (.second b) = some s') :
    Inv start size d s' := by
  have hlt := h.listing.range k (List.mem_of_getElem? hk)
  have hk' : (UInt32.ofNat k).toNat = k := by rw [UInt32.toNat_ofNat', Nat.mod_eq_of_lt hlt]
  refine h.scan hs (fun _ => bio_bget) ⟨tail, hst, by rw [hk', hk], ?_⟩ (by rw [hio]; rfl)
    (by rw [hio]; rfl) (by simp [hio])
  rcases hst with hst | hst
  · obtain ⟨k', hopen, hb⟩ := h.at_one hst hio
    exact hopen.1 ▸ hb
  · obtain ⟨k', hopen, hb⟩ := h.at_one hst hio
    exact hopen.1 ▸ hb

lemma Inv.two_ne {b b' tail : ℕ} (hk : s.sys.log.lh[tail]? = some k.toNat)
    (hb : s.Has p b (logBlock s.sys.log.start (tail + 1))) (hb' : s.Has p b' k) : b ≠ b' := by
  rintro rfl
  refine h.listing.log_block (List.getElem?_eq_some_iff.mp hk).1 ?_
  rw [← hb.2.2, hb'.2.2]
  exact h.listing.home k (List.mem_of_getElem? hk)

lemma Inv.release {b b' c c' : ℕ} (hio : s.io p = .wrote b b')
    (hc : c = b ∧ c' = b' ∨ c = b' ∧ c' = b) (hs : s.brelse p c (.last c') = some s') :
    Inv start size d s' := by
  obtain ⟨tail, k, hround, hk, hb, hb'⟩ := h.phase hio
  have hne := h.two_ne hk hb hb'
  have hlt := (List.getElem?_eq_some_iff.mp hk).1
  refine h.brelse hs (by simp [hio]) ?_ (by rw [hio]; rfl) (fun hsys hio' hheld => ?_)
  · rw [hio]
    rcases hc with ⟨rfl, rfl⟩ | ⟨rfl, rfl⟩ <;> simp [Io.bufs]
  · have hc' : c' ∈ s'.bio.held p := by
      rcases hc with ⟨rfl, rfl⟩ | ⟨rfl, rfl⟩
      · exact hheld _ hb'.1 hne.symm
      · exact hheld _ hb.1 hne
    rcases hround with hst | hst
    · exact ⟨.writeLog tail, _, by rwa [At, hsys], ⟨rfl, by rwa [hsys]⟩, hc'⟩
    · exact ⟨.installTrans tail, _, by rwa [At, hsys], ⟨rfl, by rwa [hsys]⟩, hc'⟩

lemma Inv.round_over (hio : s.io p = .last b) (hs : s.brelse p b .finished = some s') :
    Inv start size d s' := by
  obtain ⟨st, k, hst, hopen, hb⟩ := h.phase hio
  refine h.brelse hs (by simp [hio]) (by simp [hio, Io.bufs]) (by rw [hio]; rfl) (fun hsys hio' _ => ?_)
  exact ⟨st, k, by rwa [At, hsys], (opens_congr (by rw [hsys]) (by rw [hsys])).2 hopen⟩

lemma Inv.commit {st : Stage} (hst : s.At p st) (hs : s.commit disksize p st = some s') :
    Inv start size d s' := by
  unfold State.commit at hs
  split at hs
  · rename_i tail hio
    split_ifs at hs with hlt
    · exact h.bget_first hst hio ⟨rfl, hlt⟩ hs
    · exact h.advance hst (.inl ⟨hio, .inr ⟨tail, .inl rfl, by omega⟩⟩) hs
  · rename_i tail hio
    split_ifs at hs with hlt
    · exact h.bget_first hst hio ⟨rfl, hlt⟩ hs
    · exact h.advance hst (.inl ⟨hio, .inr ⟨tail, .inr rfl, by omega⟩⟩) hs
  · rename_i hio
    exact h.bget_first hst hio rfl hs
  · rename_i hio
    exact h.bget_first hst hio rfl hs
  · rename_i hio
    exact h.advance hst (.inl ⟨hio, .inl rfl⟩) hs
  · rename_i tail b hio
    split at hs
    · rename_i k hk
      exact h.bget_second (.inl hst) hio hk hs
    · cases hs
  · rename_i tail b hio
    split at hs
    · rename_i k hk
      exact h.bget_second (.inr hst) hio hk hs
    · cases hs
  · rename_i b hio
    exact h.header hst (.inl rfl) hio hs
  · rename_i b hio
    exact h.header hst (.inr rfl) hio hs
  · rename_i tail tbuf fbuf hio
    exact h.copy hst hio hs
  · rename_i tail lbuf dbuf hio
    obtain ⟨t, ht, rfl⟩ := Option.map_eq_some_iff.mp hs
    exact h.install hst hio ht
  · rename_i tail tbuf fbuf hio
    exact h.release hio (.inr ⟨rfl, rfl⟩) hs
  · rename_i tail lbuf dbuf hio
    exact h.release hio (.inl ⟨rfl, rfl⟩) hs
  · rename_i b hio
    exact h.round_over hio hs
  · rename_i hio
    exact h.advance hst (.inr hio) hs
  · cases hs

lemma Inv.next (hs : s.next disksize p = some s') : Inv start size d s' := by
  unfold State.next at hs
  split at hs
  · rename_i c hio
    obtain ⟨k, hw, haim⟩ := h.phase hio
    split at hs
    · rename_i dev k' hwant
      obtain ⟨rfl, rfl⟩ : dev = ROOTDEV ∧ k' = k := by
        rcases hw with hw | ⟨b, hw⟩ <;> rw [hwant] at hw <;> cases hw
        exact ⟨rfl, rfl⟩
      refine h.scan hs (fun bio hbio => ?_) haim (by rw [hio]; rfl) (by rw [hio]; rfl) (by simp [hio])
      simpa only [Bio.State.step, hwant] using hbio
    · cases hs
  · rename_i b c hio
    unfold State.load at hs
    split_ifs at hs with hv
    · cases hs
      exact h.returns hio hv
    · obtain ⟨t, ht, rfl⟩ := Option.map_eq_some_iff.mp hs
      obtain ⟨h', hio', hv'⟩ := h.read hio (by simpa using hv) ht
      exact h'.returns hio' hv'
  · split at hs
    · rename_i st hst
      exact h.commit (by rw [At, hst]; rfl) hs
    · cases hs

end

def Step (disksize : ℕ) (s : State) (e : Event) (s' : State) : Prop := s.step disksize e = some s'

lemma ready_iff : s.ready p = true ↔ s.io p = .idle ∧
    (s.sys.proc p = .idle ∨ (s.sys.proc p).op? ≠ none) := by
  simp only [ready, decide_eq_true_eq]

lemma Inv.kill (h : Inv start size d s) {bio : Bio.State} (hs : s.bio.step (.kill p) = some bio) :
    Inv start size d { s with bio := bio } := by
  obtain ⟨l, hl⟩ := h.bio
  have hinv := hl.step hs
  simp only [Bio.State.step] at hs
  split at hs
  · rename_i dev k b hw
    cases hs
    set t : State := { s with bio := { s.bio with want := assign s.bio.want p (.awake dev k) } } with ht
    have hsys : t.sys = s.sys := rfl
    refine h.local (p := p) ⟨fun _ _ => rfl, fun _ _ _ _ => rfl, fun q k' hq hk' => ?_,
      fun _ _ => rfl, fun _ _ => rfl, .inr ⟨rfl, rfl, rfl, rfl, rfl⟩⟩ hinv rfl rfl h.coherent ?_
    · simpa only [Wants, ht, assign_of_ne hq] using hk'
    · obtain ⟨h1, h2, h3, h4⟩ := h.own p
      refine ⟨h1, h2, ?_, h4⟩
      change t.Phase start size p (s.io p)
      cases hio : s.io p with
      | getting c =>
        rw [hio] at h3
        obtain ⟨k', hk', haim⟩ := h3
        refine ⟨k', ?_, haim.mono hsys (fun _ _ hb => hb)⟩
        rcases hk' with hk' | ⟨b', hk'⟩ <;> rw [hw] at hk' <;> cases hk'
        exact .inl (assign_self ..)
      | _ =>
        rw [hio] at h3
        exact h3
  · cases hs

lemma Inv.step (h : Inv start size d s) {e : Event} (hs : Step disksize s e s') :
    Inv start size d s' := by
  unfold Step State.step at hs
  split_ifs at hs
  cases e with
  | beginOp p =>
    simp only at hs
    split_ifs at hs with hio
    split at hs <;> cases hs
    exact h.beginOp hio (by assumption)
  | endOp p =>
    simp only at hs
    split_ifs at hs with hio
    split at hs <;> cases hs
    exact h.endOp hio (by assumption)
  | bread p k =>
    simp only at hs
    split_ifs at hs with hg
    obtain ⟨hio, -⟩ := ready_iff.mp hg.1
    rw [h.listing.area.1, h.listing.area.2] at hg
    exact h.scan hs (fun _ => bio_bget) ⟨rfl, hg.2⟩ (by rw [hio]; rfl) (by rw [hio]; rfl) (by simp [hio])
  | logWrite p b data =>
    simp only at hs
    split_ifs at hs with hg
    split at hs
    · rename_i sys bio hsys hbio
      split_ifs at hs with hn
      cases hs
      exact h.logWrite (ready_iff.mp hg).1 hsys (by simpa using hn) hbio
    · cases hs
  | brelse p b =>
    simp only at hs
    split_ifs at hs with hg
    obtain ⟨hio, -⟩ := ready_iff.mp hg
    exact h.brelse hs (by simp [hio]) (by simp [hio, Io.bufs]) (by rw [hio]) (fun _ _ _ => trivial)
  | kill p =>
    simp only at hs
    split at hs <;> cases hs
    exact h.kill (by assumption)
  | next p => exact h.next hs

lemma init_buf : ∀ b < NBUF, ((init start size d).buf b).dev = -1 ∧
    ((init start size d).buf b).dirty = false := by
  have h : ∀ b < NBUF, (Bcache.binit.buf b).dev = -1 ∧
    (Bcache.binit.buf b).dirty = false := by decide +kernel
  exact h

lemma Inv.init : Inv start size d (init start size d) := by
  have hdev : ∀ b < NBUF, ((State.init start size d).buf b).dev ≠ ROOTDEV := by
    intro b hb
    rw [(init_buf b hb).1]
    decide
  refine ⟨⟨_, Bio.State.Inv.init⟩, Sys.Inv.init start size, ?_, ?_, fun p => ?_⟩
  · exact ⟨⟨rfl, rfl⟩, List.nodup_nil, fun k hk => absurd hk List.not_mem_nil, fun k hk => absurd hk
      List.not_mem_nil, fun j hj => absurd hj (Nat.not_lt_zero j), Nat.zero_le _, fun _ => rfl⟩
  · refine ⟨fun b hb _ _ hd => absurd hd (hdev b hb), fun b hb => ?_,
      fun k hk => absurd hk.1 List.not_mem_nil,
      fun b hb hd => absurd hd (hdev b hb), fun b hb hd => absurd hd (hdev b hb), fun k _ _ => rfl⟩
    rw [(init_buf b hb).2]
    exact iff_of_false Bool.false_ne_true (fun hd => hdev b hb hd.1)
  · exact ⟨fun b hb => absurd hb (Finset.notMem_empty b), fun b hb => absurd hb
      (Finset.notMem_empty b), trivial, fun st hst => by cases hst⟩

lemma Inv.run {es : List Event} (hrun : Run (Step disksize) (State.init start size d) es s) :
    Inv start size d s :=
  hrun.state_invariant .init (fun _ _ _ h hs => h.step hs)

lemma Inv.bread_returns (h : Inv start size d s) (hs : Step disksize s (.next p) s')
    (hio : s.io p = .loading b (.client k)) :
    (s'.buf b).blockno = k ∧ (s'.buf b).data = s'.contents d k := by
  have h' := h.step hs
  obtain ⟨k', hb, rfl, hhome⟩ := h.phase hio
  have hret : s'.Has p b k' ∧ (s'.buf b).valid = true := by
    unfold Step State.step at hs
    split_ifs at hs
    simp only [State.next, hio, State.load] at hs
    split_ifs at hs with hv
    · cases hs
      exact ⟨hb, hv⟩
    · obtain ⟨t, ht, rfl⟩ := Option.map_eq_some_iff.mp hs
      obtain ⟨ht', hio', hv'⟩ := h.read hio (by simpa using hv) ht
      obtain ⟨k'', hb'', rfl, -⟩ := ht'.phase hio'
      exact ⟨hb'', hv'⟩
  obtain ⟨⟨hm, hdev, hk⟩, hv⟩ := hret
  exact ⟨hk, by rw [h'.coherent.shows b (h'.lt hm) hdev hv (hk ▸ hhome), hk]⟩

theorem cache_shows_one_disk (start size disksize : ℕ) (d : Disk) (es : List Event) (s : State)
    (hrun : Run (Step disksize) (State.init start size d) es s) :
    (∀ p b k s', s.io p = .loading b (.client k) → Step disksize s (.next p) s' →
      (s'.buf b).blockno = k ∧ (s'.buf b).data = s'.contents d k) ∧
    (∀ b < NBUF, (s.buf b).dev = ROOTDEV → (s.buf b).valid = true → Home start size (s.buf b).blockno →
      (s.buf b).data = s.contents d (s.buf b).blockno) ∧
    (s.sys.log.committing = false → ∀ b < NBUF,
      ((s.buf b).dirty = true ↔ (s.buf b).dev = ROOTDEV ∧ (s.buf b).blockno.toNat ∈ s.sys.log.lh)) ∧
    (∀ k b c, s.bio.cache.bget ROOTDEV k = (.recycled b, c) →
      ¬ ((s.buf b).dev = ROOTDEV ∧ (s.buf b).blockno.toNat ∈ s.sys.log.lh ∧
        (s.buf b).blockno.toNat ∉ s.installed)) := by
  have h := Inv.run hrun
  refine ⟨fun p b k s' hio hs => h.bread_returns hs hio, h.coherent.shows, fun hc b hb => ?_,
    fun k b c hget hlog => ?_⟩
  · rw [h.coherent.dirty b hb, Pinned, h.listing.quiet hc]
    simp
  · obtain ⟨l, hl⟩ := h.bio
    rcases hl.listed.bget ROOTDEV k with
      ⟨b₁, -, -, -, heq⟩ | ⟨b₁, -, -, -, heq⟩ | ⟨l₁, b₁, l₂, hl', -, hidle, -, heq⟩ | ⟨-, -, heq⟩ <;>
      rw [heq] at hget <;> cases hget
    have hb : b < NBUF := (hl.listed.mem b).mp (by rw [hl']; simp)
    have hclean : (s.buf b).dirty = false := (of_decide_eq_true hidle).2
    rw [(h.coherent.dirty b hb).mpr hlog] at hclean
    cases hclean

def readLogged : List Event :=
  [.beginOp 0, .bread 0 50, .next 0, .logWrite 0 0 (fun _ => 1), .brelse 0 0, .beginOp 1, .bread 1 50]

theorem cache_shows_one_disk_logged :
    ∃ s s', Run (Step FSSIZE) (State.init 2 30 fun _ => Block.zero) readLogged s ∧
    (s.buf 0).dirty = true ∧
      50 ∈ s.sys.log.lh ∧ Step FSSIZE s (.next 1) s' ∧ s'.disk 50 0 = 0 ∧ (s'.buf 0).data 0 = 1 ∧
      (s'.buf 0).data = s'.contents (fun _ => Block.zero) 50 := by
  obtain ⟨s, hs, hio, hc, hdirty, hno, s', hs', hdisk, hdata⟩ :
    ∃ s ∈ exec (State.step FSSIZE) (State.init 2 30 fun _ => Block.zero) readLogged,
    s.io 1 = .loading 0 (.client 50) ∧
      s.sys.log.committing = false ∧ (s.buf 0).dirty = true ∧ (s.buf 0).blockno = 50 ∧
        ∃ s' ∈ s.step FSSIZE (.next 1), s'.disk 50 0 = 0 ∧ (s'.buf 0).data 0 = 1 := by decide +kernel
  have hrun := run_of_exec hs
  have h := cache_shows_one_disk 2 30 FSSIZE _ readLogged s hrun
  have hlog := ((h.2.2.1 hc 0 (by decide)).mp hdirty).2
  rw [hno] at hlog
  exact ⟨s, s', hrun, hdirty, hlog, hs', hdisk, hdata, (h.1 1 0 50 s' hio hs').2⟩

def logBoot : List Event := [.beginOp 0, .bread 0 0, .next 0, .logWrite 0 0 Block.zero, .brelse 0 0]

theorem unused_buffer_names_logged_block :
    ∃ s, Run (Step FSSIZE) (State.init 2 30 fun _ => Block.zero) logBoot s ∧
    s.sys.log.committing = false ∧
      (s.buf 1).busy = false ∧ (s.buf 1).dirty = false ∧ (s.buf 1).blockno.toNat ∈ s.sys.log.lh := by
  obtain ⟨s, hs, hlogged⟩ : ∃ s ∈ exec (State.step FSSIZE) (State.init 2 30 fun _ => Block.zero) logBoot,
    s.sys.log.committing = false ∧ (s.buf 1).busy = false ∧ (s.buf 1).dirty = false ∧
      (s.buf 1).blockno.toNat ∈ s.sys.log.lh := by decide +kernel
  exact ⟨s, run_of_exec hs, hlogged⟩

end State

end Xv6.Logged
