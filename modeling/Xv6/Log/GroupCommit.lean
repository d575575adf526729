import Xv6.Log.Operations

namespace Xv6.Log

open Lib Sys

lemma copies_keep {tr : List Act} {a : Act} (ha : ∀ p b v, a ≠ .copy p b v) :
    copies (tr ++ [a]) = copies tr := by
  rw [copies_snoc]
  cases a with
  | copy p b v => exact absurd rfl (ha p b v)
  | _ => exact List.append_nil _

lemma lastWrite_keep {tr : List Act} {a : Act} (ha : ∀ p op b v, a ≠ .logWrite p op b v) :
    lastWrite (tr ++ [a]) = lastWrite tr := by
  funext b
  rw [lastWrite_snoc]
  cases a with
  | logWrite p op b v => exact absurd rfl (ha p op b v)
  | _ => rfl

lemma lastWrite_mem {tr : List Act} {b : ℕ} {v : Block} (h : lastWrite tr b = some v) :
    ∃ p op, Act.logWrite p op b v ∈ tr := by
  induction tr using List.reverseRecOn with
  | nil => cases h
  | append_singleton tr a ih =>
    have hold : lastWrite tr b = some v → ∃ p op, Act.logWrite p op b v ∈ tr ++ [a] := by
      intro h
      obtain ⟨p, op, hm⟩ := ih h
      exact ⟨p, op, List.mem_append_left _ hm⟩
    rw [lastWrite_snoc] at h
    cases a with
    | logWrite p op c w =>
      by_cases hc : c = b
      · simp only [hc, if_true, Option.some.injEq] at h
        subst hc h
        exact ⟨p, op, by simp⟩
      · simp only [hc, if_false] at h
        exact hold h
    | _ => exact hold h

namespace Cached

lemma setBuf_buf (s : Cached) (b : ℕ) (u : Option (ℕ × Use)) (c : ℕ) :
    (s.setBuf b u).buf c = if c = b then u else s.buf c :=
  assign_apply ..

def Uncopied (s : Cached) : Prop := ∀ p st, s.sys.proc p = .committing st → ∃ tail, st = .writeLog tail

structure Content (start size : ℕ) (tr : List Act) (s : Cached) : Prop where
  area : s.sys.log.start = start ∧ s.sys.log.size = size
  fits : s.sys.log.lh ≠ [] → s.sys.log.lh.length + 1 ≤ size
  cleared : ∀ p, s.sys.proc p = .committing .finish → s.sys.log.lh = []
  listed : (∀ p, s.sys.proc p ≠ .committing .finish) → ∀ b, b ∈ s.sys.log.lh ↔
    lastWrite (sinceCommit tr) b ≠ none
  current : s.Uncopied → ∀ b ∈ s.sys.log.lh, (∀ p, s.buf b ≠ some (p, .modified)) →
    lastWrite (sinceCommit tr) b = some (s.cache b)
  none_yet : s.sys.log.committing = false → copies (sinceCommit tr) = []
  copying : ∀ p tail, s.sys.proc p = .committing (.writeLog tail) → ∀ b v,
    (b, v) ∈ copies (sinceCommit tr) ↔ b ∈ s.sys.log.lh.take tail ∧ lastWrite (sinceCommit tr) b = some v
  copied : ∀ p st, s.sys.proc p = .committing st → (∀ tail, st ≠ .writeLog tail) → ∀ b v,
    (b, v) ∈ copies (sinceCommit tr) ↔ lastWrite (sinceCommit tr) b = some v

section

variable {start size : ℕ} {tr : List Act} {s s' : Cached} {a : Act}

lemma Content.init (d : Disk) : Content start size [] (Cached.init start size d) where
  area := ⟨rfl, rfl⟩
  fits := by simp [Cached.init, Sys.init]
  cleared := by simp [Cached.init, Sys.init]
  listed := by simp [Cached.init, Sys.init, sinceCommit, lastWrite]
  current := by simp [Cached.init, Sys.init]
  none_yet := by simp [sinceCommit, copies]
  copying := by simp [Cached.init, Sys.init]
  copied := by simp [Cached.init, Sys.init]

lemma Content.frame (h : Content start size tr s)
    (hl : s'.sys.log = { s.sys.log with outstanding := s'.sys.log.outstanding })
    (hp : ∀ p st, s'.sys.proc p = .committing st ↔ s.sys.proc p = .committing st)
    (hf : ∀ p, a ≠ .finish p) (hw : ∀ p op b v, a ≠ .logWrite p op b v) (hc : ∀ p b v, a ≠ .copy p b v)
    (hcur : ∀ b, (∀ p, s'.buf b ≠ some (p, .modified)) →
      (∀ p, s.buf b ≠ some (p, .modified)) ∧ s'.cache b = s.cache b) :
      Content start size (tr ++ [a]) s' := by
  have hlh : s'.sys.log.lh = s.sys.log.lh := by rw [hl]
  have hL : lastWrite (sinceCommit (tr ++ [a])) = lastWrite (sinceCommit tr) := by
    rw [sinceCommit_keep hf, lastWrite_keep hw]
  have hC : copies (sinceCommit (tr ++ [a])) = copies (sinceCommit tr) := by
    rw [sinceCommit_keep hf, copies_keep hc]
  constructor
  · rw [hl]
    exact h.area
  · rw [hlh]
    exact h.fits
  · intro p hq
    rw [hlh]
    exact h.cleared p ((hp p _).mp hq)
  · intro hq
    rw [hlh, hL]
    exact h.listed (fun p hp' => hq p ((hp p _).mpr hp'))
  · intro hu b hb hm
    rw [hlh] at hb
    rw [hL, (hcur b hm).2]
    exact h.current (fun p st hq => hu p st ((hp p st).mpr hq)) b hb (hcur b hm).1
  · rw [hC, hl]
    exact h.none_yet
  · intro p tail hq
    rw [hC, hL, hlh]
    exact h.copying p tail ((hp p _).mp hq)
  · intro p st hq
    rw [hC, hL]
    exact h.copied p st ((hp p _).mp hq)

lemma Content.beginOp {p : ℕ} {t : Sys} (h : Content start size tr s) (hs : Step s.sys (.beginOp p) t)
    (ha : a = .sleep p ∨ ∃ op, a = .beginOp p op) :
    Content start size (tr ++ [a]) { s with sys := t } := by
  have hf : ∀ q, a ≠ .finish q := by rcases ha with rfl | ⟨_, rfl⟩ <;> simp
  have hw : ∀ q op b v, a ≠ .logWrite q op b v := by rcases ha with rfl | ⟨_, rfl⟩ <;> simp
  have hc : ∀ q b v, a ≠ .copy q b v := by rcases ha with rfl | ⟨_, rfl⟩ <;> simp
  cases hs.move.2 with
  | sleep hq _ =>
    exact h.frame rfl (fun r st => set_committing (stage?_of_ready hq) rfl) hf hw hc
      (fun b hb => ⟨hb, rfl⟩)
  | start hq _ _ =>
    refine h.frame rfl (fun r st => ?_) hf hw hc (fun b hb => ⟨hb, rfl⟩)
    exact set_committing (t := { s.sys with log := _, nextOp := _ }) (stage?_of_ready hq) rfl

lemma Content.endOp {p op : ℕ} {t : Sys} (h : Content start size tr s) (hi : Inv s.sys)
    (hs : Step s.sys (.endOp p) t) : Content start size (tr ++ [.endOp p op]) { s with sys := t } := by
  cases hs.move.2 with
  | endPanic hq hc =>
    rw [hi.not_committing (p := p) (by simp [hq, Proc.op?])] at hc
    exact absurd hc (by decide)
  | endMore hq hc _ =>
    refine h.frame rfl (fun r st => ?_) (by simp) (by simp) (by simp) (fun b hb => ⟨hb, rfl⟩)
    refine wakeup_committing.trans (set_committing ?_ rfl)
    simp [hq, Proc.stage?]
  | endLast hq hc _ =>
    have hno := hi.not_stage hc
    have hL : lastWrite (sinceCommit (tr ++ [.endOp p op])) = lastWrite (sinceCommit tr) := by
      rw [sinceCommit_keep (by simp), lastWrite_keep (by simp)]
    have hC : copies (sinceCommit (tr ++ [.endOp p op])) = [] := by
      rw [sinceCommit_keep (by simp), copies_keep (by simp), h.none_yet hc]
    have hproc : ∀ r st,
      ({ s.sys with log := { s.sys.log with outstanding := 0, committing := true } }.set p
        (.committing (firstStage s.sys.log.lh.length))).proc r = .committing st →
        st = firstStage s.sys.log.lh.length := by
      intro r st hr
      rw [set_proc] at hr
      split_ifs at hr
      · cases hr
        rfl
      · exact absurd hr (hno r st)
    have hlist := h.listed (fun r => hno r _)
    constructor
    · exact h.area
    · exact h.fits
    · intro r hr
      have := hproc r _ hr
      rw [firstStage] at this
      split_ifs at this with hlen
      simpa using hlen
    · intro _
      rw [hL]
      exact hlist
    · intro _
      rw [hL]
      exact h.current (fun r st hr => absurd hr (hno r st))
    · simp
    · intro r tail hr b v
      have := hproc r _ hr
      rw [firstStage] at this
      split_ifs at this with hlen
      cases this
      simp [hC]
    · intro r st hr hst b v
      have := hproc r _ hr
      rw [firstStage] at this
      split_ifs at this with hlen
      · exact absurd this (hst 0)
      have hnil : s.sys.log.lh = [] := by simpa using hlen
      have hnone : lastWrite (sinceCommit tr) b = none := by
        by_contra hb
        have := (hlist b).mpr hb
        simp [hnil] at this
      rw [hC, hL, hnone]
      simp

lemma Content.logWrite {p op b : ℕ} {t : Sys} (h : Content start size tr s) (hi : Inv s.sys)
    (hs : CallStep s.sys (.logWrite p b) t) (hn : t.panic = none) :
    Content start size (tr ++ [.logWrite p op b (s.cache b)])
    ({ s with sys := t }.setBuf b (some (p, .clean))) := by
  obtain ⟨_, ⟨o, hp⟩, rfl⟩ := logWrite_eq hs
  have hcomm := hi.not_committing (p := p) (by simp [hp, Proc.op?])
  have hno := hi.not_stage hcomm
  obtain ⟨hlt, hlog⟩ := logWrite_ok hn
  have hproc := (logWrite_proc s.sys b).1
  have hL : lastWrite (sinceCommit (tr ++ [.logWrite p op b (s.cache b)])) =
      assign (lastWrite (sinceCommit tr)) b (some (s.cache b)) := by
    funext c
    rw [sinceCommit_keep (by simp), lastWrite_snoc, assign_apply]
    by_cases hc : b = c
    · simp [hc]
    · simp [hc, Ne.symm hc]
  have hC : copies (sinceCommit (tr ++ [.logWrite p op b (s.cache b)])) = copies (sinceCommit tr) := by
    rw [sinceCommit_keep (by simp), copies_keep (by simp)]
  have hmem : ∀ c, c ∈ (s.sys.logWrite b).log.lh ↔ c = b ∨ c ∈ s.sys.log.lh := by
    intro c
    rw [hlog, mem_logWriteAppend]
  have hno' : ∀ r st, (s.sys.logWrite b).proc r ≠ .committing st := by
    rw [hproc]
    exact hno
  constructor
  · simp only [setBuf, hlog, logWriteAppend_start, logWriteAppend_size]
    exact h.area
  · intro _
    have := logWriteAppend_length s.sys.log b
    simp only [setBuf, hlog, ← h.area.2]
    omega
  · exact fun r hr => absurd hr (hno' r _)
  · intro _ c
    rw [hL, assign_apply]
    refine (hmem c).trans ?_
    split_ifs with hc
    · simp [hc]
    · simp [hc, h.listed (fun r => hno r _) c]
  · intro _ c hc hm
    rw [hL, assign_apply]
    split_ifs with hcb
    · rw [hcb]
      rfl
    · have hm' : ∀ q, s.buf c ≠ some (q, .modified) := by
        simpa [setBuf, assign_of_ne hcb] using hm
      have hcl : c ∈ s.sys.log.lh := ((hmem c).mp hc).resolve_left hcb
      exact h.current (fun r st hr => absurd hr (hno r st)) c hcl hm'
  · intro _
    rw [hC]
    exact h.none_yet hcomm
  · exact fun r tail hr => absurd hr (hno' r _)
  · exact fun r st hr => absurd hr (hno' r st)

lemma take_succ_mem {l : List ℕ} {tail b : ℕ} (hb : l[tail]? = some b) (c : ℕ) :
    c ∈ l.take (tail + 1) ↔ c ∈ l.take tail ∨ c = b := by
  rw [List.take_add_one, hb]
  simp

lemma Content.copy {p tail b : ℕ} {t : Sys} (h : Content start size tr s) (hi : Inv s.sys)
    (hhome : ∀ c ∈ s.sys.log.lh, ¬ (Area.mk start size).Mem c)
    (hp : s.sys.proc p = .committing (.writeLog tail)) (hb : s.sys.log.lh[tail]? = some b)
    (hbuf : s.buf b = none) (hs : Step s.sys (.commitStep p) t) :
    Content start size (tr ++ [.copy p b (s.cache b)])
      ({ s with sys := t }.write (s.sys.log.start + tail + 1) (s.cache b)) := by
  have htail : tail < s.sys.log.lh.length := (List.getElem?_eq_some_iff.mp hb).1
  have hmemb : b ∈ s.sys.log.lh := List.mem_of_getElem? hb
  have hfit := h.fits (List.ne_nil_of_mem hmemb)
  have honly : ∀ q st, s.sys.proc q = .committing st → q = p ∧ st = .writeLog tail := by
    intro q st hq
    have hqp := hi.unique q p (by simp [hq, Proc.stage?]) (by simp [hp, Proc.stage?])
    subst hqp
    rw [hp] at hq
    cases hq
    exact ⟨rfl, rfl⟩
  have hu : s.Uncopied := fun q st hq => ⟨tail, (honly q st hq).2⟩
  have hlast : lastWrite (sinceCommit tr) b = some (s.cache b) := h.current hu b hmemb (by simp [hbuf])
  have ht : t = s.sys.set p (.committing (.writeLog (tail + 1))) := by
    rw [step_commit hp hs, Sys.commitStep, if_pos htail]
  have hproc : ∀ q st, t.proc q = .committing st → q = p ∧ st = .writeLog (tail + 1) := by
    intro q st hq
    rw [ht, set_proc] at hq
    split_ifs at hq with hqp
    · cases hq
      exact ⟨hqp, rfl⟩
    · exact absurd (honly q st hq).1 hqp
  have hlog : t.log = s.sys.log := by rw [ht, set_log]
  have hL : lastWrite (sinceCommit (tr ++ [.copy p b (s.cache b)])) = lastWrite (sinceCommit tr) := by
    rw [sinceCommit_keep (by simp), lastWrite_keep (by simp)]
  have hC : copies (sinceCommit (tr ++ [.copy p b (s.cache b)])) = copies (sinceCommit tr) ++
    [(b, s.cache b)] := by
    rw [sinceCommit_keep (by simp), copies_snoc]
    rfl
  constructor
  · simpa only [write, hlog] using h.area
  · simpa only [write, hlog] using h.fits
  · intro r hr
    cases (hproc r _ hr).2
  · intro _
    rw [hL]
    simp only [write, hlog]
    refine h.listed (fun r hr => ?_)
    cases (honly r _ hr).2
  · intro _ c hc hm
    simp only [write, hlog] at hc
    have hne : c ≠ s.sys.log.start + tail + 1 := by
      intro he
      refine hhome c hc ?_
      simp only [Area.Mem]
      have := h.area.1
      omega
    rw [hL]
    simp only [write, assign_of_ne hne]
    exact h.current hu c hc hm
  · intro hc
    have hcomm := hi.committer p (by simp [hp, Proc.stage?])
    simp [write, hlog, hcomm] at hc
  · intro r tl hr c v
    cases (hproc r _ hr).2
    rw [hC, hL]
    simp only [write, hlog, take_succ_mem hb, List.mem_append, List.mem_singleton, Prod.mk.injEq,
      h.copying p tail hp c v, or_and_right]
    constructor
    · rintro (hc | ⟨rfl, rfl⟩)
      · exact .inl hc
      · exact .inr ⟨rfl, hlast⟩
    · rintro (hc | ⟨rfl, hv⟩)
      · exact .inl hc
      · rw [hlast] at hv
        cases hv
        exact .inr ⟨rfl, rfl⟩
  · intro r st hr hst
    exact absurd (hproc r st hr).2 (hst _)

lemma Content.advance (st' : Stage) {p : ℕ} {st : Stage} {l : List ℕ} {t : Sys} {c : Disk}
    (h : Content start size tr s)
    (hi : Inv s.sys) (hp : s.sys.proc p = .committing st) (hst : ∀ tail, st' ≠ .writeLog tail)
    (hd : ∀ b v, (b, v) ∈ copies (sinceCommit tr) ↔ lastWrite (sinceCommit tr) b = some v)
    (hl : (l = s.sys.log.lh ∧ st ≠ .finish ∧ st' ≠ .finish) ∨ (l = [] ∧ st' = .finish))
    (ht : t = { s.sys with log := { s.sys.log with lh := l } }.set p (.committing st')) :
    Content start size (tr ++ [.commitStep p]) ⟨t, c, s.buf⟩ := by
  have hcomm := hi.committer p (by simp [hp, Proc.stage?])
  have honly : ∀ q st, t.proc q = .committing st → st = st' := by
    intro q st hq
    rw [ht, set_proc] at hq
    split_ifs at hq with hqp
    · cases hq
      rfl
    · exact absurd (hi.unique q p (by simp [show s.sys.proc q = _ from hq, Proc.stage?])
        (by simp [hp, Proc.stage?])) hqp
  have hself : t.proc p = .committing st' := by rw [ht, set_proc, if_pos rfl]
  have hlog : t.log = { s.sys.log with lh := l } := by rw [ht, set_log]
  have hL : lastWrite (sinceCommit (tr ++ [.commitStep p])) = lastWrite (sinceCommit tr) := by
    rw [sinceCommit_keep (by simp), lastWrite_keep (by simp)]
  have hC : copies (sinceCommit (tr ++ [.commitStep p])) = copies (sinceCommit tr) := by
    rw [sinceCommit_keep (by simp), copies_keep (by simp)]
  constructor
  · simpa only [hlog] using h.area
  · simp only [hlog]
    rcases hl with ⟨rfl, _⟩ | ⟨rfl, _⟩
    · exact h.fits
    · simp
  · intro q hq
    rcases hl with ⟨_, _, hne⟩ | ⟨rfl, _⟩
    · exact absurd (honly q _ hq).symm hne
    · simp only [hlog]
  · intro hq
    rcases hl with ⟨rfl, hne, _⟩ | ⟨_, rfl⟩
    · rw [hL]
      simp only [hlog]
      refine h.listed (fun q hq' => ?_)
      have hqp := hi.unique q p (by simp [hq', Proc.stage?]) (by simp [hp, Proc.stage?])
      rw [hqp, hp] at hq'
      cases hq'
      exact hne rfl
    · exact absurd hself (hq p)
  · intro hu
    obtain ⟨tail, htail⟩ := hu p st' hself
    exact absurd htail (hst tail)
  · simp [hlog, hcomm]
  · intro q tail hq
    exact absurd (honly q _ hq).symm (hst tail)
  · intro q st'' _ _
    rw [hL, hC]
    exact hd

lemma Content.finish {p : ℕ} {t : Sys} (h : Content start size tr s) (hi : Inv s.sys)
    (hp : s.sys.proc p = .committing .finish) (hs : Step s.sys (.commitStep p) t) :
    Content start size (tr ++ [.finish p]) { s with sys := t } := by
  have hnil := h.cleared p hp
  have hi' : Inv t := hi.step hs
  obtain rfl := step_commit hp hs
  have hno := hi'.not_stage rfl
  have hlh : (s.sys.commitStep p .finish).log.lh = [] := hnil
  constructor
  · exact h.area
  · simp [hlh]
  · exact fun _ _ => hlh
  · simp [hlh, sinceCommit_snoc, lastWrite]
  · simp [hlh]
  · simp [sinceCommit_snoc, copies]
  · exact fun q tail hq => absurd hq (hno q _)
  · exact fun q st hq => absurd hq (hno q st)

lemma Content.all_copied {p : ℕ} {st : Stage} (h : Content start size tr s) (hi : Inv s.sys)
    (hp : s.sys.proc p = .committing st) (hst : ∀ tail, st = .writeLog tail → s.sys.log.lh.length ≤ tail)
    (b : ℕ) (v : Block) : (b, v) ∈ copies (sinceCommit tr) ↔ lastWrite (sinceCommit tr) b = some v := by
  by_cases hw : ∃ tail, st = .writeLog tail
  · obtain ⟨tail, rfl⟩ := hw
    rw [h.copying p tail hp, List.take_of_length_le (hst tail rfl)]
    refine ⟨And.right, fun hv => ⟨(h.listed (hi.not_finish hp (by simp)) b).mpr (by simp [hv]), hv⟩⟩
  · exact h.copied p st hp (fun tail ht => hw ⟨tail, ht⟩) b v

lemma Content.home (h : Content start size tr s) (hno : ∀ q, s.sys.proc q ≠ .committing .finish)
    (hhome : Home start size tr) {b : ℕ} (hb : b ∈ s.sys.log.lh) : ¬ (Area.mk start size).Mem b := by
  obtain ⟨v, hv⟩ := Option.ne_none_iff_exists'.mp ((h.listed hno b).mp hb)
  obtain ⟨p, op, hm⟩ := lastWrite_mem hv
  exact hhome p op b v (sinceCommit_subset tr hm)

lemma setBuf_modified {b c : ℕ} {u : Option (ℕ × Use)} (hb : ∀ q, s.buf b ≠ some (q, .modified))
    (hc : ∀ q, (s.setBuf b u).buf c ≠ some (q, .modified)) (q : ℕ) : s.buf c ≠ some (q, .modified) := by
  by_cases hcb : c = b
  · rw [hcb]
    exact hb q
  · have := hc q
    rwa [setBuf_buf, if_neg hcb] at this

lemma Content.step (h : Content start size tr s) (hi : Inv s.sys)
    (hhome : Home start size tr) (ha : Acts s a s') : Content start size (tr ++ [a]) s' := by
  cases ha with
  | sleep hs ho => exact h.beginOp hs (.inl rfl)
  | beginOp hs ho => exact h.beginOp hs (.inr ⟨_, rfl⟩)
  | bread hb =>
    exact h.frame rfl (fun _ _ => Iff.rfl) (by simp) (by simp) (by simp)
      (fun c hc => ⟨setBuf_modified (by simp [hb]) hc, rfl⟩)
  | @modify p b u v hb =>
    refine h.frame rfl (fun _ _ => Iff.rfl) (by simp) (by simp) (by simp) (fun c hc => ?_)
    have hcb : c ≠ b := by
      rintro rfl
      exact hc p (by rw [setBuf_buf, if_pos rfl])
    refine ⟨fun q hq => hc q ?_, assign_of_ne hcb ..⟩
    rw [setBuf_buf, if_neg hcb]
    exact hq
  | logWrite _ _ hs hn => exact h.logWrite hi hs hn
  | @logPanic p b u t _ hs hn =>
    obtain ⟨hnone, _, rfl⟩ := logWrite_eq hs
    refine h.frame ?_ (fun _ _ => ?_) (by simp) (by simp) (by simp) (fun c hc => ⟨hc, rfl⟩)
    · rw [logWrite_log_of_panic hnone hn]
    · rw [(logWrite_proc s.sys b).1]
  | brelse hb =>
    exact h.frame rfl (fun _ _ => Iff.rfl) (by simp) (by simp) (by simp)
      (fun c hc => ⟨setBuf_modified (by simp [hb]) hc, rfl⟩)
  | endOp _ hs => exact h.endOp hi hs
  | copy hp hb hbuf _ hs =>
    exact h.copy hi (fun c hc => h.home (hi.not_finish hp (by simp)) hhome hc) hp hb hbuf hs
  | @install p tail b t hp hb _ _ hs =>
    have htail : tail < s.sys.log.lh.length := (List.getElem?_eq_some_iff.mp hb).1
    refine h.advance (.installTrans (tail + 1)) hi hp (by simp) (h.all_copied hi hp (by simp))
      (.inl ⟨rfl, by simp, by simp⟩) ?_
    rw [step_commit hp hs, Sys.commitStep, if_pos htail]
  | @copied p tail st t hp hst hlen hs =>
    have hd := h.all_copied hi hp (by rcases hst with rfl | rfl <;> simp [hlen])
    rcases hst with rfl | rfl
    · refine h.advance (.writeHead) hi hp (by simp) hd (.inl ⟨rfl, by simp, by simp⟩) ?_
      rw [step_commit hp hs, Sys.commitStep, if_neg (by omega)]
    · refine h.advance (.clear) hi hp (by simp) hd (.inl ⟨rfl, by simp, by simp⟩) ?_
      rw [step_commit hp hs, Sys.commitStep, if_neg (by omega)]
  | @writeHead p st t hp hst _ hs =>
    have hd := h.all_copied hi hp (by rcases hst with rfl | rfl <;> simp)
    rcases hst with rfl | rfl
    · exact h.advance (.installTrans 0) hi hp (by simp) hd (.inl ⟨rfl, by simp, by simp⟩)
        (step_commit hp hs)
    · exact h.advance (.finish) hi hp (by simp) hd (.inr ⟨rfl, rfl⟩) (step_commit hp hs)
  | finish hp hs => exact h.finish hi hp hs

end

theorem group_commit (start size : ℕ) (d : Disk) (tr : List Act) (s : Cached)
    (h : Run Acts (Cached.init start size d) tr s) :
    0 ≤ s.sys.log.outstanding ∧ s.sys.panic ≠ some .logCommitting ∧
    (s.sys.log.committing = true → s.sys.log.outstanding = 0 ∧
      (∀ p op b v s', ¬ Acts s (.logWrite p op b v) s') ∧
      ∀ p op, Act.beginOp p op ∈ tr → Act.endOp p op ∈ tr) ∧
    (∀ p op b v, Act.logWrite p op b v ∈ sinceCommit tr → Act.beginOp p op ∈ sinceCommit tr) ∧
    (∀ t₁ p t₂, tr = t₁ ++ .finish p :: t₂ → ∀ op, ¬ (WritesIn op t₁ ∧ WritesIn op t₂)) ∧
    (Home start size tr → ∀ p st, s.sys.proc p = .committing st → (∀ tail, st ≠ .writeLog tail) → ∀ b v,
      (b, v) ∈ copies (sinceCommit tr) ↔ lastWrite (sinceCommit tr) b = some v) := by
  obtain ⟨hi, hw, hc⟩ : Inv s.sys ∧ Whole tr s.sys.ops s.sys.nextOp ∧
    (Home start size tr → Content start size tr s) := by
    refine h.invariant (P := fun tr s => Inv s.sys ∧ Whole tr s.sys.ops s.sys.nextOp ∧
      (Home start size tr → Content start size tr s)) ?_ ?_
    · exact ⟨Inv.init start size, Whole.init, fun _ => Content.init d⟩
    · intro tr s a s' _ ⟨hi, hw, hc⟩ ha
      refine ⟨ha.inv hi, hw.step (ha.shift hi), fun hhome => ?_⟩
      have hhome' : Home start size tr := fun p op b v hm => hhome p op b v (List.mem_append_left _ hm)
      exact (hc hhome').step hi hhome' ha
  refine ⟨hi.outstanding_nonneg, hi.no_panic, fun hcomm => ⟨hi.quiet hcomm, ?_, ?_⟩, hw.writes, ?_, ?_⟩
  · intro p op b v s' ha
    cases ha with
    | logWrite _ ho _ _ =>
      have hnone : s.sys.ops p = none := hi.ops_none hcomm p
      rw [ops, ho] at hnone
      cases hnone
  · intro p op hm
    rcases hw.ended p op hm with he | ho
    · exact he
    · rw [hi.ops_none hcomm p] at ho
      cases ho
  · rintro t₁ p t₂ ht op ⟨h₁, h₂⟩
    exact (hw.divided t₁ p t₂ ht op h₁).1 h₂
  · intro hhome p st hp hst
    exact (hc hhome).copied p st hp hst

def oneCommit : List Act :=
  [.beginOp 0 0, .bread 0 60, .modify 0 60 (fun _ => 1), .logWrite 0 0 60 (fun _ => 1),
    .brelse 0 60, .endOp 0 0, .copy 0 60 (fun _ => 1), .commitStep 0]

theorem group_commit_one_commit :
    ∃ s, Run Acts (Cached.init 2 LOGSIZE (fun _ => Block.zero)) oneCommit s ∧
      s.sys.proc 0 = .committing .writeHead ∧
      ((60, fun _ => 1) ∈ copies (sinceCommit oneCommit) ↔
        lastWrite (sinceCommit oneCommit) 60 = some fun _ => 1) := by
  let s₀ := Cached.init 2 LOGSIZE (fun _ => Block.zero)
  let s₁ : Cached := { s₀ with sys := s₀.sys.beginOp 0 }
  let s₂ := s₁.setBuf 60 (some (0, .clean))
  let s₃ := (s₂.write 60 (fun _ => 1)).setBuf 60 (some (0, .modified))
  let s₄ := ({ s₃ with sys := s₃.sys.logWrite 60 } : Cached).setBuf 60 (some (0, .clean))
  let s₅ := s₄.setBuf 60 none
  let s₆ : Cached := { s₅ with sys := s₅.sys.endOp 0 }
  let s₇ := ({ s₆ with sys := s₆.sys.commitStep 0 (.writeLog 0) } : Cached).write 3 (s₆.cache 60)
  let s₈ : Cached := { s₇ with sys := s₇.sys.commitStep 0 (.writeLog 1) }
  have h₁ : Run Acts s₀ ([] ++ [.beginOp 0 0]) s₁ := .snoc .nil (.beginOp rfl rfl)
  have h₂ : Run Acts s₀ _ s₂ := h₁.snoc (.bread (p := 0) rfl)
  have h₃ : Run Acts s₀ _ s₃ := h₂.snoc (.modify (u := .clean) rfl)
  have h₄ : Run Acts s₀ _ s₄ := h₃.snoc (.logWrite (p := 0) (u := .modified) rfl rfl rfl rfl)
  have h₅ : Run Acts s₀ _ s₅ := h₄.snoc (.brelse (p := 0) rfl)
  have h₆ : Run Acts s₀ _ s₆ := h₅.snoc (.endOp (p := 0) rfl rfl)
  have h₇ : Run Acts s₀ _ s₇ := h₆.snoc (@Acts.copy s₆ 0 0 60 _ rfl rfl rfl rfl rfl)
  have h₈ : Run Acts s₀ oneCommit s₈ := h₇.snoc (@Acts.copied s₇ 0 1 _ _ rfl (.inl rfl) (le_refl 1) rfl)
  refine ⟨s₈, h₈, rfl, ?_⟩
  refine (group_commit 2 LOGSIZE _ oneCommit s₈ h₈).2.2.2.2.2 ?_ 0 .writeHead rfl (by simp) 60 _
  intro p op b v hm
  simp only [oneCommit, List.mem_cons, List.not_mem_nil, reduceCtorEq, Act.logWrite.injEq, or_false,
    false_or] at hm
  rw [hm.2.2.1]
  decide

end Cached

end Xv6.Log
