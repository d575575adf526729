import Xv6.Fs.Path

namespace Xv6.Fs

open Lib Prog

variable {S : Type} {h : Prog.Handler Op.Res S Halt} {B : Halt → Prop} {s : S}

structure Scan (h : Prog.Handler Op.Res S Halt) (B : Halt → Prop) (s : S) (dp : ℕ) (f : Fields)
    (data : List UInt8) (n : ℕ) : Prop where
  type : f.type = T_DIR
  inode : ∀ Q : Fields → S → Prop, Q f s → Wp h (fun _ _ => True) B Q (Sys.inode dp) s
  le : ∀ k < n, DIRENT * k + DIRENT ≤ f.size.toNat
  read : ∀ k < n, ∀ (p : Panic) (Q : Dirent → S → Prop), Q (slot data k) s →
    Wp h (fun _ _ => True) B Q (Sys.readDirent dp (DIRENT * k) p) s

namespace Scan

variable {dp n k fuel : ℕ} {f : Fields} {data name : List UInt8} (hs : Scan h B s dp f data n)
include hs

lemma lt (hk : k < n) : DIRENT * k < f.size.toNat :=
  (Nat.lt_add_of_pos_right (by decide)).trans_le (hs.le k hk)

lemma lt_fuel : n < f.size.toNat / DIRENT + 1 := by
  cases n with
  | zero => exact Nat.succ_pos _
  | succ k =>
    have := hs.le k (Nat.lt_succ_self k)
    simp only [DIRENT] at this ⊢
    omega

section lookup

variable {Q : Option (ℕ × ℕ) → S → Prop}
    (hend : f.size.toNat ≤ DIRENT * n ∨ ∃ k < n, Hits data name k)
    (hnone : (∀ k < n, ¬ Hits data name k) → Q none s)
    (hsome : ∀ k < n, Hits data name k → (∀ j < k, ¬ Hits data name j) →
      Wp h (fun _ _ => True) B (fun _ => Q (some ((slot data k).inum.toNat, DIRENT * k)))
        (Sys.iget (slot data k).inum.toNat) s)
include hend hnone hsome

lemma dirlookupLoop (hfuel : n < k + fuel) (hk : k ≤ n) (hbefore : ∀ j < k, ¬ Hits data name j) :
    Wp h (fun _ _ => True) B Q (Sys.dirlookupLoop dp name f.size.toNat fuel (DIRENT * k)) s := by
  induction fuel generalizing k with
  | zero => omega
  | succ fuel ih =>
    unfold Sys.dirlookupLoop
    rcases Nat.lt_or_eq_of_le hk with hlt | rfl
    · rw [if_pos (hs.lt hlt)]
      refine wp_bind (hs.read k hlt _ _ ?_)
      by_cases hhit : Hits data name k
      · rw [if_pos (show _ ∧ _ from hhit)]
        exact wp_bind ((hsome k hlt hhit hbefore).imp fun _ _ hq => wp_pure hq)
      · rw [if_neg (show ¬ (_ ∧ _) from hhit)]
        refine ih (k := k + 1) (by omega) hlt fun j hj => ?_
        rcases Nat.lt_succ_iff_lt_or_eq.mp hj with hj | rfl
        · exact hbefore j hj
        · exact hhit
    · rcases hend with hend | ⟨j, hj, hhit⟩
      · rw [if_neg (Nat.not_lt.mpr hend)]
        exact wp_pure (hnone hbefore)
      · exact absurd hhit (hbefore j hj)

lemma dirlookup : Wp h (fun _ _ => True) B Q (Sys.dirlookup dp name) s := by
  refine wp_bind (hs.inode _ ?_)
  rw [if_neg (not_not.mpr hs.type)]
  exact hs.dirlookupLoop (k := 0) hend hnone hsome (by rw [Nat.zero_add]; exact hs.lt_fuel)
    (Nat.zero_le n) (by simp)

end lookup

end Scan

section whole

variable {dp k fuel : ℕ} {f : Fields} {data name : List UInt8}
  (hs : Scan h B s dp f data (nslots data)) (hend : f.size.toNat = DIRENT * nslots data)
include hs hend

lemma Scan.lookup {Q : Option (ℕ × ℕ) → S → Prop} (hnone : Fs.lookup data name = none → Q none s)
    (hsome : ∀ k, Fs.lookup data name = some k →
      Wp h (fun _ _ => True) B (fun _ => Q (some ((slot data k).inum.toNat, DIRENT * k)))
        (Sys.iget (slot data k).inum.toNat) s) :
    Wp h (fun _ _ => True) B Q (Sys.dirlookup dp name) s :=
  hs.dirlookup (.inl hend.le) (fun hn => hnone (lookup_eq_none_iff.mpr hn))
    fun k hk hhit hfirst => hsome k (lookup_of_first hk hhit hfirst)

lemma Scan.firstFree {Q : ℕ → S → Prop} (hq : Q (DIRENT * Fs.firstFree data) s)
    (hfuel : nslots data < k + fuel) (hk : k ≤ nslots data)
    (hbefore : ∀ j < k, (slot data j).inum ≠ 0) :
    Wp h (fun _ _ => True) B Q (Sys.dirlinkLoop dp f.size.toNat fuel (DIRENT * k)) s := by
  induction fuel generalizing k with
  | zero => omega
  | succ fuel ih =>
    unfold Sys.dirlinkLoop
    rcases Nat.lt_or_eq_of_le hk with hlt | rfl
    · rw [if_pos (hs.lt hlt)]
      refine wp_bind (hs.read k hlt _ _ ?_)
      split_ifs with hfree
      · rw [firstFree_of_first hlt hfree hbefore] at hq
        exact wp_pure hq
      · refine ih (k := k + 1) (by omega) hlt fun j hj => ?_
        rcases Nat.lt_succ_iff_lt_or_eq.mp hj with hj | rfl
        · exact hbefore j hj
        · exact hfree
    · rw [if_neg (Nat.not_lt.mpr hend.le)]
      rw [firstFree_of_used hbefore] at hq
      exact wp_pure hq

lemma Scan.dirlinkLoop {Q : ℕ → S → Prop} (hq : Q (DIRENT * Fs.firstFree data) s) :
    Wp h (fun _ _ => True) B Q (Sys.dirlinkLoop dp f.size.toNat (f.size.toNat / DIRENT + 1) 0) s :=
  hs.firstFree hend (k := 0) hq (by rw [Nat.zero_add]; exact hs.lt_fuel) (Nat.zero_le _) (by simp)

end whole

/-- What `namex` needs of the operations: in a state `At i` it holds a reference to `i`, in `In i`
also its lock, and in `Home` neither. -/
structure Walker (h : Prog.Handler Op.Res S Halt) (B : Halt → Prop) (ino : ℕ → Node) (Home : S → Prop)
    (At In : ℕ → S → Prop) : Prop where
  iput : ∀ i s, At i s → Wp h (fun _ _ => True) B (fun _ => Home) (Sys.iput i) s
  ilock : ∀ i s, At i s → Wp h (fun _ _ => True) B (fun _ => In i) (Sys.ilock i) s
  inode : ∀ i s, In i s → ∀ Q : Fields → S → Prop, (∀ f, f.type = (ino i).type → Q f s) →
    Wp h (fun _ _ => True) B Q (Sys.inode i) s
  iunlock : ∀ i s, In i s → Wp h (fun _ _ => True) B (fun _ => At i) (Sys.iunlock i) s
  iunlockput : ∀ i s, In i s → Wp h (fun _ _ => True) B (fun _ => Home) (Sys.iunlockput i) s
  dirlookup : ∀ i s name, In i s → (ino i).type = T_DIR → Wp h (fun _ _ => True) B
    (fun r s' => r.map Prod.fst = names (ino i).data name ∧ r.elim (In i s') fun q =>
      Wp h (fun _ _ => True) B (fun _ => At q.1) (Sys.iunlockput i) s') (Sys.dirlookup i name) s

namespace Walker

variable {ino : ℕ → Node} {Home : S → Prop} {At In : ℕ → S → Prop} (hw : Walker h B ino Home At In)
include hw

lemma namexLoop (parent : Bool) {fuel i : ℕ} {path : List UInt8} (hfuel : path.length < fuel)
    (hi : At i s) :
    Wp h (fun _ _ => True) B (fun r s' => r = follow ino parent i (components path) ∧
      r.elim (Home s') fun q => At q.1 s') (Sys.namexLoop parent fuel i path) s := by
  induction fuel generalizing s i path with
  | zero => exact absurd hfuel (Nat.not_lt_zero _)
  | succ fuel ih =>
    unfold Sys.namexLoop
    cases hs : skipelem path with
    | none =>
      rw [skipelem_none hs, follow_nil]
      cases parent with
      | false => exact wp_pure ⟨rfl, hi⟩
      | true => exact wp_bind ((hw.iput i s hi).imp fun _ _ hs' => wp_pure ⟨rfl, hs'⟩)
    | some r =>
      obtain ⟨rest, name⟩ := r
      obtain ⟨hcomp, hlen⟩ := skipelem_some hs
      have hrest := components_rest hs
      rw [hcomp, follow_cons]
      refine wp_bind ((hw.ilock i s hi).imp fun _ s₁ h₁ => wp_bind (hw.inode i s₁ h₁ _ fun f hf => ?_))
      rw [hf]
      split_ifs with hdir hlast hlast' hlast'
      · exact wp_bind ((hw.iunlockput i s₁ h₁).imp fun _ _ hs' => wp_pure ⟨rfl, hs'⟩)
      · exact wp_bind ((hw.iunlock i s₁ h₁).imp fun _ _ hs' => wp_pure ⟨rfl, hs'⟩)
      · exact absurd ⟨hlast.1, hrest.mp hlast.2⟩ hlast'
      · exact absurd ⟨hlast'.1, hrest.mpr hlast'.2⟩ hlast
      · refine wp_bind ((hw.dirlookup i s₁ name h₁ (not_not.mp hdir)).imp ?_)
        rintro r s₂ ⟨hr, h₂⟩
        rw [← hr]
        cases r with
        | none => exact wp_bind ((hw.iunlockput i s₂ h₂).imp fun _ _ hs' => wp_pure ⟨rfl, hs'⟩)
        | some q => exact wp_bind (h₂.imp fun _ s₃ h₃ => ih (by omega) h₃)

lemma namex (kern : Kern) {p : ℕ} (parent : Bool) (path : List UInt8)
    (hroot : Wp h (fun _ _ => True) B (fun _ => At ROOTINO) (Sys.iget ROOTINO) s)
    (hcwd : Wp h (fun _ _ => True) B (fun k s' => k = kern ∧
      Wp h (fun _ _ => True) B (fun _ => At (kern.procs p).cwd)
      (Sys.idup (kern.procs p).cwd) s') Sys.kget s) :
    Wp h (fun _ _ => True) B (fun r s' => r = follow ino parent (origin kern p path) (components path) ∧
      r.elim (Home s') fun q => At q.1 s') (Sys.namex p path parent) s := by
  unfold Sys.namex origin
  split_ifs
  · exact wp_bind (hroot.imp fun _ s' hs' => hw.namexLoop parent (Nat.lt_succ_self _) hs')
  · refine wp_bind (hcwd.imp ?_)
    rintro k s' ⟨rfl, hdup⟩
    exact wp_bind (hdup.imp fun _ s'' hs'' => hw.namexLoop parent (Nat.lt_succ_self _) hs'')

end Walker

end Xv6.Fs
