import Mathlib.Data.List.DropRight
import Mathlib.Data.List.TakeWhile
import Xv6.Fs.Names

namespace Xv6.Fs

open Lib

def pieces (path : List UInt8) : List (List UInt8) := (path.splitOn SLASH).filter (· ≠ [])

def components (path : List UInt8) : List (List UInt8) := (pieces path).map (List.take DIRSIZ)

section

variable {path rest name : List UInt8}

lemma pieces_slash (path : List UInt8) : pieces (SLASH :: path) = pieces path := by
  rw [pieces, pieces, List.splitOn_eq_splitOnP, List.splitOnP_cons_eq_if_modifyHead, if_pos (by simp),
    ← List.splitOn_eq_splitOnP]
  rfl

lemma pieces_dropWhile (path : List UInt8) : pieces (path.dropWhile (· = SLASH)) = pieces path := by
  induction path with
  | nil => rfl
  | cons c path ih =>
    by_cases hc : c = SLASH
    · rw [List.dropWhile_cons_of_pos (by simpa using hc), ih, hc, pieces_slash]
    · rw [List.dropWhile_cons_of_neg (by simpa using hc)]

lemma pieces_append_slash (hne : name ≠ []) (hname : ∀ c ∈ name, (c == SLASH) = false)
    (rest : List UInt8) : pieces (name ++ SLASH :: rest) = name :: pieces rest := by
  rw [pieces, List.splitOn_eq_splitOnP, List.splitOnP_append_cons_of_forall_mem hname SLASH (by simp),
    ← List.splitOn_eq_splitOnP, List.filter_cons_of_pos (by simpa using hne)]
  rfl

lemma pieces_single (hne : name ≠ []) (hname : ∀ c ∈ name, (c == SLASH) = false) :
    pieces name = [name] := by
  rw [pieces, List.splitOn_eq_splitOnP, List.splitOnP_eq_singleton hname]
  simp [hne]

lemma pieces_elem (hne : path.takeWhile (· ≠ SLASH) ≠ []) :
    pieces path = path.takeWhile (· ≠ SLASH) :: pieces (path.dropWhile (· ≠ SLASH)) := by
  have hsplit : path.takeWhile (· ≠ SLASH) ++ path.dropWhile (· ≠ SLASH) = path :=
    List.takeWhile_append_dropWhile
  have hname : ∀ c ∈ path.takeWhile (· ≠ SLASH), (c == SLASH) = false := by
    intro c hc
    simpa using List.mem_takeWhile_imp hc
  have hhead := List.head?_dropWhile_not (· ≠ SLASH) path
  generalize path.takeWhile (· ≠ SLASH) = name at *
  generalize path.dropWhile (· ≠ SLASH) = rest at *
  subst hsplit
  cases rest with
  | nil => rw [List.append_nil, pieces_single hne hname, show pieces [] = [] from rfl]
  | cons c rest =>
    obtain rfl : c = SLASH := by simpa using hhead
    rw [pieces_append_slash hne hname, pieces_slash]

lemma skipelem_none (h : skipelem path = none) : components path = [] := by
  simp only [skipelem] at h
  split_ifs at h with hd
  rw [components, ← pieces_dropWhile, hd]
  rfl

lemma skipelem_some (h : skipelem path = some (rest, name)) :
    components path = name :: components rest ∧ rest.length < path.length := by
  simp only [skipelem] at h
  split_ifs at h with hd
  obtain ⟨rfl, rfl⟩ := Prod.mk.inj (Option.some.inj h)
  have hhead := List.head?_dropWhile_not (· = SLASH) path
  have hlen := List.length_dropWhile_le (· = SLASH) path
  have hp := pieces_dropWhile path
  generalize path.dropWhile (· = SLASH) = p at *
  cases p with
  | nil => exact absurd rfl hd
  | cons c p =>
    have hc : c ≠ SLASH := by simpa using hhead
    have hne : (c :: p).takeWhile (· ≠ SLASH) ≠ [] := by
      rw [List.takeWhile_cons_of_pos (by simpa using hc)]
      exact List.cons_ne_nil _ _
    have hdrop : (c :: p).dropWhile (· ≠ SLASH) = p.dropWhile (· ≠ SLASH) :=
      List.dropWhile_cons_of_pos (by simpa using hc)
    have h1 := List.length_dropWhile_le (· ≠ SLASH) p
    have h2 := List.length_dropWhile_le (· = SLASH) (p.dropWhile (· ≠ SLASH))
    refine ⟨?_, ?_⟩
    · rw [components, ← hp, pieces_elem hne, List.map_cons, components, pieces_dropWhile]
    · rw [hdrop]
      rw [List.length_cons] at hlen
      omega

lemma components_rest (h : skipelem path = some (rest, name)) : components rest = [] ↔ rest = [] := by
  have hrest : rest.dropWhile (· = SLASH) = rest := by
    simp only [skipelem] at h
    split_ifs at h
    obtain ⟨rfl, -⟩ := Prod.mk.inj (Option.some.inj h)
    exact List.dropWhile_idempotent ..
  refine ⟨fun hc => ?_, fun hr => by rw [hr]; rfl⟩
  cases hs : skipelem rest with
  | none =>
    simp only [skipelem, hrest] at hs
    split_ifs at hs with hnil
    exact hnil
  | some r =>
    rw [(skipelem_some hs).1] at hc
    exact absurd hc (List.cons_ne_nil _ _)

end

def elems (path : List UInt8) : List (List UInt8) :=
  match h : skipelem path with
  | none => []
  | some (rest, name) =>
    have : rest.length < path.length := (skipelem_some h).2
    name :: elems rest
termination_by path.length

lemma elems_eq_components (path : List UInt8) : elems path = components path := by
  induction path using elems.induct with
  | case1 path h =>
    rw [elems]
    split
    · exact (skipelem_none h).symm
    · simp_all
  | case2 path rest name h hlt ih =>
    rw [elems]
    split
    · simp_all
    · rename_i h'
      rw [h] at h'
      obtain ⟨rfl, rfl⟩ := Prod.mk.inj (Option.some.inj h')
      rw [ih, (skipelem_some h).1]

structure Node where
  type : Int16
  major : Int16
  minor : Int16
  nlink : Int16
  data : List UInt8
  deriving DecidableEq

namespace Node

def zero : Node := ⟨0, 0, 0, 0, []⟩

def fields (n : Node) : Fields := ⟨n.type, n.major, n.minor, n.nlink, UInt32.ofNat n.data.length⟩

end Node

def mkNode (ip : Dinode) (c : List UInt8) : Node :=
  if ip.type = 0 then Node.zero else ⟨ip.type, ip.major, ip.minor, ip.nlink, c⟩

def node (st : Store) (i : ℕ) : Node := mkNode (st.inode i) (contents st.disk (st.inode i))

def child (ino : ℕ → Node) (i : ℕ) (name : List UInt8) : Option ℕ :=
  if (ino i).type = T_DIR then names (ino i).data name else none

def walk (ino : ℕ → Node) (i : ℕ) (l : List (List UInt8)) : Option ℕ := l.foldlM (child ino) i

def walkParent (ino : ℕ → Node) (i : ℕ) (l : List (List UInt8)) : Option (ℕ × List UInt8) := do
  let name ← l.getLast?
  let dp ← walk ino i l.dropLast
  if (ino dp).type = T_DIR then return (dp, name) else none

def follow (ino : ℕ → Node) (parent : Bool) (i : ℕ) (l : List (List UInt8)) : Option (ℕ × List UInt8) :=
  if parent then walkParent ino i l else (walk ino i l).map (fun j => (j, []))

def origin (k : Kern) (p : ℕ) (path : List UInt8) : ℕ :=
  if path.head? = some SLASH then ROOTINO else (k.procs p).cwd

section

variable {st : Store} {ino : ℕ → Node} {i dp : ℕ} {name m : List UInt8} {l : List (List UInt8)}

lemma node_of_type (ht : (st.inode i).type ≠ 0) :
    node st i = ⟨(st.inode i).type, (st.inode i).major, (st.inode i).minor, (st.inode i).nlink,
      contents st.disk (st.inode i)⟩ := by
  rw [node, mkNode, if_neg ht]

lemma node_type (st : Store) (i : ℕ) : (node st i).type = (st.inode i).type := by
  rw [node, mkNode]
  split_ifs with h
  · rw [h]
    rfl
  · rfl

lemma node_data (ht : (st.inode i).type = T_DIR) :
    (node st i).data = contents st.disk (st.inode i) := by
  rw [node_of_type (by rw [ht]; decide)]

lemma walk_cons : walk ino i (name :: l) = (child ino i name).bind (walk ino · l) := List.foldlM_cons

lemma walkParent_cons :
    walkParent ino i (name :: m :: l) = (child ino i name).bind (walkParent ino · (m :: l)) := by
  rw [walkParent, List.getLast?_cons_cons, List.dropLast_cons_cons, walk_cons]
  cases child ino i name with
  | none => cases (m :: l).getLast? <;> rfl
  | some j => rfl

lemma walkParent_eq_some_iff : walkParent ino i l = some (dp, name) ↔
    ∃ init, l = init ++ [name] ∧ walk ino i init = some dp ∧ (ino dp).type = T_DIR := by
  rcases List.eq_nil_or_concat' l with rfl | ⟨init, n, rfl⟩
  · simp [walkParent]
  · have heq : walkParent ino i (init ++ [n]) =
        (walk ino i init).bind (fun dp => if (ino dp).type = T_DIR then some (dp, n) else none) := by
      rw [walkParent, List.getLast?_concat, List.dropLast_concat]
      rfl
    rw [heq, Option.bind_eq_some_iff]
    constructor
    · rintro ⟨d, hd, hif⟩
      split_ifs at hif with ht
      obtain ⟨rfl, rfl⟩ := Prod.mk.inj (Option.some.inj hif)
      exact ⟨init, rfl, hd, ht⟩
    · rintro ⟨init', hl, hd, ht⟩
      obtain ⟨rfl, hn⟩ := List.append_inj' hl rfl
      obtain rfl := List.singleton_inj.mp hn
      exact ⟨dp, hd, if_pos ht⟩

lemma walk_of_walkParent (h : walkParent ino i l = some (dp, name)) :
    walk ino i l = names (ino dp).data name := by
  obtain ⟨init, rfl, hw, ht⟩ := walkParent_eq_some_iff.mp h
  rw [walk, List.foldlM_append, show List.foldlM (child ino) i init = some dp from hw]
  simp [child, ht]

lemma follow_nil (parent : Bool) : follow ino parent i [] = if parent then none else some (i, []) := by
  cases parent <;> rfl

lemma follow_cons (parent : Bool) : follow ino parent i (name :: l) =
    if (ino i).type ≠ T_DIR then none
    else if parent = true ∧ l = [] then some (i, name)
    else (names (ino i).data name).bind (fun j => follow ino parent j l) := by
  have hchild : child ino i name = if (ino i).type ≠ T_DIR then none else names (ino i).data name := by
    rw [child, ite_not]
  cases parent with
  | false =>
    rw [follow, if_neg (by decide), walk_cons, hchild]
    split_ifs with hdir hl
    · rfl
    · cases hl.1
    · cases names (ino i).data name <;> rfl
  | true =>
    cases l with
    | nil =>
      split_ifs with hdir hl
      · exact if_neg hdir
      · exact if_pos (not_not.mp hdir)
      · exact absurd ⟨rfl, rfl⟩ hl
    | cons m l =>
      rw [follow, if_pos rfl, walkParent_cons, hchild]
      split_ifs with hdir hl
      · rfl
      · cases hl.2
      · rfl

end

end Xv6.Fs
