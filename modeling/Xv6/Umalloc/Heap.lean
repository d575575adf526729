import Xv6.Lib.Assign
import Xv6.Lib.Circle
import Xv6.Lib.Run
import Xv6.Lib.Tiling

/-! The user-level allocator of umalloc.c. Memory is a cell of the size of a `Header` at each
address that holds one, with the two words `ptr` and `size`; the rest of a block is such cells, with
any contents. -/

namespace Xv6.Umalloc

open Lib

def adv (p n : ℕ) : ℕ := (p + 8 * n) % 2 ^ 32

structure Heap where
  ptr : ℕ → ℕ
  size : ℕ → ℕ
  freep : ℕ
  regions : List (ℕ × ℕ)

namespace Heap

def joinNext (h : Heap) (bp p : ℕ) : Heap :=
  if adv bp (h.size bp) = h.ptr p then
    { h with size := assign h.size bp ((h.size bp + h.size (h.ptr p)) % 2 ^ 32),
             ptr := assign h.ptr bp (h.ptr (h.ptr p)) }
  else { h with ptr := assign h.ptr bp (h.ptr p) }

def joinPrev (h : Heap) (bp p : ℕ) : Heap :=
  if adv p (h.size p) = bp then
    { h with size := assign h.size p ((h.size p + h.size bp) % 2 ^ 32), ptr := assign h.ptr p (h.ptr bp) }
  else { h with ptr := assign h.ptr p bp }

def freeStop (h : Heap) (bp p : ℕ) : Bool :=
  p < bp && bp < h.ptr p || h.ptr p ≤ p && (p < bp || bp < h.ptr p)

def free (h : Heap) (fuel ap : ℕ) : Option Heap :=
  let bp := (ap + (2 ^ 32 - 8)) % 2 ^ 32
  (walk h.ptr (h.freeStop bp) fuel h.freep).map fun p =>
    { (h.joinNext bp p).joinPrev bp p with freep := p }

def request (nu : ℕ) : ℕ := if nu < 4096 then 4096 else nu

def grow (h : Heap) (hp nu : ℕ) : Heap :=
    { h with size := assign h.size hp nu, regions := (hp, nu) :: h.regions }

lemma grow_size (h : Heap) (hp nu x : ℕ) : (h.grow hp nu).size x = if x = hp then nu else h.size x := rfl

/-- `brks` are the next answers of `sbrk`, `none` for `-1`. -/
def morecore (h : Heap) (fuel nu : ℕ) (brks : List (Option ℕ)) : Option (Heap × ℕ × List (Option ℕ)) :=
  match brks with
  | some hp :: brks => ((h.grow hp (request nu)).free fuel (adv hp 1)).map fun h => (h, h.freep, brks)
  | none :: brks => some (h, 0, brks)
  | [] => some (h, 0, [])

def take (h : Heap) (nunits prevp p : ℕ) : Heap × ℕ :=
  if h.size p = nunits then ({ h with ptr := assign h.ptr prevp (h.ptr p), freep := prevp }, adv p 1)
  else
    let size := assign h.size p ((h.size p + (2 ^ 32 - nunits)) % 2 ^ 32)
    let q := adv p (size p)
    ({ h with size := assign size q nunits, freep := prevp }, adv q 1)

def mallocLoop (nunits : ℕ) : ℕ → Heap → List (Option ℕ) → ℕ → ℕ → Option (Heap × ℕ × List (Option ℕ))
  | 0, _, _, _, _ => none
  | fuel + 1, h, brks, prevp, p =>
    if nunits ≤ h.size p then some ((h.take nunits prevp p).1, (h.take nunits prevp p).2, brks)
    else if p = h.freep then
      match h.morecore fuel nunits brks with
      | none => none
      | some (h, p, brks) =>
        if p = 0 then some (h, 0, brks) else mallocLoop nunits fuel h brks p (h.ptr p)
    else mallocLoop nunits fuel h brks p (h.ptr p)

def nunits (nbytes : ℕ) : ℕ := ((nbytes + 8 - 1) % 2 ^ 32) / 8 + 1

def start (h : Heap) (base : ℕ) : Heap :=
  if h.freep = 0 then
    { h with ptr := assign h.ptr base base, size := assign h.size base 0, freep := base } else h

def malloc (h : Heap) (base fuel : ℕ) (brks : List (Option ℕ)) (nbytes : ℕ) :
    Option (Heap × ℕ × List (Option ℕ)) :=
  mallocLoop (nunits nbytes) fuel (h.start base) brks (h.start base).freep
    ((h.start base).ptr (h.start base).freep)

def store (h : Heap) (a ptr size : ℕ) : Heap :=
    { h with ptr := assign h.ptr a ptr, size := assign h.size a size }

def Fresh (h : Heap) (base nu a : ℕ) : Prop :=
  8 ∣ a ∧ base + 8 ≤ a ∧ (∀ r ∈ h.regions, r.1 + 8 * r.2 ≤ a) ∧ a + 8 * nu < 2 ^ 32

instance (h : Heap) (base nu a : ℕ) : Decidable (h.Fresh base nu a) := inferInstanceAs (Decidable (_ ∧ _))

end Heap

/-- `live` lists the headers of the blocks that the program has, with the number of bytes it asked
for. -/
structure State where
  heap : Heap
  live : List (ℕ × ℕ)

inductive Event
  | malloc (nbytes : ℕ) (brks : List (Option ℕ))
  | free (ap : ℕ)
  | write (a ptr size : ℕ)

namespace State

open Heap

def Allowed (base : ℕ) (s : State) : Event → Prop
  | .malloc nbytes brks =>
    nbytes < 2 ^ 30 ∧ ∀ a ∈ brks.head?, ∀ hp ∈ a, s.heap.Fresh base (request (nunits nbytes)) hp
  | .free ap => ∃ b ∈ s.live, ap = b.1 + 8
  | .write a _ _ => ∃ b ∈ s.live, b.1 < a ∧ a < b.1 + 8 * nunits b.2 ∧ 8 ∣ a

instance (base : ℕ) (s : State) : (e : Event) → Decidable (s.Allowed base e)
  | .malloc .. => inferInstanceAs (Decidable (_ ∧ _))
  | .free _ => inferInstanceAs (Decidable (∃ b ∈ s.live, _))
  | .write .. => inferInstanceAs (Decidable (∃ b ∈ s.live, _))

def step (base fuel : ℕ) (s : State) (e : Event) : Option State :=
  if s.Allowed base e then
    match e with
    | .malloc nbytes brks =>
      (s.heap.malloc base fuel brks nbytes).map fun r =>
        ⟨r.1, if r.2.1 = 0 then s.live else (r.2.1 - 8, nbytes) :: s.live⟩
    | .free ap =>
      (s.heap.free fuel ap).map fun h => ⟨h, s.live.eraseP fun b => b.1 + 8 = ap⟩
    | .write a ptr size => some ⟨s.heap.store a ptr size, s.live⟩
  else none

def Step (base : ℕ) (s : State) (e : Event) (s' : State) : Prop := ∃ fuel, s.step base fuel e = some s'

def init (ptr size : ℕ → ℕ) : State := ⟨⟨ptr, size, 0, []⟩, []⟩

end State

end Xv6.Umalloc
