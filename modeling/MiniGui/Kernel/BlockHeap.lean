import MiniGui.Library.Reach

/-!
The heaps of equal blocks (`kernel/blockheap.c`). A block is named by its slot in the array, or by what `calloc`
returned for it when the array was full.
-/

namespace MiniGui

open Reach

inductive BlockState where
  | BDS_FREE
  | BDS_SPECIAL
  | BDS_USED
deriving DecidableEq

inductive Block where
  | slot (i : Nat)
  | special (p : Nat)
deriving DecidableEq

/-- `heap` is `NULL` before the first allocation, and `free` is not set until then. -/
structure BlockHeap where
  heapSize : Nat
  free : Nat
  heap : Option (Nat → BlockState)

namespace BlockHeap

def initBlockDataHeap (heapSize free : Nat) : BlockHeap :=
  { heapSize, free, heap := none }

/-- `arena` tells whether the `calloc` of the array succeeds. -/
def ready (heap : BlockHeap) (arena : Bool) : BlockHeap :=
  if heap.heap.isNone && arena then { heap with heap := some (fun _ => .BDS_FREE), free := 0 } else heap

/-- `extra` is what `calloc` returns for a block outside the array. -/
def blockDataAlloc (heap : BlockHeap) (arena : Bool) (extra : Option Nat) : Option Block × BlockHeap :=
  let heap := heap.ready arena
  match heap.heap with
  | none => (none, heap)
  | some data =>
    match (List.range' heap.free (heap.heapSize - heap.free)).find? (fun i => data i = .BDS_FREE) with
    | some i => (some (.slot i), { heap with heap := some (Function.update data i .BDS_USED), free := i + 1 })
    | none => (extra.map .special, heap)

def blockDataFree (heap : BlockHeap) (block : Block) : BlockHeap :=
  match heap.heap, block with
  | some data, .slot i =>
    if data i = .BDS_USED then
      { heap with heap := some (Function.update data i .BDS_FREE), free := if heap.free > i then i else heap.free }
    else
      heap
  | _, _ => heap

def IsFree (heap : BlockHeap) (i : Nat) : Prop :=
  ∀ data, heap.heap = some data → data i = .BDS_FREE

end BlockHeap

/-- A heap with the blocks that were allocated from it and not freed since. -/
structure BlockRun where
  heap : BlockHeap
  live : List Block

inductive BlockCall where
  | alloc (arena : Bool) (extra : Option Nat)
  | free (block : Block)

namespace BlockRun

def step (s : BlockRun) : BlockCall → BlockRun
  | .alloc arena extra =>
    let (block, heap) := s.heap.blockDataAlloc arena extra
    { heap, live := block.toList ++ s.live }
  | .free block => { heap := s.heap.blockDataFree block, live := s.live.filter (· ≠ block) }

/-- Only live blocks are freed, and `calloc` returns none of those it returned before. -/
def Allowed (s : BlockRun) : BlockCall → Prop
  | .alloc _ extra => ∀ p, extra = some p → .special p ∉ s.live
  | .free block => block ∈ s.live

structure Inv (s : BlockRun) : Prop where
  below : ∀ data, s.heap.heap = some data → ∀ i < s.heap.free, data i = .BDS_USED
  slot_mem : ∀ i, .slot i ∈ s.live ↔ ∃ data, s.heap.heap = some data ∧ data i = .BDS_USED
  not_special : ∀ data, s.heap.heap = some data → ∀ i, data i ≠ .BDS_SPECIAL

/-- What `BlockDataAlloc` returns, and that a freed slot is used again before any memory outside the array. -/
structure AllocOk (s : BlockRun) (arena : Bool) (extra : Option Nat) : Prop where
  fresh : ∀ block, (s.heap.blockDataAlloc arena extra).1 = some block → block ∉ s.live
  lowest : (s.heap.heap.isSome ∨ arena = true) → ∀ i,
    (s.heap.blockDataAlloc arena extra).1 = some (.slot i)
      ↔ i < s.heap.heapSize ∧ s.heap.IsFree i ∧ ∀ j < i, ¬s.heap.IsFree j
  full : ∀ p, (s.heap.blockDataAlloc arena extra).1 = some (.special p) → ∀ i < s.heap.heapSize, .slot i ∈ s.live
  again : ∀ i < s.heap.heapSize, .slot i ∈ s.live →
    ∃ j ≤ i, ((s.heap.blockDataFree (.slot i)).blockDataAlloc arena extra).1 = some (.slot j)

variable {s : BlockRun} {data : Nat → BlockState}

theorem Inv.used (h : s.Inv) (hdata : s.heap.heap = some data) {i : Nat}
    (hi : data i ≠ .BDS_FREE) : data i = .BDS_USED := by
  have hs := h.not_special data hdata i
  cases hd : data i with
  | BDS_FREE => exact absurd hd hi
  | BDS_SPECIAL => exact absurd hd hs
  | BDS_USED => rfl

theorem ready_isFree (heap : BlockHeap) (arena : Bool) (i : Nat) : (heap.ready arena).IsFree i ↔ heap.IsFree i := by
  unfold BlockHeap.ready
  split
  . next h =>
    rw [Bool.and_eq_true, Option.isNone_iff_eq_none] at h
    simp [BlockHeap.IsFree, h.1]
  . rfl

theorem ready_heapSize (heap : BlockHeap) (arena : Bool) : (heap.ready arena).heapSize = heap.heapSize := by
  unfold BlockHeap.ready
  split <;> rfl

theorem Inv.ready (h : s.Inv) (arena : Bool) : Inv { s with heap := s.heap.ready arena } := by
  unfold BlockHeap.ready
  split
  . next hnone =>
    rw [Bool.and_eq_true, Option.isNone_iff_eq_none] at hnone
    have hlive := h.slot_mem
    constructor
    . simp
    . simpa [hnone.1] using hlive
    . simp
  . exact h

theorem find_free {free size : Nat} (hbelow : ∀ i < free, data i = .BDS_USED) (i : Nat)
    : (List.range' free (size - free)).find? (fun i => data i = .BDS_FREE) = some i
        ↔ i < size ∧ data i = .BDS_FREE ∧ ∀ j < i, data j ≠ .BDS_FREE := by
  have hfree : data i = .BDS_FREE → free ≤ i := by
    intro hi
    by_contra hlt
    rw [hbelow i (by omega)] at hi
    cases hi
  rw [List.find?_range'_eq_some]
  simp only [decide_eq_true_eq, List.mem_range'_1, Bool.not_eq_true', decide_eq_false_iff_not]
  constructor
  . rintro ⟨hi, hmem, hall⟩
    refine ⟨by omega, hi, ?_⟩
    intro j hj
    by_cases hle : free ≤ j
    . exact hall j hle hj
    . rw [hbelow j (by omega)]
      simp
  . rintro ⟨hsize, hi, hall⟩
    have := hfree hi
    exact ⟨hi, by omega, fun j _ hj => hall j hj⟩

theorem isFree_some {heap : BlockHeap} (hdata : heap.heap = some data) (i : Nat)
    : heap.IsFree i ↔ data i = .BDS_FREE := by
  simp [BlockHeap.IsFree, hdata]

/-- The allocation from the array when there is one. -/
theorem Inv.alloc_slot (h : s.Inv) (arena : Bool) (extra : Option Nat)
    (hheap : s.heap.heap.isSome ∨ arena = true) (i : Nat)
    : (s.heap.blockDataAlloc arena extra).1 = some (.slot i)
        ↔ i < s.heap.heapSize ∧ s.heap.IsFree i ∧ ∀ j < i, ¬s.heap.IsFree j := by
  have hready := h.ready arena
  rw [← ready_heapSize s.heap arena]
  simp only [← ready_isFree s.heap arena]
  have hsome : ∃ data, (s.heap.ready arena).heap = some data := by
    unfold BlockHeap.ready
    cases hs : s.heap.heap with
    | none => simp_all
    | some data => simp [hs]
  obtain ⟨data, hdata⟩ := hsome
  simp only [isFree_some hdata]
  rw [← find_free (hready.below data hdata)]
  unfold BlockHeap.blockDataAlloc
  dsimp only
  rw [hdata]
  dsimp only
  split
  . next hfind => simp [hfind]
  . next hfind => simp [hfind]

/-- Everything that `BlockDataAlloc` can do. -/
theorem Inv.alloc (h : s.Inv) (arena : Bool) (extra : Option Nat)
    : s.heap.blockDataAlloc arena extra = (none, s.heap.ready arena)
        ∨ ∃ data, (s.heap.ready arena).heap = some data
          ∧ ((∃ i, data i = .BDS_FREE ∧ (∀ j < i, data j = .BDS_USED)
              ∧ s.heap.blockDataAlloc arena extra
                = (some (.slot i),
                  { s.heap.ready arena with heap := some (Function.update data i .BDS_USED), free := i + 1 }))
            ∨ (∀ i < s.heap.heapSize, data i = .BDS_USED)
              ∧ s.heap.blockDataAlloc arena extra = (extra.map .special, s.heap.ready arena)) := by
  have hready := h.ready arena
  unfold BlockHeap.blockDataAlloc
  dsimp only
  split
  . exact .inl rfl
  rename_i data hdata
  refine .inr ⟨data, hdata, ?_⟩
  split
  . next i hfind =>
    have hi := (find_free (hready.below data hdata) i).mp hfind
    exact .inl ⟨i, hi.2.1, fun j hj => hready.used hdata (hi.2.2 j hj), rfl⟩
  rename_i hfind
  refine .inr ⟨?_, rfl⟩
  intro i hi
  by_cases hbelow : i < (s.heap.ready arena).free
  . exact hready.below data hdata i hbelow
  rw [List.find?_eq_none] at hfind
  apply hready.used hdata
  have hsize := ready_heapSize s.heap arena
  simpa using hfind i (by rw [List.mem_range'_1]; omega)

theorem Inv.step (h : s.Inv) (call : BlockCall) : (s.step call).Inv := by
  cases call with
  | alloc arena extra =>
    have hready := h.ready arena
    simp only [BlockRun.step]
    obtain halloc | ⟨data, hdata, ⟨i, hi, hlow, halloc⟩ | ⟨-, halloc⟩⟩ := h.alloc arena extra
    . rw [halloc]
      exact hready
    . rw [halloc]
      have hslot := hready.slot_mem
      have hspecial := hready.not_special data hdata
      simp only [hdata, Option.some.injEq, exists_eq_left'] at hslot
      simp only [Option.toList_some, List.singleton_append]
      constructor <;> simp only [Option.some.injEq, forall_eq', exists_eq_left', Function.update_apply] <;> grind
    rw [halloc]
    refine ⟨hready.below, ?_, hready.not_special⟩
    intro i
    have hslot := hready.slot_mem i
    cases extra with
    | none => exact hslot
    | some p => simpa using hslot
  | free block =>
    simp only [BlockRun.step, BlockHeap.blockDataFree]
    obtain ⟨hbelow, hslot, hspecial⟩ := h
    cases hdata : s.heap.heap with
    | none => constructor <;> grind
    | some data =>
      simp only [hdata, Option.some.injEq, forall_eq', exists_eq_left'] at hbelow hslot hspecial
      cases block with
      | slot i =>
        dsimp only
        split
        . constructor <;> simp only [Option.some.injEq, forall_eq', exists_eq_left', Function.update_apply] <;> grind
        . constructor <;> simp only [hdata, Option.some.injEq, forall_eq', exists_eq_left'] <;> grind
      | special p =>
        constructor <;> simp only [hdata, Option.some.injEq, forall_eq', exists_eq_left'] <;> grind

theorem Inv.allocOk (h : s.Inv) (arena : Bool) {extra : Option Nat}
    (hextra : s.Allowed (.alloc arena extra)) : AllocOk s arena extra := by
  have hready := h.ready arena
  constructor
  . intro block hblock hmem
    obtain halloc | ⟨data, hdata, ⟨i, hi, -, halloc⟩ | ⟨-, halloc⟩⟩ := h.alloc arena extra
    . simp [halloc] at hblock
    . simp only [halloc, Option.some.injEq] at hblock
      obtain ⟨data', hdata', hused⟩ := (hready.slot_mem i).mp (hblock ▸ hmem)
      cases hdata.symm.trans hdata'
      rw [hi] at hused
      cases hused
    . rw [halloc, Option.map_eq_some_iff] at hblock
      obtain ⟨p, hp, rfl⟩ := hblock
      exact hextra p hp hmem
  . exact h.alloc_slot arena extra
  . intro p hp i hi
    obtain halloc | ⟨data, hdata, ⟨j, hj, -, halloc⟩ | ⟨hfull, -⟩⟩ := h.alloc arena extra
    . simp [halloc] at hp
    . simp [halloc] at hp
    . exact (hready.slot_mem i).mpr ⟨data, hdata, hfull i hi⟩
  intro i hi hmem
  obtain ⟨data, hdata, hused⟩ := (h.slot_mem i).mp hmem
  have hfreed := h.step (.free (.slot i))
  have hheap : (s.heap.blockDataFree (.slot i)).heap = some (Function.update data i .BDS_FREE) := by
    simp [BlockHeap.blockDataFree, hdata, hused]
  have hsize : (s.heap.blockDataFree (.slot i)).heapSize = s.heap.heapSize := by
    simp [BlockHeap.blockDataFree, hdata, hused]
  have hex : ∃ j, Function.update data i .BDS_FREE j = .BDS_FREE := ⟨i, by simp⟩
  have hle : Nat.find hex ≤ i := Nat.find_le (by simp)
  refine ⟨Nat.find hex, hle, ?_⟩
  refine (hfreed.alloc_slot arena extra (Or.inl ?_) _).mpr ?_
  . simp [BlockRun.step, hheap]
  . simp only [BlockRun.step, isFree_some hheap, hsize]
    exact ⟨by omega, Nat.find_spec hex, fun j hj => Nat.find_min hex hj⟩

/--
The run of a heap under allocations and frees of live blocks: the slots below `free` are in use, and
`BlockDataAlloc` hands out the lowest free one.
-/
theorem block_heap_runs (heapSize free : Nat) (s : BlockRun)
    (h : Reachable (fun s call s' => s' = s.step call) Allowed ⟨.initBlockDataHeap heapSize free, []⟩ s)
    : s.Inv ∧ ∀ arena extra, s.Allowed (.alloc arena extra) → AllocOk s arena extra := by
  have hinv : s.Inv := by
    apply h.invariant
    . constructor <;> simp [BlockHeap.initBlockDataHeap]
    . rintro s call _ hs - rfl
      exact hs.step call
  exact ⟨hinv, fun arena extra hextra => hinv.allocOk arena hextra⟩

theorem block_heap_runs_full
    : let s := [.alloc true none, .alloc true (some 7), .free (.slot 0)].foldl step ⟨.initBlockDataHeap 1 0, []⟩
      s.live = [.special 7] ∧ s.Inv := by
  refine ⟨by decide, (block_heap_runs 1 0 _ ?_).1⟩
  refine Reachable.step (a := .free (.slot 0)) ?_ (List.mem_of_elem_eq_true rfl) rfl
  refine Reachable.step (a := .alloc true (some 7)) ?_ (fun _ _ => by decide +revert) rfl
  exact Reachable.step (a := .alloc true none) Reachable.init (fun _ _ => by simp) rfl

end BlockRun

end MiniGui
