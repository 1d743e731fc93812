import MiniGui.Desktop.Core
import MiniGui.Library.DList

namespace MiniGui

open Function List Option Bits

def unused (bitmap : Nat → BitVec 8) (k : Nat) : Bool :=
  has (bitmap (k / 8)) (7 - k % 8)

theorem slotMask_eq {j : Nat} (hj : j < 8) : slotMask j = 1#8 <<< (7 - j) := by
  unfold slotMask
  interval_cases j <;> decide

variable {byte : BitVec 8}

theorem and_slotMask_ne_zero {j : Nat} (hj : j < 8)
    : byte &&& slotMask j ≠ 0 ↔ has byte (7 - j) = true := by
  rw [slotMask_eq hj, has, bne_iff_ne]
  rfl

theorem clear_slotMask {j : Nat} (hj : j < 8)
    : byte &&& ~~~slotMask j = clear byte (7 - j) := by
  rw [slotMask_eq hj, clear]

theorem set_slotMask {j : Nat} (hj : j < 8) : byte ||| slotMask j = Bits.set byte (7 - j) := by
  rw [slotMask_eq hj, Bits.set]

variable {bitmap bitmap' : Nat → BitVec 8} {i j k len : Nat}

@[simp]
theorem unused_slotSetUse
    : unused (slotSetUse bitmap i) k = (unused bitmap k && decide (k ≠ i)) := by
  unfold unused slotSetUse
  by_cases h : k / 8 = i / 8
  . rw [h, update_self, clear_slotMask (Nat.mod_lt i (by omega)), has_clear]
    congr 1
    rw [decide_eq_decide]
    omega
  have hne : k ≠ i := by
    intro heq
    rw [heq] at h
    exact h rfl
  rw [update_of_ne h]
  simp [hne]

@[simp]
theorem unused_slotClearUse
    : unused (slotClearUse bitmap i) k = (unused bitmap k || decide (k = i)) := by
  unfold slotClearUse
  split
  . next h =>
    rw [and_slotMask_ne_zero (Nat.mod_lt i (by omega))] at h
    by_cases hk : k = i
    . rw [hk, unused, h]
      rfl
    . simp [hk]
  unfold unused
  by_cases h : k / 8 = i / 8
  . rw [h, update_self, set_slotMask (Nat.mod_lt i (by omega)), has_set]
    congr 1
    rw [← Bool.decide_and, decide_eq_decide]
    omega
  have hne : k ≠ i := by
    intro heq
    rw [heq] at h
    exact h rfl
  rw [update_of_ne h]
  simp [hne]

theorem unusedBit_eq_some : unusedBit byte = some j
        ↔
      j < 8 ∧ has byte (7 - j) = true ∧ ∀ m < j, has byte (7 - m) = false := by
  unfold unusedBit
  rw [find?_range_eq_some, mem_range, decide_eq_true_eq]
  constructor
  . rintro ⟨hj, hlt, hmin⟩
    rw [and_slotMask_ne_zero hlt] at hj
    refine ⟨hlt, hj, ?_⟩
    intro m hm
    have hfree := hmin m hm
    rw [Bool.not_eq_true', decide_eq_false_iff_not, and_slotMask_ne_zero (by omega)] at hfree
    exact Bool.not_eq_true _ ▸ hfree
  rintro ⟨hlt, hj, hmin⟩
  refine ⟨(and_slotMask_ne_zero hlt).mpr hj, hlt, ?_⟩
  intro m hm
  rw [Bool.not_eq_true', decide_eq_false_iff_not, and_slotMask_ne_zero (by omega), hmin m hm]
  simp

theorem unusedBit_eq_none (h : unusedBit byte = none) (hj : j < 8)
    : has byte (7 - j) = false := by
  unfold unusedBit at h
  rw [find?_range_eq_none] at h
  have hfree := h j hj
  rw [Bool.not_eq_true', decide_eq_false_iff_not, and_slotMask_ne_zero hj] at hfree
  exact Bool.not_eq_true _ ▸ hfree

theorem lookforUnusedSlot_eq_some (h : lookforUnusedSlot bitmap len = some (k, bitmap'))
    : k < 8 * len ∧ unused bitmap k = true ∧ (∀ j < k, unused bitmap j = false)
        ∧ bitmap' = slotSetUse bitmap k := by
  unfold lookforUnusedSlot at h
  rw [findSome?_eq_some_iff] at h
  rcases h with ⟨before, i, after, hrange, hbit, hnone⟩
  rw [map_eq_some_iff] at hbit
  rcases hbit with ⟨j, hj, heq⟩
  rw [Prod.mk.injEq] at heq
  rw [unusedBit_eq_some] at hj
  have hi : before.length = i := by
    have hget := congrArg (fun l => l[before.length]?) hrange
    simp only [getElem?_append_right (Nat.le_refl _), Nat.sub_self, getElem?_cons_zero] at hget
    rw [List.getElem?_eq_some_iff] at hget
    rcases hget with ⟨_, hget⟩
    simpa using hget
  have hlen := congrArg List.length hrange
  rw [length_range, length_append, length_cons, hi] at hlen
  have hbefore : before = List.range i := by
    have htake := congrArg (List.take i) hrange
    rw [take_range, take_left' hi, Nat.min_eq_left (by omega)] at htake
    exact htake.symm
  have hdiv : k / 8 = i := by omega
  have hmod : k % 8 = j := by omega
  refine ⟨by omega, ?_, ?_, ?_⟩
  . rw [unused, hdiv, hmod]
    exact hj.2.1
  . intro m hm
    unfold unused
    by_cases hmi : m / 8 = i
    . rw [hmi]
      apply hj.2.2
      omega
    have hmem : m / 8 ∈ before := by
      rw [hbefore, mem_range]
      omega
    have hfree := hnone _ hmem
    rw [map_eq_none_iff] at hfree
    apply unusedBit_eq_none hfree
    omega
  . rw [slotSetUse, hdiv, hmod]
    exact heq.2.symm

theorem lookforUnusedSlot_isSome (h : unused bitmap k = true) (hk : k < 8 * len)
    : (lookforUnusedSlot bitmap len).isSome := by
  unfold lookforUnusedSlot
  rw [findSome?_isSome_iff]
  refine ⟨k / 8, by rw [mem_range]; omega, ?_⟩
  rw [isSome_map]
  cases hbit : unusedBit (bitmap (k / 8)) with
  | some j => rfl
  | none =>
    rw [unused, unusedBit_eq_none hbit (Nat.mod_lt k (by omega))] at h
    simp at h

section Offset

variable {bytes : Nat}

theorem unused_offset : unused (fun i => bitmap (bytes + i)) k = unused bitmap (8 * bytes + k) := by
  unfold unused
  rw [Nat.mul_add_div (by omega), Nat.mul_add_mod]

theorem slotSetUse_offset
    : (fun i => if i < bytes then bitmap i else slotSetUse (fun i => bitmap (bytes + i)) k (i - bytes))
        = slotSetUse bitmap (8 * bytes + k) := by
  funext i
  unfold slotSetUse
  rw [Nat.mul_add_div (by omega), Nat.mul_add_mod]
  split
  . next h => rw [update_of_ne (by omega)]
  rename_i h
  by_cases hi : i = bytes + k / 8
  . rw [hi, Nat.add_sub_cancel_left, update_self, update_self]
  . rw [update_of_ne hi, update_of_ne (by omega), Nat.add_sub_cancel' (by omega)]

end Offset

@[ext]
structure Store where
  next : Int → Int
  prev : Int → Int
  type : Int → BitVec 32
  first : ZType → Int
  nr : ZType → Int
  maxNr : ZType → Nat
  sizeUsageBmp : Nat
  usageBmp : Nat → BitVec 8

namespace Store

def maxNrNodes (st : Store) : Nat :=
  st.maxNr .global + st.maxNr .topmost + st.maxNr .normal

def setNext (st : Store) (slot next : Int) : Store :=
  { st with next := update st.next slot next }

def setPrev (st : Store) (slot prev : Int) : Store :=
  { st with prev := update st.prev slot prev }

def setType (st : Store) (slot : Int) (type : BitVec 32) : Store :=
  { st with type := update st.type slot type }

def unlink (st : Store) (slot : Int) : Store :=
  {
    st with
    next :=
      if st.prev slot = 0 then st.next else update st.next (st.prev slot) (st.next slot)
    prev :=
      if st.next slot = 0 then st.prev else update st.prev (st.next slot) (st.prev slot)
  }

def link (st : Store) (t : ZType) (slot : Int) : Store :=
  {
    st with
    next := update st.next slot (st.first t)
    prev := update (update st.prev (st.first t) slot) slot 0
    first := update st.first t slot
  }

def push (st : Store) (t : ZType) (slot : Int) (type : BitVec 32) : Store :=
  {
    st.link t slot with
    type := update st.type slot type
    nr := update st.nr t (st.nr t + 1)
    usageBmp := slotSetUse st.usageBmp slot.toNat
  }

def drop (st : Store) (t : ZType) (slot : Int) : Store :=
  {
    st.unlink slot with
    type := update st.type slot 0
    first := if st.first t = slot then update st.first t (st.next slot) else st.first
    nr := update st.nr t (st.nr t - 1)
    usageBmp := slotClearUse st.usageBmp slot.toNat
  }

def raise (st : Store) (t : ZType) (slot : Int) : Store :=
  (st.unlink slot).link t slot

def withGlobals (st old : Store) : Store :=
  let isGlobal (slot : Int) : Prop := 0 ≤ slot ∧ slot < old.maxNr .global
  {
    st with
    next := fun slot => if isGlobal slot then old.next slot else st.next slot
    prev := fun slot => if isGlobal slot then old.prev slot else st.prev slot
    type := fun slot => if isGlobal slot then old.type slot else st.type slot
    first := update st.first .global (old.first .global)
    nr := update st.nr .global (old.nr .global)
    usageBmp := fun i => if i < old.maxNr .global / 8 then old.usageBmp i else st.usageBmp i
  }

def InRange (st : Store) (t : ZType) (slot : Int) : Prop :=
  match t with
  | .global => 0 < slot ∧ slot < st.maxNr .global
  | _ => st.maxNr .global ≤ slot ∧ slot < st.maxNrNodes

structure Chains (st : Store) (c : ZType → List Int) : Prop where
  valid : ∀ t, DList.Valid 0 st.next st.prev (st.first t) (c t)
  type : ∀ slot t, chainOf (st.type slot) = some t ↔ slot ∈ c t
  desktop : st.type 0 = ZOF_TYPE_DESKTOP
  range : ∀ t, ∀ slot ∈ c t, st.InRange t slot
  nr : ∀ t, st.nr t = (c t).length + if t = .global then 1 else 0
  nr_le : ∀ t, st.nr t ≤ st.maxNr t
  unused : ∀ k : Nat, unused st.usageBmp k = true ↔ k ≠ 0 ∧ ∀ t, (k : Int) ∉ c t
  bytes : st.maxNr .global % 8 = 0
  size : st.sizeUsageBmp = (7 + st.maxNrNodes) / 8

namespace Chains

variable {st : Store} {c : ZType → List Int} {t t' : ZType} {slot : Int} (h : Chains st c)
include h

theorem disjoint (hslot : slot ∈ c t) (hslot' : slot ∈ c t') : t = t' := by
  rw [← h.type] at hslot hslot'
  rw [hslot, Option.some.injEq] at hslot'
  exact hslot'

theorem global_pos : 0 < st.maxNr .global := by
  have hnr := h.nr .global
  have hle := h.nr_le .global
  rw [if_pos rfl] at hnr
  omega

theorem pos (hslot : slot ∈ c t) : 0 < slot := by
  have hrange := h.range t slot hslot
  have hpos := h.global_pos
  cases t with
  | global => exact hrange.1
  | topmost | normal =>
    have hge := hrange.1
    omega

theorem lt_maxNrNodes (hslot : slot ∈ c t) : slot < st.maxNrNodes := by
  have hrange := h.range t slot hslot
  cases t with
  | global =>
    have hlt := hrange.2
    unfold maxNrNodes
    omega
  | topmost | normal => exact hrange.2

theorem zero_not_mem : 0 ∉ c t := by
  intro hmem
  have hpos := h.pos hmem
  omega

theorem length_le : (c t).length ≤ st.maxNrNodes := by
  have hnr := h.nr t
  have hle := h.nr_le t
  unfold maxNrNodes
  cases t <;> simp only [reduceCtorEq, if_true, if_false] at hnr <;> omega

theorem split (hslot : slot ∈ c t) : ∃ l m, c t = l ++ slot :: m ∧ (c t).erase slot = l ++ m := by
  rcases append_of_mem hslot with ⟨l, m, heq⟩
  refine ⟨l, m, heq, ?_⟩
  have hnodup := (h.valid t).nodup
  rw [heq] at hnodup ⊢
  rw [erase_append_right, erase_cons_head]
  rw [nodup_append] at hnodup
  intro hmem
  exact hnodup.2.2 slot hmem slot mem_cons_self rfl

end Chains

section Links

variable (st : Store) (t : ZType) (slot : Int)

theorem link_next : (st.link t slot).next = update st.next slot (st.first t) := by
  rfl

theorem link_prev
    : (st.link t slot).prev = update (update st.prev (st.first t) slot) slot 0 := by
  rfl

theorem link_first : (st.link t slot).first = update st.first t slot := by
  rfl

theorem unlink_eq
    : let st' := if st.prev slot ≠ 0 then st.setNext (st.prev slot) (st.next slot) else st
      (if st'.next slot ≠ 0 then st'.setPrev (st'.next slot) (st'.prev slot) else st') = st.unlink slot := by
  have hself : update st.next (st.prev slot) (st.next slot) slot = st.next slot := by
    by_cases h : slot = st.prev slot
    . rw [← h, update_self]
    . rw [update_of_ne h]
  unfold unlink
  by_cases hprev : st.prev slot = 0
  . by_cases hnext : st.next slot = 0
    . simp [hprev, hnext]
    . simp [hprev, hnext, setPrev]
  by_cases hnext : st.next slot = 0
  . rw [hnext] at hself
    simp [hprev, hnext, setNext, hself]
  . simp [hprev, hnext, setNext, setPrev, hself]

end Links

namespace Chains

variable {st : Store} {c : ZType → List Int} {t s : ZType} {slot : Int} {type : BitVec 32}

theorem first_mem (h : Chains st c) (t : ZType) : st.first t = 0 ∨ st.first t ∈ c t :=
  (h.valid t).first_mem

variable {a : Int} {l : List Int}

theorem ne_of_mem (h : Chains st c) {b : Int} (hst : s ≠ t) (ha : a ∈ c s) (hb : b = 0 ∨ b ∈ c t)
    : a ≠ b := by
  intro heq
  rw [heq] at ha
  rcases hb with hzero | hmem
  . rw [hzero] at ha
    exact h.zero_not_mem ha
  . exact hst (h.disjoint ha hmem)

theorem link_self (hvalid : DList.Valid 0 st.next st.prev (st.first t) l)
    (hslot : slot ≠ 0) (hnew : slot ∉ l)
    : DList.Valid 0 (st.link t slot).next (st.link t slot).prev slot (slot :: l) := by
  apply hvalid.cons hslot hnew
  . intro a _
    rw [link_next, update_apply]
  . intro a _
    rw [link_prev, update_apply, update_apply]

theorem link_other {first : Int} (hvalid : DList.Valid 0 st.next st.prev first l)
    (hslot : slot ∉ l) (hfirst : st.first t ∉ l)
    : DList.Valid 0 (st.link t slot).next (st.link t slot).prev first l := by
  have hne : ∀ a ∈ l, a ≠ slot ∧ a ≠ st.first t := by
    intro a ha
    constructor <;> intro heq <;> rw [heq] at ha
    . exact hslot ha
    . exact hfirst ha
  apply hvalid.congr
  . intro a ha
    apply update_of_ne (hne a ha).1
  . intro a ha
    rw [link_prev, update_of_ne (hne a ha).1, update_of_ne (hne a ha).2]

theorem unlink_self (h : Chains st c) (hslot : slot ∈ c t)
    : DList.Valid 0 (st.unlink slot).next (st.unlink slot).prev
        (if st.first t = slot then st.next slot else st.first t) ((c t).erase slot) := by
  rcases h.split hslot with ⟨l, m, hsplit, herase⟩
  have hvalid := h.valid t
  rw [hsplit] at hvalid
  rw [herase]
  apply hvalid.remove <;> rfl

theorem unlink_other (h : Chains st c) (hslot : slot ∈ c t) (hst : s ≠ t)
    : DList.Valid 0 (st.unlink slot).next (st.unlink slot).prev (st.first s) (c s) := by
  unfold unlink
  apply (h.valid s).congr
  . intro a ha
    dsimp only
    split
    . rfl
    . rw [update_of_ne (h.ne_of_mem hst ha ((h.valid t).prev_mem hslot))]
  intro a ha
  dsimp only
  split
  . rfl
  . rw [update_of_ne (h.ne_of_mem hst ha ((h.valid t).next_mem hslot))]

theorem mem_update : a ∈ update c t l s ↔ if s = t then a ∈ l else a ∈ c s := by
  rw [update_apply]
  split <;> rfl

variable (h : Chains st c)
include h

theorem push (htype : chainOf type = some t) (hrange : st.InRange t slot)
    (hfree : ∀ s, slot ∉ c s) (hnr : st.nr t < st.maxNr t)
    : Chains (st.push t slot type) (update c t (slot :: c t)) := by
  have hpos : 0 < slot := by
    have hglobal := h.global_pos
    cases t with
    | global => exact hrange.1
    | topmost | normal =>
      have hge := hrange.1
      omega
  have hlink : ∀ s, DList.Valid 0 (st.link t slot).next (st.link t slot).prev
      ((st.link t slot).first s) (update c t (slot :: c t) s) := by
    intro s
    by_cases hs : s = t
    . rw [hs, update_self, link_first, update_self]
      apply link_self (h.valid t) (by omega) (hfree t)
    rw [update_of_ne hs, link_first, update_of_ne hs]
    apply link_other (h.valid s) (hfree s)
    intro hmem
    exact h.ne_of_mem hs hmem (h.first_mem t) rfl
  constructor
  . exact hlink
  . intro a s
    rw [mem_update, Store.push]
    dsimp only
    by_cases ha : a = slot
    . rw [ha, update_self, htype, Option.some.injEq]
      by_cases hs : s = t
      . simp [hs]
      . simp [hs, hfree, Ne.symm hs]
    rw [update_of_ne ha, h.type]
    split
    . next hs => simp [hs, ha]
    . rfl
  . rw [Store.push]
    dsimp only
    rw [update_of_ne (by omega), h.desktop]
  . intro s a ha
    rw [mem_update] at ha
    split at ha
    . next hs =>
      rw [mem_cons] at ha
      rcases ha with heq | hmem
      . rw [heq, hs]
        exact hrange
      . rw [hs]
        exact h.range t a hmem
    . exact h.range s a ha
  . intro s
    rw [Store.push]
    dsimp only
    by_cases hs : s = t
    . rw [hs, update_self, update_self, length_cons]
      have hlen := h.nr t
      push_cast
      omega
    . rw [update_of_ne hs, update_of_ne hs]
      exact h.nr s
  . intro s
    rw [Store.push]
    dsimp only
    by_cases hs : s = t
    . rw [hs, update_self]
      exact hnr
    . rw [update_of_ne hs]
      exact h.nr_le s
  . intro k
    rw [Store.push, unused_slotSetUse, Bool.and_eq_true, decide_eq_true_eq]
    rw [h.unused]
    simp only [mem_update]
    constructor
    . rintro ⟨⟨hzero, hk⟩, hne⟩
      refine ⟨hzero, ?_⟩
      intro s
      split
      . rw [mem_cons, not_or]
        exact ⟨by omega, hk t⟩
      . exact hk s
    rintro ⟨hzero, hk⟩
    have hself := hk t
    rw [if_pos rfl, mem_cons, not_or] at hself
    refine ⟨⟨hzero, ?_⟩, by omega⟩
    intro s
    have hs := hk s
    split at hs
    . next heq =>
      rw [heq]
      exact hself.2
    . exact hs
  . exact h.bytes
  . exact h.size

theorem mem_erase : a ∈ (c t).erase slot ↔ a ≠ slot ∧ a ∈ c t :=
  (h.valid t).nodup.mem_erase_iff

theorem drop (hslot : slot ∈ c t)
    : Chains (st.drop t slot) (update c t ((c t).erase slot)) := by
  have hpos := h.pos hslot
  constructor
  . intro s
    rw [Store.drop]
    dsimp only
    by_cases hs : s = t
    . rw [hs, update_self]
      have hvalid := h.unlink_self hslot
      split
      . next hfirst =>
        rw [if_pos hfirst] at hvalid
        rw [update_self]
        exact hvalid
      . next hfirst =>
        rw [if_neg hfirst] at hvalid
        exact hvalid
    rw [update_of_ne hs]
    have hvalid := h.unlink_other hslot hs
    split
    . rw [update_of_ne hs]
      exact hvalid
    . exact hvalid
  . intro a s
    rw [mem_update, Store.drop]
    dsimp only
    by_cases ha : a = slot
    . rw [ha, update_self, h.mem_erase]
      have hnone : chainOf 0 = none := by decide
      rw [hnone]
      split
      . simp
      rename_i hs
      simp only [reduceCtorEq, false_iff]
      intro hmem
      exact hs (h.disjoint hmem hslot)
    rw [update_of_ne ha, h.type]
    split
    . next hs =>
      rw [hs, h.mem_erase]
      simp [ha]
    . rfl
  . rw [Store.drop]
    dsimp only
    rw [update_of_ne (by omega), h.desktop]
  . intro s a ha
    rw [mem_update] at ha
    split at ha
    . next hs =>
      rw [h.mem_erase] at ha
      rw [hs]
      exact h.range t a ha.2
    . exact h.range s a ha
  . intro s
    rw [Store.drop]
    dsimp only
    by_cases hs : s = t
    . rw [hs, update_self, update_self, length_erase_of_mem hslot]
      have hlen := h.nr t
      have hne := length_pos_of_mem hslot
      omega
    . rw [update_of_ne hs, update_of_ne hs]
      exact h.nr s
  . intro s
    have hle := h.nr_le s
    rw [Store.drop]
    dsimp only
    by_cases hs : s = t
    . rw [hs] at hle ⊢
      rw [update_self]
      exact (Int.sub_le_self _ (by omega)).trans hle
    . rw [update_of_ne hs]
      exact hle
  . intro k
    rw [Store.drop, unused_slotClearUse, Bool.or_eq_true, decide_eq_true_eq, h.unused]
    simp only [mem_update]
    constructor
    . rintro (⟨hzero, hk⟩ | heq)
      . refine ⟨hzero, ?_⟩
        intro s
        split
        . rw [h.mem_erase, not_and]
          intro _
          exact hk t
        . exact hk s
      refine ⟨by omega, ?_⟩
      intro s
      have hk : (k : Int) = slot := by omega
      rw [hk]
      split
      . rw [h.mem_erase]
        simp
      . next hs =>
        intro hmem
        exact hs (h.disjoint hmem hslot)
    rintro ⟨hzero, hk⟩
    by_cases heq : (k : Int) = slot
    . right
      omega
    left
    refine ⟨hzero, ?_⟩
    intro s
    have hs := hk s
    split at hs
    . next hst =>
      rw [h.mem_erase, not_and] at hs
      rw [hst]
      exact hs heq
    . exact hs
  . exact h.bytes
  . exact h.size

theorem raise (hslot : slot ∈ c t) (hfirst : st.first t ≠ slot)
    : Chains (st.raise t slot) (update c t (slot :: (c t).erase slot)) := by
  have hpos := h.pos hslot
  have hmem : ∀ a s, a ∈ update c t (slot :: (c t).erase slot) s ↔ a ∈ c s := by
    intro a s
    rw [mem_update]
    split
    . next hs =>
      rw [hs, mem_cons, h.mem_erase]
      constructor
      . rintro (heq | ⟨_, ha⟩)
        . rw [heq]
          exact hslot
        . exact ha
      intro ha
      by_cases heq : a = slot
      . exact .inl heq
      . exact .inr ⟨heq, ha⟩
    . rfl
  constructor
  . intro s
    rw [Store.raise, link_first]
    by_cases hs : s = t
    . have hself := h.unlink_self hslot
      rw [if_neg hfirst] at hself
      rw [hs, update_self, update_self]
      apply link_self hself (by omega)
      rw [h.mem_erase]
      simp
    rw [update_of_ne hs, update_of_ne hs]
    apply link_other (h.unlink_other hslot hs)
    . intro hother
      exact hs (h.disjoint hother hslot)
    . intro hother
      exact h.ne_of_mem hs hother (h.first_mem t) rfl
  . intro a s
    rw [hmem]
    exact h.type a s
  . exact h.desktop
  . intro s a ha
    rw [hmem] at ha
    exact h.range s a ha
  . intro s
    have hlen := h.nr s
    rw [update_apply]
    split
    . next hs =>
      rw [hs] at hlen ⊢
      rw [length_cons, length_erase_of_mem hslot,
        Nat.sub_add_cancel (length_pos_of_mem hslot)]
      exact hlen
    . exact hlen
  . exact h.nr_le
  . intro k
    simp only [hmem]
    exact h.unused k
  . exact h.bytes
  . exact h.size

theorem withGlobals {old : Store} {d : ZType → List Int} (hold : Chains old d)
    (hmax : st.maxNr .global = old.maxNr .global)
    : Chains (st.withGlobals old) (update c .global (d .global)) := by
  have hglobal : ∀ a ∈ d .global, 0 ≤ a ∧ a < (old.maxNr .global : Int) := by
    intro a ha
    have hrange := hold.range .global a ha
    exact ⟨hrange.1.le, hrange.2⟩
  have hother : ∀ s, s ≠ .global → ∀ a ∈ c s, ¬(0 ≤ a ∧ a < (old.maxNr .global : Int)) := by
    intro s hs a ha
    have hrange := h.range s a ha
    cases s with
    | global => exact absurd rfl hs
    | topmost | normal =>
      have hge := hrange.1
      omega
  constructor
  . intro s
    rw [Store.withGlobals]
    dsimp only
    by_cases hs : s = .global
    . rw [hs, update_self, update_self]
      apply (hold.valid .global).congr
      . intro a ha
        rw [if_pos (hglobal a ha)]
      . intro a ha
        rw [if_pos (hglobal a ha)]
    rw [update_of_ne hs, update_of_ne hs]
    apply (h.valid s).congr
    . intro a ha
      rw [if_neg (hother s hs a ha)]
    . intro a ha
      rw [if_neg (hother s hs a ha)]
  . intro a s
    rw [mem_update, Store.withGlobals]
    dsimp only
    split
    . next hin =>
      rw [hold.type]
      split
      . next hs => rw [hs]
      rename_i hs
      constructor
      . intro ha
        have hrange := hold.range s a ha
        cases s with
        | global => exact absurd rfl hs
        | topmost | normal =>
          have hge := hrange.1
          omega
      . intro ha
        exact absurd hin (hother s hs a ha)
    rename_i hin
    rw [h.type]
    split
    . next hs =>
      rw [hs]
      constructor
      . intro ha
        have hrange := h.range .global a ha
        have hpos := hrange.1
        have hlt := hrange.2
        omega
      . intro ha
        exact absurd (hglobal a ha) hin
    . rfl
  . rw [Store.withGlobals]
    dsimp only
    have hpos := hold.global_pos
    rw [if_pos (by omega), hold.desktop]
  . intro s a ha
    rw [mem_update] at ha
    split at ha
    . next hs =>
      rw [hs]
      have hrange := hold.range .global a ha
      refine ⟨hrange.1, ?_⟩
      rw [show (st.withGlobals old).maxNr .global = st.maxNr .global from rfl, hmax]
      exact hrange.2
    . exact h.range s a ha
  . intro s
    rw [Store.withGlobals]
    dsimp only
    by_cases hs : s = .global
    . rw [hs, update_self, update_self]
      exact hold.nr .global
    . rw [update_of_ne hs, update_of_ne hs]
      exact h.nr s
  . intro s
    rw [Store.withGlobals]
    dsimp only
    by_cases hs : s = .global
    . rw [hs, update_self, hmax]
      exact hold.nr_le .global
    . rw [update_of_ne hs]
      exact h.nr_le s
  . intro k
    simp only [mem_update]
    have hbytes := hold.bytes
    have hk : MiniGui.unused (st.withGlobals old).usageBmp k
        = if k < old.maxNr .global then MiniGui.unused old.usageBmp k
          else MiniGui.unused st.usageBmp k := by
      unfold MiniGui.unused Store.withGlobals
      dsimp only
      split <;> split <;> first | rfl | omega
    rw [hk]
    split
    . next hlt =>
      rw [hold.unused]
      refine and_congr_right (fun hzero => ?_)
      constructor
      . intro hfree s
        split
        . exact hfree .global
        . next hs =>
          intro hmem
          exact hother s hs k hmem ⟨by omega, by omega⟩
      intro hfree s hmem
      have hs := hfree s
      split at hs
      . next heq =>
        rw [heq] at hmem
        exact hs hmem
      rename_i heq
      have hrange := hold.range s k hmem
      cases s with
      | global => exact heq rfl
      | topmost | normal =>
        have hge := hrange.1
        omega
    rename_i hge
    rw [h.unused]
    refine and_congr_right (fun hzero => ?_)
    constructor
    . intro hfree s
      split
      . intro hmem
        have hlt := (hglobal k hmem).2
        omega
      . exact hfree s
    intro hfree s hmem
    have hs := hfree s
    split at hs
    . next heq =>
      rw [heq] at hmem
      have hlt := (h.range .global k hmem).2
      omega
    . exact hs hmem
  . exact h.bytes
  . exact h.size

end Chains

end Store

end MiniGui
