import MiniGui.Library.Bits

namespace MiniGui

open Function List

structure FixStrConf where
  maxLen : Nat
  nrHeap : Nat
  nrHeap_pos : 0 < nrHeap
  maxLen_eq : maxLen = 2 ^ (nrHeap + 1)

namespace FixStrConf

def std : FixStrConf := ⟨2048, 10, by decide, by decide⟩

def lite : FixStrConf := ⟨64, 5, by decide, by decide⟩

def lenBitmap (conf : FixStrConf) : Nat :=
  ((List.range conf.nrHeap).map fun i => 1 <<< i).sum

end FixStrConf

structure FixStr where
  bitmap : Nat → BitVec 8
  offset : Nat → Nat
  heap : Nat → Int

inductive FixStrPlace where
  | zeroString
  | heap (str : Int) (bufflen : Nat)
  | malloc (size : Int)
deriving DecidableEq, Repr

namespace FixStr

variable (conf : FixStrConf)

def initBytes (bitmap : Nat → BitVec 8) (start count : Nat) : Nat → BitVec 8 :=
  (List.range count).foldl (fun bitmap j => update bitmap (start + j) (bitmap (start + j) ||| 0xFF#8)) bitmap

def initHeap (fix : FixStr × Nat) (i : Nat) : FixStr × Nat :=
  let (fix, offset) := fix
  ({ fix with
    bitmap := initBytes fix.bitmap offset (1 <<< i)
    offset := update fix.offset i offset },
   offset + 1 <<< i)

/--
`malloced` is what `malloc` returns, `none` if it returns `NULL`.
-/
def initFixStr (fix : FixStr) (malloced : Option Int) : Option FixStr :=
  match malloced with
  | none => none
  | some base =>
    let fix := { fix with heap := fun i => base + conf.maxLen * 8 * i }
    some ((List.range conf.nrHeap).foldl initHeap (fix, 0)).1

def bitsLoop : Nat → Nat → Nat → Nat
  | 0, _, i => i
  | rounds + 1, ulen, i => if ulen ≠ 0 then bitsLoop rounds (ulen >>> 1) (i + 1) else i

def lenBits (len : Nat) : Nat :=
  let i := bitsLoop len len 0
  if i = 1 then 2 else i

def bitLoop (byte : BitVec 8) (bufflen : Nat) : Nat → Nat → Int → Except (Nat × Int) Int
  | 0, _, heap => .ok heap
  | rounds + 1, j, heap =>
    if byte &&& (0x80#8 >>> j) ≠ 0 then
      .error (j, heap)
    else
      bitLoop byte bufflen rounds (j + 1) (heap + bufflen)

def byteLoop (bitmap : Nat → BitVec 8) (bufflen : Nat) : Nat → Nat → Int → Option (Nat × Nat × Int)
  | 0, _, _ => none
  | rounds + 1, byte, heap =>
    match bitLoop (bitmap byte) bufflen 8 0 heap with
    | .error (j, heap) => some (byte, j, heap)
    | .ok heap => byteLoop bitmap bufflen rounds (byte + 1) heap

def fixStrAlloc (fix : FixStr) (len : Int) : Option FixStrPlace × FixStr :=
  if len < 0 then
    (none, fix)
  else if len = 0 then
    (some .zeroString, fix)
  else if len ≥ conf.maxLen then
    (some (.malloc (len + 1)), fix)
  else
    let i := lenBits len.toNat
    let bufflen := 1 <<< i
    let i := conf.nrHeap + 1 - i
    match byteLoop fix.bitmap bufflen (1 <<< i) (fix.offset i) (fix.heap i) with
    | some (byte, j, heap) =>
      (some (.heap heap bufflen), { fix with bitmap := update fix.bitmap byte (fix.bitmap byte &&& ~~~(0x80#8 >>> j)) })
    | none => (some (.malloc (len + 1)), fix)

def heapLoop (heap : Nat → Int) (str : Int) : Nat → Nat → Nat
  | 0, i => i
  | rounds + 1, i => if str < heap i then i else heapLoop heap str rounds (i + 1)

/--
`none` if the loop does not meet `str` in `rounds` rounds.
-/
def strOff (str : Int) (bufflen : Nat) : Nat → Int → Nat → Option Nat
  | 0, _, _ => none
  | rounds + 1, heap, stroff =>
    if str ≠ heap then strOff str bufflen rounds (heap + bufflen) (stroff + 1) else some stroff

/--
Whether `free` is called for the string, and the heap behind the call. `none` if the search for the block does not end:
`heap` moves up in it, so it has met `str` before it is above it or never meets it.
-/
def freeFixStr (fix : FixStr) (mem : Int → BitVec 8) (str : Int) : Option (Bool × FixStr) :=
  if mem str = 0 then
    some (false, fix)
  else if str ≥ fix.heap conf.nrHeap ∨ str < fix.heap 0 then
    some (true, fix)
  else
    let i := heapLoop fix.heap str conf.nrHeap 1 - 1
    let bufflen := 1 <<< (conf.nrHeap + 1 - i)
    match strOff str bufflen ((str - fix.heap i).toNat + 1) (fix.heap i) 0 with
    | none => none
    | some stroff =>
      let byte := fix.offset i + stroff >>> 3
      some (false,
        { fix with bitmap := update fix.bitmap byte (fix.bitmap byte ||| (0x80#8 >>> (stroff % 8))) })

end FixStr

open FixStr

@[ext]
structure FixStrSlot (conf : FixStrConf) where
  heap : Nat
  index : Nat
  heap_lt : heap < conf.nrHeap
  index_lt : index < 8 * 2 ^ heap

namespace FixStrSlot

variable {conf : FixStrConf}

def size (slot : FixStrSlot conf) : Nat :=
  2 ^ (conf.nrHeap + 1 - slot.heap)

def address (base : Int) (slot : FixStrSlot conf) : Int :=
  base + conf.maxLen * 8 * slot.heap + slot.index * slot.size

def byte (slot : FixStrSlot conf) : Nat :=
  2 ^ slot.heap - 1 + slot.index / 8

def bit (slot : FixStrSlot conf) : Nat :=
  slot.index % 8

theorem size_pos (slot : FixStrSlot conf) : 0 < slot.size :=
  Nat.two_pow_pos _

theorem bit_lt (slot : FixStrSlot conf) : slot.bit < 8 :=
  Nat.mod_lt _ (by decide)

theorem index_div_lt (slot : FixStrSlot conf) : slot.index / 8 < 2 ^ slot.heap :=
  Nat.div_lt_of_lt_mul slot.index_lt

theorem pow_heap_mul_size (slot : FixStrSlot conf) : 2 ^ slot.heap * slot.size = conf.maxLen := by
  have := slot.heap_lt
  rw [size, ← pow_add, conf.maxLen_eq]
  congr 1
  omega

theorem address_add_size_le (base : Int) (slot : FixStrSlot conf)
    : slot.address base + slot.size ≤ base + conf.maxLen * 8 * (slot.heap + 1 : Nat) := by
  have hle : (slot.index + 1) * slot.size ≤ 8 * 2 ^ slot.heap * slot.size :=
    Nat.mul_le_mul_right _ slot.index_lt
  rw [mul_assoc, pow_heap_mul_size] at hle
  have hle : ((slot.index : Int) + 1) * slot.size ≤ 8 * conf.maxLen := by exact_mod_cast hle
  rw [address]
  push_cast
  linarith

theorem le_address (base : Int) (slot : FixStrSlot conf)
    : base + conf.maxLen * 8 * slot.heap ≤ slot.address base := by
  have : (0 : Int) ≤ slot.index * slot.size := by positivity
  rw [address]
  linarith

theorem base_le_address (base : Int) (slot : FixStrSlot conf) : base ≤ slot.address base := by
  have := le_address base slot
  have : (0 : Int) ≤ conf.maxLen * 8 * slot.heap := by positivity
  linarith

theorem address_lt (base : Int) (slot : FixStrSlot conf)
    : slot.address base + slot.size ≤ base + conf.maxLen * 8 * conf.nrHeap := by
  have hle : slot.heap + 1 ≤ conf.nrHeap := slot.heap_lt
  have := Nat.mul_le_mul_left (conf.maxLen * 8) hle
  have : (conf.maxLen : Int) * 8 * (slot.heap + 1 : Nat) ≤ conf.maxLen * 8 * conf.nrHeap := by exact_mod_cast this
  have := address_add_size_le base slot
  linarith

variable {slot other : FixStrSlot conf}

theorem apart_of_index_lt (base : Int) (hheap : slot.heap = other.heap)
    (h : slot.index < other.index) : slot.address base + slot.size ≤ other.address base := by
  have hsize : slot.size = other.size := by rw [size, size, hheap]
  have hle := Nat.mul_le_mul_right other.size (Nat.succ_le_of_lt h)
  have hle : ((slot.index : Int) + 1) * other.size ≤ other.index * other.size := by exact_mod_cast hle
  rw [address, address, hsize, hheap]
  linarith

theorem apart_of_heap_lt (base : Int) (h : slot.heap < other.heap)
    : slot.address base + slot.size ≤ other.address base := by
  have hle := Nat.mul_le_mul_left (conf.maxLen * 8) (Nat.succ_le_of_lt h)
  have hle : (conf.maxLen : Int) * 8 * (slot.heap + 1 : Nat) ≤ conf.maxLen * 8 * other.heap := by exact_mod_cast hle
  have := address_add_size_le base slot
  have := le_address base other
  linarith

theorem apart (base : Int) (h : slot ≠ other)
    : slot.address base + slot.size ≤ other.address base ∨ other.address base + other.size ≤ slot.address base := by
  rcases Nat.lt_trichotomy slot.heap other.heap with hlt | heq | hgt
  . exact .inl (apart_of_heap_lt base hlt)
  . rcases Nat.lt_trichotomy slot.index other.index with hlt | hindex | hgt
    . exact .inl (apart_of_index_lt base heq hlt)
    . exact absurd (FixStrSlot.ext heq hindex) h
    . exact .inr (apart_of_index_lt base heq.symm hgt)
  . exact .inr (apart_of_heap_lt base hgt)

theorem address_injective (base : Int) : Injective (address base : FixStrSlot conf → Int) := by
  intro slot other h
  by_contra hne
  have := slot.size_pos
  have := other.size_pos
  rcases apart base hne with hle | hle
  . omega
  . omega

theorem heap_of_byte (h : slot.byte = other.byte) : slot.heap ≤ other.heap := by
  by_contra hlt
  have hpow : 2 ^ (other.heap + 1) ≤ 2 ^ slot.heap := Nat.pow_le_pow_right (by decide) (by omega)
  have := other.index_div_lt
  have := Nat.two_pow_pos other.heap
  rw [pow_succ] at hpow
  rw [byte, byte] at h
  omega

theorem eq_of_byte_bit (hbyte : slot.byte = other.byte) (hbit : slot.bit = other.bit)
    : slot = other := by
  have hheap : slot.heap = other.heap := Nat.le_antisymm (heap_of_byte hbyte) (heap_of_byte hbyte.symm)
  apply FixStrSlot.ext hheap
  rw [byte, byte, hheap] at hbyte
  rw [bit, bit] at hbit
  omega

end FixStrSlot

theorem shiftMask (j : Nat) (hj : j < 8) : 0x80#8 >>> j = 1#8 <<< (7 - j) := by
  interval_cases j <;> rfl

namespace FixStr

section Bits

def isFree {conf : FixStrConf} (fix : FixStr) (slot : FixStrSlot conf) : Bool :=
  Bits.has (fix.bitmap slot.byte) (7 - slot.bit)

def take {conf : FixStrConf} (fix : FixStr) (slot : FixStrSlot conf) : FixStr :=
  { fix with bitmap := update fix.bitmap slot.byte (Bits.clear (fix.bitmap slot.byte) (7 - slot.bit)) }

def put {conf : FixStrConf} (fix : FixStr) (slot : FixStrSlot conf) : FixStr :=
  { fix with bitmap := update fix.bitmap slot.byte (Bits.set (fix.bitmap slot.byte) (7 - slot.bit)) }

variable {conf : FixStrConf}

theorem seven_sub_bit (slot other : FixStrSlot conf) : 7 - other.bit = 7 - slot.bit ↔ other.bit = slot.bit := by
  have := slot.bit_lt
  have := other.bit_lt
  omega

theorem isFree_take (fix : FixStr) (slot other : FixStrSlot conf)
    : (fix.take slot).isFree other = true ↔ fix.isFree other = true ∧ other ≠ slot := by
  by_cases hbyte : other.byte = slot.byte
  . have hne : other ≠ slot ↔ other.bit ≠ slot.bit := by
      constructor
      . intro hne hbit
        exact hne (FixStrSlot.eq_of_byte_bit hbyte hbit)
      . rintro hne rfl
        exact hne rfl
    simp [isFree, take, hbyte, hne, seven_sub_bit]
  . have hne : other ≠ slot := by
      rintro rfl
      exact hbyte rfl
    simp [isFree, take, update_of_ne hbyte, hne]

theorem isFree_put (fix : FixStr) (slot other : FixStrSlot conf)
    : (fix.put slot).isFree other = true ↔ fix.isFree other = true ∨ other = slot := by
  by_cases hbyte : other.byte = slot.byte
  . have heq : other = slot ↔ other.bit = slot.bit := by
      constructor
      . rintro rfl
        rfl
      . exact FixStrSlot.eq_of_byte_bit hbyte
    have hlt : 7 - other.bit < 8 := by omega
    simp [isFree, put, hbyte, heq, seven_sub_bit, hlt]
  . have hne : other ≠ slot := by
      rintro rfl
      exact hbyte rfl
    simp [isFree, put, update_of_ne hbyte, hne]

end Bits

section Init

variable (conf : FixStrConf)

def AllFree (fix : FixStr) : Prop :=
  ∀ i < conf.lenBitmap, fix.bitmap i = 0xFF#8

structure LaidOut (fix : FixStr) (base : Int) : Prop where
  offset : ∀ i < conf.nrHeap, fix.offset i = 2 ^ i - 1
  heap : ∀ i, fix.heap i = base + conf.maxLen * 8 * i

theorem initBytes_apply (bitmap : Nat → BitVec 8) (start count i : Nat)
    : initBytes bitmap start count i = if start ≤ i ∧ i < start + count then 0xFF#8 else bitmap i := by
  unfold initBytes
  induction count with
  | zero =>
    rw [if_neg (by omega)]
    rfl
  | succ count ih =>
    rw [range_succ, foldl_append, foldl_cons, foldl_nil]
    by_cases hi : i = start + count
    . subst hi
      rw [update_self, if_pos (by omega)]
      exact BitVec.or_allOnes
    rw [update_of_ne hi, ih]
    congr 1
    simp only [eq_iff_iff]
    omega

theorem initHeaps (fix : FixStr) (n : Nat) : let out := (List.range n).foldl initHeap (fix, 0)
      out.2 = 2 ^ n - 1 ∧ out.1.heap = fix.heap ∧ (∀ i < n, out.1.offset i = 2 ^ i - 1)
        ∧ ∀ i < 2 ^ n - 1, out.1.bitmap i = 0xFF#8 := by
  induction n with
  | zero => simp
  | succ n ih =>
    rw [range_succ, foldl_append, foldl_cons, foldl_nil]
    rcases ih with ⟨hoff, hheap, hoffset, hbitmap⟩
    have hpow : 1 <<< n = 2 ^ n := Nat.one_shiftLeft n
    dsimp only [initHeap]
    rw [hoff, hpow]
    refine ⟨by rw [pow_succ]; omega, hheap, ?_, ?_⟩
    . intro i hi
      by_cases heq : i = n
      . rw [heq, update_self]
      . rw [update_of_ne heq]
        exact hoffset i (by omega)
    intro i hi
    rw [initBytes_apply]
    split
    . rfl
    rename_i hout
    apply hbitmap
    rw [pow_succ] at hi
    omega

theorem lenBitmap_eq : conf.lenBitmap = 2 ^ conf.nrHeap - 1 := by
  rw [FixStrConf.lenBitmap]
  induction conf.nrHeap with
  | zero => rfl
  | succ n ih =>
    rw [range_succ, map_append, sum_append, ih, map_singleton, sum_singleton,
      Nat.one_shiftLeft, pow_succ]
    omega

variable {conf}

theorem initFixStr_spec {fix fix' : FixStr} {base : Int} (h : initFixStr conf fix (some base) = some fix')
    : LaidOut conf fix' base ∧ AllFree conf fix' := by
  have hinit := initHeaps { fix with heap := fun i => base + conf.maxLen * 8 * i } conf.nrHeap
  rw [initFixStr, Option.some.injEq] at h
  dsimp only at h hinit
  rw [h] at hinit
  rcases hinit with ⟨_, hheap, hoffset, hbitmap⟩
  constructor
  . refine ⟨hoffset, ?_⟩
    intro i
    rw [hheap]
  . intro i hi
    rw [lenBitmap_eq] at hi
    exact hbitmap i hi

theorem byte_lt (slot : FixStrSlot conf) : slot.byte < conf.lenBitmap := by
  have hle : 2 ^ (slot.heap + 1) ≤ 2 ^ conf.nrHeap := Nat.pow_le_pow_right (by decide) slot.heap_lt
  have := slot.index_div_lt
  have := Nat.two_pow_pos slot.heap
  rw [lenBitmap_eq, FixStrSlot.byte]
  rw [pow_succ] at hle
  omega

theorem exists_slot {i j : Nat} (hi : i < conf.lenBitmap) (hj : j < 8)
    : ∃ slot : FixStrSlot conf, slot.byte = i ∧ slot.bit = j := by
  rw [lenBitmap_eq] at hi
  have hle : 2 ^ (i + 1).log2 ≤ i + 1 := Nat.log2_self_le (by omega)
  have hlt : i + 1 < 2 ^ ((i + 1).log2 + 1) := Nat.lt_log2_self
  have hheap : (i + 1).log2 < conf.nrHeap := (Nat.log2_lt (by omega)).mpr (by omega)
  rw [pow_succ] at hlt
  refine ⟨⟨(i + 1).log2, 8 * (i + 1 - 2 ^ (i + 1).log2) + j, hheap, by omega⟩, ?_, ?_⟩
  . rw [FixStrSlot.byte]
    dsimp only
    omega
  . rw [FixStrSlot.bit]
    dsimp only
    omega

theorem allFree_iff {fix : FixStr} : AllFree conf fix ↔ ∀ slot : FixStrSlot conf, fix.isFree slot = true := by
  constructor
  . intro h slot
    have := slot.bit_lt
    rw [isFree, h _ (byte_lt slot), Bits.has_eq_getLsbD]
    have hlt : 7 - slot.bit < 8 := by omega
    interval_cases 7 - slot.bit <;> rfl
  intro h i hi
  apply BitVec.eq_of_getLsbD_eq
  intro k hk
  rcases exists_slot hi (show 7 - k < 8 by omega) with ⟨slot, hbyte, hbit⟩
  have hfree := h slot
  rw [isFree, hbyte, hbit, Bits.has_eq_getLsbD, show 7 - (7 - k) = k by omega] at hfree
  rw [hfree]
  interval_cases k <;> rfl

end Init

section Alloc

theorem bitsLoop_spec (rounds ulen i : Nat) (h : ulen ≤ rounds)
    : ∃ bits, bitsLoop rounds ulen i = i + bits ∧ ulen < 2 ^ bits ∧ ∀ m, ulen < 2 ^ m → bits ≤ m := by
  induction rounds generalizing ulen i with
  | zero =>
    have hzero : ulen = 0 := by omega
    exact ⟨0, rfl, by simp [hzero], by simp⟩
  | succ rounds ih =>
    rw [bitsLoop]
    split
    . next hne =>
      rcases ih (ulen >>> 1) (i + 1) (by omega) with ⟨bits, hloop, hlt, hmin⟩
      refine ⟨bits + 1, by omega, by rw [pow_succ]; omega, ?_⟩
      intro m hm
      cases m with
      | zero =>
        rw [pow_zero] at hm
        omega
      | succ m =>
        rw [pow_succ] at hm
        have := hmin m (by omega)
        omega
    . next hzero =>
      have hzero : ulen = 0 := by omega
      exact ⟨0, rfl, by simp [hzero], by simp⟩

theorem lenBits_spec {conf : FixStrConf} {len : Nat} (hpos : 0 < len) (hlt : len < conf.maxLen)
    : 2 ≤ lenBits len ∧ lenBits len ≤ conf.nrHeap + 1 ∧ len + 1 ≤ 2 ^ lenBits len := by
  rcases bitsLoop_spec len len 0 le_rfl with ⟨bits, hloop, hbits, hmin⟩
  have hmax := hmin (conf.nrHeap + 1) (by rw [← conf.maxLen_eq]; exact hlt)
  have hne : bits ≠ 0 := by
    rintro rfl
    omega
  have := conf.nrHeap_pos
  rw [zero_add] at hloop
  rw [lenBits, hloop]
  split
  . next heq =>
    rw [heq] at hbits
    omega
  . omega

theorem bitLoop_spec (byte : BitVec 8) (bufflen rounds j : Nat) (heap : Int) (h : j + rounds ≤ 8)
    : match bitLoop byte bufflen rounds j heap with
      | .error (j', heap') =>
        j ≤ j' ∧ j' < j + rounds ∧ heap' = heap + (j' - j : Int) * bufflen ∧ Bits.has byte (7 - j') = true
      | .ok heap' => heap' = heap + rounds * bufflen := by
  induction rounds generalizing j heap with
  | zero => simp [bitLoop]
  | succ rounds ih =>
    by_cases hbit : byte &&& (0x80#8 >>> j) ≠ 0
    . rw [bitLoop, if_pos hbit]
      rw [shiftMask j (by omega)] at hbit
      refine ⟨le_rfl, by omega, by ring, ?_⟩
      simpa [Bits.has] using hbit
    have hnext := ih (j + 1) (heap + bufflen) (by omega)
    rw [bitLoop, if_neg hbit]
    split at hnext
    . rcases hnext with ⟨hle, hlt, hheap, hbit⟩
      refine ⟨by omega, by omega, ?_, hbit⟩
      rw [hheap]
      push_cast
      ring
    . rw [hnext]
      push_cast
      ring

theorem byteLoop_spec (bitmap : Nat → BitVec 8) (bufflen rounds byte : Nat) (heap : Int) {byte' j : Nat} {heap' : Int}
    (h : byteLoop bitmap bufflen rounds byte heap = some (byte', j, heap'))
    : ∃ k, k < rounds ∧ byte' = byte + k ∧ j < 8 ∧ heap' = heap + (8 * k + j : Nat) * bufflen
      ∧ Bits.has (bitmap byte') (7 - j) = true := by
  induction rounds generalizing byte heap with
  | zero => cases h
  | succ rounds ih =>
    have hbits := bitLoop_spec (bitmap byte) bufflen 8 0 heap (by omega)
    rw [byteLoop] at h
    split at h
    . next hfound =>
      rw [hfound] at hbits
      cases h
      rcases hbits with ⟨_, hlt, hheap, hbit⟩
      refine ⟨0, by omega, rfl, by omega, ?_, hbit⟩
      rw [hheap]
      push_cast
      ring
    rename_i hnone
    rw [hnone] at hbits
    rcases ih _ _ h with ⟨k, hlt, hbyte, hj, hheap, hbit⟩
    refine ⟨k + 1, by omega, by omega, hj, ?_, hbit⟩
    rw [hheap, hbits]
    push_cast
    ring

variable {conf : FixStrConf} {fix : FixStr} {base : Int}

theorem fixStrAlloc_cases (hlaid : LaidOut conf fix base) (len : Int)
    : (len < 0 ∧ fixStrAlloc conf fix len = (none, fix))
      ∨ (len = 0 ∧ fixStrAlloc conf fix len = (some .zeroString, fix))
      ∨ (0 < len ∧ fixStrAlloc conf fix len = (some (.malloc (len + 1)), fix))
      ∨ ∃ slot : FixStrSlot conf, 0 < len ∧ len + 1 ≤ slot.size ∧ fix.isFree slot = true
        ∧ fixStrAlloc conf fix len = (some (.heap (slot.address base) slot.size), fix.take slot) := by
  rw [fixStrAlloc]
  split
  . next hneg => exact .inl ⟨hneg, rfl⟩
  split
  . next hzero => exact .inr (.inl ⟨hzero, rfl⟩)
  split
  . exact .inr (.inr (.inl ⟨by omega, rfl⟩))
  rename_i hlarge
  rcases @lenBits_spec conf len.toNat (by omega) (by omega) with ⟨htwo, hmax, hroom⟩
  have hheap : conf.nrHeap + 1 - lenBits len.toNat < conf.nrHeap := by
    have := conf.nrHeap_pos
    omega
  dsimp only
  split
  . next byte j heap hfound =>
    rcases byteLoop_spec _ _ _ _ _ hfound with ⟨k, hlt, hbyte, hj, haddress, hbit⟩
    rw [Nat.one_shiftLeft] at hlt
    let slot : FixStrSlot conf := ⟨conf.nrHeap + 1 - lenBits len.toNat, 8 * k + j, hheap, by omega⟩
    have hsize : slot.size = 2 ^ lenBits len.toNat := by
      show 2 ^ (conf.nrHeap + 1 - (conf.nrHeap + 1 - lenBits len.toNat)) = _
      congr 1
      omega
    have hslotByte : slot.byte = byte := by
      show 2 ^ (conf.nrHeap + 1 - lenBits len.toNat) - 1 + (8 * k + j) / 8 = byte
      rw [hbyte, hlaid.offset _ hheap]
      omega
    have hslotBit : slot.bit = j := by
      show (8 * k + j) % 8 = j
      omega
    refine .inr (.inr (.inr ⟨slot, by omega, by rw [hsize]; omega, ?_, ?_⟩))
    . rw [isFree, hslotByte, hslotBit]
      exact hbit
    have hstr : heap = slot.address base := by
      rw [haddress, hlaid.heap, FixStrSlot.address, hsize, Nat.one_shiftLeft]
    rw [take, hslotByte, hslotBit, hstr, hsize, shiftMask j hj, Nat.one_shiftLeft]
    rfl
  . exact .inr (.inr (.inl ⟨by omega, rfl⟩))

end Alloc

section Free

variable {conf : FixStrConf} {fix : FixStr} {base : Int} {str : Int} {mem : Int → BitVec 8}

theorem heapLoop_spec {heap : Nat → Int} {c : Nat} (hlow : ∀ i ≤ c, heap i ≤ str) (hhigh : str < heap (c + 1))
    (rounds i : Nat) (hi : i ≤ c + 1) (hrounds : c + 1 < i + rounds)
    : heapLoop heap str rounds i = c + 1 := by
  induction rounds generalizing i with
  | zero => omega
  | succ rounds ih =>
    rw [heapLoop]
    by_cases heq : i = c + 1
    . rw [heq, if_pos hhigh]
    . have := hlow i (by omega)
      rw [if_neg (by omega)]
      exact ih (i + 1) (by omega) (by omega)

theorem strOff_spec (bufflen : Nat) (hpos : 0 < bufflen) (k rounds : Nat) (heap : Int) (stroff : Nat) (h : k < rounds)
    : strOff (heap + k * bufflen) bufflen rounds heap stroff = some (stroff + k) := by
  induction k generalizing rounds heap stroff with
  | zero =>
    cases rounds with
    | zero => omega
    | succ rounds => simp [strOff]
  | succ k ih =>
    cases rounds with
    | zero => omega
    | succ rounds =>
      have hne : heap + (k + 1 : Nat) * bufflen ≠ heap := by
        have : (0 : Int) < (k + 1 : Nat) * bufflen := by positivity
        omega
      rw [strOff, if_pos hne]
      have hshift : heap + (k + 1 : Nat) * bufflen = heap + bufflen + k * bufflen := by
        push_cast
        ring
      rw [hshift, ih rounds (heap + bufflen) (stroff + 1) (by omega)]
      congr 1
      omega

theorem freeFixStr_empty (h : mem str = 0) : freeFixStr conf fix mem str = some (false, fix) := by
  rw [freeFixStr, if_pos h]

theorem freeFixStr_outside (hlaid : LaidOut conf fix base) (hmem : mem str ≠ 0)
    (h : str < base ∨ base + conf.maxLen * 8 * conf.nrHeap ≤ str)
    : freeFixStr conf fix mem str = some (true, fix) := by
  rw [freeFixStr, if_neg hmem, hlaid.heap, hlaid.heap, if_pos (by simpa [or_comm] using h)]

theorem freeFixStr_slot (hlaid : LaidOut conf fix base) (slot : FixStrSlot conf)
    (hmem : mem (slot.address base) ≠ 0)
    : freeFixStr conf fix mem (slot.address base) = some (false, fix.put slot) := by
  have hlow := slot.base_le_address base
  have hhigh := slot.address_lt base
  have hsize := slot.size_pos
  have hin : ¬(slot.address base ≥ fix.heap conf.nrHeap ∨ slot.address base < fix.heap 0) := by
    rw [hlaid.heap, hlaid.heap]
    push_cast
    omega
  have hloop : heapLoop fix.heap (slot.address base) conf.nrHeap 1 = slot.heap + 1 := by
    apply heapLoop_spec
    . intro i hi
      have hle := Nat.mul_le_mul_left (conf.maxLen * 8) hi
      have hle : (conf.maxLen : Int) * 8 * i ≤ conf.maxLen * 8 * slot.heap := by exact_mod_cast hle
      have := slot.le_address base
      rw [hlaid.heap]
      linarith
    . have := slot.address_add_size_le base
      rw [hlaid.heap]
      omega
    . omega
    . have := slot.heap_lt
      omega
  have hoff : slot.address base - (base + conf.maxLen * 8 * slot.heap) = slot.index * slot.size := by
    rw [FixStrSlot.address]
    ring
  have hfound : strOff (slot.address base) slot.size
      ((slot.address base - (base + conf.maxLen * 8 * slot.heap)).toNat + 1) (base + conf.maxLen * 8 * slot.heap) 0
      = some slot.index := by
    have hle : slot.index ≤ slot.index * slot.size := Nat.le_mul_of_pos_right _ hsize
    rw [hoff]
    have := strOff_spec slot.size hsize slot.index (((slot.index : Int) * slot.size).toNat + 1)
      (base + conf.maxLen * 8 * slot.heap) 0 (by omega)
    rw [zero_add] at this
    exact this
  rw [freeFixStr, if_neg hmem, if_neg hin, hloop]
  dsimp only
  rw [Nat.add_sub_cancel, Nat.one_shiftLeft, hlaid.heap, ← FixStrSlot.size, hfound, hlaid.offset _ slot.heap_lt]
  dsimp only
  rw [put, FixStrSlot.byte, FixStrSlot.bit, Nat.shiftRight_eq_div_pow, shiftMask _ (Nat.mod_lt _ (by decide))]
  rfl

end Free

end FixStr

end MiniGui
