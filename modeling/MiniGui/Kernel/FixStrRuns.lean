import MiniGui.Kernel.FixStr
import MiniGui.Library.Reach

namespace MiniGui

open Function List

open FixStr Reach

structure FixedString where
  str : Int
  len : Nat
  size : Nat
deriving DecidableEq, Repr

def FixedString.Apart (x y : FixedString) : Prop :=
  x.str + x.size ≤ y.str ∨ y.str + y.size ≤ x.str

variable {x : FixedString}

theorem FixedString.Apart.symm {y : FixedString} (h : x.Apart y) : y.Apart x :=
  Or.symm h

theorem FixedString.Apart.str_ne {y : FixedString} (h : x.Apart y) (hx : 0 < x.size) (hy : 0 < y.size)
    : x.str ≠ y.str := by
  rcases h with h | h
  . omega
  . omega

structure FixStrState where
  fix : FixStr
  mem : Int → BitVec 8
  live : List FixedString
  mallocs : List FixedString
  freedEmpty : List FixedString

inductive FixStrAction where
  | alloc (len : Int) (malloced : Option Int)
  | write (x : FixedString) (text : List (BitVec 8))
  | free (x : FixedString)
  | poke (address : Int) (byte : BitVec 8)

namespace FixStrState

variable (conf : FixStrConf) (zeroString : Int)

def emptyString : FixedString :=
  ⟨zeroString, 0, 1⟩

def init (fix : FixStr) (mem : Int → BitVec 8) : FixStrState :=
  { fix, mem, live := [], mallocs := [], freedEmpty := [] }

def writeText (mem : Int → BitVec 8) (address : Int) : List (BitVec 8) → Int → BitVec 8
  | [] => update mem address 0
  | byte :: text => writeText (update mem address byte) (address + 1) text

def alloc (s : FixStrState) (len : Int) (malloced : Option Int) : FixStrState :=
  match fixStrAlloc conf s.fix len with
  | (none, fix) => { s with fix }
  | (some .zeroString, fix) => { s with fix, live := emptyString zeroString :: s.live }
  | (some (.heap str bufflen), fix) => { s with fix, live := ⟨str, len.toNat, bufflen⟩ :: s.live }
  | (some (.malloc size), fix) =>
    match malloced with
    | none => { s with fix }
    | some str =>
      let x : FixedString := ⟨str, len.toNat, size.toNat⟩
      { s with fix, live := x :: s.live, mallocs := x :: s.mallocs }

/--
`none` if `FreeFixStr` does not return.
-/
def free (s : FixStrState) (x : FixedString) : Option FixStrState :=
  match freeFixStr conf s.fix s.mem x.str with
  | none => none
  | some (freed, fix) =>
    some { s with
      fix
      live := s.live.erase x
      mallocs := if freed then s.mallocs.filter (·.str ≠ x.str) else s.mallocs
      freedEmpty := if s.mem x.str = 0 ∧ 0 < x.len then x :: s.freedEmpty else s.freedEmpty }

def step (s : FixStrState) : FixStrAction → Option FixStrState
  | .alloc len malloced => some (s.alloc conf zeroString len malloced)
  | .write x text => some { s with mem := writeText s.mem x.str text }
  | .free x => s.free conf x
  | .poke address byte => some { s with mem := update s.mem address byte }

def Outside (base : Int) (x : FixedString) : Prop :=
  x.str + x.size ≤ base ∨ base + conf.maxLen * 8 * conf.nrHeap ≤ x.str

def Legal (base : Int) (s : FixStrState) : FixStrAction → Prop
  | .alloc len malloced =>
    ∀ str, malloced = some str →
      let x : FixedString := ⟨str, len.toNat, (len + 1).toNat⟩
      Outside conf base x ∧ x.Apart (emptyString zeroString) ∧ ∀ y ∈ s.mallocs, x.Apart y
  | .write x text => x ∈ s.live ∧ 0 ∉ text ∧ text.length ≤ x.len
  | .free x => x ∈ s.live
  | .poke address _ =>
    let x : FixedString := ⟨address, 0, 1⟩
    Outside conf base x ∧ x.Apart (emptyString zeroString) ∧ ∀ y ∈ s.mallocs, x.Apart y

section Invariant

variable {conf zeroString} {base : Int} {fix : FixStr} {held mallocs : List FixedString}

def Separate (zeroString : Int) (x y : FixedString) : Prop :=
  x.Apart y ∨ (x = emptyString zeroString ∧ y = emptyString zeroString)

def Placed (conf : FixStrConf) (zeroString base : Int) (mallocs : List FixedString) (x : FixedString) : Prop :=
  x = emptyString zeroString
    ∨ 0 < x.len ∧ (∃ slot : FixStrSlot conf, x.str = slot.address base ∧ x.size = slot.size)
    ∨ 0 < x.len ∧ Outside conf base x ∧ x.Apart (emptyString zeroString) ∧ x ∈ mallocs

structure Holds (conf : FixStrConf) (zeroString base : Int) (fix : FixStr) (held mallocs : List FixedString) : Prop where
  laid : LaidOut conf fix base
  placed : ∀ x ∈ held, Placed conf zeroString base mallocs x
  room : ∀ x ∈ held, x.len + 1 ≤ x.size
  separate : held.Pairwise (Separate zeroString)
  taken : ∀ slot : FixStrSlot conf, fix.isFree slot = false ↔ ∃ x ∈ held, x.str = slot.address base
  mallocs : ∀ x ∈ mallocs, x ∈ held ∧ 0 < x.len ∧ Outside conf base x

theorem Separate.symm {y : FixedString} (h : Separate zeroString x y) : Separate zeroString y x := by
  rcases h with h | ⟨hx, hy⟩
  . exact .inl h.symm
  . exact .inr ⟨hy, hx⟩

variable {slot : FixStrSlot conf} {mallocs' : List FixedString} {fix' : FixStr}

theorem not_outside_slot (hx : 0 < x.size) (hstr : x.str = slot.address base)
    : ¬Outside conf base x := by
  have hlow := slot.base_le_address base
  have hhigh := slot.address_lt base
  have := slot.size_pos
  rintro (h | h)
  . omega
  . omega

theorem apart_outside_slot {y : FixedString} (hx : Outside conf base x)
    (hstr : y.str = slot.address base) (hsize : y.size = slot.size) : x.Apart y := by
  have hlow := slot.base_le_address base
  have hhigh := slot.address_lt base
  rcases hx with h | h
  . apply Or.inl
    omega
  . apply Or.inr
    omega

theorem Holds.init (hlaid : LaidOut conf fix base) (hfree : AllFree conf fix) : Holds conf zeroString base fix [] [] := by
  refine ⟨hlaid, by simp, by simp, List.Pairwise.nil, ?_, by simp⟩
  intro slot
  simp [allFree_iff.mp hfree slot]

theorem Holds.perm {held' : List FixedString} (h : Holds conf zeroString base fix held mallocs) (hperm : held.Perm held')
    : Holds conf zeroString base fix held' mallocs := by
  refine ⟨h.laid, ?_, ?_, ?_, ?_, ?_⟩
  . intro x hx
    exact h.placed x (hperm.mem_iff.mpr hx)
  . intro x hx
    exact h.room x (hperm.mem_iff.mpr hx)
  . exact (hperm.pairwise_iff Separate.symm).mp h.separate
  . intro slot
    rw [h.taken]
    simp only [hperm.mem_iff]
  . intro x hx
    have hm := h.mallocs x hx
    exact ⟨hperm.mem_iff.mp hm.1, hm.2⟩

theorem Placed.mono (hsub : mallocs ⊆ mallocs') (h : Placed conf zeroString base mallocs x)
    : Placed conf zeroString base mallocs' x := by
  rcases h with h | h | ⟨hlen, hout, hzero, hmem⟩
  . exact .inl h
  . exact .inr (.inl h)
  . exact .inr (.inr ⟨hlen, hout, hzero, hsub hmem⟩)

theorem Holds.add (h : Holds conf zeroString base fix held mallocs) (hlaid : LaidOut conf fix' base)
    (hplaced : Placed conf zeroString base mallocs' x) (hroom : x.len + 1 ≤ x.size)
    (hseparate : ∀ y ∈ held, Separate zeroString x y)
    (htaken : ∀ slot : FixStrSlot conf, fix'.isFree slot = false ↔ x.str = slot.address base ∨ fix.isFree slot = false)
    (hmallocs : mallocs' = mallocs ∨ mallocs' = x :: mallocs ∧ 0 < x.len ∧ Outside conf base x)
    : Holds conf zeroString base fix' (x :: held) mallocs' := by
  have hsub : mallocs ⊆ mallocs' := by
    rcases hmallocs with rfl | ⟨rfl, _⟩
    . exact Subset.refl _
    . exact subset_cons_self _ _
  refine ⟨hlaid, ?_, ?_, pairwise_cons.mpr ⟨hseparate, h.separate⟩, ?_, ?_⟩
  . intro y hy
    rcases mem_cons.mp hy with rfl | hy
    . exact hplaced
    . exact (h.placed y hy).mono hsub
  . intro y hy
    rcases mem_cons.mp hy with rfl | hy
    . exact hroom
    . exact h.room y hy
  . intro slot
    rw [htaken, h.taken]
    simp
  intro y hy
  rcases hmallocs with rfl | ⟨rfl, hlen, hout⟩
  . have hm := h.mallocs y hy
    exact ⟨mem_cons_of_mem _ hm.1, hm.2⟩
  rcases mem_cons.mp hy with rfl | hy
  . exact ⟨mem_cons_self, hlen, hout⟩
  . have hm := h.mallocs y hy
    exact ⟨mem_cons_of_mem _ hm.1, hm.2⟩

theorem Holds.str_ne {y : FixedString} (h : Holds conf zeroString base fix (x :: held) mallocs) (hy : y ∈ held)
    (hne : y ≠ emptyString zeroString) : y.str ≠ x.str := by
  have hx := h.room x mem_cons_self
  have hroom := h.room y (mem_cons_of_mem _ hy)
  rcases (pairwise_cons.mp h.separate).1 y hy with hapart | ⟨_, heq⟩
  . exact hapart.symm.str_ne (by omega) (by omega)
  . exact absurd heq hne

theorem Holds.remove
    (hzero : Outside conf base (emptyString zeroString)) (h : Holds conf zeroString base fix (x :: held) mallocs)
    (hlaid : LaidOut conf fix' base)
    (htaken : ∀ slot : FixStrSlot conf, fix'.isFree slot = false ↔ fix.isFree slot = false ∧ x.str ≠ slot.address base)
    (hmallocs : ∀ y, y ∈ mallocs' ↔ y ∈ mallocs ∧ y ≠ x)
    : Holds conf zeroString base fix' held mallocs' := by
  refine ⟨hlaid, ?_, ?_, (pairwise_cons.mp h.separate).2, ?_, ?_⟩
  . intro y hy
    rcases h.placed y (mem_cons_of_mem _ hy) with heq | hslot | ⟨hlen, hout, hapart, hmem⟩
    . exact .inl heq
    . exact .inr (.inl hslot)
    have hne : y ≠ emptyString zeroString := by
      rintro rfl
      exact absurd hlen (lt_irrefl 0)
    refine .inr (.inr ⟨hlen, hout, hapart, (hmallocs y).mpr ⟨hmem, ?_⟩⟩)
    rintro rfl
    exact h.str_ne hy hne rfl
  . intro y hy
    exact h.room y (mem_cons_of_mem _ hy)
  . intro slot
    rw [htaken, h.taken]
    constructor
    . rintro ⟨⟨y, hy, hstr⟩, hne⟩
      rcases mem_cons.mp hy with rfl | hy
      . exact absurd hstr hne
      . exact ⟨y, hy, hstr⟩
    rintro ⟨y, hy, hstr⟩
    have hroom := h.room y (mem_cons_of_mem _ hy)
    refine ⟨⟨y, mem_cons_of_mem _ hy, hstr⟩, ?_⟩
    have hne : y ≠ emptyString zeroString := by
      rintro rfl
      exact not_outside_slot (by omega) hstr hzero
    rw [← hstr]
    exact (h.str_ne hy hne).symm
  intro y hy
  have hm := (hmallocs y).mp hy
  have hheld := h.mallocs y hm.1
  refine ⟨?_, hheld.2⟩
  rcases mem_cons.mp hheld.1 with rfl | hy
  . exact absurd rfl hm.2
  . exact hy

end Invariant

section Runs

variable {conf zeroString} {base : Int}

def held (s : FixStrState) : List FixedString :=
  s.live ++ s.freedEmpty

structure Inv (conf : FixStrConf) (zeroString base : Int) (s : FixStrState) : Prop where
  holds : Holds conf zeroString base s.fix s.held s.mallocs
  empty : s.mem zeroString = 0
  freedEmpty : ∀ x ∈ s.freedEmpty, 0 < x.len

variable {s : FixStrState}

theorem alloc_inv {len : Int} {malloced : Option Int}
    (hzero : Outside conf base (emptyString zeroString)) (h : s.Inv conf zeroString base)
    (hlegal : Legal conf zeroString base s (.alloc len malloced))
    : (s.alloc conf zeroString len malloced).Inv conf zeroString base := by
  have hlaid := h.holds.laid
  rcases fixStrAlloc_cases hlaid len with ⟨_, heq⟩ | ⟨_, heq⟩ | ⟨hpos, heq⟩ | ⟨slot, hpos, hroom, hfree, heq⟩
  . rw [alloc, heq]
    exact h
  . rw [alloc, heq]
    refine ⟨?_, h.empty, h.freedEmpty⟩
    apply h.holds.add hlaid (.inl rfl) le_rfl _ _ (.inl rfl)
    . intro y hy
      rcases h.holds.placed y hy with rfl | ⟨_, slot, hstr, hsize⟩ | ⟨_, _, hapart, _⟩
      . exact .inr ⟨rfl, rfl⟩
      . exact .inl (apart_outside_slot hzero hstr hsize)
      . exact .inl hapart.symm
    intro slot
    have hne : (emptyString zeroString).str ≠ slot.address base := by
      intro hstr
      exact not_outside_slot Nat.one_pos hstr hzero
    simp [hne]
  . rw [alloc, heq]
    cases malloced with
    | none => exact h
    | some str =>
      rcases hlegal str rfl with ⟨hout, hapart, hmallocs⟩
      have hlen : 0 < len.toNat := by omega
      refine ⟨?_, h.empty, h.freedEmpty⟩
      apply h.holds.add hlaid _ _ _ _ (.inr ⟨rfl, hlen, hout⟩)
      . exact .inr (.inr ⟨hlen, hout, hapart, mem_cons_self⟩)
      . dsimp only
        omega
      . intro y hy
        rcases h.holds.placed y hy with rfl | ⟨_, slot, hstr, hsize⟩ | ⟨_, _, _, hmem⟩
        . exact .inl hapart
        . exact .inl (apart_outside_slot hout hstr hsize)
        . exact .inl (hmallocs y hmem)
      intro slot
      have hne : str ≠ slot.address base := by
        rintro rfl
        exact not_outside_slot (show 0 < (len + 1).toNat by omega) rfl hout
      simp [hne]
  rw [alloc, heq]
  have hlen : 0 < len.toNat := by omega
  have hlaid' : LaidOut conf (s.fix.take slot) base := ⟨hlaid.offset, hlaid.heap⟩
  let x : FixedString := ⟨slot.address base, len.toNat, slot.size⟩
  have hplaced : Placed conf zeroString base s.mallocs x := .inr (.inl ⟨hlen, slot, rfl, rfl⟩)
  refine ⟨?_, h.empty, h.freedEmpty⟩
  apply h.holds.add hlaid' hplaced _ _ _ (.inl rfl)
  . show len.toNat + 1 ≤ slot.size
    omega
  . intro y hy
    rcases h.holds.placed y hy with rfl | ⟨_, other, hstr, hsize⟩ | ⟨_, hout, _, _⟩
    . exact .inl (apart_outside_slot hzero rfl rfl).symm
    . have hne : slot ≠ other := by
        rintro rfl
        have htaken := (h.holds.taken slot).mpr ⟨y, hy, hstr⟩
        rw [hfree] at htaken
        cases htaken
      have hapart := FixStrSlot.apart base hne
      rw [← hstr, ← hsize] at hapart
      exact .inl hapart
    . exact .inl (apart_outside_slot hout rfl rfl).symm
  intro other
  have htake := isFree_take s.fix slot other
  have hinj : slot.address base = other.address base ↔ other = slot := by
    constructor
    . intro haddress
      exact (FixStrSlot.address_injective base haddress).symm
    . rintro rfl
      rfl
  rw [hinj, ← Bool.not_eq_true, htake, ← Bool.not_eq_true]
  tauto

theorem free_of_lost (hmem : s.mem x.str = 0) (hlen : 0 < x.len)
    : s.free conf x = some { s with live := s.live.erase x, freedEmpty := x :: s.freedEmpty } := by
  rw [free, freeFixStr_empty hmem]
  dsimp only
  rw [if_neg Bool.false_ne_true, if_pos ⟨hmem, hlen⟩]

theorem free_of_kept {freed : Bool} {fix : FixStr}
    (hfree : freeFixStr conf s.fix s.mem x.str = some (freed, fix)) (h : ¬(s.mem x.str = 0 ∧ 0 < x.len))
    : s.free conf x = some { s with
        fix
        live := s.live.erase x
        mallocs := if freed then s.mallocs.filter (·.str ≠ x.str) else s.mallocs } := by
  rw [free, hfree]
  rw [if_neg h]

theorem free_inv (hzero : Outside conf base (emptyString zeroString))
    (h : s.Inv conf zeroString base) (hx : x ∈ s.live)
    : ∃ s', s.free conf x = some s' ∧ s'.Inv conf zeroString base := by
  have hperm : s.held.Perm (x :: (s.live.erase x ++ s.freedEmpty)) :=
    (perm_cons_erase hx).append_right s.freedEmpty
  have hholds := h.holds.perm hperm
  have hlaid := h.holds.laid
  by_cases hmem : s.mem x.str = 0
  . by_cases hlen : 0 < x.len
    . refine ⟨_, free_of_lost hmem hlen, hholds.perm perm_middle.symm, h.empty, ?_⟩
      intro y hy
      rcases mem_cons.mp hy with rfl | hy
      . exact hlen
      . exact h.freedEmpty y hy
    refine ⟨_, free_of_kept (freeFixStr_empty hmem) (by tauto), ?_, h.empty, h.freedEmpty⟩
    have heq : x = emptyString zeroString := by
      rcases hholds.placed x mem_cons_self with heq | ⟨hpos, _⟩ | ⟨hpos, _⟩
      . exact heq
      . exact absurd hpos hlen
      . exact absurd hpos hlen
    apply hholds.remove hzero hlaid
    . intro slot
      have hne : x.str ≠ slot.address base := by
        intro hstr
        rw [heq] at hstr
        exact not_outside_slot Nat.one_pos hstr hzero
      simp [hne]
    intro y
    have hpos := h.holds.mallocs y
    constructor
    . intro hy
      refine ⟨hy, ?_⟩
      rintro rfl
      exact hlen (hpos hy).2.1
    . exact And.left
  have hne : x ≠ emptyString zeroString := by
    rintro rfl
    exact hmem h.empty
  have hnot : ¬(s.mem x.str = 0 ∧ 0 < x.len) := by tauto
  have hroom := hholds.room x mem_cons_self
  rcases hholds.placed x mem_cons_self with heq | ⟨_, slot, hstr, hsize⟩ | ⟨_, hout, _, _⟩
  . exact absurd heq hne
  . have hfree := freeFixStr_slot hlaid slot (by rw [← hstr]; exact hmem)
    rw [← hstr] at hfree
    have hlaid' : LaidOut conf (s.fix.put slot) base := ⟨hlaid.offset, hlaid.heap⟩
    refine ⟨_, free_of_kept hfree hnot, ?_, h.empty, h.freedEmpty⟩
    apply hholds.remove hzero hlaid'
    . intro other
      have hput := isFree_put s.fix slot other
      have hinj : x.str = other.address base ↔ other = slot := by
        rw [hstr]
        constructor
        . intro haddress
          exact (FixStrSlot.address_injective base haddress).symm
        . rintro rfl
          rfl
      rw [Ne, hinj, ← Bool.not_eq_true, hput, ← Bool.not_eq_true]
      tauto
    intro y
    have hm := h.holds.mallocs y
    constructor
    . intro hy
      refine ⟨hy, ?_⟩
      rintro rfl
      exact not_outside_slot (by omega) hstr (hm hy).2.2
    . exact And.left
  have hfree := freeFixStr_outside hlaid hmem (hout.imp_left (fun hle => by omega))
  refine ⟨_, free_of_kept hfree hnot, ?_, h.empty, h.freedEmpty⟩
  apply hholds.remove hzero hlaid
  . intro slot
    have hnslot : x.str ≠ slot.address base := by
      intro hstr
      exact not_outside_slot (by omega) hstr hout
    simp [hnslot]
  intro y
  rw [if_pos rfl, mem_filter, decide_eq_true_eq]
  have hm := hholds.mallocs y
  constructor
  . rintro ⟨hy, hstr⟩
    refine ⟨hy, ?_⟩
    rintro rfl
    exact hstr rfl
  rintro ⟨hy, hney⟩
  refine ⟨hy, ?_⟩
  rcases mem_cons.mp (hm hy).1 with rfl | hy'
  . exact absurd rfl hney
  . apply hholds.str_ne hy'
    rintro rfl
    exact absurd (hm hy).2.1 (lt_irrefl 0)

theorem writeText_apply (mem : Int → BitVec 8) (address : Int) (text : List (BitVec 8)) {a : Int}
    (h : a < address ∨ address + text.length < a) : writeText mem address text a = mem a := by
  induction text generalizing mem address with
  | nil =>
    rw [writeText, update_of_ne]
    rintro rfl
    simp at h
  | cons byte text ih =>
    rw [length_cons] at h
    rw [writeText, ih _ _ (by omega), update_of_ne]
    rintro rfl
    omega

theorem write_inv {text : List (BitVec 8)}
    (hzero : Outside conf base (emptyString zeroString)) (h : s.Inv conf zeroString base) (hx : x ∈ s.live)
    (hlen : text.length ≤ x.len) : writeText s.mem x.str text zeroString = 0 := by
  have hheld : x ∈ s.held := mem_append_left _ hx
  have hroom := h.holds.room x hheld
  have hempty := h.empty
  have happly : x.Apart (emptyString zeroString) → writeText s.mem x.str text zeroString = 0 := by
    intro hapart
    rw [writeText_apply, hempty]
    rcases hapart with hle | hle
    . dsimp only [emptyString] at hle
      omega
    . dsimp only [emptyString] at hle
      omega
  rcases h.holds.placed x hheld with rfl | ⟨_, slot, hstr, hsize⟩ | ⟨_, _, hapart, _⟩
  . have hnil : text = [] := length_eq_zero_iff.mp (Nat.le_zero.mp hlen)
    rw [hnil]
    exact update_self _ _ _
  . exact happly (apart_outside_slot hzero hstr hsize).symm
  . exact happly hapart

theorem step_inv {a : FixStrAction} (hzero : Outside conf base (emptyString zeroString))
    (h : s.Inv conf zeroString base) (hlegal : Legal conf zeroString base s a)
    : ∃ s', s.step conf zeroString a = some s' ∧ s'.Inv conf zeroString base := by
  cases a with
  | alloc len malloced => exact ⟨_, rfl, alloc_inv hzero h hlegal⟩
  | write x text => exact ⟨_, rfl, h.holds, write_inv hzero h hlegal.1 hlegal.2.2, h.freedEmpty⟩
  | free x => exact free_inv hzero h hlegal
  | poke address byte =>
    refine ⟨_, rfl, h.holds, ?_, h.freedEmpty⟩
    have hne : address ≠ zeroString := hlegal.2.1.str_ne Nat.one_pos Nat.one_pos
    show update s.mem address byte zeroString = 0
    rw [update_of_ne hne.symm]
    exact h.empty

structure Starts (conf : FixStrConf) (zeroString base : Int) (s : FixStrState) : Prop where
  init : ∃ fix, initFixStr conf fix (some base) = some s.fix
  outside : Outside conf base (emptyString zeroString)
  empty : s.mem zeroString = 0
  live : s.live = []
  mallocs : s.mallocs = []
  freedEmpty : s.freedEmpty = []

theorem Starts.inv (h : s.Starts conf zeroString base) : s.Inv conf zeroString base := by
  rcases h.init with ⟨fix, hinit⟩
  have hspec := initFixStr_spec hinit
  refine ⟨?_, h.empty, ?_⟩
  . rw [held, h.live, h.mallocs, h.freedEmpty]
    exact Holds.init hspec.1 hspec.2
  . rw [h.freedEmpty]
    simp

abbrev Runs (conf : FixStrConf) (zeroString base : Int) (init s : FixStrState) : Prop :=
  Reachable (fun s a s' => s.step conf zeroString a = some s') (Legal conf zeroString base) init s

theorem Runs.inv {init s : FixStrState} (hstart : init.Starts conf zeroString base) (h : Runs conf zeroString base init s)
    : s.Inv conf zeroString base := by
  apply h.invariant hstart.inv
  intro s a s' hinv hlegal hstep
  rcases step_inv hstart.outside hinv hlegal with ⟨t, ht, htinv⟩
  rw [ht, Option.some.injEq] at hstep
  rw [← hstep]
  exact htinv

/--
Strings that are live have no bytes in common and room for their length and a terminator, and `FreeFixStr` returns for
each of them.
-/
theorem fixStr_runs_iff {init s : FixStrState} (hstart : init.Starts conf zeroString base)
    (h : Runs conf zeroString base init s)
    : s.live.Pairwise (Separate zeroString) ∧ (∀ x ∈ s.live, x.len + 1 ≤ x.size)
      ∧ (∀ x ∈ s.live, (s.free conf x).isSome = true)
      ∧ (s.live = [] → (AllFree conf s.fix ↔ ∀ x ∈ s.freedEmpty, Outside conf base x)
        ∧ (s.mallocs = [] ↔ ∀ x ∈ s.freedEmpty, ¬Outside conf base x)) := by
  have hinv := h.inv hstart
  refine ⟨(pairwise_append.mp hinv.holds.separate).1, ?_, ?_, ?_⟩
  . intro x hx
    exact hinv.holds.room x (mem_append_left _ hx)
  . intro x hx
    rcases free_inv hstart.outside hinv hx with ⟨s', hfree, _⟩
    rw [hfree]
    rfl
  intro hnil
  have hholds := hinv.holds
  rw [held, hnil, nil_append] at hholds
  constructor
  . rw [allFree_iff]
    constructor
    . intro hfree x hx
      rcases hholds.placed x hx with rfl | ⟨_, slot, hstr, _⟩ | ⟨_, hout, _⟩
      . exact hstart.outside
      . have htaken := (hholds.taken slot).mpr ⟨x, hx, hstr⟩
        rw [hfree] at htaken
        cases htaken
      . exact hout
    intro hout slot
    by_contra htaken
    rw [Bool.not_eq_true, hholds.taken] at htaken
    rcases htaken with ⟨x, hx, hstr⟩
    have hroom := hholds.room x hx
    exact not_outside_slot (by omega) hstr (hout x hx)
  constructor
  . intro hmallocs x hx hout
    have hpos := hinv.freedEmpty x hx
    have hroom := hholds.room x hx
    rcases hholds.placed x hx with rfl | ⟨_, slot, hstr, _⟩ | ⟨_, _, _, hmem⟩
    . exact absurd hpos (lt_irrefl 0)
    . exact not_outside_slot (by omega) hstr hout
    . rw [hmallocs] at hmem
      cases hmem
  intro hin
  rw [eq_nil_iff_forall_not_mem]
  intro x hx
  have hm := hholds.mallocs x hx
  exact hin x hm.1 hm.2.2

def liteStart : FixStrState :=
  init ((initFixStr .lite ⟨fun _ => 0, fun _ => 0, fun _ => 0⟩ (some 4096)).getD ⟨fun _ => 0, fun _ => 0, fun _ => 0⟩)
    fun _ => 0

theorem liteStart_starts : liteStart.Starts .lite 16 4096 := by
  refine ⟨⟨⟨fun _ => 0, fun _ => 0, fun _ => 0⟩, rfl⟩, ?_, rfl, rfl, rfl, rfl⟩
  left
  decide

def liteString : FixedString :=
  ⟨5632, 5, 8⟩

def liteFreed (text : List (BitVec 8)) : FixStrState :=
  let s := liteStart.alloc .lite 16 5 none
  let s := { s with mem := writeText s.mem liteString.str text }
  (s.free .lite liteString).getD s

theorem runs_liteFreed {text : List (BitVec 8)} (htext : 0 ∉ text) (hlen : text.length ≤ 5)
    : Runs .lite 16 4096 liteStart (liteFreed text) := by
  have hlive : liteString ∈ (liteStart.alloc .lite 16 5 none).live := by decide +kernel
  have hlegal : Legal .lite 16 4096 liteStart (.alloc 5 none) := by
    intro str hstr
    cases hstr
  have halloc : Runs .lite 16 4096 liteStart (liteStart.alloc .lite 16 5 none) :=
    Reachable.step Reachable.init hlegal rfl
  have hfits : Legal .lite 16 4096 (liteStart.alloc .lite 16 5 none) (.write liteString text) := ⟨hlive, htext, hlen⟩
  have hwrite := Reachable.step halloc hfits rfl
  rcases free_inv liteStart_starts.outside (Runs.inv liteStart_starts hwrite) hlive with ⟨s', hfree, _⟩
  have hfreed : liteFreed text = s' := by
    rw [liteFreed, hfree]
    rfl
  rw [hfreed]
  exact @Reachable.step _ _ _ _ _ _ s' (.free liteString) hwrite hlive hfree

theorem fixStr_runs_iff_letter : AllFree .lite (liteFreed [72#8]).fix := by
  have hempty : (liteFreed [72#8]).freedEmpty = [] := by decide +kernel
  have hruns := fixStr_runs_iff liteStart_starts (@runs_liteFreed [72#8] (by decide) (by decide))
  apply (hruns.2.2.2 (by decide +kernel)).1.mpr
  rw [hempty]
  simp

theorem not_fixStr_allFree
    : ¬∀ (conf : FixStrConf) (zeroString base : Int) (init s : FixStrState), init.Starts conf zeroString base
      → Runs conf zeroString base init s → s.live = [] → AllFree conf s.fix := by
  intro h
  have hfree := h .lite 16 4096 liteStart (liteFreed []) liteStart_starts (runs_liteFreed (by decide) (by decide))
    (by decide +kernel)
  have htaken : (liteFreed []).fix.bitmap 7 = 0x7F#8 := by decide +kernel
  have hfree := hfree 7 (by decide)
  rw [htaken] at hfree
  revert hfree
  decide

end Runs

end FixStrState

end MiniGui
