import Mathlib

namespace MiniGui

abbrev Byte := BitVec 8

inductive AreaType where
  | stdio
  | mem
deriving DecidableEq, Repr

/--
`MG_RWops`. A variable that a short read leaves uninitialised holds whatever `uninit` says, one value after the other.
-/
structure Area where
  type : AreaType
  bytes : List Byte
  here : Nat
  uninit : Nat → BitVec 32

namespace Area

def rest (area : Area) : List Byte :=
  area.bytes.drop area.here

def dropUninit (area : Area) : Area :=
  { area with uninit := fun n => area.uninit (n + 1) }

end Area

def rwRead (area : Area) (size maxnum : Nat) : List Byte × Area :=
  let copied :=
    match area.type with
    | .mem => area.rest.take (min maxnum (area.rest.length / size) * size)
    | .stdio => area.rest.take (maxnum * size)
  (copied, { area with here := area.here + copied.length })

def rwSeek (area : Area) (offset : Int) : Area :=
  match area.type with
  | .mem => { area with here := (max 0 (min (area.here + offset) area.bytes.length)).toNat }
  | .stdio =>
    if area.here + offset < 0 then
      area
    else
      { area with here := (area.here + offset).toNat }

def fpGetc (area : Area) : Int × Area :=
  match rwRead area 1 1 with
  | ([c], area) => ((c.toNat : Int), area)
  | (_, area) => (-1, area)

def fpIgetw (area : Area) : BitVec 16 × Area :=
  match rwRead area 2 1 with
  | ([b0, b1], area) => (b1 ++ b0, area)
  | (_, area) => ((area.uninit 0).truncate 16, area.dropUninit)

def fpIgetl (area : Area) : BitVec 32 × Area :=
  match rwRead area 4 1 with
  | ([b0, b1, b2, b3], area) => (b3 ++ b2 ++ b1 ++ b0, area)
  | (_, area) => (area.uninit 0, area.dropUninit)

def getByte (area : Area) : Byte × Area :=
  let (c, area) := fpGetc area
  (BitVec.ofInt 8 c, area)

section Lemmas

variable {area : Area}

theorem fpGetc_cons {b : Byte} {l : List Byte} (h : area.rest = b :: l)
    : fpGetc area = ((b.toNat : Int), { area with here := area.here + 1 }) := by
  unfold fpGetc rwRead
  rw [h]
  cases harea : area.type with
  | mem => simp
  | stdio => simp

theorem fpGetc_nil (h : area.rest = []) : fpGetc area = (-1, area) := by
  unfold fpGetc rwRead
  rw [h]
  cases area with
  | mk type bytes here uninit =>
    cases type with
    | mem => rfl
    | stdio => rfl

theorem rest_skip {b : Byte} {l : List Byte} (h : area.rest = b :: l)
    : Area.rest { area with here := area.here + 1 } = l := by
  unfold Area.rest at h ⊢
  rw [← List.drop_drop, h]
  rfl

theorem rwRead_length (area : Area) (n : Nat) : (rwRead area 1 n).1.length ≤ n := by
  unfold rwRead
  split
  . rw [List.length_take]
    omega
  . rw [List.length_take]
    omega

theorem getByte_cons {b : Byte} {l : List Byte} (h : area.rest = b :: l)
    : getByte area = (b, { area with here := area.here + 1 }) := by
  unfold getByte
  rw [fpGetc_cons h]
  simp

theorem getByte_nil (h : area.rest = []) : getByte area = (255#8, area) := by
  unfold getByte
  rw [fpGetc_nil h]
  rfl

theorem getByte_cases (area : Area) : (getByte area = (255#8, area) ∧ area.rest = [])
        ∨ ∃ b l, area.rest = b :: l ∧ getByte area = (b, { area with here := area.here + 1 }) := by
  cases h : area.rest with
  | nil => exact .inl ⟨getByte_nil h, rfl⟩
  | cons b l => exact .inr ⟨b, l, rfl, getByte_cons h⟩

theorem getByte_length (area : Area) : (getByte area).2.rest.length ≤ area.rest.length := by
  rcases getByte_cases area with ⟨hget, _⟩ | ⟨b, l, hrest, hget⟩
  . rw [hget]
  . rw [hget, rest_skip hrest, hrest, List.length_cons]
    omega

theorem getByte_lt (h : (getByte area).1 ≠ 255#8) : (getByte area).2.rest.length < area.rest.length := by
  rcases getByte_cases area with ⟨hget, _⟩ | ⟨b, l, hrest, hget⟩
  . rw [hget] at h
    contradiction
  . rw [hget, rest_skip hrest, hrest, List.length_cons]
    omega

theorem fpIgetw_length (area : Area) : (fpIgetw area).2.rest.length ≤ area.rest.length := by
  have hread : (rwRead area 2 1).2.rest.length ≤ area.rest.length := by
    unfold rwRead Area.rest
    simp only [List.length_drop]
    omega
  unfold fpIgetw
  split
  next heq =>
    rw [heq] at hread
    exact hread
  next heq =>
    rw [heq] at hread
    exact hread

theorem fpGetc_eq_getByte (area : Area) : (fpGetc area).2 = (getByte area).2 := by
  rfl

end Lemmas

end MiniGui
