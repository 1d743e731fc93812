import MiniGui.Mybmp.Winbmp

namespace MiniGui

inductive RleCode where
  | run (count : Nat) (left right : Byte)
  | absolute (pixels : List Byte)
  | endOfLine
  | endOfBitmap
  | displace (dx dy : Nat)
deriving DecidableEq, Repr

namespace RleCode

def pixels : RleCode → List (Byte × Byte)
  | run count left right => List.replicate count (left, right)
  | absolute pixels => pixels.map fun p => (p, p)
  | _ => []

def columns : RleCode → Nat
  | displace dx _ => dx
  | c => c.pixels.length

def flag : RleCode → RleFlag
  | endOfLine => .line
  | endOfBitmap => .end
  | _ => .err

end RleCode

def readPixels8 : Nat → Area → List Byte × Area
  | 0, f => ([], f)
  | n + 1, f =>
    let (val0, f) := getByte f
    let (pixels, f) := readPixels8 n f
    (val0 :: pixels, f)

def rle8Code (f : Area) : RleCode × Area :=
  let (count, f) := getByte f
  let (val, f) := getByte f
  if count ≠ 0 then
    (.run count.toNat val val, f)
  else if val = 0 then
    (.endOfLine, f)
  else if val = 1 then
    (.endOfBitmap, f)
  else if val = 2 then
    let (dx, f) := getByte f
    let (dy, f) := getByte f
    (.displace dx.toNat dy.toNat, f)
  else
    let (pixels, f) := readPixels8 val.toNat f
    (.absolute pixels, if val.toNat % 2 = 1 then (getByte f).2 else f)

def readPixels4 : Nat → Nat → BitVec 16 → Area → List Byte × Area
  | 0, _, _, f => ([], f)
  | n + 1, j, val0, f =>
    let (val0, f) := if j % 4 = 0 then fpIgetw f else (val0, f)
    let (pixels, f) := readPixels4 n (j + 1) val0 f
    (nibble4 val0 j :: pixels, f)

def rle4Code (f : Area) : RleCode × Area :=
  let (count, f) := getByte f
  let (val, f) := fpGetc f
  let val := BitVec.ofInt 16 val
  if count ≠ 0 then
    (.run count.toNat (((val >>> 4) &&& 15).truncate 8) ((val &&& 15).truncate 8), f)
  else if val = 0 then
    (.endOfLine, f)
  else if val = 1 then
    (.endOfBitmap, f)
  else if val = 2 then
    let (dx, f) := getByte f
    let (dy, f) := getByte f
    (.displace dx.toNat dy.toNat, f)
  else
    let (pixels, f) := readPixels4 val.toNat 0 0 f
    (.absolute pixels, f)

section Effect

abbrev WritePixel := Row → Nat → Byte → Byte → Row

def writeByte : WritePixel := fun bits pos left _ =>
  bits.set pos left

def writeNibble : WritePixel := fun bits pos left right =>
  if pos % 2 = 0 then
    bits.set (pos / 2) (left <<< 4)
  else
    bits.set (pos / 2) (bits.get (pos / 2) ||| right)

def writePixels (write : WritePixel) : Row → Nat → List (Byte × Byte) → Row
  | bits, _, [] => bits
  | bits, pos, p :: pixels => writePixels write (write bits pos p.1 p.2) (pos + 1) pixels

def applyCode (write : WritePixel) (s : RleState) (c : RleCode) (f : Area) : RleState :=
  { f, bits := writePixels write s.bits s.pos c.pixels, pos := s.pos + c.columns, flag := c.flag }

theorem readPixels8_length (n : Nat) (f : Area) : (readPixels8 n f).1.length = n := by
  induction n generalizing f with
  | zero => rfl
  | succ n ih =>
    rw [readPixels8, List.length_cons, ih]

theorem readPixels4_length (n j : Nat) (val0 : BitVec 16) (f : Area) : (readPixels4 n j val0 f).1.length = n := by
  induction n generalizing j val0 f with
  | zero => rfl
  | succ n ih =>
    rw [readPixels4, List.length_cons, ih]

theorem fillRun_eq (n : Nat) (val : Byte) (s : RleState) : fillRun n val s =
        { s with bits := writePixels writeByte s.bits s.pos (List.replicate n (val, val)), pos := s.pos + n } := by
  induction n generalizing s with
  | zero => rfl
  | succ n ih =>
    rw [fillRun, ih, Nat.add_comm n 1, ← Nat.add_assoc, Nat.add_comm 1 n]
    rfl

theorem fillRun4_eq (n : Nat) (val : BitVec 16) (s : RleState) : fillRun4 n val s =
        {
          s with
          bits := writePixels writeNibble s.bits s.pos
            (List.replicate n (((val >>> 4) &&& 15).truncate 8, (val &&& 15).truncate 8))
          pos := s.pos + n
        } := by
  induction n generalizing s with
  | zero => rfl
  | succ n ih =>
    rw [fillRun4, ih, Nat.add_comm n 1, ← Nat.add_assoc, Nat.add_comm 1 n]
    rfl

theorem copyAbsolute_eq (n : Nat) (s : RleState) : copyAbsolute n s =
        {
          s with
          f := (readPixels8 n s.f).2
          bits := writePixels writeByte s.bits s.pos ((readPixels8 n s.f).1.map fun p => (p, p))
          pos := s.pos + n
        } := by
  induction n generalizing s with
  | zero => rfl
  | succ n ih =>
    rw [copyAbsolute, Nat.add_comm n 1, ← Nat.add_assoc, Nat.add_comm 1 n]
    exact ih _

theorem copyAbsolute4_eq (n j : Nat) (val0 : BitVec 16) (s : RleState) : copyAbsolute4 n j val0 s =
        {
          s with
          f := (readPixels4 n j val0 s.f).2
          bits := writePixels writeNibble s.bits s.pos ((readPixels4 n j val0 s.f).1.map fun p => (p, p))
          pos := s.pos + n
        } := by
  induction n generalizing j val0 s with
  | zero => rfl
  | succ n ih =>
    rw [copyAbsolute4, Nat.add_comm n 1, ← Nat.add_assoc, Nat.add_comm 1 n]
    exact ih _ _ _

variable {s : RleState}

theorem rle8Step_eq (h : s.flag = .err)
    : rle8Step s = applyCode writeByte s (rle8Code s.f).1 (rle8Code s.f).2 := by
  unfold rle8Step rle8Code
  generalize getByte s.f = p
  obtain ⟨count, f⟩ := p
  generalize getByte f = q
  obtain ⟨val, f⟩ := q
  dsimp only
  split
  . rw [fillRun_eq]
    dsimp only [applyCode, RleCode.flag, RleCode.pixels, RleCode.columns]
    rw [h, List.length_replicate]
  split
  . rfl
  split
  . rfl
  split
  . dsimp only [applyCode, RleCode.flag, RleCode.columns]
    rw [h]
    rfl
  rw [copyAbsolute_eq]
  dsimp only [applyCode, RleCode.flag, RleCode.pixels, RleCode.columns]
  rw [h, List.length_map, readPixels8_length]
  split
  . rfl
  . rfl

theorem rle4Step_eq (h : s.flag = .err)
    : rle4Step s = applyCode writeNibble s (rle4Code s.f).1 (rle4Code s.f).2 := by
  unfold rle4Step rle4Code
  generalize getByte s.f = p
  obtain ⟨count, f⟩ := p
  generalize fpGetc f = q
  obtain ⟨val, f⟩ := q
  dsimp only
  split
  . rw [fillRun4_eq]
    dsimp only [applyCode, RleCode.flag, RleCode.pixels, RleCode.columns]
    rw [h, List.length_replicate]
  split
  . rfl
  split
  . rfl
  split
  . dsimp only [applyCode, RleCode.flag, RleCode.columns]
    rw [h]
    rfl
  . rw [copyAbsolute4_eq]
    dsimp only [applyCode, RleCode.flag, RleCode.pixels, RleCode.columns]
    rw [h, List.length_map, readPixels4_length]

end Effect

section Row

variable {write : WritePixel} {place : Nat → Nat} {row : Row} {pos : Nat} {pixels : List (Byte × Byte)}

def WritesAt (write : WritePixel) (place : Nat → Nat) : Prop :=
  ∀ row pos left right, ∃ b, write row pos left right = row.set (place pos) b

theorem writeByte_at : WritesAt writeByte id := by
  intro row pos left right
  exact ⟨left, rfl⟩

theorem writeNibble_at : WritesAt writeNibble (· / 2) := by
  intro row pos left right
  unfold writeNibble
  split
  . exact ⟨_, rfl⟩
  . exact ⟨_, rfl⟩

theorem writePixels_start (h : WritesAt write place) : (writePixels write row pos pixels).start = row.start := by
  induction pixels generalizing row pos with
  | nil => rfl
  | cons p pixels ih =>
    obtain ⟨b, hb⟩ := h row pos p.1 p.2
    rw [writePixels, ih, hb]
    rfl

theorem writePixels_touched (h : WritesAt write place) (i : Nat)
    : i ∈ (writePixels write row pos pixels).touched
        ↔ i ∈ row.touched ∨ ∃ q, pos ≤ q ∧ q < pos + pixels.length ∧ i = place q := by
  induction pixels generalizing row pos with
  | nil =>
    constructor
    . exact .inl
    rintro (hi | ⟨q, hq, hlt, _⟩)
    . exact hi
    . rw [List.length_nil] at hlt
      omega
  | cons p pixels ih =>
    obtain ⟨b, hb⟩ := h row pos p.1 p.2
    have hset : (row.set (place pos) b).touched = place pos :: row.touched := rfl
    rw [writePixels, ih, hb, hset, List.mem_cons, List.length_cons]
    constructor
    . rintro ((heq | hi) | ⟨q, hq, hlt, heq⟩)
      . exact .inr ⟨pos, by omega, by omega, heq⟩
      . exact .inl hi
      . exact .inr ⟨q, by omega, by omega, heq⟩
    rintro (hi | ⟨q, hq, hlt, heq⟩)
    . exact .inl (.inr hi)
    by_cases hpos : q = pos
    . rw [hpos] at heq
      exact .inl (.inl heq)
    . exact .inr ⟨q, by omega, by omega, heq⟩

end Row

end MiniGui
