import Mathlib.Tactic

namespace MiniGui
namespace RleBlit

structure Bitmap where
  bmBytesPerPixel : Nat
  bmWidth : Nat
  bmHeight : Nat
  bmBits : Nat → UInt8
  height_ne : bmHeight ≠ 0

structure Draw where
  x : Nat
  y : Nat
  w : Nat
  pixel : List UInt8
deriving DecidableEq

structure Decoded where
  skip : Nat
  run : Nat
  pixel : List UInt8
  consumed : Nat

variable (bmp : Bitmap)

def readLE16Mem (encoded : Nat) : Nat :=
  (bmp.bmBits encoded).toNat + 256 * (bmp.bmBits (encoded + 1)).toNat

def pixelAt (encoded : Nat) : List UInt8 :=
  (List.range bmp.bmBytesPerPixel).map fun i => bmp.bmBits (encoded + i)

def bmpDecodeRle (encoded : Nat) : Decoded :=
  if bmp.bmBytesPerPixel > 3 then
    let run := readLE16Mem bmp (encoded + 2)
    {
      skip := readLE16Mem bmp encoded
      run
      -- `MGUI_ReadLE16Mem` has moved the pointer already
      pixel := pixelAt bmp (encoded + 4 + 4)
      consumed := 4 + (if run > 0 then bmp.bmBytesPerPixel else 0)
    }
  else
    let run := (bmp.bmBits (encoded + 1)).toNat
    {
      skip := (bmp.bmBits encoded).toNat
      run
      pixel := pixelAt bmp (encoded + 2)
      consumed := 2 + (if run > 0 then bmp.bmBytesPerPixel else 0)
    }

def decodeRow (rounds : Nat) (y encodedBits x : Nat) : Option (List Draw × Nat) :=
  match rounds with
  | 0 => none
  | rounds + 1 =>
    let d := bmpDecodeRle bmp encodedBits
    let moved := d.skip + d.run > 0
    let draws := if moved then [⟨x + d.skip, y, d.run, d.pixel⟩] else []
    let encodedBits := if moved then encodedBits + d.consumed else encodedBits
    if d.consumed > 0 then
      match decodeRow rounds y encodedBits (if moved then d.run + d.skip else x) with
      | some (rest, encodedBits) => some (draws ++ rest, encodedBits)
      | none => none
    else
      some (draws, encodedBits)

def fillRows (rounds : Nat) (rows : Nat) (y encodedBits : Nat) : Option (List Draw) :=
  match rows with
  | 0 => some []
  | rows + 1 =>
    match decodeRow bmp rounds y encodedBits 0 with
    | some (draws, encodedBits) => (fillRows rounds rows (y + 1) encodedBits).map (draws ++ ·)
    | none => none

def fillBoxWithBitmap (rounds : Nat) : Option (List Draw) :=
  fillRows bmp rounds bmp.bmHeight 0 0

structure Packet where
  skip : Nat
  run : Nat
  pixel : List UInt8

def Packet.bytes (bpp : Nat) (p : Packet) : List UInt8 :=
  (if bpp > 3 then
    [UInt8.ofNat p.skip, UInt8.ofNat (p.skip / 256), UInt8.ofNat p.run, UInt8.ofNat (p.run / 256)]
  else
    [UInt8.ofNat p.skip, UInt8.ofNat p.run]) ++ (if p.run > 0 then p.pixel else [])

def rowDraws (y x : Nat) : List Packet → List Draw
  | [] => []
  | p :: packets => ⟨x + p.skip, y, p.run, p.pixel⟩ :: rowDraws y (x + p.skip + p.run) packets

structure Encodes (rows : List (List Packet)) : Prop where
  height : rows.length = bmp.bmHeight
  width : ∀ row ∈ rows, (row.map fun p => p.skip + p.run).sum ≤ bmp.bmWidth
  packet : ∀ row ∈ rows, ∀ p ∈ row, p.pixel.length = bmp.bmBytesPerPixel
    ∧ p.skip < (if bmp.bmBytesPerPixel > 3 then 65536 else 256)
    ∧ p.run < (if bmp.bmBytesPerPixel > 3 then 65536 else 256)
  bits : ∀ i (hi : i < (rows.flatten.flatMap (Packet.bytes bmp.bmBytesPerPixel)).length),
    bmp.bmBits i = (rows.flatten.flatMap (Packet.bytes bmp.bmBytesPerPixel))[i]

def BlitsRows (rows : List (List Packet)) : Prop :=
  ∃ rounds draws, fillBoxWithBitmap bmp rounds = some draws
    ∧ draws = (rows.zipIdx.map fun row => rowDraws row.2 0 row.1).flatten
    ∧ ∀ d ∈ draws, d.w ≤ bmp.bmWidth

theorem consumed_pos (encoded : Nat) : 0 < (bmpDecodeRle bmp encoded).consumed := by
  unfold bmpDecodeRle
  split <;> exact Nat.add_pos_left (by decide) _

theorem decodeRow_none (rounds y encodedBits x : Nat) : decodeRow bmp rounds y encodedBits x = none := by
  induction rounds generalizing encodedBits x with
  | zero => rfl
  | succ rounds ih =>
    unfold decodeRow
    rw [if_pos (consumed_pos bmp encodedBits), ih]

theorem fillBoxWithBitmap_none (rounds : Nat) : fillBoxWithBitmap bmp rounds = none := by
  unfold fillBoxWithBitmap
  obtain ⟨rows, hrows⟩ := Nat.exists_eq_succ_of_ne_zero bmp.height_ne
  rw [hrows, fillRows, decodeRow_none]

/--
The `do` loop of the first row never ends, whatever the bitmap is.
-/
theorem never_blitsRows (rows : List (List Packet)) : ¬BlitsRows bmp rows := by
  rintro ⟨rounds, draws, heq, _⟩
  rw [fillBoxWithBitmap_none] at heq
  cases heq

def pixel : Bitmap where
  bmBytesPerPixel := 1
  bmWidth := 1
  bmHeight := 1
  bmBits := fun i => if i = 0 then 0 else if i = 1 then 1 else 7
  height_ne := Nat.one_ne_zero

theorem not_blitsRows : ¬∀ (bmp : Bitmap) (rows : List (List Packet)), Encodes bmp rows → BlitsRows bmp rows := by
  intro h
  have hencodes : Encodes pixel [[⟨0, 1, [7]⟩]] := by
    constructor
    . rfl
    . decide
    . simp [pixel]
    . decide
  obtain ⟨rounds, draws, heq, _⟩ := h pixel _ hencodes
  rw [fillBoxWithBitmap_none] at heq
  cases heq

end RleBlit

end MiniGui
