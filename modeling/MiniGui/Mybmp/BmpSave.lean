import MiniGui.Mybmp.Winbmp

namespace MiniGui

open Function

def putWord (x : BitVec 16) : List Byte :=
  [x.truncate 8, (x >>> 8).truncate 8]

def putDword (x : BitVec 32) : List Byte :=
  [x.truncate 8, (x >>> 8).truncate 8, (x >>> 16).truncate 8, (x >>> 24).truncate 8]

def bmpGet16CScanline (bits scanline : Nat → Byte) : Nat → Nat → Byte
  | 0 => scanline
  | i + 1 =>
    let scanline := bmpGet16CScanline bits scanline i
    if i % 2 = 0 then
      update scanline (i / 2) ((bits i <<< 4) &&& 0xF0)
    else
      update scanline (i / 2) (scanline (i / 2) ||| (bits i &&& 0x0F))

def bmpGet256CScanline (bits scanline : Nat → Byte) (pixels : Nat) : Nat → Byte :=
  fun j => if j < pixels then bits j else scanline j

def pixel2rgb (pixel : BitVec 32) (color : BmpRgb) (depth : Byte) : BmpRgb :=
  if depth = 24 ∨ depth = 32 then
    {
      r := ((pixel >>> 16) &&& 0xFF).truncate 8
      g := ((pixel >>> 8) &&& 0xFF).truncate 8
      b := (pixel &&& 0xFF).truncate 8
    }
  else if depth = 15 then
    {
      r := ((pixel &&& 0x7C00) >>> 7).truncate 8 ||| 0x07
      g := ((pixel &&& 0x03E0) >>> 2).truncate 8 ||| 0x07
      b := ((pixel &&& 0x001F) <<< 3).truncate 8 ||| 0x07
    }
  else if depth = 16 then
    {
      r := ((pixel &&& 0xF800) >>> 8).truncate 8 ||| 0x07
      g := ((pixel &&& 0x07E0) >>> 3).truncate 8 ||| 0x03
      b := ((pixel &&& 0x001F) <<< 3).truncate 8 ||| 0x07
    }
  else
    color

def galPixel (bits : Nat → Byte) (j : Nat) : BitVec 32 :=
  bits (j + 3) ++ bits (j + 2) ++ bits (j + 1) ++ bits j

def bmpGetHighCScanline (bpp : Nat) (depth : Byte) (color : BmpRgb) (bits scanline : Nat → Byte) : Nat → Nat → Byte
  | 0 => scanline
  | i + 1 =>
    let scanline := bmpGetHighCScanline bpp depth color bits scanline i
    let color := pixel2rgb (galPixel bits (i * bpp)) color depth
    let scanline := update scanline (3 * i) color.b
    let scanline := update scanline (3 * i + 1) color.g
    update scanline (3 * i + 2) color.r

def depth2bpp (depth : Byte) : Nat :=
  match depth.toNat with
  | 4 => 1
  | 8 => 1
  | 15 => 2
  | 16 => 2
  | 24 => 3
  | 32 => 4
  | _ => 1

def roundScanline (scanlinebytes : BitVec 32) : BitVec 32 :=
  ((scanlinebytes + 3).sshiftRight 2) <<< 2

def saveHeaders (bmp : MyBitmap) (bfOffBits scanlinebytes : BitVec 32) (biBitCount : BitVec 16) (biClrUsed : BitVec 32)
    : List Byte :=
  let biSizeImage := bmp.h * scanlinebytes
  putWord 19778 ++ putDword (bfOffBits + biSizeImage) ++ putWord 0 ++ putWord 0 ++ putDword bfOffBits ++ putDword 40
    ++ putDword bmp.w ++ putDword bmp.h ++ putWord 1 ++ putWord biBitCount ++ putDword 0 ++ putDword biSizeImage
    ++ putDword 0 ++ putDword 0 ++ putDword biClrUsed ++ putDword biClrUsed

def savePalette (pal : Nat → BmpRgb) (rgbReserved : Nat → Byte) (n : Nat) : List Byte :=
  (List.range n).flatMap fun i => [(pal i).b, (pal i).g, (pal i).r, rgbReserved i]

def saveRows (getScanline : (Nat → Byte) → (Nat → Byte) → Nat → Byte) (bits : Nat → Byte) (pitch scanlinebytes : Nat)
    : Nat → (Nat → Byte) → List Byte
  | 0, _ => []
  | i + 1, scanline =>
    let scanline := getScanline (fun j => bits (i * pitch + j)) scanline
    (List.range scanlinebytes).map scanline ++ saveRows getScanline bits pitch scanlinebytes i scanline

structure SaveJunk where
  rgbReserved : Nat → Byte
  color : BmpRgb

def mgSaveBmp (junk : SaveJunk) (bmp : MyBitmap) (bits : Nat → Byte) (pal : Nat → BmpRgb) : List Byte :=
  let bpp := depth2bpp bmp.depth
  let pixels := bmp.w.toInt.toNat
  let rows := ((bmp.h - 1).toInt + 1).toNat
  if bmp.depth = 4 then
    let scanlinebytes := roundScanline ((bmp.w + 1) >>> 1)
    saveHeaders bmp (14 + 40 + (4 <<< 4)) scanlinebytes 4 16 ++ savePalette pal junk.rgbReserved 16
      ++ saveRows (fun bits scanline => bmpGet16CScanline bits scanline pixels) bits bmp.pitch.toNat
        scanlinebytes.toInt.toNat rows (fun _ => 0)
  else if bmp.depth = 8 then
    let scanlinebytes := roundScanline bmp.w
    saveHeaders bmp (14 + 40 + (4 <<< 8)) scanlinebytes 8 256 ++ savePalette pal junk.rgbReserved 256
      ++ saveRows (fun bits scanline => bmpGet256CScanline bits scanline pixels) bits bmp.pitch.toNat
        scanlinebytes.toInt.toNat rows (fun _ => 0)
  else
    let scanlinebytes := roundScanline (bmp.w * 3)
    saveHeaders bmp (14 + 40) scanlinebytes 24 0
      ++ saveRows (fun bits scanline => bmpGetHighCScanline bpp bmp.depth junk.color bits scanline pixels) bits
        bmp.pitch.toNat scanlinebytes.toInt.toNat rows (fun _ => 0)

theorem bmpGet16CScanline_apply (bits scanline : Nat → Byte) (n j : Nat)
    : bmpGet16CScanline bits scanline n j =
        if 2 * j + 1 < n then
          ((bits (2 * j) <<< 4) &&& 0xF0) ||| (bits (2 * j + 1) &&& 0x0F)
        else if 2 * j < n then
          (bits (2 * j) <<< 4) &&& 0xF0
        else
          scanline j := by
  induction n with
  | zero =>
    rw [if_neg (by omega), if_neg (by omega)]
    rfl
  | succ i ih =>
    rw [bmpGet16CScanline]
    split
    next heven =>
      by_cases hj : j = i / 2
      . have hi : 2 * j = i := by omega
        rw [hj, update_self, ← hj, hi, if_neg (by omega), if_pos (by omega)]
      rw [update_of_ne hj, ih]
      have hlow : 2 * j + 1 < i + 1 ↔ 2 * j + 1 < i := by omega
      have hhigh : 2 * j < i + 1 ↔ 2 * j < i := by omega
      simp only [hlow, hhigh]
    next hodd =>
      by_cases hj : j = i / 2
      . have hi : 2 * j + 1 = i := by omega
        rw [hj, update_self, ← hj, ih, hi, if_neg (by omega), if_pos (by omega), if_pos (by omega)]
      rw [update_of_ne hj, ih]
      have hlow : 2 * j + 1 < i + 1 ↔ 2 * j + 1 < i := by omega
      have hhigh : 2 * j < i + 1 ↔ 2 * j < i := by omega
      simp only [hlow, hhigh]

theorem bmpGetHighCScanline_apply (bpp : Nat) (depth : Byte) (color : BmpRgb) (bits scanline : Nat → Byte)
    {n x : Nat} (hx : x < n) : bmpGetHighCScanline bpp depth color bits scanline n (3 * x) =
          (pixel2rgb (galPixel bits (x * bpp)) color depth).b
        ∧ bmpGetHighCScanline bpp depth color bits scanline n (3 * x + 1) =
          (pixel2rgb (galPixel bits (x * bpp)) color depth).g
        ∧ bmpGetHighCScanline bpp depth color bits scanline n (3 * x + 2) =
          (pixel2rgb (galPixel bits (x * bpp)) color depth).r := by
  induction n with
  | zero => contradiction
  | succ i ih =>
    rw [bmpGetHighCScanline]
    by_cases hlast : x = i
    . rw [hlast]
      refine ⟨?_, ?_, ?_⟩
      . rw [update_of_ne (by omega), update_of_ne (by omega), update_self]
      . rw [update_of_ne (by omega), update_self]
      . rw [update_self]
    have hlt : x < i := by omega
    obtain ⟨hb, hg, hr⟩ := ih hlt
    refine ⟨?_, ?_, ?_⟩
    . rw [update_of_ne (by omega), update_of_ne (by omega), update_of_ne (by omega), hb]
    . rw [update_of_ne (by omega), update_of_ne (by omega), update_of_ne (by omega), hg]
    . rw [update_of_ne (by omega), update_of_ne (by omega), update_of_ne (by omega), hr]

end MiniGui
