import MiniGui.Gdi.DrawState
import MiniGui.Library.ByteMem

namespace MiniGui

open ByteMem

def Rop.apply {w : Nat} : Rop → BitVec w → BitVec w → BitVec w
  | .set, _, src => src
  | .and, dst, src => dst &&& src
  | .or, dst, src => dst ||| src
  | .xor, dst, src => dst ^^^ src

namespace Hline

inductive PixelLen where
  | one
  | two
  | three
  | four
deriving DecidableEq, Repr

def PixelLen.bytes : PixelLen → Nat
  | .one => 1
  | .two => 2
  | .three => 3
  | .four => 4

structure Build where
  i386 : Bool
  bigEndian : Bool

structure LineDc where
  curDst : Nat
  curPixel : GalPixel
  skipPixel : GalPixel
  bkmode : BkMode

section Loops

variable (b : Build) (rop : Rop) (n : Nat)

def drawPixels (pixel : BitVec (8 * n)) (row w : Nat) (mem : Mem) : Mem :=
  forWords b.bigEndian n (fun _ dst => rop.apply dst pixel) w row 0 mem

def putPixels (src : Mem) (s row w : Nat) (mem : Mem) : Mem :=
  forWords b.bigEndian n (fun i dst => rop.apply dst (load b.bigEndian n src (s + i * n))) w row 0 mem

def putPixelsIf (skips : BitVec (8 * n) → BitVec (8 * n) → Bool) (src : Mem) (s row w : Nat) (mem : Mem) : Mem :=
  forWords b.bigEndian n (fun i dst =>
    let pixel := load b.bigEndian n src (s + i * n)
    if skips dst pixel then dst else rop.apply dst pixel) w row 0 mem

end Loops

section Blocks

variable (b : Build)

def memset (row : Nat) (c : GalPixel) (n : Nat) (mem : Mem) : Mem :=
  drawPixels b .set 1 (c.setWidth 8) row n mem

def memcpy (row : Nat) (src : Mem) (s n : Nat) (mem : Mem) : Mem :=
  putPixels b .set 1 src s row n mem

def galMemcpy4 (row : Nat) (src : Mem) (s n : Nat) (mem : Mem) : Mem :=
  putPixels b .set 4 src s row n mem

def memset4Rounds (val : GalPixel) : Nat → BitVec 32 → Nat → Mem → Mem
  | 0, _, _, mem => mem
  | fuel + 1, n, p, mem =>
    let mem := drawPixels b .set 4 val p 4 mem
    if n - 1 = 0 then mem else memset4Rounds val fuel (n - 1) (p + 16) mem

def galMemset4 (dst : Nat) (val : GalPixel) (count : BitVec 32) (mem : Mem) : Mem :=
  if b.i386 then
    drawPixels b .set 4 val dst count.toNat mem
  else
    let n := (count + 3) / 4
    let first := if count % 4 = 0 then 4 else (count % 4).toNat
    let mem := drawPixels b .set 4 val dst first mem
    if n - 1 = 0 then mem else memset4Rounds b val (2 ^ 32) (n - 1) (dst + first * 4) mem

def asmMemset2 (s : Nat) (c : GalPixel) (count : Nat) (mem : Mem) : Mem :=
  drawPixels b .set 2 (c.setWidth 16) s count mem

def asmMemropset4 (rop : Rop) (s : Nat) (c : GalPixel) (n : Nat) (mem : Mem) : Mem :=
  drawPixels b rop 4 c s n mem

def asmMemropcpy4 (rop : Rop) (dst : Nat) (src : Mem) (s n : Nat) (mem : Mem) : Mem :=
  putPixels b rop 4 src s dst n mem

def makeword (low high : GalPixel) : BitVec 16 :=
  (low.setWidth 8).setWidth 16 ||| (high.setWidth 8).setWidth 16 <<< 8

def makelong (low high : GalPixel) : GalPixel :=
  (low.setWidth 16).setWidth 32 ||| (high.setWidth 16).setWidth 32 <<< 16

end Blocks

section Draw

variable (b : Build) (rop : Rop) (dc : LineDc) (w : Nat) (mem : Mem)

def dcDrawHlineSet0 (bytesPerPixel : Nat) : Mem :=
  let n := w * bytesPerPixel
  if dc.curPixel = 0 ∧ dc.curDst % 4 = 0 ∧ n % 4 = 0 then
    galMemset4 b dc.curDst 0 (BitVec.ofNat 32 (n / 4)) mem
  else
    memset b dc.curDst dc.curPixel n mem

def dcDrawHlineSet1 : Mem :=
  dcDrawHlineSet0 b dc w mem 1

def dcDrawHlineSet2 : Mem :=
  if dc.curPixel = 0 then
    dcDrawHlineSet0 b dc w mem 2
  else if b.i386 ∧ dc.curDst / 2 % 2 = 0 then
    asmMemset2 b dc.curDst dc.curPixel w mem
  else
    drawPixels b .set 2 (dc.curPixel.setWidth 16) dc.curDst w mem

def dcDrawHlineSet3 : Mem :=
  if dc.curPixel = 0 then
    dcDrawHlineSet0 b dc w mem 3
  else
    drawPixels b .set 3 (dc.curPixel.setWidth 24) dc.curDst w mem

def dcDrawHlineSet4 : Mem :=
  galMemset4 b dc.curDst dc.curPixel (BitVec.ofNat 32 w) mem

def dcDrawHlineRop1 : Mem :=
  if b.i386 ∧ dc.curDst % 4 = 0 ∧ w % 4 = 0 then
    let word := makeword dc.curPixel dc.curPixel
    let u := makelong (word.setWidth 32) (word.setWidth 32)
    asmMemropset4 b rop dc.curDst u (w / 4) mem
  else
    drawPixels b rop 1 (dc.curPixel.setWidth 8) dc.curDst w mem

def dcDrawHlineRop2 : Mem :=
  if b.i386 ∧ dc.curDst % 4 = 0 ∧ w % 2 = 0 then
    asmMemropset4 b rop dc.curDst (makelong dc.curPixel dc.curPixel) (w / 2) mem
  else
    drawPixels b rop 2 (dc.curPixel.setWidth 16) dc.curDst w mem

def dcDrawHlineRop3 : Mem :=
  drawPixels b rop 3 (dc.curPixel.setWidth 24) dc.curDst w mem

def dcDrawHlineRop4 : Mem :=
  if b.i386 then
    asmMemropset4 b rop dc.curDst dc.curPixel w mem
  else
    drawPixels b rop 4 dc.curPixel dc.curDst w mem

def dcDrawHlineAnd1 : Mem := dcDrawHlineRop1 b .and dc w mem
def dcDrawHlineAnd2 : Mem := dcDrawHlineRop2 b .and dc w mem
def dcDrawHlineAnd3 : Mem := dcDrawHlineRop3 b .and dc w mem
def dcDrawHlineAnd4 : Mem := dcDrawHlineRop4 b .and dc w mem
def dcDrawHlineOr1 : Mem := dcDrawHlineRop1 b .or dc w mem
def dcDrawHlineOr2 : Mem := dcDrawHlineRop2 b .or dc w mem
def dcDrawHlineOr3 : Mem := dcDrawHlineRop3 b .or dc w mem
def dcDrawHlineOr4 : Mem := dcDrawHlineRop4 b .or dc w mem
def dcDrawHlineXor1 : Mem := dcDrawHlineRop1 b .xor dc w mem
def dcDrawHlineXor2 : Mem := dcDrawHlineRop2 b .xor dc w mem
def dcDrawHlineXor3 : Mem := dcDrawHlineRop3 b .xor dc w mem
def dcDrawHlineXor4 : Mem := dcDrawHlineRop4 b .xor dc w mem

def drawHlineOps (len : PixelLen) : Mem :=
  match rop, len with
  | .set, .one => dcDrawHlineSet1 b dc w mem
  | .set, .two => dcDrawHlineSet2 b dc w mem
  | .set, .three => dcDrawHlineSet3 b dc w mem
  | .set, .four => dcDrawHlineSet4 b dc w mem
  | .and, .one => dcDrawHlineAnd1 b dc w mem
  | .and, .two => dcDrawHlineAnd2 b dc w mem
  | .and, .three => dcDrawHlineAnd3 b dc w mem
  | .and, .four => dcDrawHlineAnd4 b dc w mem
  | .or, .one => dcDrawHlineOr1 b dc w mem
  | .or, .two => dcDrawHlineOr2 b dc w mem
  | .or, .three => dcDrawHlineOr3 b dc w mem
  | .or, .four => dcDrawHlineOr4 b dc w mem
  | .xor, .one => dcDrawHlineXor1 b dc w mem
  | .xor, .two => dcDrawHlineXor2 b dc w mem
  | .xor, .three => dcDrawHlineXor3 b dc w mem
  | .xor, .four => dcDrawHlineXor4 b dc w mem

end Draw

section Put

variable (b : Build) (rop : Rop) (dc : LineDc) (src : Mem) (s w : Nat) (mem : Mem)

def dcPutHlineSet0 (bytesPerPixel : Nat) : Mem :=
  let n := w * bytesPerPixel
  if dc.curDst % 4 = 0 ∧ n % 4 = 0 ∧ s % 4 = 0 then
    galMemcpy4 b dc.curDst src s (n / 4) mem
  else
    memcpy b dc.curDst src s n mem

def isSkip (n : Nat) (pixel : BitVec (8 * n)) : Bool :=
  pixel.setWidth 32 = dc.skipPixel

def equal24bit (row : BitVec (8 * 3)) : Bool :=
  row = dc.skipPixel.setWidth 24

def putHlineLoop (n : Nat) : Mem :=
  if dc.bkmode = .bmTransparent then
    putPixelsIf b rop n (fun _ pixel => isSkip dc n pixel) src s dc.curDst w mem
  else
    putPixels b rop n src s dc.curDst w mem

def putHlineLoop3 : Mem :=
  if dc.bkmode = .bmTransparent then
    putPixelsIf b rop 3 (fun row _ => equal24bit dc row) src s dc.curDst w mem
  else
    putPixels b rop 3 src s dc.curDst w mem

def dcPutHlineSet1 : Mem :=
  if dc.bkmode ≠ .bmTransparent then dcPutHlineSet0 b dc src s w mem 1 else putHlineLoop b .set dc src s w mem 1

def dcPutHlineSet2 : Mem :=
  if dc.bkmode ≠ .bmTransparent then dcPutHlineSet0 b dc src s w mem 2 else putHlineLoop b .set dc src s w mem 2

def dcPutHlineSet3 : Mem :=
  if dc.bkmode ≠ .bmTransparent then dcPutHlineSet0 b dc src s w mem 3 else putHlineLoop3 b .set dc src s w mem

def dcPutHlineSet4 : Mem :=
  if dc.bkmode ≠ .bmTransparent then dcPutHlineSet0 b dc src s w mem 4 else putHlineLoop b .set dc src s w mem 4

def dcPutHlineRop1 : Mem :=
  if b.i386 ∧ dc.bkmode ≠ .bmTransparent ∧ dc.curDst % 4 = 0 ∧ s % 4 = 0 ∧ w % 4 = 0 then
    asmMemropcpy4 b rop dc.curDst src s (w / 4) mem
  else
    putHlineLoop b rop dc src s w mem 1

def dcPutHlineRop2 : Mem :=
  if b.i386 ∧ dc.bkmode ≠ .bmTransparent ∧ dc.curDst % 4 = 0 ∧ s % 4 = 0 ∧ w % 2 = 0 then
    asmMemropcpy4 b rop dc.curDst src s (w / 2) mem
  else
    putHlineLoop b rop dc src s w mem 2

def dcPutHlineRop3 : Mem :=
  if b.i386 ∧ dc.bkmode ≠ .bmTransparent then
    let n := w * 2 + w
    let len := n / 4
    let mem := if dc.curDst % 4 = 0 ∧ s % 4 = 0 ∧ len ≠ 0 then asmMemropcpy4 b rop dc.curDst src s len mem else mem
    let len := len * 4
    putPixels b rop 1 src (s + len) (dc.curDst + len) (n % 4) mem
  else
    putHlineLoop3 b rop dc src s w mem

def dcPutHlineRop4 : Mem :=
  if b.i386 ∧ dc.bkmode ≠ .bmTransparent then
    asmMemropcpy4 b rop dc.curDst src s w mem
  else
    putHlineLoop b rop dc src s w mem 4

def putHlineLoopTwice (n : Nat) : Mem :=
  if dc.bkmode = .bmTransparent then
    let mem := putPixelsIf b rop n (fun _ pixel => isSkip dc n pixel) src s dc.curDst w mem
    putPixels b rop n src (s + w * n) (dc.curDst + w * n) (w - w) mem
  else
    putPixels b rop n src s dc.curDst w mem

def putHlineLoopTwice3 : Mem :=
  if dc.bkmode = .bmTransparent then
    let mem := putPixelsIf b rop 3 (fun row _ => equal24bit dc row) src s dc.curDst w mem
    putPixels b rop 3 src (s + w * 3) (dc.curDst + w * 3) (w - w) mem
  else
    putPixels b rop 3 src s dc.curDst w mem

def dcPutHlineAnd1 : Mem := dcPutHlineRop1 b .and dc src s w mem
def dcPutHlineAnd2 : Mem := dcPutHlineRop2 b .and dc src s w mem
def dcPutHlineAnd3 : Mem := dcPutHlineRop3 b .and dc src s w mem
def dcPutHlineAnd4 : Mem := dcPutHlineRop4 b .and dc src s w mem
def dcPutHlineOr1 : Mem := dcPutHlineRop1 b .or dc src s w mem
def dcPutHlineOr2 : Mem := dcPutHlineRop2 b .or dc src s w mem
def dcPutHlineOr3 : Mem := dcPutHlineRop3 b .or dc src s w mem

def dcPutHlineOr4 : Mem :=
  if b.i386 ∧ dc.bkmode ≠ .bmTransparent then
    asmMemropcpy4 b .or dc.curDst src s w mem
  else
    putHlineLoopTwice b .or dc src s w mem 4

def dcPutHlineXor1 : Mem := dcPutHlineRop1 b .xor dc src s w mem
def dcPutHlineXor2 : Mem := dcPutHlineRop2 b .xor dc src s w mem

def dcPutHlineXor3 : Mem :=
  if b.i386 ∧ dc.bkmode ≠ .bmTransparent then
    dcPutHlineRop3 b .xor dc src s w mem
  else
    putHlineLoopTwice3 b .xor dc src s w mem

def dcPutHlineXor4 : Mem :=
  if b.i386 ∧ dc.bkmode ≠ .bmTransparent then
    asmMemropcpy4 b .xor dc.curDst src s w mem
  else
    putHlineLoopTwice b .xor dc src s w mem 4

def putHlineOps (len : PixelLen) : Mem :=
  match rop, len with
  | .set, .one => dcPutHlineSet1 b dc src s w mem
  | .set, .two => dcPutHlineSet2 b dc src s w mem
  | .set, .three => dcPutHlineSet3 b dc src s w mem
  | .set, .four => dcPutHlineSet4 b dc src s w mem
  | .and, .one => dcPutHlineAnd1 b dc src s w mem
  | .and, .two => dcPutHlineAnd2 b dc src s w mem
  | .and, .three => dcPutHlineAnd3 b dc src s w mem
  | .and, .four => dcPutHlineAnd4 b dc src s w mem
  | .or, .one => dcPutHlineOr1 b dc src s w mem
  | .or, .two => dcPutHlineOr2 b dc src s w mem
  | .or, .three => dcPutHlineOr3 b dc src s w mem
  | .or, .four => dcPutHlineOr4 b dc src s w mem
  | .xor, .one => dcPutHlineXor1 b dc src s w mem
  | .xor, .two => dcPutHlineXor2 b dc src s w mem
  | .xor, .three => dcPutHlineXor3 b dc src s w mem
  | .xor, .four => dcPutHlineXor4 b dc src s w mem

end Put

end Hline

end MiniGui
