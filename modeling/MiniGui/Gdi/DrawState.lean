import MiniGui.Gdi.DrawLocks
import MiniGui.Gdi.ScanClip
import MiniGui.Library.Reach

/-!
What the drawing functions of `newgdi` leave in a DC: the registers that the primitives read are set by some of the
functions and only used by others, and the raster operation and the background mode are changed for the time of a call.
-/

namespace MiniGui

open Reach

inductive Rop where
  | set
  | and
  | or
  | xor
deriving DecidableEq, Repr

inductive BkMode where
  | bmTransparent
  | bmOpaque
deriving DecidableEq, Repr

abbrev GalPixel := BitVec 32

/--
The fields of a DC that drawing reads. The first five are attributes of it, the others are registers of the primitives.
-/
structure PaintDc where
  rop : Rop
  bkmode : BkMode
  pencolor : GalPixel
  brushcolor : GalPixel
  curPenPos : Int × Int
  step : Int
  curPixel : GalPixel
  skipPixel : GalPixel
  curBan : Option Nat

structure PaintEnv where
  env : DrawEnv
  dc : DrawDc
  ecrgn : ClipRgn
  scrBottom : Int
  malloc : Nat → Bool
  pixels : Int → Int → GalPixel

structure Write where
  x : Int
  y : Int
  rop : Rop
  pixel : GalPixel
deriving DecidableEq, Repr

structure PaintBitmap extends DrawBitmap where
  colorkey : Bool
  bmColorKey : GalPixel
  bits : List (BitVec 8)

structure BlitRegs where
  rop : Rop
  bkmode : BkMode
  step : Int
  skipPixel : GalPixel
  curBan : Option Nat

structure Generators where
  line (effRc : Rect) (x0 y0 x1 y1 : Int) : List (Int × Int)
  circle (sx sy r : Int) : List (Int × Int × Int)
  ellipse (sx sy rx ry : Int) : List (Int × Int × Int)
  polygon (pts points : List (Int × Int)) (rcOutput : Rect) : List (Int × Int × Int)
  flood (drawHline : Option Nat → Int × Int × Int → List Write × Option Nat) (pixels : Int → Int → GalPixel) (dstRc : Rect)
    (x y : Int) : List (Int × Int × Int)
  fillBitmap (bmp : PaintBitmap) (rect rcOutput : Rect) (ecrgn : ClipRgn) (regs : BlitRegs) : List Write × Option Nat
  fillBitmapPart (bmp : PaintBitmap) (rect : Rect) (bw bh xo yo : Int) (rcOutput : Rect) (ecrgn : ClipRgn) (regs : BlitRegs)
    : List Write × Option Nat

def ptInRegion (region : ClipRgn) (x y : Int) : Bool :=
  match region.rects.head?, region.rects.getLast? with
  | some head, some tail =>
    if y ≥ tail.bottom ∨ y < head.top then
      false
    else
      (curBand (region.rects.dropWhile fun c => y ≥ c.bottom)).any fun c => inRect c x y
  | _, _ => false

def rectPixels (rc : Rect) : List (Int × Int) :=
  (dots 1 rc.top (rc.bottom - rc.top)).flatMap fun y => (dots 1 rc.left (rc.right - rc.left)).map fun x => (x, y)

namespace PaintEnv

variable (e : PaintEnv)

def found : Bool :=
  (mgCheckEcrgn e.dc).1

def enterDrawing (rcOutput : Rect) : Option Rect :=
  if (mgEnterDrawing e.env e.dc rcOutput).1 then some (intersectRect rcOutput e.dc.rcBound).2 else none

end PaintEnv

namespace PaintDc

section Primitives

variable (e : PaintEnv) (pdc : PaintDc)

def write (p : Int × Int) : Write :=
  ⟨p.1, p.2, pdc.rop, pdc.curPixel⟩

def scanAll (rcOutput : Rect) (curBan : Option Nat) (scans : List Scan) : List Write × Option Nat :=
  scans.foldl
    (fun s scan =>
      let (out, curBan) := ScanDc.exec ⟨e.ecrgn, rcOutput, pdc.step, e.scrBottom⟩ s.2 scan
      (s.1 ++ out.map pdc.write, curBan))
    ([], curBan)

def drawing (rcOutput : Rect) (body : Rect → List Write × Option Nat) : PaintDc × List Write :=
  match e.enterDrawing rcOutput with
  | none => (pdc, [])
  | some rcOutput =>
    let (out, curBan) := body rcOutput
    ({ pdc with curBan }, out)

def setPixelHelper (x y : Int) : PaintDc × List Write :=
  pdc.drawing e ⟨x - 1, y - 1, x + 1, y + 1⟩ fun rcOutput =>
    (if inRect rcOutput x y && ptInRegion e.ecrgn x y then [pdc.write (x, y)] else [], pdc.curBan)

def fillboxClip (rect rcOutput : Rect) : List Write :=
  e.ecrgn.rects.flatMap fun cliprect =>
    let effRc := intersectRect rcOutput cliprect
    if effRc.1 then
      if pdc.rop = .set then
        (rectPixels (intersectRect effRc.2 rect).2).map pdc.write
      else
        (rectPixels effRc.2).map pdc.write
    else
      []

end Primitives

section Calls

variable (gen : Generators) (e : PaintEnv) (pdc : PaintDc)

def lineTo (x y : Int) : PaintDc × List Write :=
  let start := pdc.curPenPos
  let pdc := { pdc with curPenPos := (x, y) }
  if !e.found then
    (pdc, [])
  else
    let (x, y) := e.dc.coorLP2SP x y
    let (startx, starty) := e.dc.coorLP2SP start.1 start.2
    let pdc := { pdc with curPixel := pdc.pencolor, curBan := none, step := 1 }
    if startx = x ∧ starty = y then
      pdc.setPixelHelper e x y
    else
      pdc.drawing e (inflateRect (normalizeRect ⟨startx, starty, x, y⟩) 1 1) fun rcOutput =>
        if starty = y then
          pdc.scanAll e rcOutput pdc.curBan [.drawHline startx x y]
        else if startx = x then
          pdc.scanAll e rcOutput pdc.curBan [.drawVline starty y x]
        else
          let points := e.ecrgn.rects.flatMap fun cliprect =>
            let effRc := intersectRect rcOutput cliprect
            if effRc.1 then gen.line effRc.2 startx starty x y else []
          (points.map pdc.write, pdc.curBan)

def sides (x0 y0 x1 y1 : Int) : List Scan :=
  [.drawHline x0 x1 y0] ++ (if y0 ≠ y1 then [.drawHline x0 x1 y1] else [])
    ++ [.drawVline y0 y1 x0] ++ (if x0 ≠ x1 then [.drawVline y0 y1 x1] else [])

def outline (rc : Rect) : PaintDc × List Write :=
  if rc.left = rc.right ∧ rc.top = rc.bottom then
    pdc.setPixelHelper e rc.left rc.top
  else
    pdc.drawing e { rc with right := rc.right + 1, bottom := rc.bottom + 1 } fun rcOutput =>
      pdc.scanAll e rcOutput pdc.curBan (sides rc.left rc.top rc.right rc.bottom)

def screenRect (x0 y0 x1 y1 : Int) : Rect :=
  let (x0, y0) := e.dc.coorLP2SP x0 y0
  let (x1, y1) := e.dc.coorLP2SP x1 y1
  normalizeRect ⟨x0, y0, x1, y1⟩

def rectangle (x0 y0 x1 y1 : Int) : PaintDc × List Write :=
  if !e.found then
    (pdc, [])
  else
    { pdc with curPixel := pdc.pencolor, curBan := none, step := 1 }.outline e (screenRect e x0 y0 x1 y1)

def focusRect (x0 y0 x1 y1 : Int) : PaintDc × List Write :=
  if !e.found then
    (pdc, [])
  else
    let oldrop := pdc.rop
    let rc := screenRect e x0 y0 x1 y1
    let (pdc, out) := { pdc with curPixel := pdc.pencolor, curBan := none, step := 2, rop := .xor }.outline e rc
    if rc.left = rc.right ∧ rc.top = rc.bottom then
      (pdc, out)
    else
      ({ pdc with rop := oldrop }, out)

def drawHVDotLine (x y wH : Int) (hV : Bool) : PaintDc × List Write :=
  if wH < 1 then
    (pdc, [])
  else if !e.found then
    (pdc, [])
  else
    let (x, y) := e.dc.coorLP2SP x y
    if wH = 1 then
      if (if hV then x else y).tmod 2 = 0 then pdc.setPixelHelper e x y else (pdc, [])
    else
      let rcOutput : Rect := if hV then ⟨x, y, x + wH + 1, y + 2⟩ else ⟨x, y, x + 2, y + wH + 1⟩
      let pdc := { pdc with curPixel := pdc.pencolor, curBan := none, step := 2 }
      pdc.drawing e rcOutput fun rcOutput =>
        pdc.scanAll e rcOutput pdc.curBan [if hV then .drawHline x (x + wH) y else .drawVline y (y + wH) x]

def fillBox (x y w h : Int) : PaintDc × List Write :=
  if w ≤ 0 ∨ h ≤ 0 then
    (pdc, [])
  else if !e.found then
    (pdc, [])
  else
    let (left, top) := e.dc.coorLP2SP x y
    let (right, bottom) := e.dc.coorLP2SP (w + x) (h + y)
    let rc := normalizeRect ⟨left, top, right, bottom⟩
    let pdc := { pdc with curPixel := pdc.brushcolor, curBan := none, step := 1 }
    pdc.drawing e rc fun rcOutput =>
      let rect : Rect := ⟨left, top, left + (rc.right - rc.left), top + (rc.bottom - rc.top)⟩
      (pdc.fillboxClip e rect rcOutput, pdc.curBan)

def hlines (spans : List (Int × Int × Int)) : List Scan :=
  spans.map fun (x1, x2, y) => .drawHline x1 x2 y

def fillPolygon (pts : List (Int × Int)) : PaintDc × List Write :=
  match pts with
  | pt :: rest =>
    if rest.length < 2 then
      (pdc, [])
    else if !e.found then
      (pdc, [])
    else if e.malloc 0 = false then
      (pdc, [])
    else
      let rc := convertVertices e.dc pt rest
      let points := pts.map fun pt => e.dc.coorLP2SP pt.1 pt.2
      let pdc := { pdc with curPixel := pdc.brushcolor, curBan := none }
      pdc.drawing e { rc with right := rc.right + 1, bottom := rc.bottom + 1 } fun rcOutput =>
        let scans : List Scan :=
          if rc.left = rc.right then
            [.drawVline rc.top rc.bottom rc.left]
          else if rc.top = rc.bottom then
            [.drawHline rc.left rc.right rc.top]
          else
            hlines (gen.polygon pts points rcOutput)
        pdc.scanAll e rcOutput pdc.curBan scans
  | [] => (pdc, [])

def fillRound (sx sy rx ry : Int) (spans : Int → Int → List (Int × Int × Int)) : PaintDc × List Write :=
  if !e.found then
    (pdc, [])
  else
    let (sx, sy) := e.dc.coorLP2SP sx sy
    let pdc := { pdc with curPixel := pdc.brushcolor, curBan := none }
    if rx < 1 ∨ ry < 1 then
      pdc.setPixelHelper e sx sy
    else
      pdc.drawing e ⟨sx - rx, sy - ry, sx + rx + 1, sy + ry + 1⟩ fun rcOutput =>
        pdc.scanAll e rcOutput pdc.curBan (hlines (spans sx sy))

def fillCircle (sx sy r : Int) : PaintDc × List Write :=
  pdc.fillRound e sx sy r r fun sx sy => gen.circle sx sy r

def fillEllipse (sx sy rx ry : Int) : PaintDc × List Write :=
  pdc.fillRound e sx sy rx ry fun sx sy => gen.ellipse sx sy rx ry

def floodFillDrawHline (curBan : Option Nat) (line : Int × Int × Int) : List Write × Option Nat :=
  let (x1, x2, y) := line
  match e.enterDrawing ⟨min x1 x2, y, max x1 x2 + 1, y + 1⟩ with
  | none => ([], curBan)
  | some rcOutput => pdc.scanAll e rcOutput curBan [.drawHline x1 x2 y]

def floodFill (x y : Int) : PaintDc × List Write :=
  if !e.found then
    (pdc, [])
  else
    let (x, y) := e.dc.coorLP2SP x y
    let pdc := { pdc with curPixel := pdc.brushcolor, curBan := none, skipPixel := e.pixels x y }
    if pdc.skipPixel = pdc.brushcolor then
      (pdc, [])
    else
      let lines := gen.flood (pdc.floodFillDrawHline e) e.pixels e.dc.devRC x y
      let (out, curBan) :=
        lines.foldl
          (fun s line =>
            let (out, curBan) := pdc.floodFillDrawHline e s.2 line
            (s.1 ++ out, curBan))
          ([], pdc.curBan)
      ({ pdc with curBan }, out)

def blit (bmp : PaintBitmap) (rcOutput : Rect) (draw : Rect → BlitRegs → List Write × Option Nat) : PaintDc × List Write :=
  let oldBkmode := pdc.bkmode
  let pdc := { pdc with step := 1, curBan := none, curPixel := pdc.brushcolor, skipPixel := bmp.bmColorKey }
  let pdc := if bmp.colorkey then { pdc with bkmode := .bmTransparent } else pdc
  match e.enterDrawing rcOutput with
  | none => (pdc, [])
  | some rcOutput =>
    let (out, curBan) := draw rcOutput ⟨pdc.rop, pdc.bkmode, pdc.step, pdc.skipPixel, pdc.curBan⟩
    ({ pdc with curBan, bkmode := oldBkmode }, out)

def bitmapRects (x y w h : Int) : Rect × Rect :=
  let (left, top) := e.dc.coorLP2SP x y
  let (right, bottom) := e.dc.coorLP2SP (w + x) (h + y)
  let rc := normalizeRect ⟨left, top, right, bottom⟩
  (⟨left, top, left + (rc.right - rc.left), top + (rc.bottom - rc.top)⟩, rc)

def beginFillBitmap (x y w h : Int) (bmp : Option PaintBitmap) : Option (PaintBitmap × Rect × Rect) :=
  match bmp with
  | none => none
  | some bmp =>
    if bmp.bmWidth = 0 ∨ bmp.bmHeight = 0 ∨ bmp.hasBits = false ∨ e.found = false then
      none
    else if bmp.rle ∧ e.malloc 0 = false then
      none
    else
      let (w, h) :=
        if bmp.rle then
          (bmp.bmWidth, bmp.bmHeight)
        else
          (if w ≤ 0 then bmp.bmWidth else w, if h ≤ 0 then bmp.bmHeight else h)
      let (rect, rc) := bitmapRects e x y w h
      let scaled := rc.right - rc.left ≠ bmp.bmWidth ∨ rc.bottom - rc.top ≠ bmp.bmHeight
      if scaled ∧ e.malloc 1 = false then none else some (bmp, rect, rc)

def fillBoxWithBitmap (x y w h : Int) (bmp : Option PaintBitmap) : PaintDc × List Write :=
  match beginFillBitmap e x y w h bmp with
  | none => (pdc, [])
  | some (bmp, rect, rcOutput) =>
    pdc.blit e bmp rcOutput fun rcOutput regs => gen.fillBitmap bmp rect rcOutput e.ecrgn regs

def bitmapSize (bmp : PaintBitmap) (bw bh : Int) : Int × Int :=
  (if bw ≤ 0 then bmp.bmWidth else bw, if bh ≤ 0 then bmp.bmHeight else bh)

def beginFillBitmapPart (x y w h bw bh : Int) (bmp : PaintBitmap) (xo yo : Int) : Option (Rect × Rect) :=
  if bmp.bmWidth = 0 ∨ bmp.bmHeight = 0 ∨ bmp.hasBits = false ∨ bmp.rle = true ∨ e.found = false then
    none
  else
    let (rect, rc) := bitmapRects e x y w h
    let (bw, bh) := bitmapSize bmp bw bh
    if xo < 0 ∨ yo < 0 ∨ xo + (rc.right - rc.left) > bw ∨ yo + (rc.bottom - rc.top) > bh then
      none
    else
      let scaled := bw ≠ bmp.bmWidth ∨ bh ≠ bmp.bmHeight
      if scaled ∧ e.malloc 0 = false then none else some (rect, rc)

def fillBoxWithBitmapPart (x y w h bw bh : Int) (bmp : PaintBitmap) (xo yo : Int) : PaintDc × List Write :=
  match beginFillBitmapPart e x y w h bw bh bmp xo yo with
  | none => (pdc, [])
  | some (rect, rcOutput) =>
    let (bw, bh) := bitmapSize bmp bw bh
    pdc.blit e bmp rcOutput fun rcOutput regs => gen.fillBitmapPart bmp rect bw bh xo yo rcOutput e.ecrgn regs

end Calls

end PaintDc

end MiniGui
