import MiniGui.Gdi.RegionAlgebra

/-!
The clipped scan primitives of `newgdi/pixel_ops.c`. A pointer into the clip rectangles is a position in their
list, and what a primitive writes is the list of the pixels in the order in which they are written.
-/

namespace MiniGui

structure ScanDc where
  ecrgn : ClipRgn
  rcOutput : Rect
  step : Int
  scrBottom : Int
deriving DecidableEq, Repr

def inRect (r : Rect) (x y : Int) : Bool :=
  r.right > x && r.left ≤ x && r.bottom > y && r.top ≤ y

def dcClipHline (cliprc : Rect) (px py pw : Int) : Option (Int × Int) :=
  if px ≥ cliprc.right || py ≥ cliprc.bottom || px + pw < cliprc.left || py < cliprc.top then
    none
  else if px ≥ cliprc.left && py ≥ cliprc.top && px + pw < cliprc.right && py < cliprc.bottom then
    some (px, pw)
  else
    let pw' := if px < cliprc.left then pw - (cliprc.left - px) else pw
    let px' := if px < cliprc.left then cliprc.left else px
    let pw'' := if px' + pw' ≥ cliprc.right then cliprc.right - px' else pw'
    if pw'' ≤ 0 then none else some (px', pw'')

def dcWhichRegionBan (region : ClipRgn) (curBan : Option Nat) (y : Int) : Option Nat :=
  match region.rects.head?, region.rects.getLast? with
  | some head, some tail =>
    if y ≥ tail.bottom || y < head.top then
      none
    else
      let start := curBan.getD 0
      if y < (region.rects.getD start default).top then
        let before := (region.rects.take (start + 1)).rdropWhile (fun c => y < c.top)
        if before = [] then none else some (lastBandStart before)
      else
        let k := start + ((region.rects.drop start).takeWhile (fun c => y ≥ c.bottom)).length
        if k < region.rects.length then some k else none
  | _, _ => none

def banAt (region : ClipRgn) (k : Nat) : List Rect :=
  curBand (region.rects.drop k)

def strokes (step : Int) (fuel : Nat) (p w : Int) : List Int :=
  match fuel with
  | 0 => []
  | fuel + 1 => if w > 0 then p :: strokes step fuel (p + step) (w - step) else []

def dots (step p w : Int) : List Int :=
  let tmp := p.tmod step
  let p' := p + tmp
  let w' := w - tmp * 2
  strokes step w'.toNat p' w'

namespace ScanDc

def setPixelClip (pdc : ScanDc) (curBan : Option Nat) (x y : Int) : List (Int × Int) × Option Nat :=
  let curBan := dcWhichRegionBan pdc.ecrgn curBan y
  match curBan with
  | none => ([], curBan)
  | some k =>
    match (banAt pdc.ecrgn k).find? (fun c => inRect pdc.rcOutput x y && inRect c x y) with
    | some _ => ([(x, y)], curBan)
    | none => ([], curBan)

def setPixelPairClip (pdc : ScanDc) (curBan : Option Nat) (x1 x2 y : Int) : List (Int × Int) × Option Nat :=
  let a := if x1 > x2 then x2 else x1
  let b := if x1 > x2 then x1 else x2
  let curBan := dcWhichRegionBan pdc.ecrgn curBan y
  match curBan with
  | none => ([], curBan)
  | some k =>
    let ban := banAt pdc.ecrgn k
    -- The rectangles from the one that holds the first pixel on.
    let rest := ban.dropWhile (fun c => !(inRect pdc.rcOutput a y && inRect c a y))
    let first := if rest = [] then [] else [(a, y)]
    if a ≠ b then
      let rest := if rest = [] then ban else rest
      match rest.find? (fun c => inRect pdc.rcOutput b y && inRect c b y) with
      | some _ => (first ++ [(b, y)], curBan)
      | none => (first, curBan)
    else
      (first, curBan)

def hlineIn (pdc : ScanDc) (x1 w y : Int) (cliprect : Rect) : List (Int × Int) :=
  let effRc := intersectRect pdc.rcOutput cliprect
  if effRc.1 then
    match dcClipHline effRc.2 x1 y w with
    | some (x, w) => (dots pdc.step x w).map (fun p => (p, y))
    | none => []
  else
    []

def drawHlineClip (pdc : ScanDc) (curBan : Option Nat) (x1 x2 y : Int) : List (Int × Int) × Option Nat :=
  if y < 0 || y ≥ pdc.scrBottom then
    ([], curBan)
  else if x1 = x2 then
    if x1.tmod pdc.step = 0 then pdc.setPixelClip curBan x1 y else ([], curBan)
  else
    let a := if x1 > x2 then x2 else x1
    let b := if x1 > x2 then x1 else x2
    let curBan := dcWhichRegionBan pdc.ecrgn curBan y
    match curBan with
    | none => ([], curBan)
    | some k => ((banAt pdc.ecrgn k).flatMap (pdc.hlineIn a (b - a + 1) y), curBan)

def vlineIn (pdc : ScanDc) (x y2 : Int) (s : List (Int × Int) × Int) (cliprect : Rect) : List (Int × Int) × Int :=
  let effRc := intersectRect pdc.rcOutput cliprect
  if effRc.1 && x ≥ effRc.2.left && x < effRc.2.right then
    let y1 := if s.2 < effRc.2.top then effRc.2.top else s.2
    let h := if y2 ≥ effRc.2.bottom then effRc.2.bottom - y1 else y2 - y1 + 1
    (s.1 ++ (dots pdc.step y1 h).map (fun p => (x, p)), if h > 0 then y1 + h else y1)
  else
    s

theorem length_bandEnd_dropWhile (q : Rect → Bool) (l : List Rect) (h : l.dropWhile q ≠ [])
    : (bandEnd (l.dropWhile q)).length < l.length := by
  cases hdrop : l.dropWhile q with
  | nil => exact absurd hdrop h
  | cons a m =>
    have hlt := bandEnd_length_lt a m
    have hle := List.length_dropWhile_le q l
    rw [hdrop] at hle
    omega

def vlineLoop (pdc : ScanDc) (x y2 : Int) (l : List Rect) (y1 : Int) : List (Int × Int) :=
  let ban := l.dropWhile (fun c => y1 ≥ c.bottom)
  if _h : ban = [] then
    []
  else
    let s := (curBand ban).foldl (pdc.vlineIn x y2) ([], y1)
    if bandEnd ban ≠ [] ∧ y2 > s.2 then
      s.1 ++ pdc.vlineLoop x y2 (bandEnd ban) s.2
    else
      s.1
termination_by l.length
decreasing_by exact length_bandEnd_dropWhile _ l _h

def drawVlineClip (pdc : ScanDc) (curBan : Option Nat) (y1 y2 x : Int) : List (Int × Int) × Option Nat :=
  if y1 = y2 then
    if y1.tmod pdc.step = 0 then pdc.setPixelClip curBan x y1 else ([], curBan)
  else
    let a := if y1 > y2 then y2 else y1
    let b := if y1 > y2 then y1 else y2
    match pdc.ecrgn.rects.head?, pdc.ecrgn.rects.getLast? with
    | some head, some tail =>
      if a ≥ tail.bottom || b < head.top then
        ([], curBan)
      else
        (pdc.vlineLoop x b pdc.ecrgn.rects a, curBan)
    | _, _ => ([], curBan)

end ScanDc

inductive Scan where
  | setPixel (x y : Int)
  | setPixelPair (x1 x2 y : Int)
  | drawHline (x1 x2 y : Int)
  | drawVline (y1 y2 x : Int)
deriving DecidableEq, Repr

namespace ScanDc

def exec (pdc : ScanDc) (curBan : Option Nat) (scan : Scan) : List (Int × Int) × Option Nat :=
  match scan with
  | .setPixel x y => pdc.setPixelClip curBan x y
  | .setPixelPair x1 x2 y => pdc.setPixelPairClip curBan x1 x2 y
  | .drawHline x1 x2 y => pdc.drawHlineClip curBan x1 x2 y
  | .drawVline y1 y2 x => pdc.drawVlineClip curBan y1 y2 x

def banAfter (pdc : ScanDc) (scans : List Scan) : Option Nat :=
  scans.foldl (fun curBan scan => (pdc.exec curBan scan).2) none

end ScanDc

end MiniGui
