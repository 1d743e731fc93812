import MiniGui.Gdi.Rect

/-!
The y-x-banded clip regions of `newgdi/region.c`. The doubly linked list of clip rectangles from
`head` to `tail` is a `List Rect`, a pointer into the list under construction is a position in it, and
a source list that is consumed from the front is the list of what is left of it. Allocation of clip
rectangles does not fail.
-/

namespace MiniGui

open Function

inductive RgnType where
  | nullRegion
  | simpleRegion
  | complexRegion
deriving DecidableEq, Repr

structure ClipRgn where
  type : RgnType
  rcBound : Rect
  rects : List Rect
deriving DecidableEq, Repr

def emptyClipRgn : ClipRgn :=
  { type := .nullRegion, rcBound := .zero, rects := [] }

abbrev RgnStore (ι : Type) := ι → ClipRgn

def extentCheck (r1 r2 : Rect) : Bool :=
  r1.right > r2.left && r1.left < r2.right && r1.bottom > r2.top && r1.top < r2.bottom

def setClipRgn (pRgn : ClipRgn) (pRect : Rect) : Bool × ClipRgn :=
  if isRectEmpty pRect then
    (false, pRgn)
  else
    (true, { type := .simpleRegion, rcBound := pRect, rects := [pRect] })

def widenExtents (ext cliprect : Rect) : Rect :=
  {
    ext with
    left := if cliprect.left < ext.left then cliprect.left else ext.left
    right := if cliprect.right > ext.right then cliprect.right else ext.right
  }

def regionSetExtents (region : ClipRgn) : ClipRgn :=
  match region.rects, region.rects.getLast? with
  | head :: _, some tail =>
    let ext : Rect := ⟨head.left, head.top, tail.right, tail.bottom⟩
    { region with rcBound := region.rects.foldl widenExtents ext }
  | _, _ => { region with rcBound := .zero }

def newClipRect (region : List Rect) (rect : Rect) : List Rect :=
  region ++ [rect]

abbrev OverlapFunc := List Rect → List Rect → List Rect → Int → Int → List Rect

abbrev NonOverlapFunc := List Rect → List Rect → Int → Int → List Rect

def regionIntersectO (region r1 r2 : List Rect) (top bottom : Int) : List Rect :=
  match r1, r2 with
  | a :: r1, b :: r2 =>
    let left := max a.left b.left
    let right := min a.right b.right
    let region := if left < right then newClipRect region ⟨left, top, right, bottom⟩ else region
    if a.right < b.right then
      regionIntersectO region r1 (b :: r2) top bottom
    else if b.right < a.right then
      regionIntersectO region (a :: r1) r2 top bottom
    else
      regionIntersectO region r1 r2 top bottom
  | _, _ => region
termination_by r1.length + r2.length

def regionUnionNonO (region r : List Rect) (top bottom : Int) : List Rect :=
  match r with
  | [] => region
  | a :: r => regionUnionNonO (newClipRect region ⟨a.left, top, a.right, bottom⟩) r top bottom

def mergeRect (region : List Rect) (r : Rect) (top bottom : Int) : List Rect :=
  match region.getLast? with
  | some tail =>
    if tail.top = top ∧ tail.bottom = bottom ∧ tail.right ≥ r.left then
      if tail.right < r.right then
        region.dropLast ++ [{ tail with right := r.right }]
      else
        region
    else
      newClipRect region ⟨r.left, top, r.right, bottom⟩
  | none => newClipRect region ⟨r.left, top, r.right, bottom⟩

def regionUnionO (region r1 r2 : List Rect) (top bottom : Int) : List Rect :=
  match r1, r2 with
  | a :: r1, b :: r2 =>
    if a.left < b.left then
      regionUnionO (mergeRect region a top bottom) r1 (b :: r2) top bottom
    else
      regionUnionO (mergeRect region b top bottom) (a :: r1) r2 top bottom
  | a :: r1, [] => regionUnionO (mergeRect region a top bottom) r1 [] top bottom
  | [], b :: r2 => regionUnionO (mergeRect region b top bottom) [] r2 top bottom
  | [], [] => region
termination_by r1.length + r2.length

def regionSubtractNonO1 (region r : List Rect) (top bottom : Int) : List Rect :=
  match r with
  | [] => region
  | a :: r => regionSubtractNonO1 (newClipRect region ⟨a.left, top, a.right, bottom⟩) r top bottom

def regionSubtractO (region r1 r2 : List Rect) (top bottom : Int) : List Rect :=
  match r1 with
  | [] => region
  | a :: _ => go a.left region r1 r2
where
  /-- `left` after `r1 = r1->next`, which keeps its value at the end of the band. -/
  advance (left : Int) : List Rect → Int
    | [] => left
    | a :: _ => a.left
  /-- `left` is the left-most point not yet checked. -/
  go (left : Int) (region r1 r2 : List Rect) : List Rect :=
    match r1, r2 with
    | [], _ => region
    | a :: r1, [] =>
      -- Add remaining minuend rectangles to region.
      go (advance left r1) (newClipRect region ⟨left, top, a.right, bottom⟩) r1 []
    | a :: r1, b :: r2 =>
      if b.right ≤ left then
        -- Subtrahend missed the boat.
        go left region (a :: r1) r2
      else if b.left ≤ left then
        -- Subtrahend preceeds minuend: nuke left edge of minuend.
        if b.right ≥ a.right then
          go (advance b.right r1) region r1 (b :: r2)
        else
          go b.right region (a :: r1) r2
      else if b.left < a.right then
        -- Left part of subtrahend covers part of minuend.
        let region := newClipRect region ⟨left, top, b.left, bottom⟩
        if b.right ≥ a.right then
          go (advance b.right r1) region r1 (b :: r2)
        else
          go b.right region (a :: r1) r2
      else
        -- Minuend used up.
        let region :=
          if a.right > left then newClipRect region ⟨left, top, a.right, bottom⟩ else region
        go (advance left r1) region r1 (b :: r2)
  termination_by r1.length + r2.length

section RegionOp

/--
The position of the tail; `none` is the null pointer.
-/
def tailPos (region : List Rect) : Option Nat :=
  if region = [] then none else some (region.length - 1)

def lastBandStart (region : List Rect) : Nat :=
  match region.getLast? with
  | some tail => region.length - (region.reverse.takeWhile (fun r => r.top = tail.top)).length
  | none => 0

def regionCoalesce (region : List Rect) (prevStart curStart : Option Nat) : List Rect × Nat :=
  let prevStart := prevStart.getD 0
  let curStart := curStart.getD 0
  if prevStart = curStart then
    (region, prevStart)
  else
    let prevNumRects := curStart - prevStart
    let cur := region.drop curStart
    let bandtop := (cur.headD default).top
    let curNumRects := (cur.takeWhile (fun r => r.top = bandtop)).length
    -- Are there further bands after the current one?
    let more := curStart + curNumRects < region.length
    let newStart := if more then lastBandStart region else curStart
    let prevRects := (region.drop prevStart).take prevNumRects
    let curRects := cur.take curNumRects
    if curNumRects = prevNumRects ∧ curNumRects ≠ 0
        ∧ (prevRects.headD default).bottom = (curRects.headD default).top
        ∧ (prevRects.map (fun r => (r.left, r.right))) = (curRects.map (fun r => (r.left, r.right))) then
      let merged := prevRects.zipWith (fun p c => { p with bottom := c.bottom }) curRects
      -- The freed rectangles lie before `newStart` when there are further bands.
      (region.take prevStart ++ merged ++ region.drop (curStart + curNumRects),
        if more then newStart - curNumRects else prevStart)
    else
      (region, newStart)

def curBand : List Rect → List Rect
  | [] => []
  | r :: l => (r :: l).takeWhile (fun c => c.top = r.top)

def bandEnd : List Rect → List Rect
  | [] => []
  | r :: l => (r :: l).dropWhile (fun c => c.top = r.top)

structure RegionOpState where
  r1 : List Rect
  r2 : List Rect
  pdst : List Rect
  prevBand : Option Nat
  ybot : Int

def coalesceAdded (curBand : Option Nat) (pdst : List Rect) (prevBand : Option Nat)
    : List Rect × Option Nat :=
  if tailPos pdst ≠ curBand then
    let (pdst, newStart) := regionCoalesce pdst prevBand curBand
    (pdst, some newStart)
  else
    (pdst, prevBand)

def callNonOverlap (f : Option NonOverlapFunc) (pdst r : List Rect) (top bot : Int) : List Rect :=
  match f with
  | some f => f pdst r top bot
  | none => pdst

variable (overlapFunc : OverlapFunc) (nonOverlap1Func nonOverlap2Func : Option NonOverlapFunc)

def nonIntersecting (s : RegionOpState) (a b : Rect) : List Rect × Int :=
  if a.top < b.top then
    let top := max a.top s.ybot
    let bot := min a.bottom b.top
    (if top ≠ bot then callNonOverlap nonOverlap1Func s.pdst (curBand s.r1) top bot else s.pdst,
      b.top)
  else if b.top < a.top then
    let top := max b.top s.ybot
    let bot := min b.bottom a.top
    (if top ≠ bot then callNonOverlap nonOverlap2Func s.pdst (curBand s.r2) top bot else s.pdst,
      a.top)
  else
    (s.pdst, a.top)

def regionOpStep (s : RegionOpState) (a b : Rect) : RegionOpState :=
  let cur := tailPos s.pdst
  let (pdst, ytop) := nonIntersecting nonOverlap1Func nonOverlap2Func s a b
  let (pdst, prevBand) := coalesceAdded cur pdst s.prevBand
  let ybot := min a.bottom b.bottom
  let cur := tailPos pdst
  let pdst :=
    if ybot > ytop then overlapFunc pdst (curBand s.r1) (curBand s.r2) ytop ybot else pdst
  let (pdst, prevBand) := coalesceAdded cur pdst prevBand
  {
    r1 := if a.bottom = ybot then bandEnd s.r1 else s.r1
    r2 := if b.bottom = ybot then bandEnd s.r2 else s.r2
    pdst
    prevBand
    ybot
  }

theorem bandEnd_length_lt (r : Rect) (l : List Rect)
    : (bandEnd (r :: l)).length < (r :: l).length := by
  have := List.length_dropWhile_le (fun c : Rect => decide (c.top = r.top)) l
  simp only [bandEnd, List.dropWhile_cons, decide_true, ↓reduceIte, List.length_cons]
  omega

def regionOpLoop (s : RegionOpState) : RegionOpState :=
  match _h1 : s.r1, _h2 : s.r2 with
  | a :: _l1, b :: _l2 =>
    regionOpLoop (regionOpStep overlapFunc nonOverlap1Func nonOverlap2Func s a b)
  | _, _ => s
termination_by s.r1.length + s.r2.length
decreasing_by
  have ha := bandEnd_length_lt a _l1
  have hb := bandEnd_length_lt b _l2
  simp only [regionOpStep, _h1, _h2]
  split <;> split
  all_goals omega

def regionOpRest (nonOverlapFunc : NonOverlapFunc) (ybot : Int) (pdst r : List Rect) : List Rect :=
  match r with
  | [] => pdst
  | a :: l =>
    regionOpRest nonOverlapFunc ybot
      (nonOverlapFunc pdst (curBand (a :: l)) (max a.top ybot) a.bottom) (bandEnd (a :: l))
termination_by r.length
decreasing_by exact bandEnd_length_lt a l

def nonOverlapRest (f : Option NonOverlapFunc) (ybot : Int) (pdst r : List Rect) : List Rect :=
  match f with
  | some f => regionOpRest f ybot pdst r
  | none => pdst

def regionOpRects (r1 r2 : List Rect) (ybot : Int) : List Rect :=
  let s := regionOpLoop overlapFunc nonOverlap1Func nonOverlap2Func
    { r1, r2, pdst := [], prevBand := none, ybot }
  let cur := tailPos s.pdst
  let pdst :=
    if s.r1 ≠ [] then
      nonOverlapRest nonOverlap1Func s.ybot s.pdst s.r1
    else
      nonOverlapRest nonOverlap2Func s.ybot s.pdst s.r2
  (coalesceAdded cur pdst s.prevBand).1

variable {ι : Type} [DecidableEq ι]

def regionOp (m : RgnStore ι) (newReg reg1 reg2 : ι) : RgnStore ι :=
  let r1 := (m reg1).rects
  let r2 := (m reg2).rects
  -- newReg may be one of the src regions so we can't empty it.
  let m := if newReg = reg1 ∨ newReg = reg2 then m else update m newReg emptyClipRgn
  let ybot :=
    if (m reg1).rcBound.top < (m reg2).rcBound.top then
      (m reg1).rcBound.top
    else
      (m reg2).rcBound.top
  let rects := regionOpRects overlapFunc nonOverlap1Func nonOverlap2Func r1 r2 ybot
  update m newReg { emptyClipRgn with rects }

end RegionOp

section Operations

variable {ι : Type} [DecidableEq ι]

def clipRgnCopy (m : RgnStore ι) (pDstRgn pSrcRgn : ι) : Bool × RgnStore ι :=
  if pDstRgn = pSrcRgn then
    (false, m)
  else
    let m := update m pDstRgn emptyClipRgn
    if (m pSrcRgn).rects = [] then
      (true, m)
    else
      (true, update m pDstRgn (m pSrcRgn))

def finishRegion (m : RgnStore ι) (dst : ι) : RgnStore ι :=
  let region := regionSetExtents (m dst)
  update m dst
    { region with type := if region.rects = [] then .nullRegion else .complexRegion }

def clipRgnIntersect (m : RgnStore ι) (dst src1 src2 : ι) : Bool × RgnStore ι :=
  if (m src1).rects = [] || (m src2).rects = []
      || !extentCheck (m src1).rcBound (m src2).rcBound then
    (false, update m dst emptyClipRgn)
  else
    (true, finishRegion (regionOp regionIntersectO none none m dst src1 src2) dst)

def subtractRegion (m : RgnStore ι) (rgnD rgnM rgnS : ι) : Bool × RgnStore ι :=
  if (m rgnM).rects = [] || (m rgnS).rects = []
      || !extentCheck (m rgnM).rcBound (m rgnS).rcBound then
    (true, (clipRgnCopy m rgnD rgnM).2)
  else
    (true,
      finishRegion (regionOp regionSubtractO (some regionSubtractNonO1) none m rgnD rgnM rgnS) rgnD)

def subsumes (src1 src2 : ClipRgn) : Bool :=
  src1.rects.length = 1
    && src1.rcBound.left ≤ src2.rcBound.left
    && src1.rcBound.top ≤ src2.rcBound.top
    && src1.rcBound.right ≥ src2.rcBound.right
    && src1.rcBound.bottom ≥ src2.rcBound.bottom

def unionRegion (m : RgnStore ι) (dst src1 src2 : ι) : Bool × RgnStore ι :=
  if src1 = src2 || (m src1).rects = [] then
    (true, if dst ≠ src2 then (clipRgnCopy m dst src2).2 else m)
  else if (m src2).rects = [] then
    (true, if dst ≠ src1 then (clipRgnCopy m dst src1).2 else m)
  else if subsumes (m src1) (m src2) then
    (true, if dst ≠ src1 then (clipRgnCopy m dst src1).2 else m)
  else if subsumes (m src2) (m src1) then
    (true, if dst ≠ src2 then (clipRgnCopy m dst src2).2 else m)
  else
    (true,
      finishRegion
        (regionOp regionUnionO (some regionUnionNonO) (some regionUnionNonO) m dst src1 src2) dst)

inductive XorObj (ι : Type) where
  | arg (i : ι)
  | tmpa
  | tmpb
deriving DecidableEq

def xorRegion (m : RgnStore ι) (dst src1 src2 : ι) : Bool × RgnStore ι :=
  let m : RgnStore (XorObj ι)
    | .arg i => m i
    | .tmpa => emptyClipRgn
    | .tmpb => emptyClipRgn
  let m := (subtractRegion m .tmpa (.arg src1) (.arg src2)).2
  let m := (subtractRegion m .tmpb (.arg src2) (.arg src1)).2
  let m := (unionRegion m (.arg dst) .tmpa .tmpb).2
  (true, fun i => m (.arg i))

inductive ClipRectObj where
  | region
  | myRegion
deriving DecidableEq

def clipRectStore (region : ClipRgn) (rect : Rect) : RgnStore ClipRectObj
  | .region => region
  | .myRegion => { type := .simpleRegion, rcBound := rect, rects := [rect] }

def addClipRect (region : ClipRgn) (rect : Rect) : Bool × ClipRgn :=
  if isRectEmpty rect then
    (false, region)
  else
    (true, (unionRegion (clipRectStore region rect) .region .region .myRegion).2 .region)

def intersectClipRect (region : ClipRgn) (rect : Rect) : Bool × ClipRgn :=
  if isRectEmpty rect then
    (true, emptyClipRgn)
  else
    (true, (clipRgnIntersect (clipRectStore region rect) .region .region .myRegion).2 .region)

def subtractClipRect (region : ClipRgn) (rect : Rect) : Bool × ClipRgn :=
  if isRectEmpty rect || !doesIntersect region.rcBound rect then
    (false, region)
  else
    (true, (subtractRegion (clipRectStore region rect) .region .region .myRegion).2 .region)

def offsetRect (r : Rect) (x y : Int) : Rect :=
  ⟨r.left + x, r.top + y, r.right + x, r.bottom + y⟩

def offsetRegion (region : ClipRgn) (x y : Int) : ClipRgn :=
  {
    region with
    rects := region.rects.map (fun r => offsetRect r x y)
    rcBound := if region.rects = [] then region.rcBound else offsetRect region.rcBound x y
  }

end Operations

end MiniGui
