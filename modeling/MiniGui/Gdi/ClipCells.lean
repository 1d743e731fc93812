import MiniGui.Gdi.RegionAlgebra
import MiniGui.Library.DList

/-!
The regions of `newgdi/region.c` with their clip rectangles in memory: cells that are allocated and freed, linked
by `next` and `prev`, and regions that point to the first and the last one. The null pointer is 0.
-/

namespace MiniGui.Cells

open Function

structure BlockHeap where
  alloc : Finset Nat → Nat
  fresh : ∀ used, alloc used ∉ used
  ne_null : ∀ used, alloc used ≠ 0

structure Mem where
  rc : Nat → Rect
  next : Nat → Nat
  prev : Nat → Nat
  used : Finset Nat

structure Region where
  type : RgnType
  rcBound : Rect
  head : Nat
  tail : Nat

def initClipRgn : Region :=
  { type := .nullRegion, rcBound := .zero, head := 0, tail := 0 }

structure Dst where
  mem : Mem
  head : Nat
  tail : Nat

def walk (next : Nat → Nat) : Nat → Nat → List Nat
  | 0, _ => []
  | n + 1, a => if a = 0 then [] else a :: walk next n (next a)

def Mem.chain (mem : Mem) (a : Nat) : List Nat :=
  walk mem.next mem.used.card a

def Mem.rects (mem : Mem) (a : Nat) : List Rect :=
  (mem.chain a).map mem.rc

def freeClipRect (mem : Mem) (a : Nat) : Mem :=
  { mem with used := mem.used.erase a }

def setRc (mem : Mem) (a : Nat) (rc : Rect) : Mem :=
  { mem with rc := update mem.rc a rc }

variable (heap : BlockHeap)

def newClipRect (region : Dst) (rect : Rect) : Dst :=
  let a := heap.alloc region.mem.used
  let next := update region.mem.next a 0
  {
    mem := {
      rc := update region.mem.rc a rect
      next := if region.tail ≠ 0 then update next region.tail a else next
      prev := update region.mem.prev a region.tail
      used := insert a region.mem.used
    }
    head := if region.head = 0 then a else region.head
    tail := a
  }

def regionIntersectO (region : Dst) (r1 r2 : List Rect) (top bottom : Int) : Dst :=
  match r1, r2 with
  | a :: r1, b :: r2 =>
    let left := max a.left b.left
    let right := min a.right b.right
    let region := if left < right then newClipRect heap region ⟨left, top, right, bottom⟩ else region
    if a.right < b.right then
      regionIntersectO region r1 (b :: r2) top bottom
    else if b.right < a.right then
      regionIntersectO region (a :: r1) r2 top bottom
    else
      regionIntersectO region r1 r2 top bottom
  | _, _ => region
termination_by r1.length + r2.length

def regionUnionNonO (region : Dst) (r : List Rect) (top bottom : Int) : Dst :=
  match r with
  | [] => region
  | a :: r => regionUnionNonO (newClipRect heap region ⟨a.left, top, a.right, bottom⟩) r top bottom

def mergeRect (region : Dst) (r : Rect) (top bottom : Int) : Dst :=
  let tail := region.mem.rc region.tail
  if region.head ≠ 0 ∧ tail.top = top ∧ tail.bottom = bottom ∧ tail.right ≥ r.left then
    if tail.right < r.right then
      { region with mem := setRc region.mem region.tail { tail with right := r.right } }
    else
      region
  else
    newClipRect heap region ⟨r.left, top, r.right, bottom⟩

def regionUnionO (region : Dst) (r1 r2 : List Rect) (top bottom : Int) : Dst :=
  match r1, r2 with
  | a :: r1, b :: r2 =>
    if a.left < b.left then
      regionUnionO (mergeRect heap region a top bottom) r1 (b :: r2) top bottom
    else
      regionUnionO (mergeRect heap region b top bottom) (a :: r1) r2 top bottom
  | a :: r1, [] => regionUnionO (mergeRect heap region a top bottom) r1 [] top bottom
  | [], b :: r2 => regionUnionO (mergeRect heap region b top bottom) [] r2 top bottom
  | [], [] => region
termination_by r1.length + r2.length

def regionSubtractNonO1 (region : Dst) (r : List Rect) (top bottom : Int) : Dst :=
  match r with
  | [] => region
  | a :: r => regionSubtractNonO1 (newClipRect heap region ⟨a.left, top, a.right, bottom⟩) r top bottom

def regionSubtractO (region : Dst) (r1 r2 : List Rect) (top bottom : Int) : Dst :=
  match r1 with
  | [] => region
  | a :: _ => go a.left region r1 r2
where
  /-- `left` after `r1 = r1->next`, which keeps its value at the end of the band. -/
  advance (left : Int) : List Rect → Int
    | [] => left
    | a :: _ => a.left
  /-- `left` is the left-most point not yet checked. -/
  go (left : Int) (region : Dst) (r1 r2 : List Rect) : Dst :=
    match r1, r2 with
    | [], _ => region
    | a :: r1, [] =>
      go (advance left r1) (newClipRect heap region ⟨left, top, a.right, bottom⟩) r1 []
    | a :: r1, b :: r2 =>
      if b.right ≤ left then
        go left region (a :: r1) r2
      else if b.left ≤ left then
        if b.right ≥ a.right then
          go (advance b.right r1) region r1 (b :: r2)
        else
          go b.right region (a :: r1) r2
      else if b.left < a.right then
        let region := newClipRect heap region ⟨left, top, b.left, bottom⟩
        if b.right ≥ a.right then
          go (advance b.right r1) region r1 (b :: r2)
        else
          go b.right region (a :: r1) r2
      else
        let region :=
          if a.right > left then newClipRect heap region ⟨left, top, a.right, bottom⟩ else region
        go (advance left r1) region r1 (b :: r2)
  termination_by r1.length + r2.length

section RegionOp

def lastBandStart (mem : Mem) : Nat → Nat → Nat
  | 0, temp => temp
  | n + 1, temp =>
    if mem.prev temp ≠ 0 ∧ (mem.rc (mem.prev temp)).top = (mem.rc temp).top then
      lastBandStart mem n (mem.prev temp)
    else
      temp

def mergeInto (region : Dst) (pPrevRect pCurRect : Nat) : Dst :=
  let mem := setRc region.mem pPrevRect
    { region.mem.rc pPrevRect with bottom := (region.mem.rc pCurRect).bottom }
  let next := mem.next pCurRect
  let prev := mem.prev pCurRect
  {
    mem := freeClipRect
      {
        mem with
        prev := if next ≠ 0 then update mem.prev next prev else mem.prev
        next := if prev ≠ 0 then update mem.next prev next else mem.next
      }
      pCurRect
    tail := if next ≠ 0 then region.tail else prev
    head := if prev ≠ 0 then region.head else next
  }

def mergeBand (region : Dst) : List Nat → List Nat → Dst
  | pPrevRect :: prevRects, pCurRect :: curRects => mergeBand (mergeInto region pPrevRect pCurRect) prevRects curRects
  | _, _ => region

def regionCoalesce (region : Dst) (prevStart curStart : Nat) : Dst × Nat :=
  let mem := region.mem
  let prevStart := if prevStart = 0 then region.head else prevStart
  let curStart := if curStart = 0 then region.head else curStart
  if prevStart = curStart then
    (region, prevStart)
  else
    let prevRects := (mem.chain prevStart).takeWhile (· ≠ curStart)
    let bandtop := (mem.rc curStart).top
    let curRects := (mem.chain curStart).takeWhile fun a => (mem.rc a).top = bandtop
    -- Are there further bands after the current one?
    let more := (mem.chain curStart).drop curRects.length ≠ []
    let newStart := if more then lastBandStart mem mem.used.card region.tail else curStart
    if curRects.length = prevRects.length ∧ curRects.length ≠ 0
        ∧ (mem.rc prevStart).bottom = (mem.rc curStart).top
        ∧ prevRects.map (fun a => ((mem.rc a).left, (mem.rc a).right))
          = curRects.map (fun a => ((mem.rc a).left, (mem.rc a).right)) then
      (mergeBand region prevRects curRects, if more then newStart else prevStart)
    else
      (region, newStart)

abbrev OverlapFunc := Dst → List Rect → List Rect → Int → Int → Dst

abbrev NonOverlapFunc := Dst → List Rect → Int → Int → Dst

structure RegionOpState where
  r1 : List Rect
  r2 : List Rect
  pdst : Dst
  prevBand : Nat
  ybot : Int

def coalesceAdded (curBand : Nat) (pdst : Dst) (prevBand : Nat) : Dst × Nat :=
  if pdst.tail ≠ curBand then regionCoalesce pdst prevBand curBand else (pdst, prevBand)

def callNonOverlap (f : Option NonOverlapFunc) (pdst : Dst) (r : List Rect) (top bot : Int) : Dst :=
  match f with
  | some f => f pdst r top bot
  | none => pdst

variable (overlapFunc : OverlapFunc) (nonOverlap1Func nonOverlap2Func : Option NonOverlapFunc)

def nonIntersecting (s : RegionOpState) (a b : Rect) : Dst × Int :=
  if a.top < b.top then
    let top := max a.top s.ybot
    let bot := min a.bottom b.top
    (if top ≠ bot then callNonOverlap nonOverlap1Func s.pdst (curBand s.r1) top bot else s.pdst,
      b.top)
  else if b.top < a.top then
    let top := max b.top s.ybot
    let bot := min b.bottom a.top
    (if top ≠ bot then callNonOverlap nonOverlap2Func s.pdst (curBand s.r2) top bot else s.pdst,
      a.top)
  else
    (s.pdst, a.top)

def regionOpStep (s : RegionOpState) (a b : Rect) : RegionOpState :=
  let cur := s.pdst.tail
  let (pdst, ytop) := nonIntersecting nonOverlap1Func nonOverlap2Func s a b
  let (pdst, prevBand) := coalesceAdded cur pdst s.prevBand
  let ybot := min a.bottom b.bottom
  let cur := pdst.tail
  let pdst :=
    if ybot > ytop then overlapFunc pdst (curBand s.r1) (curBand s.r2) ytop ybot else pdst
  let (pdst, prevBand) := coalesceAdded cur pdst prevBand
  {
    r1 := if a.bottom = ybot then bandEnd s.r1 else s.r1
    r2 := if b.bottom = ybot then bandEnd s.r2 else s.r2
    pdst
    prevBand
    ybot
  }

def regionOpLoop (s : RegionOpState) : RegionOpState :=
  match _h1 : s.r1, _h2 : s.r2 with
  | a :: _l1, b :: _l2 =>
    regionOpLoop (regionOpStep overlapFunc nonOverlap1Func nonOverlap2Func s a b)
  | _, _ => s
termination_by s.r1.length + s.r2.length
decreasing_by
  have ha := bandEnd_length_lt a _l1
  have hb := bandEnd_length_lt b _l2
  simp only [regionOpStep, _h1, _h2]
  split <;> split
  all_goals omega

def regionOpRest (nonOverlapFunc : NonOverlapFunc) (ybot : Int) (pdst : Dst) (r : List Rect) : Dst :=
  match r with
  | [] => pdst
  | a :: l =>
    regionOpRest nonOverlapFunc ybot
      (nonOverlapFunc pdst (curBand (a :: l)) (max a.top ybot) a.bottom) (bandEnd (a :: l))
termination_by r.length
decreasing_by exact bandEnd_length_lt a l

def nonOverlapRest (f : Option NonOverlapFunc) (ybot : Int) (pdst : Dst) (r : List Rect) : Dst :=
  match f with
  | some f => regionOpRest f ybot pdst r
  | none => pdst

def regionOpRects (mem : Mem) (r1 r2 : List Rect) (ybot : Int) : Dst :=
  let s := regionOpLoop overlapFunc nonOverlap1Func nonOverlap2Func
    { r1, r2, pdst := { mem, head := 0, tail := 0 }, prevBand := 0, ybot }
  let cur := s.pdst.tail
  let pdst :=
    if s.r1 ≠ [] then
      nonOverlapRest nonOverlap1Func s.ybot s.pdst s.r1
    else
      nonOverlapRest nonOverlap2Func s.ybot s.pdst s.r2
  (coalesceAdded cur pdst s.prevBand).1

end RegionOp

section Operations

structure Store (ι : Type) where
  mem : Mem
  rgn : ι → Region

variable {ι : Type} [DecidableEq ι]

def Store.set (s : Store ι) (i : ι) (mem : Mem) (region : Region) : Store ι :=
  { mem, rgn := update s.rgn i region }

def emptyClipRgn (s : Store ι) (pRgn : ι) : Store ι :=
  s.set pRgn ((s.mem.chain (s.rgn pRgn).head).foldl freeClipRect s.mem) initClipRgn

def setClipRgn (s : Store ι) (pRgn : ι) (pRect : Rect) : Bool × Store ι :=
  if isRectEmpty pRect then
    (false, s)
  else
    let s := emptyClipRgn s pRgn
    let dst := newClipRect heap { mem := s.mem, head := 0, tail := 0 } pRect
    (true, s.set pRgn dst.mem { type := .simpleRegion, rcBound := pRect, head := dst.head, tail := dst.tail })

def clipRgnCopy (s : Store ι) (pDstRgn pSrcRgn : ι) : Bool × Store ι :=
  if pDstRgn = pSrcRgn then
    (false, s)
  else
    let src := s.rgn pSrcRgn
    let s := emptyClipRgn s pDstRgn
    if src.head = 0 then
      (true, s)
    else
      let dst := (s.mem.rects src.head).foldl (newClipRect heap) { mem := s.mem, head := 0, tail := 0 }
      (true, s.set pDstRgn dst.mem { type := src.type, rcBound := src.rcBound, head := dst.head, tail := dst.tail })

def regionSetExtents (s : Store ι) (region : ι) : Store ι :=
  let r := s.rgn region
  if r.head = 0 then
    s.set region s.mem { r with rcBound := .zero }
  else
    let head := s.mem.rc r.head
    let tail := s.mem.rc r.tail
    let ext : Rect := ⟨head.left, head.top, tail.right, tail.bottom⟩
    s.set region s.mem { r with rcBound := (s.mem.rects r.head).foldl widenExtents ext }

def regionOp (overlapFunc : OverlapFunc) (nonOverlap1Func nonOverlap2Func : Option NonOverlapFunc) (s : Store ι)
    (newReg reg1 reg2 : ι) : Store ι :=
  let r1 := s.mem.rects (s.rgn reg1).head
  let r2 := s.mem.rects (s.rgn reg2).head
  let aliased := newReg = reg1 ∨ newReg = reg2
  let s := if aliased then s else emptyClipRgn s newReg
  let ybot :=
    if (s.rgn reg1).rcBound.top < (s.rgn reg2).rcBound.top then
      (s.rgn reg1).rcBound.top
    else
      (s.rgn reg2).rcBound.top
  let dst := regionOpRects overlapFunc nonOverlap1Func nonOverlap2Func s.mem r1 r2 ybot
  let region := { initClipRgn with head := dst.head, tail := dst.tail }
  if aliased then
    (emptyClipRgn { s with mem := dst.mem } newReg).set newReg
      (emptyClipRgn { s with mem := dst.mem } newReg).mem region
  else
    s.set newReg dst.mem region

def finishRegion (s : Store ι) (dst : ι) : Store ι :=
  let s := regionSetExtents s dst
  s.set dst s.mem { s.rgn dst with type := if (s.rgn dst).head = 0 then .nullRegion else .complexRegion }

def clipRgnIntersect (s : Store ι) (dst src1 src2 : ι) : Bool × Store ι :=
  if (s.rgn src1).head = 0 || (s.rgn src2).head = 0
      || !extentCheck (s.rgn src1).rcBound (s.rgn src2).rcBound then
    (false, emptyClipRgn s dst)
  else
    (true, finishRegion (regionOp (regionIntersectO heap) none none s dst src1 src2) dst)

def subtractRegion (s : Store ι) (rgnD rgnM rgnS : ι) : Bool × Store ι :=
  if (s.rgn rgnM).head = 0 || (s.rgn rgnS).head = 0
      || !extentCheck (s.rgn rgnM).rcBound (s.rgn rgnS).rcBound then
    (true, (clipRgnCopy heap s rgnD rgnM).2)
  else
    (true,
      finishRegion (regionOp (regionSubtractO heap) (some (regionSubtractNonO1 heap)) none s rgnD rgnM rgnS) rgnD)

def subsumes (src1 src2 : Region) : Bool :=
  src1.head = src1.tail
    && src1.rcBound.left ≤ src2.rcBound.left
    && src1.rcBound.top ≤ src2.rcBound.top
    && src1.rcBound.right ≥ src2.rcBound.right
    && src1.rcBound.bottom ≥ src2.rcBound.bottom

def unionRegion (s : Store ι) (dst src1 src2 : ι) : Bool × Store ι :=
  if src1 = src2 || (s.rgn src1).head = 0 then
    (true, if dst ≠ src2 then (clipRgnCopy heap s dst src2).2 else s)
  else if (s.rgn src2).head = 0 then
    (true, if dst ≠ src1 then (clipRgnCopy heap s dst src1).2 else s)
  else if subsumes (s.rgn src1) (s.rgn src2) then
    (true, if dst ≠ src1 then (clipRgnCopy heap s dst src1).2 else s)
  else if subsumes (s.rgn src2) (s.rgn src1) then
    (true, if dst ≠ src2 then (clipRgnCopy heap s dst src2).2 else s)
  else
    (true,
      finishRegion
        (regionOp (regionUnionO heap) (some (regionUnionNonO heap)) (some (regionUnionNonO heap)) s dst src1 src2)
        dst)

def xorRegion (s : Store ι) (dst src1 src2 : ι) : Bool × Store ι :=
  let s : Store (XorObj ι) :=
    {
      mem := s.mem
      rgn := fun
        | .arg i => s.rgn i
        | .tmpa => initClipRgn
        | .tmpb => initClipRgn
    }
  let s := (subtractRegion heap s .tmpa (.arg src1) (.arg src2)).2
  let s := (subtractRegion heap s .tmpb (.arg src2) (.arg src1)).2
  let s := (unionRegion heap s (.arg dst) .tmpa .tmpb).2
  let s := emptyClipRgn s .tmpa
  let s := emptyClipRgn s .tmpb
  (true, { mem := s.mem, rgn := fun i => s.rgn (.arg i) })

def withMyRegion (s : Store ι) (rect : Rect) (op : Store (Option ι) → Store (Option ι)) : Store ι :=
  let dst := newClipRect heap { mem := s.mem, head := 0, tail := 0 } rect
  let s : Store (Option ι) :=
    {
      mem := dst.mem
      rgn := fun
        | some i => s.rgn i
        | none => { type := .simpleRegion, rcBound := rect, head := dst.head, tail := dst.tail }
    }
  let s := op s
  { mem := freeClipRect s.mem dst.head, rgn := fun i => s.rgn (some i) }

def addClipRect (s : Store ι) (region : ι) (rect : Rect) : Bool × Store ι :=
  if isRectEmpty rect then
    (false, s)
  else
    (true, withMyRegion heap s rect fun s => (unionRegion heap s (some region) (some region) none).2)

def intersectClipRect (s : Store ι) (region : ι) (rect : Rect) : Bool × Store ι :=
  if isRectEmpty rect then
    (true, emptyClipRgn s region)
  else
    (true, withMyRegion heap s rect fun s => (clipRgnIntersect heap s (some region) (some region) none).2)

def subtractClipRect (s : Store ι) (region : ι) (rect : Rect) : Bool × Store ι :=
  if isRectEmpty rect || !doesIntersect (s.rgn region).rcBound rect then
    (false, s)
  else
    (true, withMyRegion heap s rect fun s => (subtractRegion heap s (some region) (some region) none).2)

def offsetRegion (s : Store ι) (region : ι) (x y : Int) : Store ι :=
  let r := s.rgn region
  let mem := (s.mem.chain r.head).foldl (fun mem a => setRc mem a (offsetRect (mem.rc a) x y)) s.mem
  s.set region mem { r with rcBound := if r.head = 0 then r.rcBound else offsetRect r.rcBound x y }

end Operations

end MiniGui.Cells
