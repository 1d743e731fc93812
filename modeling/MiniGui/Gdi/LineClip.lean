import MiniGui.Gdi.DrawState

namespace MiniGui

def floorDiv (a b : Int) : Int :=
  if b > 0 then
    if a > 0 then
      a.tdiv b
    else
      -((-a).tdiv b) - (if (-a).tmod b ≠ 0 then 1 else 0)
  else if a > 0 then
    -(a.tdiv (-b)) - (if a.tmod (-b) ≠ 0 then 1 else 0)
  else
    (-a).tdiv (-b)

def ceilDiv (a b : Int) : Int :=
  if b > 0 then floorDiv (a - 1) b + 1 else floorDiv (-a - 1) (-b) + 1

structure Outcode where
  left : Bool
  right : Bool
  top : Bool
  bottom : Bool
deriving DecidableEq, Repr

namespace Outcode

def inside (code : Outcode) : Bool :=
  !code.left && !code.right && !code.top && !code.bottom

def shares (first last : Outcode) : Bool :=
  first.left && last.left || first.right && last.right || first.top && last.top || first.bottom && last.bottom

end Outcode

def outcode (cliprc : Rect) (xx yy : Int) : Outcode :=
  {
    left := decide (xx < cliprc.left)
    right := decide (¬xx < cliprc.left ∧ xx ≥ cliprc.right)
    top := decide (yy < cliprc.top)
    bottom := decide (¬yy < cliprc.top ∧ yy ≥ cliprc.bottom)
  }

structure LineEnds where
  x0 : Int
  y0 : Int
  x1 : Int
  y1 : Int
deriving DecidableEq, Repr

namespace LineEnds

def crossing (line : LineEnds) (cliprc : Rect) (code : Outcode) : Int × Int :=
  let dx := line.x1 - line.x0
  let dy := line.y1 - line.y0
  let xmajor := dx.natAbs > dy.natAbs
  let slope := (dx ≥ 0 ∧ dy ≥ 0) ∨ (dx < 0 ∧ dy < 0)
  if code.left then
    let x := cliprc.left
    let y :=
      if xmajor then
        line.y0 + floorDiv (dy * (x - line.x0) * 2 + dx) (2 * dx)
      else if slope then
        line.y0 + ceilDiv (dy * ((x - line.x0) * 2 - 1)) (2 * dx)
      else
        line.y0 + floorDiv (dy * ((x - line.x0) * 2 - 1)) (2 * dx)
    (x, y)
  else if code.right then
    let x := cliprc.right - 1
    let y :=
      if xmajor then
        line.y0 + floorDiv (dy * (x - line.x0) * 2 + dx) (2 * dx)
      else if slope then
        line.y0 + ceilDiv (dy * ((x - line.x0) * 2 + 1)) (2 * dx) - 1
      else
        line.y0 + floorDiv (dy * ((x - line.x0) * 2 + 1)) (2 * dx) + 1
    (x, y)
  else if code.top then
    let y := cliprc.top
    let x :=
      if xmajor then
        if slope then
          line.x0 + ceilDiv (dx * ((y - line.y0) * 2 - 1)) (2 * dy)
        else
          line.x0 + floorDiv (dx * ((y - line.y0) * 2 - 1)) (2 * dy)
      else
        line.x0 + floorDiv (dx * (y - line.y0) * 2 + dy) (2 * dy)
    (x, y)
  else
    let y := cliprc.bottom - 1
    let x :=
      if xmajor then
        if slope then
          line.x0 + ceilDiv (dx * ((y - line.y0) * 2 + 1)) (2 * dy) - 1
        else
          line.x0 + floorDiv (dx * ((y - line.y0) * 2 + 1)) (2 * dy) + 1
      else
        line.x0 + floorDiv (dx * (y - line.y0) * 2 + dy) (2 * dy)
    (x, y)

/--
The loop of `LineClipper`, with the piece that is left of the line. `none` stands for `FALSE`, and for a loop that has
not come to its end after `rounds` rounds.
-/
def cutLoop (line : LineEnds) (cliprc : Rect) (rounds : Nat) (piece : LineEnds) (first last : Outcode)
    : Option LineEnds :=
  match rounds with
  | 0 => none
  | rounds + 1 =>
    let code := if first.inside then last else first
    let (x, y) := line.crossing cliprc code
    let piece := if first.inside then { piece with x1 := x, y1 := y } else { piece with x0 := x, y0 := y }
    let (first, last) := if first.inside then (first, outcode cliprc x y) else (outcode cliprc x y, last)
    if first.shares last then
      none
    else if first.inside ∧ last.inside then
      some piece
    else
      line.cutLoop cliprc rounds piece first last

end LineEnds

def lineClipper (cliprc : Rect) (rounds : Nat) (line : LineEnds) : Option LineEnds :=
  if line.x0 = line.x1 ∧ line.y0 = line.y1 then
    if inRect cliprc line.x0 line.y0 then some line else none
  else if line.x0 = line.x1 then
    let sy := if line.y1 > line.y0 then line.y0 else line.y1
    let ey := if line.y1 > line.y0 then line.y1 else line.y0
    if line.x0 ≥ cliprc.right ∨ sy ≥ cliprc.bottom ∨ line.x0 < cliprc.left ∨ ey < cliprc.top then
      none
    else if line.x0 ≥ cliprc.left ∧ sy ≥ cliprc.top ∧ line.x0 < cliprc.right ∧ ey < cliprc.bottom then
      some line
    else
      let sy := if sy < cliprc.top then cliprc.top else sy
      let ey := if ey ≥ cliprc.bottom then cliprc.bottom - 1 else ey
      if ey < sy then none else some { line with y0 := sy, y1 := ey }
  else if line.y0 = line.y1 then
    let sx := if line.x1 > line.x0 then line.x0 else line.x1
    let ex := if line.x1 > line.x0 then line.x1 else line.x0
    if sx ≥ cliprc.right ∨ line.y0 ≥ cliprc.bottom ∨ ex < cliprc.left ∨ line.y0 < cliprc.top then
      none
    else if sx ≥ cliprc.left ∧ line.y0 ≥ cliprc.top ∧ ex < cliprc.right ∧ line.y0 < cliprc.bottom then
      some line
    else
      let sx := if sx < cliprc.left then cliprc.left else sx
      let ex := if ex ≥ cliprc.right then cliprc.right - 1 else ex
      if ex < sx then none else some { line with x0 := sx, x1 := ex }
  else
    let first := outcode cliprc line.x0 line.y0
    let last := outcode cliprc line.x1 line.y1
    if first.inside ∧ last.inside then
      some line
    else if first.shares last then
      none
    else
      line.cutLoop cliprc rounds line first last

def lineSteps (majorInc minorInc : Int) (major minor : Nat) (n : Nat) (a b : Int) (rem : Nat) : List (Int × Int) :=
  match n with
  | 0 => []
  | n + 1 =>
    if rem + minor ≥ major then
      (a + majorInc, b + minorInc)
        :: lineSteps majorInc minorInc major minor n (a + majorInc) (b + minorInc) (rem + minor - major)
    else
      (a + majorInc, b) :: lineSteps majorInc minorInc major minor n (a + majorInc) b (rem + minor)

def straight (a b : Int) : List Int :=
  (List.range ((b - a).natAbs + 1)).map fun (k : Nat) => a + (if b > a then 1 else -1) * k

def lineGenerator (line : LineEnds) : List (Int × Int) :=
  if line.x0 = line.x1 ∧ line.y0 = line.y1 then
    [(line.x0, line.y0)]
  else if line.x0 = line.x1 then
    (straight line.y0 line.y1).map fun y => (line.x0, y)
  else if line.y0 = line.y1 then
    (straight line.x0 line.x1).map fun x => (x, line.y0)
  else
    let xdelta := (line.x1 - line.x0).natAbs
    let ydelta := (line.y1 - line.y0).natAbs
    let xinc := if line.x1 > line.x0 then 1 else -1
    let yinc := if line.y1 > line.y0 then 1 else -1
    if xdelta ≥ ydelta then
      (line.x0, line.y0) :: lineSteps xinc yinc xdelta ydelta xdelta line.x0 line.y0 (xdelta / 2)
    else
      (line.x0, line.y0)
        :: (lineSteps yinc xinc ydelta xdelta ydelta line.y0 line.x0 (ydelta / 2)).map fun p => (p.2, p.1)

def lineIn (rounds : Nat) (effRc : Rect) (x0 y0 x1 y1 : Int) : List (Int × Int) :=
  match lineClipper effRc rounds ⟨x0, y0, x1, y1⟩ with
  | none => []
  | some piece => lineGenerator piece

end MiniGui
