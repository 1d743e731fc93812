import MiniGui.Gdi.Dc
import MiniGui.Library.LockTrace

/-!
The locks that the drawing functions of `newgdi` take in MiniGUI-Processes: the global clip-region lock, which is the
read lock of the z-order nodes, and the semaphore of drawing clients.
-/

namespace MiniGui

open LockTrace

inductive DrawLock where
  | gcrInfo
  | drawSem
deriving DecidableEq, Repr

open DrawLock (drawSem gcrInfo)

structure DrawEnv where
  mgIsServer : Bool
  topmost : Bool
  switchAway : Bool

/--
A device context that is drawn to. `visible` is `dc_IsVisible`; the rectangle is the bounding box of the effective clip
region when the drawing is entered; `onScreen` is `pdc->surface == __gal_screen`.
-/
structure DrawDc where
  dcType : DcType
  visible : Bool
  onScreen : Bool
  rcBound : Rect
  devRC : Rect
  curPenPos : Int × Int
  bitsPerPixel : Nat
  coorLP2SP : Int → Int → Int × Int
  coorDP2SP : Int → Int → Int × Int

section Locks

variable (env : DrawEnv) (pdc : DrawDc)

def unlockGcrInfo : List (Op DrawLock) :=
  if pdc.dcType = .gendc then [.release .gcrInfo] else []

def mgCheckEcrgn : Bool × List (Op DrawLock) :=
  if pdc.dcType = .gendc then
    if pdc.visible then (true, [.acquire .gcrInfo]) else (false, [.acquire .gcrInfo, .release .gcrInfo])
  else
    (true, [])

def DrawEnv.usesDrawSem : Bool :=
  !env.mgIsServer && pdc.onScreen

def blockDrawSem : List (Op DrawLock) :=
  if env.usesDrawSem pdc then [.acquire .drawSem] else []

def unblockDrawSem : List (Op DrawLock) :=
  if env.usesDrawSem pdc then [.release .drawSem] else []

def checkDrawing : Bool :=
  ((!env.mgIsServer && !env.topmost) || env.switchAway) && pdc.onScreen

def mgEnterDrawing (rcOutput : Rect) : Bool × List (Op DrawLock) :=
  if checkDrawing env pdc then
    (false, blockDrawSem env pdc ++ unblockDrawSem env pdc)
  else if !(intersectRect rcOutput pdc.rcBound).1 then
    (false, blockDrawSem env pdc ++ unblockDrawSem env pdc)
  else
    (true, blockDrawSem env pdc)

def mgLeaveDrawing : List (Op DrawLock) :=
  unblockDrawSem env pdc

def drawing (rcOutput : Rect) : List (Op DrawLock) :=
  let (entered, ops) := mgEnterDrawing env pdc rcOutput
  if entered then ops ++ mgLeaveDrawing env pdc else ops

end Locks

section Calls

variable (env : DrawEnv) (pdc : DrawDc)

def inflateRect (prc : Rect) (cx cy : Int) : Rect :=
  ⟨prc.left - cx, prc.top - cy, prc.right + cx, prc.bottom + cy⟩

def setPixelHelper (x y : Int) : List (Op DrawLock) :=
  drawing env pdc ⟨x - 1, y - 1, x + 1, y + 1⟩

def lineTo (x y : Int) : List (Op DrawLock) :=
  let (found, ops) := mgCheckEcrgn pdc
  if !found then
    ops
  else
    let (startx, starty) := pdc.coorLP2SP pdc.curPenPos.1 pdc.curPenPos.2
    let (x, y) := pdc.coorLP2SP x y
    if startx = x ∧ starty = y then
      ops ++ setPixelHelper env pdc x y ++ unlockGcrInfo pdc
    else
      ops ++ drawing env pdc (inflateRect (normalizeRect ⟨startx, starty, x, y⟩) 1 1) ++ unlockGcrInfo pdc

def rectangle (x0 y0 x1 y1 : Int) : List (Op DrawLock) :=
  let (found, ops) := mgCheckEcrgn pdc
  if !found then
    ops
  else
    let (x0, y0) := pdc.coorLP2SP x0 y0
    let (x1, y1) := pdc.coorLP2SP x1 y1
    let rcOutput := normalizeRect ⟨x0, y0, x1, y1⟩
    if rcOutput.left = rcOutput.right ∧ rcOutput.top = rcOutput.bottom then
      ops ++ setPixelHelper env pdc rcOutput.left rcOutput.top ++ unlockGcrInfo pdc
    else
      ops ++ drawing env pdc { rcOutput with right := rcOutput.right + 1, bottom := rcOutput.bottom + 1 }
        ++ unlockGcrInfo pdc

def fillBox (x y w h : Int) : List (Op DrawLock) :=
  if w ≤ 0 ∨ h ≤ 0 then
    []
  else
    let (found, ops) := mgCheckEcrgn pdc
    if !found then
      ops
    else
      let (left, top) := pdc.coorLP2SP x y
      let (right, bottom) := pdc.coorLP2SP (w + x) (h + y)
      ops ++ drawing env pdc (normalizeRect ⟨left, top, right, bottom⟩) ++ unlockGcrInfo pdc

structure DrawBitmap where
  bmWidth : Int
  bmHeight : Int
  hasBits : Bool
  rle : Bool

def fillBoxWithBitmap (x y w h : Int) (bmp : Option DrawBitmap) (malloc : Nat → Bool) : List (Op DrawLock) :=
  match bmp with
  | none => []
  | some bmp =>
    if bmp.bmWidth = 0 ∨ bmp.bmHeight = 0 ∨ bmp.hasBits = false then
      []
    else
      let (found, ops) := mgCheckEcrgn pdc
      if !found then
        ops
      else if bmp.rle ∧ malloc 0 = false then
        ops ++ unlockGcrInfo pdc
      else
        let (w, h) :=
          if bmp.rle then
            (bmp.bmWidth, bmp.bmHeight)
          else
            (if w ≤ 0 then bmp.bmWidth else w, if h ≤ 0 then bmp.bmHeight else h)
        let (left, top) := pdc.coorLP2SP x y
        let (right, bottom) := pdc.coorLP2SP (w + x) (h + y)
        let rcOutput := normalizeRect ⟨left, top, right, bottom⟩
        let scaled := rcOutput.right - rcOutput.left ≠ bmp.bmWidth ∨ rcOutput.bottom - rcOutput.top ≠ bmp.bmHeight
        if scaled ∧ malloc 1 = false then
          ops ++ unlockGcrInfo pdc
        else
          let (entered, opsEnter) := mgEnterDrawing env pdc rcOutput
          if !entered then
            ops ++ opsEnter ++ unlockGcrInfo pdc
          else
            ops ++ opsEnter ++ mgLeaveDrawing env pdc ++ unlockGcrInfo pdc

def convertVertices (pdc : DrawDc) (pt : Int × Int) (pts : List (Int × Int)) : Rect :=
  let (x, y) := pdc.coorLP2SP pt.1 pt.2
  pts.foldl
    (fun rcOutput pt =>
      let (x, y) := pdc.coorLP2SP pt.1 pt.2
      {
        left := if x < rcOutput.left then x else rcOutput.left
        top := if y < rcOutput.top then y else rcOutput.top
        right := if ¬x < rcOutput.left ∧ x > rcOutput.right then x else rcOutput.right
        bottom := if ¬y < rcOutput.top ∧ y > rcOutput.bottom then y else rcOutput.bottom
      })
    ⟨x, y, x, y⟩

def fillPolygon (pts : List (Int × Int)) (malloc : Nat → Bool) : List (Op DrawLock) :=
  match pts with
  | pt :: pts =>
    if pts.length < 2 then
      []
    else
      let (found, ops) := mgCheckEcrgn pdc
      if !found then
        ops
      else if malloc 0 = false then
        ops
      else
        let rcOutput := convertVertices pdc pt pts
        ops ++ drawing env pdc { rcOutput with right := rcOutput.right + 1, bottom := rcOutput.bottom + 1 }
          ++ unlockGcrInfo pdc
  | [] => []

/--
Each of the lines that the flood fill generator passes to `_flood_fill_draw_hline` is drawn on its own. There are none
if the start point has the colour of the brush or memory is short.
-/
def floodFill (lines : List (Int × Int × Int)) : List (Op DrawLock) :=
  let (found, ops) := mgCheckEcrgn pdc
  if !found then
    ops
  else
    let drawn := lines.map fun (x1, x2, y) => drawing env pdc ⟨min x1 x2, y, max x1 x2 + 1, y + 1⟩
    ops ++ drawn.flatten ++ unlockGcrInfo pdc

def stretchBlt (psdc : DrawDc) (sameSurface : Bool) (sx sy sw sh dx dy dw dh : Int) (malloc : Nat → Bool)
    : List (Op DrawLock) :=
  let (found, ops) := mgCheckEcrgn pdc
  if !found then
    ops
  else
    let width (rc : Rect) := rc.right - rc.left
    let height (rc : Rect) := rc.bottom - rc.top
    let sx := if sx < 0 then 0 else sx
    let sy := if sy < 0 then 0 else sy
    let dx := if dx < 0 then 0 else dx
    let dy := if dy < 0 then 0 else dy
    if psdc.bitsPerPixel ≠ pdc.bitsPerPixel ∨ sx ≥ width psdc.devRC ∨ sy ≥ height psdc.devRC
        ∨ dx ≥ width pdc.devRC ∨ dy ≥ height pdc.devRC then
      ops ++ unlockGcrInfo pdc
    else
      let sw := if sw ≤ 0 ∨ sw > width psdc.devRC - sx then width psdc.devRC - sx else sw
      let sh := if sh ≤ 0 ∨ sh > height psdc.devRC - sy then height psdc.devRC - sy else sh
      let dw := if dw ≤ 0 ∨ dw > width pdc.devRC - dx then width pdc.devRC - dx else dw
      let dh := if dh ≤ 0 ∨ dh > height pdc.devRC - dy then height pdc.devRC - dy else dh
      let (sx, sy) := psdc.coorDP2SP sx sy
      let (dx, dy) := pdc.coorDP2SP dx dy
      let srcOutput : Rect := ⟨sx, sy, sx + sw, sy + sh⟩
      let dstOutput : Rect := ⟨dx, dy, dx + dw, dy + dh⟩
      if malloc 0 = false then
        ops ++ unlockGcrInfo pdc
      else
        let rcOutput := if sameSurface then getBoundRect srcOutput dstOutput else dstOutput
        ops ++ drawing env pdc rcOutput ++ unlockGcrInfo pdc

def lockRect (rwRc : Option Rect) : Bool :=
  match rwRc with
  | none => true
  | some rc =>
    let (left, top) := pdc.coorDP2SP rc.left rc.top
    let (right, bottom) := pdc.coorDP2SP rc.right rc.bottom
    (intersectRect ⟨left, top, right, bottom⟩ pdc.devRC).1

def lockDC (rwRc : Option Rect) : Bool × List (Op DrawLock) :=
  let (found, ops) := mgCheckEcrgn pdc
  if !found then
    (false, ops)
  else if !lockRect pdc rwRc then
    (false, ops ++ unblockDrawSem env pdc ++ unlockGcrInfo pdc)
  else
    (true, ops ++ blockDrawSem env pdc)

def unlockDC : List (Op DrawLock) :=
  unblockDrawSem env pdc ++ unlockGcrInfo pdc

inductive DrawCall where
  | lineTo (x y : Int)
  | rectangle (x0 y0 x1 y1 : Int)
  | fillBox (x y w h : Int)
  | fillBoxWithBitmap (x y w h : Int) (bmp : Option DrawBitmap)
  | fillPolygon (pts : List (Int × Int))
  | floodFill (lines : List (Int × Int × Int))
  | stretchBlt (psdc : DrawDc) (sameSurface : Bool) (sx sy sw sh dx dy dw dh : Int)
  | lockDC (rwRc : Option Rect)

def DrawCall.locks (malloc : Nat → Bool) : DrawCall → List (Op DrawLock)
  | .lineTo x y => MiniGui.lineTo env pdc x y
  | .rectangle x0 y0 x1 y1 => MiniGui.rectangle env pdc x0 y0 x1 y1
  | .fillBox x y w h => MiniGui.fillBox env pdc x y w h
  | .fillBoxWithBitmap x y w h bmp => MiniGui.fillBoxWithBitmap env pdc x y w h bmp malloc
  | .fillPolygon pts => MiniGui.fillPolygon env pdc pts malloc
  | .floodFill lines => MiniGui.floodFill env pdc lines
  | .stretchBlt psdc sameSurface sx sy sw sh dx dy dw dh =>
    MiniGui.stretchBlt env pdc psdc sameSurface sx sy sw sh dx dy dw dh malloc
  | .lockDC rwRc =>
    let (locked, ops) := MiniGui.lockDC env pdc rwRc
    if locked then ops ++ unlockDC env pdc else ops

end Calls

section Balance

variable {env : DrawEnv} {pdc : DrawDc} {malloc : Nat → Bool}

theorem balanced_drawSem {ops : List (Op DrawLock)} (h : Balanced ops)
    : Balanced (blockDrawSem env pdc ++ ops ++ unblockDrawSem env pdc) := by
  unfold blockDrawSem unblockDrawSem
  split
  . exact h.wrap drawSem
  . rw [List.nil_append, List.append_nil]
    exact h

theorem mgEnterDrawing_ops (rcOutput : Rect) : (mgEnterDrawing env pdc rcOutput).2 =
        if (mgEnterDrawing env pdc rcOutput).1 then blockDrawSem env pdc
        else blockDrawSem env pdc ++ unblockDrawSem env pdc := by
  unfold mgEnterDrawing
  split
  . rfl
  . split
    . rfl
    . rfl

theorem drawing_balanced (rcOutput : Rect) : Balanced (drawing env pdc rcOutput) := by
  have hboth : Balanced (blockDrawSem env pdc ++ unblockDrawSem env pdc) := by
    have h := @balanced_drawSem env pdc [] balanced_nil
    rw [List.append_nil] at h
    exact h
  have hops := @mgEnterDrawing_ops env pdc rcOutput
  unfold drawing mgLeaveDrawing
  generalize mgEnterDrawing env pdc rcOutput = r at hops
  obtain ⟨entered, ops⟩ := r
  dsimp only at hops ⊢
  rw [hops]
  cases entered with
  | true => exact hboth
  | false => exact hboth

theorem checked_balanced {rest : List (Op DrawLock)}
    (hrest : ∃ inner, Balanced inner ∧ rest = (mgCheckEcrgn pdc).2 ++ inner ++ unlockGcrInfo pdc)
    : Balanced (if (!(mgCheckEcrgn pdc).1) = true then (mgCheckEcrgn pdc).2 else rest) := by
  obtain ⟨inner, hinner, heq⟩ := hrest
  rw [heq]
  unfold mgCheckEcrgn unlockGcrInfo
  by_cases hgen : pdc.dcType = .gendc
  . rw [if_pos hgen, if_pos hgen]
    by_cases hvisible : pdc.visible = true
    . rw [if_pos hvisible]
      exact hinner.wrap gcrInfo
    . rw [if_neg hvisible]
      exact balanced_nil.wrap gcrInfo
  . rw [if_neg hgen, if_neg hgen]
    simpa using hinner

theorem lineTo_balanced (x y : Int) : Balanced (lineTo env pdc x y) := by
  unfold lineTo
  dsimp only
  apply checked_balanced
  split
  . exact ⟨_, drawing_balanced _, rfl⟩
  . exact ⟨_, drawing_balanced _, rfl⟩

theorem rectangle_balanced (x0 y0 x1 y1 : Int) : Balanced (rectangle env pdc x0 y0 x1 y1) := by
  unfold rectangle
  dsimp only
  apply checked_balanced
  split
  . exact ⟨_, drawing_balanced _, rfl⟩
  . exact ⟨_, drawing_balanced _, rfl⟩

theorem fillBox_balanced (x y w h : Int) : Balanced (fillBox env pdc x y w h) := by
  unfold fillBox
  split
  . exact balanced_nil
  . dsimp only
    apply checked_balanced
    exact ⟨_, drawing_balanced _, rfl⟩

theorem fillBoxWithBitmap_balanced (x y w h : Int) (bmp : Option DrawBitmap)
    : Balanced (fillBoxWithBitmap env pdc x y w h bmp malloc) := by
  unfold fillBoxWithBitmap
  split
  . exact balanced_nil
  split
  . exact balanced_nil
  dsimp only
  apply checked_balanced
  split
  . exact ⟨[], balanced_nil, by rw [List.append_nil]⟩
  generalize normalizeRect _ = rcOutput
  split
  . exact ⟨[], balanced_nil, by rw [List.append_nil]⟩
  have hdraw := @drawing_balanced env pdc rcOutput
  unfold drawing at hdraw
  dsimp only at hdraw
  split
  next hnot =>
    rw [if_neg (by simpa using hnot)] at hdraw
    exact ⟨_, hdraw, rfl⟩
  next hentered =>
    rw [if_pos (by simpa using hentered)] at hdraw
    exact ⟨_, hdraw, by simp only [List.append_assoc]⟩

theorem floodFill_balanced (lines : List (Int × Int × Int)) : Balanced (floodFill env pdc lines) := by
  unfold floodFill
  apply checked_balanced
  refine ⟨_, balanced_flatten ?_, rfl⟩
  intro drawn hdrawn
  obtain ⟨line, _, heq⟩ := List.mem_map.mp hdrawn
  rw [← heq]
  exact drawing_balanced _

theorem stretchBlt_balanced (psdc : DrawDc) (sameSurface : Bool) (sx sy sw sh dx dy dw dh : Int)
    : Balanced (stretchBlt env pdc psdc sameSurface sx sy sw sh dx dy dw dh malloc) := by
  unfold stretchBlt
  dsimp only
  apply checked_balanced
  generalize (if sx < 0 then 0 else sx) = sx
  generalize (if sy < 0 then 0 else sy) = sy
  generalize (if dx < 0 then 0 else dx) = dx
  generalize (if dy < 0 then 0 else dy) = dy
  split
  . exact ⟨[], balanced_nil, by rw [List.append_nil]⟩
  generalize (if sameSurface = true then _ else _ : Rect) = rcOutput
  split
  . exact ⟨[], balanced_nil, by rw [List.append_nil]⟩
  . exact ⟨_, drawing_balanced rcOutput, rfl⟩

theorem fillPolygon_balanced (pts : List (Int × Int)) : Balanced (fillPolygon env pdc pts malloc) ↔
        ¬(3 ≤ pts.length ∧ pdc.dcType = .gendc ∧ pdc.visible = true ∧ malloc 0 = false) := by
  unfold fillPolygon
  cases pts with
  | nil => exact iff_of_true balanced_nil (by simp)
  | cons pt pts =>
    dsimp only
    rw [List.length_cons]
    by_cases hfew : pts.length < 2
    . rw [if_pos hfew]
      exact iff_of_true balanced_nil (by omega)
    rw [if_neg hfew]
    by_cases hmalloc : malloc 0 = false
    . have hbody : ∀ ops rest : List (Op DrawLock), (if malloc 0 = false then ops else rest) = ops :=
        fun ops rest => if_pos hmalloc
      simp only [hbody, ite_self]
      unfold mgCheckEcrgn
      by_cases hgen : pdc.dcType = .gendc
      . rw [if_pos hgen]
        by_cases hvisible : pdc.visible = true
        . rw [if_pos hvisible]
          apply iff_of_false
          . intro hbalanced
            have hnet := hbalanced.net_eq .gcrInfo
            revert hnet
            decide
          . intro hnot
            exact hnot ⟨by omega, hgen, hvisible, hmalloc⟩
        . rw [if_neg hvisible]
          exact iff_of_true (balanced_nil.wrap gcrInfo) fun h => hvisible h.2.2.1
      . rw [if_neg hgen]
        exact iff_of_true balanced_nil fun h => hgen h.2.1
    apply iff_of_true
    . apply checked_balanced
      rw [if_neg hmalloc]
      exact ⟨_, drawing_balanced _, rfl⟩
    . exact fun h => hmalloc h.2.2.2

theorem lockDC_balanced (rwRc : Option Rect)
    : Balanced (DrawCall.locks env pdc malloc (.lockDC rwRc)) ↔
        ¬((pdc.dcType = .gendc → pdc.visible = true) ∧ env.usesDrawSem pdc = true ∧ lockRect pdc rwRc = false) := by
  unfold DrawCall.locks lockDC unlockDC mgCheckEcrgn unlockGcrInfo blockDrawSem unblockDrawSem
  by_cases hgen : pdc.dcType = .gendc
  . by_cases hvisible : pdc.visible = true
    . cases hsem : env.usesDrawSem pdc with
      | false =>
        cases hrect : lockRect pdc rwRc with
        | true =>
          simp only [hrect, hgen, hvisible, if_true, Bool.not_true, Bool.false_eq_true, if_false]
          exact iff_of_true (balanced_nil.wrap gcrInfo) (by simp)
        | false =>
          simp only [hrect, hgen, hvisible, if_true, Bool.not_true, Bool.not_false, Bool.false_eq_true, if_false]
          exact iff_of_true (balanced_nil.wrap gcrInfo) (by simp)
      | true =>
        cases hrect : lockRect pdc rwRc with
        | true =>
          simp only [hrect, hgen, hvisible, if_true, Bool.not_true, Bool.false_eq_true, if_false]
          exact iff_of_true ((balanced_nil.wrap drawSem).wrap gcrInfo) (by simp)
        | false =>
          simp only [hrect, hgen, hvisible, if_true, Bool.not_true, Bool.not_false, Bool.false_eq_true, if_false]
          apply iff_of_false
          . intro hbalanced
            have hnet := hbalanced.net_eq .drawSem
            revert hnet
            decide
          . simp
    . simp only [hgen, hvisible, if_true, Bool.not_false, Bool.false_eq_true, if_false]
      exact iff_of_true (balanced_nil.wrap gcrInfo) (by simp)
  cases hsem : env.usesDrawSem pdc with
  | false =>
    cases hrect : lockRect pdc rwRc with
    | true =>
      simp only [hrect, hgen, if_true, Bool.not_true, Bool.false_eq_true, if_false]
      exact iff_of_true balanced_nil (by simp)
    | false =>
      simp only [hrect, hgen, if_true, Bool.not_true, Bool.not_false, Bool.false_eq_true, if_false]
      exact iff_of_true balanced_nil (by simp)
  | true =>
    cases hrect : lockRect pdc rwRc with
    | true =>
      simp only [hrect, hgen, if_true, Bool.not_true, Bool.false_eq_true, if_false]
      exact iff_of_true (balanced_nil.wrap drawSem) (by simp)
    | false =>
      simp only [hrect, hgen, if_true, Bool.not_true, Bool.not_false, Bool.false_eq_true, if_false]
      apply iff_of_false
      . intro hbalanced
        have hnet := hbalanced.net_eq .drawSem
        revert hnet
        decide
      . simp

def DrawCall.Leaks (env : DrawEnv) (pdc : DrawDc) (malloc : Nat → Bool) : DrawCall → Prop
  | .fillPolygon pts => 3 ≤ pts.length ∧ pdc.dcType = .gendc ∧ pdc.visible = true ∧ malloc 0 = false
  | .lockDC rwRc =>
    (pdc.dcType = .gendc → pdc.visible = true) ∧ env.usesDrawSem pdc = true ∧ lockRect pdc rwRc = false
  | _ => False

theorem draw_locks_balanced_iff (env : DrawEnv) (pdc : DrawDc) (malloc : Nat → Bool) (call : DrawCall)
    : Balanced (call.locks env pdc malloc) ↔ ¬call.Leaks env pdc malloc := by
  cases call with
  | lineTo x y => exact iff_of_true (lineTo_balanced x y) id
  | rectangle x0 y0 x1 y1 => exact iff_of_true (rectangle_balanced x0 y0 x1 y1) id
  | fillBox x y w h => exact iff_of_true (fillBox_balanced x y w h) id
  | fillBoxWithBitmap x y w h bmp => exact iff_of_true (fillBoxWithBitmap_balanced x y w h bmp) id
  | fillPolygon pts => exact fillPolygon_balanced pts
  | floodFill lines => exact iff_of_true (floodFill_balanced lines) id
  | stretchBlt psdc sameSurface sx sy sw sh dx dy dw dh =>
    exact iff_of_true (stretchBlt_balanced psdc sameSurface sx sy sw sh dx dy dw dh) id
  | lockDC rwRc => exact lockDC_balanced rwRc

def clientDc : DrawDc :=
  {
    dcType := .gendc
    visible := true
    onScreen := true
    rcBound := ⟨0, 0, 10, 10⟩
    devRC := ⟨0, 0, 10, 10⟩
    curPenPos := (0, 0)
    bitsPerPixel := 16
    coorLP2SP := fun x y => (x, y)
    coorDP2SP := fun x y => (x, y)
  }

theorem draw_locks_polygon_without_memory
    : ¬∀ env pdc malloc call, Balanced (DrawCall.locks env pdc malloc call) := by
  intro hall
  have hbalanced := hall ⟨false, true, false⟩ clientDc (fun _ => false) (.fillPolygon [(0, 0), (5, 0), (0, 5)])
  have hnet := hbalanced.net_eq .gcrInfo
  revert hnet
  decide

end Balance

end MiniGui
