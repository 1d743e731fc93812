import MiniGui.Gdi.DrawState

namespace MiniGui

open Reach

inductive PaintCall where
  | lineTo (x y : Int)
  | rectangle (x0 y0 x1 y1 : Int)
  | focusRect (x0 y0 x1 y1 : Int)
  | drawHVDotLine (x y wH : Int) (hV : Bool)
  | fillBox (x y w h : Int)
  | fillPolygon (pts : List (Int × Int))
  | fillCircle (sx sy r : Int)
  | fillEllipse (sx sy rx ry : Int)
  | floodFill (x y : Int)
  | fillBoxWithBitmap (x y w h : Int) (bmp : Option PaintBitmap)
  | fillBoxWithBitmapPart (x y w h bw bh : Int) (bmp : PaintBitmap) (xo yo : Int)

namespace PaintDc

variable (gen : Generators) (e : PaintEnv) (pdc : PaintDc)

def exec (call : PaintCall) : PaintDc × List Write :=
  match call with
  | .lineTo x y => pdc.lineTo gen e x y
  | .rectangle x0 y0 x1 y1 => pdc.rectangle e x0 y0 x1 y1
  | .focusRect x0 y0 x1 y1 => pdc.focusRect e x0 y0 x1 y1
  | .drawHVDotLine x y wH hV => pdc.drawHVDotLine e x y wH hV
  | .fillBox x y w h => pdc.fillBox e x y w h
  | .fillPolygon pts => pdc.fillPolygon gen e pts
  | .fillCircle sx sy r => pdc.fillCircle gen e sx sy r
  | .fillEllipse sx sy rx ry => pdc.fillEllipse gen e sx sy rx ry
  | .floodFill x y => pdc.floodFill gen e x y
  | .fillBoxWithBitmap x y w h bmp => pdc.fillBoxWithBitmap gen e x y w h bmp
  | .fillBoxWithBitmapPart x y w h bw bh bmp xo yo => pdc.fillBoxWithBitmapPart gen e x y w h bw bh bmp xo yo

structure SameAttributes (pdc' : PaintDc) : Prop where
  rop : pdc'.rop = pdc.rop
  bkmode : pdc'.bkmode = pdc.bkmode
  pencolor : pdc'.pencolor = pdc.pencolor
  brushcolor : pdc'.brushcolor = pdc.brushcolor
  curPenPos : pdc'.curPenPos = pdc.curPenPos

structure NoTrace (call : PaintCall) : Prop where
  rop : (pdc.exec gen e call).1.rop = pdc.rop
  bkmode : (pdc.exec gen e call).1.bkmode = pdc.bkmode
  writes : ∀ fresh, pdc.SameAttributes fresh → fresh.step = 1 → (pdc.exec gen e call).2 = (fresh.exec gen e call).2

def Unseen (bmp : PaintBitmap) (rcOutput : Rect) : Prop :=
  bmp.colorkey = true ∧ e.enterDrawing rcOutput = none

def KeepsModes (call : PaintCall) : Prop :=
  match call with
  | .focusRect x0 y0 x1 y1 =>
    let rc := screenRect e x0 y0 x1 y1
    e.found = true → rc.left = rc.right → rc.top = rc.bottom → pdc.rop = .xor
  | .fillBoxWithBitmap x y w h bmp =>
    ∀ r ∈ beginFillBitmap e x y w h bmp, Unseen e r.1 r.2.2 → pdc.bkmode = .bmTransparent
  | .fillBoxWithBitmapPart x y w h bw bh bmp xo yo =>
    ∀ r ∈ beginFillBitmapPart e x y w h bw bh bmp xo yo, Unseen e bmp r.2 → pdc.bkmode = .bmTransparent
  | _ => True

def KnowsRegisters (call : PaintCall) : Prop :=
  match call with
  | .drawHVDotLine x y wH hV =>
    let (x, y) := e.dc.coorLP2SP x y
    e.found = true → wH = 1 → (if hV then x else y).tmod 2 = 0 → e.enterDrawing ⟨x - 1, y - 1, x + 1, y + 1⟩ = none
  | .fillPolygon pts => e.found = true → 3 ≤ pts.length → e.malloc 0 = true → pdc.step = 1
  | .fillCircle _ _ r => e.found = true → 1 ≤ r → pdc.step = 1
  | .fillEllipse _ _ rx ry => e.found = true → 1 ≤ rx → 1 ≤ ry → pdc.step = 1
  | .floodFill x y =>
    let (x, y) := e.dc.coorLP2SP x y
    e.found = true → e.pixels x y ≠ pdc.brushcolor → pdc.step = 1
  | _ => True

variable {pdc' fresh : PaintDc}

section Frame

variable {gen e pdc}

theorem drawing_fst (rcOutput : Rect) (body : Rect → List Write × Option Nat)
    : ∃ curBan, (pdc.drawing e rcOutput body).1 = { pdc with curBan } := by
  unfold drawing
  split
  . exact ⟨pdc.curBan, rfl⟩
  . exact ⟨_, rfl⟩

def entered (e : PaintEnv) (rcOutput : Rect) (body : Rect → List Write × Option Nat) : List Write :=
  match e.enterDrawing rcOutput with
  | none => []
  | some rcOutput => (body rcOutput).1

theorem drawing_snd (rcOutput : Rect) (body : Rect → List Write × Option Nat)
    : (pdc.drawing e rcOutput body).2 = entered e rcOutput body := by
  unfold drawing entered
  cases e.enterDrawing rcOutput with
  | none => rfl
  | some rcOutput => rfl

structure SameModes (pdc pdc' : PaintDc) : Prop where
  rop : pdc'.rop = pdc.rop
  bkmode : pdc'.bkmode = pdc.bkmode

theorem SameModes.refl : SameModes pdc pdc :=
  ⟨rfl, rfl⟩

theorem SameModes.drawing (h : SameModes pdc pdc') (rcOutput : Rect)
    (body : Rect → List Write × Option Nat) : SameModes pdc (pdc'.drawing e rcOutput body).1 := by
  obtain ⟨curBan, heq⟩ := @drawing_fst e pdc' rcOutput body
  rw [heq]
  exact ⟨h.rop, h.bkmode⟩

theorem SameModes.outline (h : SameModes pdc pdc') (rc : Rect)
    : SameModes pdc (pdc'.outline e rc).1 := by
  unfold PaintDc.outline setPixelHelper
  split
  . exact h.drawing _ _
  . exact h.drawing _ _

theorem SameModes.trans {pdc'' : PaintDc} (h : SameModes pdc pdc') (h' : SameModes pdc' pdc'') : SameModes pdc pdc'' :=
  ⟨h'.rop.trans h.rop, h'.bkmode.trans h.bkmode⟩

theorem sameModes_lineTo (x y : Int) : SameModes pdc (pdc.lineTo gen e x y).1 := by
  unfold lineTo setPixelHelper
  dsimp only
  split
  . exact ⟨rfl, rfl⟩
  split
  . apply SameModes.drawing
    exact ⟨rfl, rfl⟩
  . apply SameModes.drawing
    exact ⟨rfl, rfl⟩

theorem sameModes_rectangle (x0 y0 x1 y1 : Int) : SameModes pdc (pdc.rectangle e x0 y0 x1 y1).1 := by
  unfold rectangle
  split
  . exact SameModes.refl
  . apply SameModes.outline
    exact ⟨rfl, rfl⟩

theorem sameModes_focusRect (x0 y0 x1 y1 : Int)
    : SameModes pdc (pdc.focusRect e x0 y0 x1 y1).1 ↔ pdc.KeepsModes e (.focusRect x0 y0 x1 y1) := by
  unfold focusRect KeepsModes
  dsimp only
  generalize screenRect e x0 y0 x1 y1 = rc
  have hout : SameModes { pdc with rop := .xor } (PaintDc.outline e { pdc with
      curPixel := pdc.pencolor, curBan := none, step := 2, rop := .xor } rc).1 := by
    apply SameModes.outline
    exact ⟨rfl, rfl⟩
  generalize PaintDc.outline e _ rc = r at hout ⊢
  cases hfound : e.found with
  | false => exact iff_of_true SameModes.refl (by simp)
  | true =>
    by_cases hpoint : rc.left = rc.right ∧ rc.top = rc.bottom
    . rw [if_neg (by simp), if_pos hpoint]
      constructor
      . intro h _ _ _
        exact h.rop.symm.trans hout.rop
      . intro h
        have hrop := h rfl hpoint.1 hpoint.2
        exact ⟨hout.rop.trans hrop.symm, hout.bkmode⟩
    rw [if_neg (by simp), if_neg hpoint]
    apply iff_of_true
    . exact ⟨rfl, hout.bkmode⟩
    . intro _ hleft htop
      exact absurd ⟨hleft, htop⟩ hpoint

theorem sameModes_drawHVDotLine (x y wH : Int) (hV : Bool) : SameModes pdc (pdc.drawHVDotLine e x y wH hV).1 := by
  unfold drawHVDotLine setPixelHelper
  dsimp only
  split
  . exact SameModes.refl
  split
  . exact SameModes.refl
  split
  . generalize (if hV = true then (e.dc.coorLP2SP x y).1 else (e.dc.coorLP2SP x y).2) = coor
    split
    . exact SameModes.refl.drawing _ _
    . exact SameModes.refl
  . apply SameModes.drawing
    exact ⟨rfl, rfl⟩

theorem sameModes_fillBox (x y w h : Int) : SameModes pdc (pdc.fillBox e x y w h).1 := by
  unfold fillBox
  split
  . exact SameModes.refl
  split
  . exact SameModes.refl
  . apply SameModes.drawing
    exact ⟨rfl, rfl⟩

theorem sameModes_fillPolygon (pts : List (Int × Int)) : SameModes pdc (pdc.fillPolygon gen e pts).1 := by
  unfold fillPolygon
  split
  . split
    . exact SameModes.refl
    split
    . exact SameModes.refl
    split
    . exact SameModes.refl
    . apply SameModes.drawing
      exact ⟨rfl, rfl⟩
  . exact SameModes.refl

theorem sameModes_fillRound (sx sy rx ry : Int) (spans : Int → Int → List (Int × Int × Int))
    : SameModes pdc (pdc.fillRound e sx sy rx ry spans).1 := by
  unfold fillRound setPixelHelper
  dsimp only
  split
  . exact SameModes.refl
  split
  . apply SameModes.drawing
    exact ⟨rfl, rfl⟩
  . apply SameModes.drawing
    exact ⟨rfl, rfl⟩

theorem sameModes_floodFill (x y : Int) : SameModes pdc (pdc.floodFill gen e x y).1 := by
  unfold floodFill
  dsimp only
  split
  . exact SameModes.refl
  . split
    . exact ⟨rfl, rfl⟩
    . exact ⟨rfl, rfl⟩

theorem sameModes_blit (bmp : PaintBitmap) (rcOutput : Rect) (draw : Rect → BlitRegs → List Write × Option Nat)
    : SameModes pdc (pdc.blit e bmp rcOutput draw).1 ↔ (Unseen e bmp rcOutput → pdc.bkmode = .bmTransparent) := by
  unfold blit Unseen
  cases hkey : bmp.colorkey with
  | false =>
    apply iff_of_true
    . cases e.enterDrawing rcOutput with
      | none | some rcOutput => exact ⟨rfl, rfl⟩
    . intro h
      cases h.1
  | true =>
    cases henter : e.enterDrawing rcOutput with
    | some rcOutput =>
      apply iff_of_true
      . exact ⟨rfl, rfl⟩
      . intro h
        cases h.2
    | none =>
      constructor
      . intro h _
        exact h.bkmode.symm
      . intro h
        exact ⟨rfl, (h ⟨rfl, rfl⟩).symm⟩

theorem sameModes_exec (call : PaintCall) : SameModes pdc (pdc.exec gen e call).1 ↔ pdc.KeepsModes e call := by
  cases call with
  | lineTo x y => exact iff_of_true (sameModes_lineTo x y) trivial
  | rectangle x0 y0 x1 y1 => exact iff_of_true (sameModes_rectangle x0 y0 x1 y1) trivial
  | focusRect x0 y0 x1 y1 => exact sameModes_focusRect x0 y0 x1 y1
  | drawHVDotLine x y wH hV => exact iff_of_true (sameModes_drawHVDotLine x y wH hV) trivial
  | fillBox x y w h => exact iff_of_true (sameModes_fillBox x y w h) trivial
  | fillPolygon pts => exact iff_of_true (sameModes_fillPolygon pts) trivial
  | fillCircle sx sy r => exact iff_of_true (sameModes_fillRound sx sy r r _) trivial
  | fillEllipse sx sy rx ry => exact iff_of_true (sameModes_fillRound sx sy rx ry _) trivial
  | floodFill x y => exact iff_of_true (sameModes_floodFill x y) trivial
  | fillBoxWithBitmap x y w h bmp =>
    unfold exec KeepsModes fillBoxWithBitmap
    dsimp only
    cases beginFillBitmap e x y w h bmp with
    | none => exact iff_of_true SameModes.refl (by simp)
    | some r =>
      simp only [Option.mem_some_iff, forall_eq']
      exact sameModes_blit _ _ _
  | fillBoxWithBitmapPart x y w h bw bh bmp xo yo =>
    unfold exec KeepsModes fillBoxWithBitmapPart
    dsimp only
    cases beginFillBitmapPart e x y w h bw bh bmp xo yo with
    | none => exact iff_of_true SameModes.refl (by simp)
    | some r =>
      simp only [Option.mem_some_iff, forall_eq']
      exact sameModes_blit _ _ _

end Frame

section Writes

variable {gen e pdc}

def withRegs (pdc : PaintDc) (step : Int) (curPixel skipPixel : GalPixel) (curBan : Option Nat) : PaintDc :=
  { pdc with step, curPixel, skipPixel, curBan }

theorem SameAttributes.eq_withRegs (h : pdc.SameAttributes fresh)
    : fresh = pdc.withRegs fresh.step fresh.curPixel fresh.skipPixel fresh.curBan := by
  obtain ⟨hrop, hbkmode, hpen, hbrush, hpos⟩ := h
  unfold withRegs
  rw [← hrop, ← hbkmode, ← hpen, ← hbrush, ← hpos]

variable (step : Int) (curPixel skipPixel : GalPixel) (curBan : Option Nat)

theorem lineTo_writes (x y : Int)
    : ((pdc.withRegs step curPixel skipPixel curBan).lineTo gen e x y).2 = (pdc.lineTo gen e x y).2 := by
  unfold lineTo setPixelHelper withRegs
  dsimp only
  split
  . rfl
  split
  . rw [drawing_snd, drawing_snd]
    rfl
  . rw [drawing_snd, drawing_snd]
    rfl

theorem outline_writes (rc : Rect) (hrop : pdc'.rop = pdc.rop) (hpixel : pdc'.curPixel = pdc.curPixel)
    (hstep : pdc'.step = pdc.step) (hban : pdc'.curBan = pdc.curBan)
    : (pdc'.outline e rc).2 = (pdc.outline e rc).2 := by
  unfold outline setPixelHelper scanAll write
  rw [hrop, hpixel, hstep, hban]
  split
  . rw [drawing_snd, drawing_snd]
  . rw [drawing_snd, drawing_snd]

theorem rectangle_writes (x0 y0 x1 y1 : Int)
    : ((pdc.withRegs step curPixel skipPixel curBan).rectangle e x0 y0 x1 y1).2 = (pdc.rectangle e x0 y0 x1 y1).2 := by
  unfold rectangle
  split
  . rfl
  . apply outline_writes
    all_goals rfl

theorem focusRect_writes (x0 y0 x1 y1 : Int)
    : ((pdc.withRegs step curPixel skipPixel curBan).focusRect e x0 y0 x1 y1).2 = (pdc.focusRect e x0 y0 x1 y1).2 := by
  unfold focusRect
  dsimp only
  split
  . rfl
  split
  . apply outline_writes
    all_goals rfl
  . apply outline_writes
    all_goals rfl

theorem drawHVDotLine_writes {x y wH : Int} {hV : Bool} (h : pdc.KnowsRegisters e (.drawHVDotLine x y wH hV))
    : ((pdc.withRegs step curPixel skipPixel curBan).drawHVDotLine e x y wH hV).2 = (pdc.drawHVDotLine e x y wH hV).2 := by
  unfold KnowsRegisters at h
  unfold drawHVDotLine setPixelHelper
  dsimp only at h ⊢
  split
  . rfl
  split
  . rfl
  next hfound =>
    split
    next hone =>
      have hnone := h (by simpa using hfound) hone
      revert hnone
      generalize (if hV = true then (e.dc.coorLP2SP x y).1 else (e.dc.coorLP2SP x y).2) = coor
      intro hnone
      split
      next heven =>
        rw [drawing_snd, drawing_snd]
        unfold entered
        rw [hnone heven]
      next => rfl
    next =>
      rw [drawing_snd, drawing_snd]
      rfl

theorem fillBox_writes (x y w h : Int)
    : ((pdc.withRegs step curPixel skipPixel curBan).fillBox e x y w h).2 = (pdc.fillBox e x y w h).2 := by
  unfold fillBox
  split
  . rfl
  split
  . rfl
  . rw [drawing_snd, drawing_snd]
    rfl

variable {step}

theorem fillPolygon_writes {pts : List (Int × Int)} (hstep : step = 1) (h : pdc.KnowsRegisters e (.fillPolygon pts))
    : ((pdc.withRegs step curPixel skipPixel curBan).fillPolygon gen e pts).2 = (pdc.fillPolygon gen e pts).2 := by
  unfold KnowsRegisters at h
  unfold fillPolygon
  split
  next pt rest =>
    dsimp only at h
    split
    . rfl
    next hlen =>
      split
      . rfl
      next hfound =>
        split
        . rfl
        next hmalloc =>
          rw [List.length_cons] at h
          have heq := h (by simpa using hfound) (by omega) (by simpa using hmalloc)
          rw [hstep, ← heq, drawing_snd, drawing_snd]
          rfl
  . rfl

theorem fillRound_writes {sx sy rx ry : Int} {spans : Int → Int → List (Int × Int × Int)} (hstep : step = 1)
    (h : e.found = true → 1 ≤ rx → 1 ≤ ry → pdc.step = 1)
    : ((pdc.withRegs step curPixel skipPixel curBan).fillRound e sx sy rx ry spans).2
        = (pdc.fillRound e sx sy rx ry spans).2 := by
  unfold fillRound setPixelHelper
  dsimp only
  split
  . rfl
  next hfound =>
    split
    . rw [drawing_snd, drawing_snd]
      rfl
    next hround =>
      have heq := h (by simpa using hfound) (by omega) (by omega)
      rw [hstep, ← heq, drawing_snd, drawing_snd]
      rfl

theorem floodFill_writes {x y : Int} (hstep : step = 1) (h : pdc.KnowsRegisters e (.floodFill x y))
    : ((pdc.withRegs step curPixel skipPixel curBan).floodFill gen e x y).2 = (pdc.floodFill gen e x y).2 := by
  unfold KnowsRegisters at h
  unfold floodFill withRegs
  dsimp only at h ⊢
  split
  . rfl
  next hfound =>
    split
    next => rfl
    next hpixel =>
      have heq := h (by simpa using hfound) hpixel
      rw [hstep, ← heq]

variable (step)

theorem blit_writes (bmp : PaintBitmap) (rcOutput : Rect) (draw : Rect → BlitRegs → List Write × Option Nat)
    : ((pdc.withRegs step curPixel skipPixel curBan).blit e bmp rcOutput draw).2 = (pdc.blit e bmp rcOutput draw).2 := by
  unfold blit
  cases e.enterDrawing rcOutput with
  | none => rfl
  | some rcOutput =>
    cases bmp.colorkey with
    | false => rfl
    | true => rfl

end Writes

def Clean (pdc : PaintDc) (call : PaintEnv × PaintCall) : Prop :=
  pdc.KeepsModes call.1 call.2 ∧ pdc.KnowsRegisters call.1 call.2

def Step (gen : Generators) (pdc : PaintDc) (call : PaintEnv × PaintCall) (pdc' : PaintDc) : Prop :=
  (pdc.exec gen call.1 call.2).1 = pdc'

theorem exec_noTrace {gen : Generators} {e : PaintEnv} {pdc : PaintDc} {call : PaintCall}
    (hknown : pdc.KnowsRegisters e call) (hsame : pdc.SameAttributes fresh) (hstep : fresh.step = 1)
    : (fresh.exec gen e call).2 = (pdc.exec gen e call).2 := by
  rw [hsame.eq_withRegs]
  cases call with
  | lineTo x y => exact lineTo_writes _ _ _ _ x y
  | rectangle x0 y0 x1 y1 => exact rectangle_writes _ _ _ _ x0 y0 x1 y1
  | focusRect x0 y0 x1 y1 => exact focusRect_writes _ _ _ _ x0 y0 x1 y1
  | drawHVDotLine x y wH hV => exact drawHVDotLine_writes _ _ _ _ hknown
  | fillBox x y w h => exact fillBox_writes _ _ _ _ x y w h
  | fillPolygon pts => exact fillPolygon_writes _ _ _ hstep hknown
  | fillCircle sx sy r => exact fillRound_writes _ _ _ hstep fun hfound hr _ => hknown hfound hr
  | fillEllipse sx sy rx ry => exact fillRound_writes _ _ _ hstep hknown
  | floodFill x y => exact floodFill_writes _ _ _ hstep hknown
  | fillBoxWithBitmap x y w h bmp =>
    unfold exec fillBoxWithBitmap
    dsimp only
    cases beginFillBitmap e x y w h bmp with
    | none => rfl
    | some r => exact blit_writes _ _ _ _ _ _ _
  | fillBoxWithBitmapPart x y w h bw bh bmp xo yo =>
    unfold exec fillBoxWithBitmapPart
    dsimp only
    cases beginFillBitmapPart e x y w h bw bh bmp xo yo with
    | none => rfl
    | some r => exact blit_writes _ _ _ _ _ _ _

def freshDc : PaintDc where
  rop := .set
  bkmode := .bmOpaque
  pencolor := 0
  brushcolor := 255
  curPenPos := (0, 0)
  step := 1
  curPixel := 0
  skipPixel := 0
  curBan := none

def blankGenerators : Generators where
  line _ _ _ _ _ := []
  circle _ _ _ := []
  ellipse _ _ _ _ := []
  polygon _ _ _ := []
  flood _ _ _ _ _ := []
  fillBitmap _ _ _ _ regs := ([], regs.curBan)
  fillBitmapPart _ _ _ _ _ _ _ _ regs := ([], regs.curBan)

def clientEnv : PaintEnv where
  env := ⟨false, true, false⟩
  dc := clientDc
  ecrgn := ClipRgn.single ⟨0, 0, 10, 10⟩
  scrBottom := 10
  malloc _ := true
  pixels _ _ := 0

def focusAndLine : List (PaintEnv × PaintCall) :=
  [(clientEnv, .focusRect 1 1 5 5), (clientEnv, .lineTo 5 5)]

end PaintDc

end MiniGui
