import MiniGui.Gdi.ClipRects
import MiniGui.Library.Chain

/-!
Device contexts: the effective clip region of a DC and the calls of `newgdi/clip.c` that change it. The window
tree and the global clip region of the window stand beside the DC. A window is named by its address, and `none`
is the null pointer, which is also `HWND_DESKTOP`.
-/

namespace MiniGui

structure Window (ι : Type) where
  -- `WinType == TYPE_CONTROL`
  isControl : Bool
  left : Int
  top : Int
  right : Int
  bottom : Int
  cl : Int
  ct : Int
  cr : Int
  cb : Int
  -- `WS_VISIBLE` of `dwStyle` and `WS_EX_CTRLASMAINWIN` of `dwExStyle`
  visible : Bool
  ctrlAsMainWin : Bool
  pParent : Option ι
  children : Option ι
  pMainWin : ι
deriving DecidableEq, Repr

structure WndTree (ι : Type) where
  rcScr : Rect
  wnd : ι → Window ι
  nrWnds : Nat

namespace WndTree

variable {ι : Type}

def addParents (tree : WndTree ι) (fuel : Nat) (pParent : Option ι) (prc : Rect) : Rect :=
  match fuel, pParent with
  | fuel + 1, some p =>
    tree.addParents fuel (tree.wnd p).pParent (offsetRect prc (tree.wnd p).cl (tree.wnd p).ct)
  | _, _ => prc

def wndRect (tree : WndTree ι) (hWnd : Option ι) : Rect :=
  match hWnd with
  | none => tree.rcScr
  | some h =>
    let w := tree.wnd h
    tree.addParents tree.nrWnds w.pParent ⟨w.left, w.top, w.right, w.bottom⟩

def wndClientRect (tree : WndTree ι) (hWnd : Option ι) : Rect :=
  match hWnd with
  | none => tree.rcScr
  | some h =>
    let w := tree.wnd h
    tree.addParents tree.nrWnds w.pParent ⟨w.cl, w.ct, w.cr, w.cb⟩

variable [DecidableEq ι]

def childTowards (tree : WndTree ι) (pRoot : ι) (fuel : Nat) (pParent : ι) : Option ι :=
  match fuel with
  | 0 => none
  | fuel + 1 =>
    match (tree.wnd pParent).pParent with
    | none => none
    | some p =>
      if (tree.wnd pRoot).children = (tree.wnd p).children then
        some pParent
      else
        tree.childTowards pRoot fuel p

/--
The outer loop of `RestrictControlECRGN`. `none` stands for a null pointer that is followed.
-/
def restrictLoop (tree : WndTree ι) (pCtrl : ι) (fuel : Nat) (pRoot : ι) (offX offY : Int) (minimal : Rect)
    : Option Rect :=
  match fuel with
  | 0 => none
  | fuel + 1 =>
    let w := tree.wnd pRoot
    let rc : Rect := ⟨w.cl + offX, w.ct + offY, w.cr + offX, w.cb + offY⟩
    let meet := intersectRect minimal rc
    if !meet.1 then
      some .zero
    else if (tree.wnd pCtrl).pParent = some pRoot then
      some meet.2
    else
      match tree.childTowards pRoot tree.nrWnds pCtrl with
      | none => none
      | some next => tree.restrictLoop pCtrl fuel next (offX + w.cl) (offY + w.ct) meet.2

def restrictControlECRGN (tree : WndTree ι) (minimal : Rect) (pCtrl : ι) : Option Rect :=
  tree.restrictLoop pCtrl tree.nrWnds (tree.wnd pCtrl).pMainWin 0 0 minimal

def isVisibleLoop (tree : WndTree ι) (fuel : Nat) (pCtrl : Option ι) : Bool :=
  match fuel, pCtrl with
  | fuel + 1, some h => (tree.wnd h).visible && tree.isVisibleLoop fuel (tree.wnd h).pParent
  | _, _ => true

end WndTree

structure GcrInfo where
  crgn : ClipRgn
  age : Nat
deriving DecidableEq, Repr

inductive DcType where
  | gendc
  | memdc
  | scrdc
deriving DecidableEq, Repr

structure GalSurface where
  w : Int
  h : Int
deriving DecidableEq, Repr

structure Dc (ι : Type) where
  dcType : DcType
  hwnd : Option ι
  surface : GalSurface
  lcrgn : ClipRgn
  ecrgn : ClipRgn
  bIsClient : Bool
  devRC : Rect
  oldage : Nat

structure GdiEnv (ι : Type) where
  tree : WndTree ι
  gcrInfo : GcrInfo

inductive DcRgn where
  | dst
  | src
deriving DecidableEq

def dcRgns (dst src : ClipRgn) : RgnStore DcRgn
  | .dst => dst
  | .src => src

namespace ClipRgn

def copyOf (dst src : ClipRgn) : ClipRgn :=
  (clipRgnCopy (dcRgns dst src) .dst .src).2 .dst

def intersectWith (dst src : ClipRgn) : ClipRgn :=
  (clipRgnIntersect (dcRgns dst src) .dst .dst .src).2 .dst

end ClipRgn

namespace Dc

variable {ι : Type}

def dp2sp (pdc : Dc ι) (rc : Rect) : Rect :=
  if pdc.dcType ≠ .gendc then rc else offsetRect rc pdc.devRC.left pdc.devRC.top

def isVisible (env : GdiEnv ι) (pdc : Dc ι) : Bool :=
  pdc.dcType ≠ .gendc || env.tree.isVisibleLoop (env.tree.nrWnds + 1) pdc.hwnd

def minimal [DecidableEq ι] (env : GdiEnv ι) (pdc : Dc ι) : Rect :=
  match pdc.hwnd with
  | none => pdc.devRC
  | some h =>
    if (env.tree.wnd h).isControl && !(env.tree.wnd h).ctrlAsMainWin then
      (env.tree.restrictControlECRGN pdc.devRC h).getD pdc.devRC
    else
      pdc.devRC

def updateDevRC (env : GdiEnv ι) (pdc : Dc ι) : Dc ι :=
  { pdc with devRC := if pdc.bIsClient then env.tree.wndClientRect pdc.hwnd else env.tree.wndRect pdc.hwnd }

def regenerate [DecidableEq ι] (env : GdiEnv ι) (pdc : Dc ι) : Dc ι :=
  let pdc := pdc.updateDevRC env
  let ecrgn := pdc.ecrgn.copyOf pdc.lcrgn
  let ecrgn := { ecrgn with rects := ecrgn.rects.map pdc.dp2sp }
  let ecrgn :=
    if pdc.lcrgn.rects = [] then
      ecrgn.copyOf env.gcrInfo.crgn
    else
      { ecrgn with rcBound := pdc.dp2sp ecrgn.rcBound }.intersectWith env.gcrInfo.crgn
  { pdc with ecrgn := (intersectClipRect ecrgn (pdc.minimal env)).2, oldage := env.gcrInfo.age }

def dcGenerateECRgn [DecidableEq ι] (env : GdiEnv ι) (pdc : Dc ι) (fForce : Bool) : Bool × Dc ι :=
  if !fForce && !pdc.isVisible env then
    (false, pdc)
  else if fForce || pdc.oldage ≠ env.gcrInfo.age then
    (true, pdc.regenerate env)
  else
    (true, pdc)

def initDC [DecidableEq ι] (env : GdiEnv ι) (hWnd : Option ι) (bIsClient : Bool) (surface : GalSurface) : Dc ι :=
  let pdc : Dc ι :=
    {
      dcType := .gendc
      hwnd := hWnd
      surface
      lcrgn := emptyClipRgn
      ecrgn := emptyClipRgn
      bIsClient
      devRC := .zero
      oldage := env.gcrInfo.age
    }
  let ecrgn := pdc.ecrgn.copyOf env.gcrInfo.crgn
  let pdc := pdc.updateDevRC env
  { pdc with ecrgn := (intersectClipRect ecrgn (pdc.minimal env)).2 }

def wholeSquare : Rect :=
  ⟨0, 0, 65535, 65535⟩

def resetLcrgn (pdc : Dc ι) : Dc ι :=
  if pdc.lcrgn.rects = [] then
    { pdc with lcrgn := (setClipRgn pdc.lcrgn wholeSquare).2 }
  else
    pdc

def excludeClipRect (pdc : Dc ι) (prc : Rect) : Dc ι :=
  let rc := normalizeRect prc
  if isRectEmpty rc then
    pdc
  else if pdc.dcType = .gendc then
    let pdc := pdc.resetLcrgn
    { pdc with
      lcrgn := (subtractClipRect pdc.lcrgn rc).2
      ecrgn := (subtractClipRect pdc.ecrgn (pdc.dp2sp rc)).2 }
  else
    { pdc with ecrgn := (subtractClipRect pdc.ecrgn rc).2 }

def includeClipRect [DecidableEq ι] (env : GdiEnv ι) (pdc : Dc ι) (prc : Rect) : Dc ι :=
  let rc := normalizeRect prc
  if isRectEmpty rc then
    pdc
  else if pdc.dcType = .gendc then
    let lcrgn :=
      if pdc.lcrgn.rects ≠ [] then (addClipRect pdc.lcrgn rc).2 else (setClipRgn pdc.lcrgn rc).2
    ({ pdc with lcrgn }.dcGenerateECRgn env true).2
  else
    { pdc with ecrgn := (addClipRect pdc.ecrgn rc).2 }

def clipRectIntersect (pdc : Dc ι) (prc : Rect) : Dc ι :=
  let rc := normalizeRect prc
  if isRectEmpty rc then
    pdc
  else if pdc.dcType = .gendc then
    let pdc := pdc.resetLcrgn
    { pdc with
      lcrgn := (intersectClipRect pdc.lcrgn rc).2
      ecrgn := (intersectClipRect pdc.ecrgn (pdc.dp2sp rc)).2 }
  else
    { pdc with ecrgn := (intersectClipRect pdc.ecrgn rc).2 }

def selectRect [DecidableEq ι] (env : GdiEnv ι) (pdc : Dc ι) (select : Option Rect) : Dc ι :=
  if pdc.dcType = .gendc then
    let lcrgn :=
      match select with
      | some rc => (setClipRgn pdc.lcrgn rc).2
      | none => emptyClipRgn
    ({ pdc with lcrgn }.dcGenerateECRgn env true).2
  else
    let meet := intersectRect (select.getD pdc.devRC) pdc.devRC
    { pdc with ecrgn := if meet.1 then (setClipRgn pdc.ecrgn meet.2).2 else emptyClipRgn }

def selectClipRect [DecidableEq ι] (env : GdiEnv ι) (pdc : Dc ι) (prc : Option Rect) : Dc ι :=
  match prc with
  | none => pdc.selectRect env none
  | some rc =>
    let rc := normalizeRect rc
    if isRectEmpty rc then
      pdc
    else
      pdc.selectRect env (some rc)

def selectClipRegion [DecidableEq ι] (env : GdiEnv ι) (pdc : Dc ι) (pRgn : ClipRgn) : Dc ι :=
  if pdc.dcType = .gendc then
    ({ pdc with lcrgn := pdc.lcrgn.copyOf pRgn }.dcGenerateECRgn env true).2
  else
    { pdc with ecrgn := (intersectClipRect (pdc.ecrgn.copyOf pRgn) pdc.devRC).2 }

end Dc

inductive ClipOp where
  | excludeRect (rc : Rect)
  | includeRect (rc : Rect)
  | rectIntersect (rc : Rect)
  | selectRect (rc : Option Rect)
  | selectRegion (rgn : ClipRgn)
  | generate (fForce : Bool)

namespace Dc

variable {ι : Type} [DecidableEq ι]

def exec (env : GdiEnv ι) (pdc : Dc ι) (op : ClipOp) : Dc ι :=
  match op with
  | .excludeRect rc => pdc.excludeClipRect rc
  | .includeRect rc => pdc.includeClipRect env rc
  | .rectIntersect rc => pdc.clipRectIntersect rc
  | .selectRect rc => pdc.selectClipRect env rc
  | .selectRegion rgn => pdc.selectClipRegion env rgn
  | .generate fForce => if pdc.dcType = .gendc then (pdc.dcGenerateECRgn env fForce).2 else pdc

def run (env : GdiEnv ι) (pdc : Dc ι) (ops : List ClipOp) : Dc ι :=
  ops.foldl (exec env) pdc

end Dc

end MiniGui
