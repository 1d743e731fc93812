import MiniGui.Desktop.ZOrder

namespace MiniGui

namespace ZOrderInfo

def unlinkZNode (zi : ZOrderInfo) (idx : Int) : ZOrderInfo :=
  let prev := (zi.nodes idx).prev
  let zi := if prev ≠ 0 then zi.setNode prev (fun node => { node with next := (zi.nodes idx).next }) else zi
  let next := (zi.nodes idx).next
  if next ≠ 0 then zi.setNode next (fun node => { node with prev := (zi.nodes idx).prev }) else zi

def unchainZNode (zi : ZOrderInfo) (idx : Int) : ZOrderInfo :=
  let zi := zi.unlinkZNode idx
  let zi := { zi with usageBmp := slotClearUse zi.usageBmp idx.toNat }
  zi.setNode idx (fun node => { node with flags := 0 })

def dropFirst (zi : ZOrderInfo) (t : ZType) (idx : Int) : ZOrderInfo :=
  let zi := if zi.first t = idx then zi.setFirst t (zi.nodes idx).next else zi
  zi.setNr t (zi.nr t - 1)

def freeZNode (zi : ZOrderInfo) (t : ZType) (idx : Int) : ZOrderInfo :=
  let zi := (zi.unchainZNode idx).setNode idx (fun node => { node with hwnd := 0 })
  let zi := zi.dropFirst t idx
  if idx = zi.activeWin then { zi with activeWin := 0 } else zi

def insertZNode (zi : ZOrderInfo) (t : ZType) (slot : Int) : ZOrderInfo :=
  let oldFirst := zi.first t
  let zi := zi.setNode oldFirst (fun node => { node with prev := slot })
  let zi := zi.setNode slot (fun node => { node with prev := 0, next := oldFirst })
  (zi.setFirst t slot).setNr t (zi.nr t + 1)

def raiseZNode (zi : ZOrderInfo) (t : ZType) (idx : Int) : ZOrderInfo :=
  let zi := zi.unlinkZNode idx
  let first := zi.first t
  let zi := zi.setNode idx (fun node => { node with prev := 0, next := first })
  let zi := zi.setNode first (fun node => { node with prev := idx })
  zi.setFirst t idx

def allocSlot (zi : ZOrderInfo) (t : ZType) : Option (Int × (Nat → BitVec 8)) :=
  let bytes := zi.maxNr .global / 8
  match t with
  | .global =>
    (lookforUnusedSlot zi.usageBmp (zi.maxNr .global)).map fun r => ((r.1 : Int), r.2)
  | _ =>
    (lookforUnusedSlot (fun i => zi.usageBmp (bytes + i)) (zi.sizeUsageBmp - bytes)).map fun r =>
      ((r.1 : Int) + zi.maxNr .global,
        fun i => if i < bytes then zi.usageBmp i else r.2 (i - bytes))

def startMenu (zi : ZOrderInfo) (cli : Int) (rc : Rect) (ptmi : Hwnd) : ZOrderInfo :=
  {
    zi with
    menuNodes := Function.update zi.menuNodes zi.nrPopupmenus { rc, hwnd := ptmi }
    cliTrackmenu := if zi.cliTrackmenu = -1 then cli else zi.cliTrackmenu
    nrPopupmenus := zi.nrPopupmenus + 1
  }

def endMenu (zi : ZOrderInfo) : ZOrderInfo :=
  let nr := zi.nrPopupmenus - 1
  {
    zi with
    nrPopupmenus := nr
    cliTrackmenu := if nr = 0 then -1 else zi.cliTrackmenu
  }

def closeMenus (zi : ZOrderInfo) : ZOrderInfo :=
  { zi with cliTrackmenu := -1, nrPopupmenus := 0 }

def boundMenus (zi : ZOrderInfo) : Rect :=
  (List.range zi.nrPopupmenus.toNat).foldl (fun rc (i : Nat) => getBoundRect rc (zi.menuNodes i).rc) .zero

end ZOrderInfo

inductive Output where
  | updateWindow (znode : Int) (hwnd : Hwnd) (rc : Rect)
  | updateCliWin (cli : Int) (hwnd : Hwnd) (rc : Rect)
  | eraseDesktop (rc : Rect)
  | post (znode : Int) (cli : Int) (hwnd : Hwnd) (message : Int) (wParam : Hwnd)
  | closeMenu (cli : Int)
  | windowDropped (cli : Int) (hwnd : Hwnd) (rc : Rect)
deriving DecidableEq, Repr

/--
A layer together with what else the code below works on: `sg_UpdateRgn`, `has_dirty` of the clients, and the
messages sent so far.
-/
structure Work where
  zi : ZOrderInfo
  updateRgn : ClipRgn
  hasDirty : Int → Bool
  outputs : List Output

namespace Work

def setNode (w : Work) (slot : Int) (f : ZOrderNode → ZOrderNode) : Work :=
  { w with zi := w.zi.setNode slot f }

def onZi (w : Work) (f : ZOrderInfo → ZOrderInfo) : Work :=
  { w with zi := f w.zi }

def output (w : Work) (o : Output) : Work :=
  { w with outputs := w.outputs ++ [o] }

def loop (stop : Int → Bool) (body : Int → Work → Work) (fuel : Nat) (slot : Int) (w : Work) : Work :=
  match fuel with
  | 0 => w
  | fuel + 1 =>
    if stop slot then
      w
    else
      let w := body slot w
      loop stop body fuel (w.zi.nodes slot).next w

def forZNodes (stop : Int → Bool) (body : Int → Work → Work) (slot : Int) (w : Work) : Work :=
  loop stop body (w.zi.maxNrNodes + 1) slot w

def atEnd (slot : Int) : Bool :=
  slot ≤ 0

def doForAllZNodes (cb : Int → Work → Work) (types : List ZType) (w : Work) : Work :=
  types.foldl (fun w t => forZNodes atEnd cb (w.zi.first t) w) w

def ZT_ALL : List ZType :=
  [.global, .topmost, .normal]

def intersectRc (rc : Rect) (slot : Int) (w : Work) : Work :=
  let node := w.zi.nodes slot
  if node.visible && doesIntersect rc node.rc then
    w.setNode slot ZOrderNode.bumpAge
  else
    w

def subtractNode (slot : Int) (w : Work) : Work :=
  let r := subtractClipRect w.updateRgn (w.zi.nodes slot).rc
  let w := { w with updateRgn := r.2 }
  if r.1 then
    w.setNode slot (fun node => node.bumpAge.setFlag ZOF_REFERENCE)
  else
    w

def updateRc (slot : Int) (w : Work) : Work :=
  if (w.zi.nodes slot).visible then subtractNode slot w else w

def updateUnmarked (slot : Int) (w : Work) : Work :=
  let node := w.zi.nodes slot
  if node.visible && !node.has ZOF_REFERENCE then subtractNode slot w else w

def updateRcNoCli (cli : Int) (slot : Int) (w : Work) : Work :=
  let node := w.zi.nodes slot
  if node.visible && node.cli ≠ cli then subtractNode slot w else w

def updateClientWindow (slot : Int) (rc : Rect) (w : Work) : Work :=
  let node := w.zi.nodes slot
  if node.cli = 0 then
    w.output (.updateWindow slot node.hwnd rc)
  else
    let dirtyRc := if isRectEmpty node.dirtyRc then rc else getBoundRect node.dirtyRc rc
    let w := w.setNode slot (fun node => { node with dirtyRc })
    { w with hasDirty := Function.update w.hasDirty node.cli true }

def updateZNode (rc : Rect) (slot : Int) (w : Work) : Work :=
  let node := w.zi.nodes slot
  if node.visible && node.has ZOF_REFERENCE then
    (updateClientWindow slot rc w).setNode slot (fun node => node.clearFlag ZOF_REFERENCE)
  else
    w

def updateCliZNode (rcScr : Rect) (cli : Int) (slot : Int) (w : Work) : Work :=
  let node := w.zi.nodes slot
  if node.cli = cli && node.visible && !isRectEmpty node.dirtyRc then
    let w := w.setNode slot (fun node => { node with dirtyRc := .zero })
    w.output (.updateCliWin node.cli node.hwnd (intersectRect node.dirtyRc rcScr).2)
  else
    w

def updateClientWindowRgn (slot : Int) (w : Work) : Work :=
  let node := w.zi.nodes slot
  let request (rc : Rect) : Output :=
    if node.cli = 0 then .updateWindow slot node.hwnd rc else .updateCliWin node.cli node.hwnd rc
  { w with outputs := w.outputs ++ w.updateRgn.rects.map request }

def postMsg (slot : Int) (message : Int) (wParam : Hwnd) (w : Work) : Work :=
  w.output (.post slot (w.zi.nodes slot).cli (w.zi.nodes slot).mainWin message wParam)

section Desktop

variable (rcScr : Rect)

def setUpdateRgn (w : Work) (rc : Rect) : Work :=
  { w with updateRgn := (setClipRgn w.updateRgn rc).2 }

def updateDesktop (w : Work) : Work :=
  let r := subtractClipRect w.updateRgn rcScr
  let w := { w with updateRgn := r.2 }
  if r.1 then w.setNode 0 (fun node => node.bumpAge.setFlag ZOF_REFERENCE) else w

def updateDesktopUnmarked (w : Work) : Work :=
  if (w.zi.nodes 0).has ZOF_REFERENCE then w else w.updateDesktop rcScr

def intersectDesktop (w : Work) (rc : Rect) : Work :=
  if doesIntersect rc rcScr then w.setNode 0 ZOrderNode.bumpAge else w

def updateDirty (w : Work) (rc : Rect) : Work :=
  let w := w.doForAllZNodes (updateZNode rc) ZT_ALL
  if (w.zi.nodes 0).has ZOF_REFERENCE then
    (w.output (.eraseDesktop rc)).setNode 0 (fun node => node.clearFlag ZOF_REFERENCE)
  else
    w

end Desktop

section Locked

variable (rcScr : Rect)

def allocLocked (type : BitVec 32) (t : ZType) (node : ZOrderNode) (freeSlot : Int) (w : Work) : Work :=
  let w :=
    w.setNode freeSlot
      (fun old => { node with dirtyRc := old.dirtyRc, next := old.next, prev := old.prev })
  let w :=
    if node.visible then
      let w :=
        if type ≥ ZOF_TYPE_NORMAL then
          forZNodes atEnd (intersectRc node.rc) (w.zi.first .normal) w
        else
          w
      let w :=
        if type ≥ ZOF_TYPE_TOPMOST then
          forZNodes atEnd (intersectRc node.rc) (w.zi.first .topmost) w
        else
          w
      let w :=
        if type ≥ ZOF_TYPE_GLOBAL then
          forZNodes atEnd (intersectRc node.rc) (w.zi.first .global) w
        else
          w
      w.intersectDesktop rcScr node.rc
    else
      w
  w.onZi (fun zi => zi.insertZNode t freeSlot)

def updateBelow (type : BitVec 32) (idx : Int) (body : Int → Work → Work) (w : Work) : Work :=
  let w := forZNodes atEnd body (w.zi.nodes idx).next w
  let w := if type > ZOF_TYPE_TOPMOST then forZNodes atEnd body (w.zi.first .topmost) w else w
  if type > ZOF_TYPE_NORMAL then forZNodes atEnd body (w.zi.first .normal) w else w

def freeLocked (type : BitVec 32) (t : ZType) (idx : Int) (w : Work) : Work :=
  let w := w.setUpdateRgn (w.zi.nodes idx).rc
  let w :=
    if (w.zi.nodes idx).visible then (w.updateBelow type idx updateRc).updateDesktop rcScr else w
  w.onZi (fun zi => zi.freeZNode t idx)

def move2TopLocked (t : ZType) (idx : Int) (w : Work) : Work :=
  let rc := (w.zi.nodes idx).rc
  let w :=
    if (w.zi.nodes idx).visible then
      let body (slot : Int) (w : Work) : Work :=
        let node := w.zi.nodes slot
        if node.visible && doesIntersect rc node.rc then
          let w := w.setNode slot ZOrderNode.bumpAge
          { w with updateRgn := (addClipRect w.updateRgn node.rc).2 }
        else
          w
      forZNodes (fun slot => slot = idx) body (w.zi.first t) w
    else
      w
  (w.onZi (fun zi => zi.raiseZNode t idx)).setNode idx ZOrderNode.bumpAge

def showLocked (type : BitVec 32) (idx : Int) (w : Work) : Work :=
  let rc := (w.zi.nodes idx).rc
  let w := if type > ZOF_TYPE_NORMAL then w.doForAllZNodes (intersectRc rc) [.normal] else w
  let w := if type > ZOF_TYPE_TOPMOST then w.doForAllZNodes (intersectRc rc) [.topmost] else w
  let w := if type > ZOF_TYPE_GLOBAL then w.doForAllZNodes (intersectRc rc) [.global] else w
  let w := forZNodes (fun slot => slot = 0) (intersectRc rc) (w.zi.nodes idx).next w
  let w := w.intersectDesktop rcScr rc
  w.setNode idx (fun node => node.bumpAge.setFlag ZOF_VISIBLE)

def hideLocked (type : BitVec 32) (idx : Int) (w : Work) : Work :=
  let w := w.setUpdateRgn (w.zi.nodes idx).rc
  let w :=
    if (w.zi.nodes idx).visible then (w.updateBelow type idx updateRc).updateDesktop rcScr else w
  let node := w.zi.nodes idx
  let w :=
    if idx ≠ 0 ∧ node.has ZOF_TF_MAINWIN ∧ node.visible then
      ((w.postMsg idx MSG_NCACTIVATE 0).postMsg idx MSG_ACTIVE 0).postMsg idx MSG_KILLFOCUS 0
    else
      w
  w.setNode idx (fun node => node.clearFlag ZOF_VISIBLE)

def moveLocked (type : BitVec 32) (idx : Int) (rcWin : Rect) (w : Work) : Work :=
  let rcInv := subtractRect (w.zi.nodes idx).rc rcWin
  let w := if type > ZOF_TYPE_NORMAL then w.doForAllZNodes (intersectRc rcWin) [.normal] else w
  let w := if type > ZOF_TYPE_TOPMOST then w.doForAllZNodes (intersectRc rcWin) [.topmost] else w
  let w := forZNodes (fun slot => slot = 0) (intersectRc rcWin) (w.zi.nodes idx).next w
  let w := w.intersectDesktop rcScr rcWin
  let piece (w : Work) (rc : Rect) : Work :=
    ((w.setUpdateRgn rc).updateBelow type idx updateUnmarked).updateDesktopUnmarked rcScr
  let w := rcInv.foldl piece w
  w.setNode idx (fun node => { node with rc := rcWin }.bumpAge)

def addCovered (rcOld : Rect) (slot : Int) (w : Work) : Work :=
  let node := w.zi.nodes slot
  let rcInter := intersectRect rcOld node.rc
  if node.visible && rcInter.1 then
    { w with updateRgn := (addClipRect w.updateRgn rcInter.2).2 }
  else
    w

def moveInvalid (type : BitVec 32) (t : ZType) (idx : Int) (rcOld rcWin : Rect) (erase : Bool) (w : Work)
    : Work :=
  let w := { w with updateRgn := emptyClipRgn }
  let add (w : Work) (rc : Rect) : Work := { w with updateRgn := (addClipRect w.updateRgn rc).2 }
  let w := (subtractRect rcOld rcScr).foldl add w
  let w :=
    if type < ZOF_TYPE_GLOBAL then forZNodes atEnd (addCovered rcOld) (w.zi.first .global) w else w
  let w :=
    if type < ZOF_TYPE_TOPMOST then forZNodes atEnd (addCovered rcOld) (w.zi.first .topmost) w else w
  let w := forZNodes (fun slot => slot = idx) (addCovered rcOld) (w.zi.first t) w
  let w := w.doForAllZNodes (updateZNode rcOld) ZT_ALL
  let w :=
    if (w.zi.nodes 0).has ZOF_REFERENCE then
      let w := if erase then w.output (.eraseDesktop rcOld) else w
      w.setNode 0 (fun node => node.clearFlag ZOF_REFERENCE)
    else
      w
  let w := { w with updateRgn := offsetRegion w.updateRgn (rcWin.left - rcOld.left) (rcWin.top - rcOld.top) }
  w.updateClientWindowRgn idx

def startMenuLocked (cli : Int) (rc : Rect) (ptmi : Hwnd) (w : Work) : Work :=
  let w := w.doForAllZNodes (intersectRc rc) ZT_ALL
  (w.intersectDesktop rcScr rc).onZi (fun zi => zi.startMenu cli rc ptmi)

def endMenuLocked (rc : Rect) (w : Work) : Work :=
  let w := w.setUpdateRgn rc
  ((w.doForAllZNodes updateRc ZT_ALL).updateDesktop rcScr).onZi ZOrderInfo.endMenu

def closeMenusLocked (body : Int → Work → Work) (w : Work) : Work :=
  let w := w.setUpdateRgn w.zi.boundMenus
  ((w.doForAllZNodes body ZT_ALL).updateDesktop rcScr).onZi ZOrderInfo.closeMenus

def removeZNode (cli : Int) (t : ZType) (slot : Int) (r : Rect × Work) : Rect × Work :=
  let w := r.2
  let node := w.zi.nodes slot
  if node.cli = cli then
    let r :=
      if node.visible then
        let w := w.setUpdateRgn node.rc
        let w := forZNodes atEnd (updateRcNoCli cli) (w.zi.nodes slot).next w
        let w :=
          match t with
          | .topmost => w.doForAllZNodes (updateRcNoCli cli) [.normal]
          | _ => w
        (getBoundRect r.1 node.rc, w.updateDesktopUnmarked rcScr)
      else
        r
    (r.1, r.2.onZi (fun zi => (zi.unchainZNode slot).dropFirst t slot))
  else
    r

def removeLoop (cli : Int) (t : ZType) (fuel : Nat) (slot : Int) (r : Rect × Work) : Rect × Work :=
  match fuel with
  | 0 => r
  | fuel + 1 =>
    if atEnd slot then
      r
    else
      let r := removeZNode rcScr cli t slot r
      removeLoop cli t fuel (r.2.zi.nodes slot).next r

def removeLocked (cli : Int) (rcBound : Rect) (w : Work) : Rect × Work :=
  let fuel := w.zi.maxNrNodes + 1
  let r := removeLoop rcScr cli .topmost fuel (w.zi.first .topmost) (rcBound, w)
  let r := removeLoop rcScr cli .normal fuel (r.2.zi.first .normal) r
  let clear (zi : ZOrderInfo) : ZOrderInfo :=
    if (zi.nodes zi.activeWin).cli = cli then { zi with activeWin := 0 } else zi
  (r.1, r.2.onZi clear)

end Locked

end Work

end MiniGui
