import MiniGui.Desktop.ZNodes

/-!
The handlers of the server for z-order requests, and what else changes the layers: the removal of a client,
the change of the topmost layer, and the input events that drive a window being dragged.
-/

namespace MiniGui

def HT_CAPTION : Int := 0x21
def HT_BORDER_TOP : Int := 0x23
def HT_BORDER_BOTTOM : Int := 0x24
def HT_BORDER_LEFT : Int := 0x25
def HT_BORDER_RIGHT : Int := 0x26
def HT_CORNER_TL : Int := 0x27
def HT_CORNER_TR : Int := 0x28
def HT_CORNER_BL : Int := 0x29
def HT_CORNER_BR : Int := 0x2A

structure DesktopEnv where
  rcScr : Rect
  allocCaption : String → String
  changeCaption : String → String

structure DragDropInfo (κ : Type) where
  cli : Int
  idxZnode : Int
  hwnd : Hwnd
  zi : κ
  rc : Rect
  location : Int
  lastX : Int
  lastY : Int

/--
The server, with layers addressed by `κ`. `sem` is the value of the semaphore of each layer as far as the
server has changed it, and `stuck` becomes true when the server would wait for a lock that it holds itself.
-/
structure Server (κ : Type) where
  layers : κ → ZOrderInfo
  topmost : κ
  clientLayer : Int → κ
  imeWnd : Hwnd
  updateRgn : ClipRgn
  hasDirty : Int → Bool
  ddInfo : DragDropInfo κ
  sem : κ → Int
  stuck : Bool
  outputs : List (κ × Output)

structure ZOrderOpInfo where
  idOp : Int
  idxZnode : Int
  flags : BitVec 32
  hwnd : Hwnd
  mainWin : Hwnd
  rc : Rect
  caption : String

def ID_ZOOP_ALLOC : Int := 1
def ID_ZOOP_FREE : Int := 2
def ID_ZOOP_MOVE2TOP : Int := 3
def ID_ZOOP_SHOW : Int := 4
def ID_ZOOP_HIDE : Int := 5
def ID_ZOOP_MOVEWIN : Int := 6
def ID_ZOOP_SETACTIVE : Int := 7
def ID_ZOOP_START_TRACKMENU : Int := 9
def ID_ZOOP_END_TRACKMENU : Int := 10
def ID_ZOOP_CLOSEMENU : Int := 11
def ID_ZOOP_ENABLEWINDOW : Int := 12
def ID_ZOOP_STARTDRAG : Int := 13
def ID_ZOOP_CANCELDRAG : Int := 14
def ID_ZOOP_CHANGECAPTION : Int := 15

namespace ZOrderInfo

def ageOthers (old : ZOrderInfo) (nodes : Int → ZOrderNode) (slot : Int) : ZOrderNode :=
  if (old.maxNr .global : Int) ≤ slot ∧ slot ≤ old.maxNrNodes then
    { nodes slot with age := (old.nodes slot).age + 1 }
  else
    nodes slot

def takeGlobals (zi old : ZOrderInfo) : ZOrderInfo :=
  let nrGlobals := old.nr .global
  let bytes := old.maxNr .global / 8
  let zi := (zi.setNr .global nrGlobals).setFirst .global (old.first .global)
  let zi := if old.activeWin < nrGlobals then { zi with activeWin := old.activeWin } else zi
  let zi := { zi with usageBmp := fun i => if i < bytes then old.usageBmp i else zi.usageBmp i }
  let copied (slot : Int) : ZOrderNode :=
    if 0 ≤ slot ∧ slot < old.maxNr .global then old.nodes slot else zi.nodes slot
  let zi := { zi with nodes := ageOthers old copied }
  zi.setNode 0 (fun node => { node with age := (old.nodes 0).age + 1 })

end ZOrderInfo

namespace Server

variable {κ : Type} [DecidableEq κ]

def ziFromClient (s : Server κ) (cli : Int) : κ :=
  if cli > 0 then s.clientLayer cli else s.topmost

def work (s : Server κ) (l : κ) : Work :=
  { zi := s.layers l, updateRgn := s.updateRgn, hasDirty := s.hasDirty, outputs := [] }

def finish (s : Server κ) (l : κ) (w : Work) : Server κ :=
  {
    s with
    layers := Function.update s.layers l w.zi
    updateRgn := w.updateRgn
    hasDirty := w.hasDirty
    outputs := s.outputs ++ w.outputs.map (fun o => (l, o))
  }

def onLayer (s : Server κ) (l : κ) (f : Work → Work) : Server κ :=
  s.finish l (f (s.work l))

def nrClients (zi : ZOrderInfo) : Int :=
  zi.maxNrPopupmenus + zi.maxNr .global + zi.maxNr .topmost + zi.maxNr .normal

def unlockZiForChange (s : Server κ) (l : κ) : Server κ :=
  { s with sem := Function.update s.sem l (s.sem l + nrClients (s.layers l)) }

def dragRect (dd : DragDropInfo κ) (x y : Int) : Rect :=
  let rc := dd.rc
  let dx := x - dd.lastX
  let dy := y - dd.lastY
  if dd.location = HT_CAPTION then
    offsetRect rc dx dy
  else if dd.location = HT_BORDER_TOP then
    { rc with top := rc.top + dy }
  else if dd.location = HT_BORDER_BOTTOM then
    { rc with bottom := rc.bottom + dy }
  else if dd.location = HT_BORDER_LEFT then
    { rc with left := rc.left + dx }
  else if dd.location = HT_BORDER_RIGHT then
    { rc with right := rc.right + dx }
  else if dd.location = HT_CORNER_TL then
    { rc with left := rc.left + dx, top := rc.top + dy }
  else if dd.location = HT_CORNER_TR then
    { rc with right := rc.right + dx, top := rc.top + dy }
  else if dd.location = HT_CORNER_BL then
    { rc with left := rc.left + dx, bottom := rc.bottom + dy }
  else if dd.location = HT_CORNER_BR then
    { rc with right := rc.right + dx, bottom := rc.bottom + dy }
  else
    rc

def doDragDropWindow (s : Server κ) (msg x y : Int) : Int × Server κ :=
  let dd := s.ddInfo
  if dd.cli < 0 then
    (0, s)
  else if msg = MSG_MOUSEMOVE then
    (1, { s with ddInfo := { dd with rc := dragRect dd x y, lastX := x, lastY := y } })
  else
    let s := { s with outputs := s.outputs ++ [(dd.zi, Output.windowDropped dd.cli dd.hwnd dd.rc)] }
    let s := { s with ddInfo := { dd with cli := -1 } }
    (1, s.unlockZiForChange dd.zi)

def lockZiForChange (s : Server κ) (l : κ) : Server κ :=
  -- Cancel the current drag and drop operation.
  let s := (s.doDragDropWindow MSG_IDLE 0 0).2
  let clients := nrClients (s.layers l)
  {
    s with
    stuck := s.stuck || s.sem l < clients
    sem := Function.update s.sem l (s.sem l - clients)
  }

def locked (s : Server κ) (l : κ) (f : Work → Work) : Server κ :=
  ((s.lockZiForChange l).onLayer l f).unlockZiForChange l

section Handlers

variable (env : DesktopEnv)

def srvForceCloseMenu (s : Server κ) (cli : Int) : Server κ :=
  let l := s.ziFromClient cli
  let zi := s.layers l
  if zi.cliTrackmenu < 0 ∨ zi.nrPopupmenus = 0 then
    s
  else
    let s := s.locked l (Work.closeMenusLocked env.rcScr Work.updateRc)
    s.onLayer l fun w =>
      (w.updateDirty (zi.boundMenus)).output (.closeMenu zi.cliTrackmenu)

def srvAllocZOrderNode (s : Server κ) (cli : Int) (hwnd mainWin : Hwnd) (flags : BitVec 32) (rc : Rect)
    (caption : String) : Int × Server κ :=
  let type := flags &&& ZOF_TYPE_MASK
  let l := s.ziFromClient cli
  match (chainOf type).filter (fun t => (s.layers l).nr t < (s.layers l).maxNr t) with
  | none => (-1, s)
  | some t =>
    let s :=
      if (s.layers l).cliTrackmenu ≥ 0 ∧ flags &&& ZOF_VISIBLE ≠ 0 then
        s.srvForceCloseMenu env 0
      else
        s
    let s := s.lockZiForChange l
    match (s.layers l).allocSlot t with
    | none => (-1, s)
    | some (freeSlot, usageBmp) =>
      let node : ZOrderNode :=
        {
          ZOrderNode.zero with
          flags, rc, cli, hwnd, mainWin
          age := 1
          caption := env.allocCaption caption
        }
      let s := s.onLayer l fun w =>
        Work.allocLocked env.rcScr type t node freeSlot { w with zi := { w.zi with usageBmp } }
      (freeSlot, s.unlockZiForChange l)

def srvSetActiveWindow (s : Server κ) (cli idx : Int) : Int × Server κ :=
  let l := s.ziFromClient cli
  let zi := s.layers l
  if idx > zi.maxNrNodes then
    (-1, s)
  else if s.imeWnd = (zi.nodes idx).mainWin ∨ (zi.nodes idx).has ZOF_TF_TOOLWIN then
    (-1, s)
  else
    let s := if zi.cliTrackmenu ≥ 0 then s.srvForceCloseMenu env 0 else s
    let zi := s.layers l
    let oldActive := zi.activeWin
    let s := s.locked l fun w => { w with zi := { w.zi with activeWin := idx } }
    let hwndFor (znode : Int) : Hwnd :=
      if znode = 0 then
        0
      else if (zi.nodes znode).cli = cli then
        (zi.nodes znode).hwnd
      else
        HWND_OTHERPROC
    let oldHwnd := hwndFor oldActive
    let newHwnd := hwndFor idx
    let s :=
      if oldActive ≠ 0 ∧ (zi.nodes idx).visible then
        s.onLayer l fun w =>
          ((w.postMsg oldActive MSG_NCACTIVATE 0).postMsg oldActive MSG_ACTIVE 0).postMsg oldActive
            MSG_KILLFOCUS newHwnd
      else
        s
    let s :=
      if idx ≠ 0 then
        s.onLayer l fun w =>
          ((w.postMsg idx MSG_NCACTIVATE 1).postMsg idx MSG_ACTIVE 1).postMsg idx MSG_SETFOCUS oldHwnd
      else
        s
    (oldHwnd, s)

def nextMainWin (zi : ZOrderInfo) (fuel : Nat) (slot : Int) : Option Int :=
  match fuel with
  | 0 => none
  | fuel + 1 =>
    if slot = 0 then
      none
    else
      let node := zi.nodes slot
      if node.has ZOF_TF_MAINWIN ∧ node.visible ∧ ¬node.has ZOF_DISABLED then
        some slot
      else
        nextMainWin zi fuel node.next

def getNextVisibleMainwin (zi : ZOrderInfo) (start : Int) : Int :=
  let find (slot : Int) : Option Int := nextMainWin zi (zi.maxNrNodes + 1) slot
  let rest := if start ≠ 0 then find (zi.nodes start).next else none
  (rest.or ((find (zi.first .global)).or ((find (zi.first .topmost)).or (find (zi.first .normal))))).getD 0

def activateNext (s : Server κ) (l : κ) (start : Int) : Server κ :=
  let zi := s.layers l
  let nextActive := getNextVisibleMainwin zi start
  (s.srvSetActiveWindow env (zi.nodes nextActive).cli nextActive).2

def badIndex (zi : ZOrderInfo) (idx : Int) : Prop :=
  idx > zi.maxNrNodes ∨ idx ≤ 0

instance (zi : ZOrderInfo) (idx : Int) : Decidable (badIndex zi idx) :=
  inferInstanceAs (Decidable (_ ∨ _))

/--
`srvFreeZOrderNode` from the lock to the repainting of what was under the window. In the code `rc` is not set
for a hidden window, when there is nothing to repaint.
-/
def freeNode (s : Server κ) (l : κ) (type : BitVec 32) (t : ZType) (idx : Int) : Server κ :=
  let rc := ((s.layers l).nodes idx).rc
  (s.locked l (Work.freeLocked env.rcScr type t idx)).onLayer l fun w => w.updateDirty rc

def srvFreeZOrderNode (s : Server κ) (cli idx : Int) : Int × Server κ :=
  let l := s.ziFromClient cli
  let zi := s.layers l
  if badIndex zi idx then
    (-1, s)
  else
    let s := if zi.cliTrackmenu ≥ 0 ∧ (zi.nodes idx).visible then s.srvForceCloseMenu env 0 else s
    let type := ((s.layers l).nodes idx).type
    match chainOf type with
    | none => (-1, s)
    | some t =>
      let oldActive := (s.layers l).activeWin
      let s := s.freeNode env l type t idx
      (0, if idx = oldActive then s.activateNext env l idx else s)

def srvMove2Top (s : Server κ) (cli idx : Int) : Int × Server κ :=
  let l := s.ziFromClient cli
  let zi := s.layers l
  if badIndex zi idx then
    (-1, s)
  else
    let s := if zi.cliTrackmenu ≥ 0 then s.srvForceCloseMenu env 0 else s
    match chainOf ((s.layers l).nodes idx).type with
    | none => (-1, s)
    | some t =>
      if (s.layers l).first t = idx then
        (-1, s)
      else
        let s := { s with updateRgn := emptyClipRgn }
        let s := s.locked l (Work.move2TopLocked t idx)
        (0,
          s.onLayer l fun w =>
            if (w.zi.nodes idx).visible then w.updateClientWindowRgn idx else w)

def srvShowWindow (s : Server κ) (cli idx : Int) : Int × Server κ :=
  let l := s.ziFromClient cli
  let zi := s.layers l
  if badIndex zi idx then
    (-1, s)
  else
    let s := if zi.cliTrackmenu ≥ 0 then s.srvForceCloseMenu env 0 else s
    let type := ((s.layers l).nodes idx).type
    match chainOf type with
    | none => (-1, s)
    | some _ => (0, s.locked l (Work.showLocked env.rcScr type idx))

def srvHideWindow (s : Server κ) (cli idx : Int) : Int × Server κ :=
  let l := s.ziFromClient cli
  let zi := s.layers l
  if idx > zi.maxNrNodes then
    (-1, s)
  else
    let s := if zi.cliTrackmenu ≥ 0 then s.srvForceCloseMenu env 0 else s
    let type := ((s.layers l).nodes idx).type
    match chainOf type with
    | none => (-1, s)
    | some _ =>
      let s := s.locked l (Work.hideLocked env.rcScr type idx)
      (0, s.onLayer l fun w => w.updateDirty (w.zi.nodes idx).rc)

def srvMoveWindow (s : Server κ) (cli idx : Int) (rcWin : Rect) : Int × Server κ :=
  let l := s.ziFromClient cli
  let zi := s.layers l
  let type := (zi.nodes idx).type
  if idx > zi.maxNrNodes ∨ idx < 0 then
    (-1, s)
  else
    match chainOf type with
    | none => (-1, s)
    | some t =>
      if (zi.nodes idx).rc = rcWin then
        (0, s)
      else if (zi.nodes idx).visible then
        let s := if zi.cliTrackmenu ≥ 0 then s.srvForceCloseMenu env 0 else s
        let rcOld := (zi.nodes idx).rc
        let erase := cli = 0 ∨ s.clientLayer cli = s.topmost
        let s := s.locked l (Work.moveLocked env.rcScr type idx rcWin)
        (0, s.onLayer l (Work.moveInvalid env.rcScr type t idx rcOld rcWin erase))
      else
        let move (w : Work) : Work := w.setNode idx (fun node => { node with rc := rcWin }.bumpAge)
        (0, s.locked l move)

def srvStartTrackPopupMenu (s : Server κ) (cli : Int) (rc : Rect) (ptmi : Hwnd) : Int × Server κ :=
  let l := s.ziFromClient cli
  let zi := s.layers l
  let s :=
    if zi.cliTrackmenu ≥ 0 ∧ zi.cliTrackmenu ≠ cli then s.srvForceCloseMenu env 0 else s
  let zi := s.layers l
  if zi.nrPopupmenus = zi.maxNrPopupmenus then
    (-1, s)
  else
    (zi.nrPopupmenus, s.locked l (Work.startMenuLocked env.rcScr cli rc ptmi))

def srvEndTrackPopupMenu (s : Server κ) (cli idx : Int) : Int × Server κ :=
  let l := s.ziFromClient cli
  let zi := s.layers l
  if zi.cliTrackmenu ≠ cli ∨ zi.nrPopupmenus ≠ idx + 1 then
    (-1, s)
  else
    let rc := (zi.menuNodes idx).rc
    let s := s.locked l (Work.endMenuLocked env.rcScr rc)
    (0, s.onLayer l fun w => w.updateDirty rc)

def srvEnableWindow (s : Server κ) (cli idx : Int) (flags : BitVec 32) : Int × Server κ :=
  let l := s.ziFromClient cli
  let zi := s.layers l
  if idx > zi.maxNrNodes ∨ idx < 0 then
    (-1, s)
  else
    let enable (node : ZOrderNode) : ZOrderNode :=
      if flags ≠ 0 then node.clearFlag ZOF_DISABLED else node.setFlag ZOF_DISABLED
    (0, s.locked l fun w => w.setNode idx enable)

def srvStartDragWindow (s : Server κ) (cli idx location initX initY : Int) : Int × Server κ :=
  let l := s.ziFromClient cli
  let zi := s.layers l
  if idx > zi.maxNrNodes ∨ idx < 0 then
    (-1, s)
  else if s.ddInfo.cli ≥ 0 then
    (-1, s)
  else
    let s := s.lockZiForChange l
    let node := (s.layers l).nodes idx
    let ddInfo : DragDropInfo κ :=
      {
        cli
        idxZnode := idx
        hwnd := node.hwnd
        zi := l
        rc := node.rc
        location
        lastX := initX
        lastY := initY
      }
    (0, { s with ddInfo })

def srvCancelDragWindow (s : Server κ) (cli idx : Int) : Int × Server κ :=
  let l := s.ziFromClient cli
  let zi := s.layers l
  if idx > zi.maxNrNodes ∨ idx < 0 then
    (-1, s)
  else if s.ddInfo.cli = -1 ∨ s.ddInfo.cli ≠ cli ∨ s.ddInfo.idxZnode ≠ idx then
    (-1, s)
  else
    (0, { s with ddInfo := { s.ddInfo with cli := -1 } }.unlockZiForChange l)

def srvChangeCaption (s : Server κ) (cli idx : Int) (caption : String) : Int × Server κ :=
  let l := s.ziFromClient cli
  if idx > 0 then
    (0, s.onLayer l fun w => w.setNode idx (fun node => { node with caption := env.changeCaption caption }))
  else
    (0, s)

def doZOrderOperation (s : Server κ) (cli : Int) (info : ZOrderOpInfo) : Int × Server κ :=
  if info.idOp = ID_ZOOP_ALLOC then
    s.srvAllocZOrderNode env cli info.hwnd info.mainWin info.flags info.rc info.caption
  else if info.idOp = ID_ZOOP_FREE then
    s.srvFreeZOrderNode env cli info.idxZnode
  else if info.idOp = ID_ZOOP_MOVE2TOP then
    s.srvMove2Top env cli info.idxZnode
  else if info.idOp = ID_ZOOP_SHOW then
    s.srvShowWindow env cli info.idxZnode
  else if info.idOp = ID_ZOOP_HIDE then
    s.srvHideWindow env cli info.idxZnode
  else if info.idOp = ID_ZOOP_MOVEWIN then
    s.srvMoveWindow env cli info.idxZnode info.rc
  else if info.idOp = ID_ZOOP_SETACTIVE then
    s.srvSetActiveWindow env cli info.idxZnode
  else if info.idOp = ID_ZOOP_START_TRACKMENU then
    s.srvStartTrackPopupMenu env cli info.rc info.hwnd
  else if info.idOp = ID_ZOOP_END_TRACKMENU then
    s.srvEndTrackPopupMenu env cli info.idxZnode
  else if info.idOp = ID_ZOOP_CLOSEMENU then
    (0, s.srvForceCloseMenu env cli)
  else if info.idOp = ID_ZOOP_ENABLEWINDOW then
    s.srvEnableWindow cli info.idxZnode info.flags
  else if info.idOp = ID_ZOOP_STARTDRAG then
    s.srvStartDragWindow cli info.idxZnode info.hwnd info.rc.left info.rc.top
  else if info.idOp = ID_ZOOP_CANCELDRAG then
    s.srvCancelDragWindow cli info.idxZnode
  else if info.idOp = ID_ZOOP_CHANGECAPTION then
    (-1, (s.srvChangeCaption env cli info.idxZnode info.caption).2)
  else
    (-1, s)

def removeNodes (s : Server κ) (cli : Int) : Server κ :=
  let l := s.ziFromClient cli
  let zi := s.layers l
  let tracks := zi.cliTrackmenu = cli
  let rcBound := if tracks then zi.boundMenus else .zero
  let s :=
    if tracks then
      s.locked l (Work.closeMenusLocked env.rcScr (Work.updateRcNoCli cli))
    else
      s
  let s := s.lockZiForChange l
  let r := Work.removeLocked env.rcScr cli rcBound (s.work l)
  let s := (s.finish l r.2).unlockZiForChange l
  s.onLayer l fun w => w.updateDirty r.1

def removeAllZNodesOfClient (s : Server κ) (cli : Int) : Server κ :=
  let l := s.ziFromClient cli
  let oldActive := (s.layers l).activeWin
  let s := s.removeNodes env cli
  if ((s.layers l).nodes oldActive).cli = cli then s.activateNext env l 0 else s

def doChangeTopmostLayer (s : Server κ) (oldLayer : κ) : Server κ :=
  let s := s.srvForceCloseMenu env 0
  s.locked s.topmost fun w => w.onZi (fun zi => zi.takeGlobals (s.layers oldLayer))

def setTopmostLayer (s : Server κ) (l : κ) : Server κ :=
  if l = s.topmost then s else { s with topmost := l }.doChangeTopmostLayer env s.topmost

def checkDirtyZNode (s : Server κ) (cli : Int) : Server κ :=
  let l := s.ziFromClient cli
  s.onLayer l fun w =>
    let w := w.doForAllZNodes (Work.updateCliZNode env.rcScr cli) [.topmost, .normal]
    { w with hasDirty := Function.update w.hasDirty cli false }

end Handlers

inductive Action (κ : Type) where
  | request (cli : Int) (info : ZOrderOpInfo)
  | removeClient (cli : Int)
  | setTopmost (l : κ)
  | input (msg x y : Int)
  | checkDirty (cli : Int)
  | setIme (hwnd : Hwnd)

def exec (env : DesktopEnv) (s : Server κ) : Action κ → Server κ
  | .request cli info => (s.doZOrderOperation env cli info).2
  | .removeClient cli => s.removeAllZNodesOfClient env cli
  | .setTopmost l => s.setTopmostLayer env l
  | .input msg x y => (s.doDragDropWindow msg x y).2
  | .checkDirty cli => s.checkDirtyZNode env cli
  | .setIme hwnd => { s with imeWnd := hwnd }

def step (env : DesktopEnv) (s : Server κ) (a : Action κ) (s' : Server κ) : Prop :=
  s.exec env a = s'

def run (env : DesktopEnv) (s : Server κ) (actions : List (Action κ)) : Server κ :=
  actions.foldl (exec env) s

structure Sizes (κ : Type) where
  globalBytes : Nat
  nrTopmosts : κ → Nat
  nrNormals : κ → Nat
  globalBytes_pos : 0 < globalBytes

def init (env : DesktopEnv) (sizes : Sizes κ) (topmost : κ) (clientLayer : Int → κ) : Server κ :=
  let layers (l : κ) : ZOrderInfo :=
    allocLayer env.rcScr (8 * sizes.globalBytes) (sizes.nrTopmosts l) (sizes.nrNormals l)
  {
    layers
    topmost
    clientLayer
    imeWnd := 0
    updateRgn := emptyClipRgn
    hasDirty := fun _ => false
    ddInfo :=
      {
        cli := -1
        idxZnode := 0
        hwnd := 0
        zi := topmost
        rc := .zero
        location := 0
        lastX := 0
        lastY := 0
      }
    sem := fun l => nrClients (layers l)
    stuck := false
    outputs := []
  }

def op (idOp idxZnode : Int) : ZOrderOpInfo :=
  { idOp, idxZnode, flags := 0, hwnd := 0, mainWin := 0, rc := .zero, caption := "" }

def allocOp (flags : BitVec 32) (rc : Rect) : ZOrderOpInfo :=
  { op ID_ZOOP_ALLOC 0 with flags, rc, hwnd := 1, mainWin := 1 }

def smallEnv : DesktopEnv :=
  { rcScr := { left := 0, top := 0, right := 100, bottom := 100 }, allocCaption := id, changeCaption := id }

def smallSizes : Sizes κ :=
  { globalBytes := 1, nrTopmosts := fun _ => 8, nrNormals := fun _ => 8, globalBytes_pos := Nat.one_pos }

end Server

end MiniGui
