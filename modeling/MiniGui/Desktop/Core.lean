import MiniGui.Desktop.Server

/-!
What the loops over the nodes leave alone. They only count ages, set and take back marks and collect dirty
rectangles, so that everything else of a layer, its core, is the same after them.
-/

namespace MiniGui

open Function

variable {flag mask : BitVec 32} {node : ZOrderNode} {f : ZOrderNode → ZOrderNode}

namespace ZOrderNode

def core (node : ZOrderNode) : ZOrderNode :=
  {
    node with
    age := 0
    dirtyRc := .zero
    flags := node.flags &&& ~~~ZOF_REFERENCE
  }

theorem setFlag_and (h : flag &&& mask = 0)
    : (node.setFlag flag).flags &&& mask = node.flags &&& mask := by
  unfold setFlag
  rw [BitVec.and_comm, BitVec.and_or_distrib_left, BitVec.and_comm mask flag, h]
  simp [BitVec.and_comm]

theorem clearFlag_and (h : flag &&& mask = 0)
    : (node.clearFlag flag).flags &&& mask = node.flags &&& mask := by
  unfold clearFlag
  apply BitVec.eq_of_getLsbD_eq
  intro i hi
  have hbit := congrArg (fun m => m.getLsbD i) h
  simp only [BitVec.getLsbD_and] at hbit
  simp only [BitVec.getLsbD_and, BitVec.getLsbD_not, hi, decide_true, Bool.true_and]
  cases hf : flag.getLsbD i with
  | false => simp
  | true =>
    rw [hf, Bool.true_and] at hbit
    rw [hbit]
    simp

variable (node : ZOrderNode)

@[simp]
theorem core_bumpAge : node.bumpAge.core = node.core := by
  rfl

@[simp]
theorem core_mark : (node.setFlag ZOF_REFERENCE).core = node.core := by
  unfold core
  rw [setFlag_and (by decide)]
  rfl

@[simp]
theorem core_unmark : (node.clearFlag ZOF_REFERENCE).core = node.core := by
  unfold core clearFlag
  rw [BitVec.and_assoc, BitVec.and_self]

@[simp]
theorem core_dirtyRc (dirtyRc : Rect) : { node with dirtyRc }.core = node.core := by
  rfl

theorem core_setFlag (h : flag &&& ZOF_REFERENCE = 0)
    : (node.setFlag flag).core = node.core.setFlag flag := by
  have hflag : flag &&& ~~~ZOF_REFERENCE = flag := by
    have hall : flag &&& (ZOF_REFERENCE ||| ~~~ZOF_REFERENCE) = flag := by
      rw [BitVec.or_not_self, BitVec.and_allOnes]
    rw [BitVec.and_or_distrib_left, h] at hall
    simpa using hall
  unfold core setFlag
  rw [BitVec.and_comm, BitVec.and_or_distrib_left, BitVec.and_comm _ flag, hflag, BitVec.and_comm]

theorem core_clearFlag : (node.clearFlag flag).core = node.core.clearFlag flag := by
  unfold core clearFlag
  rw [BitVec.and_assoc, BitVec.and_comm (~~~flag), ← BitVec.and_assoc]

theorem flags_core_and (h : ZOF_REFERENCE &&& mask = 0)
    : node.core.flags &&& mask = node.flags &&& mask :=
  clearFlag_and h

end ZOrderNode

namespace ZOrderInfo

def core (zi : ZOrderInfo) : ZOrderInfo :=
  { zi with nodes := fun slot => (zi.nodes slot).core }

theorem core_setNode {zi : ZOrderInfo} {slot : Int}
    (h : (f (zi.nodes slot)).core = (zi.nodes slot).core) : (zi.setNode slot f).core = zi.core := by
  unfold core setNode
  dsimp only
  congr 1
  funext i
  by_cases hi : i = slot
  . rw [hi, update_self, h]
  . rw [update_of_ne hi]

theorem core_setNode_comm {zi : ZOrderInfo} {slot : Int} (h : ∀ node, (f node).core = f node.core)
    : (zi.setNode slot f).core = zi.core.setNode slot f := by
  unfold core setNode
  dsimp only
  congr 1
  funext i
  by_cases hi : i = slot
  . rw [hi, update_self, update_self, h]
  . rw [update_of_ne hi, update_of_ne hi]

section

variable {zi zi' : ZOrderInfo} (h : zi'.core = zi.core) (slot : Int)

include h

theorem node_core : (zi'.nodes slot).core = (zi.nodes slot).core :=
  congrFun (congrArg ZOrderInfo.nodes h) slot

theorem next_eq_of_core : (zi'.nodes slot).next = (zi.nodes slot).next := by
  have hnode := congrArg ZOrderNode.next (node_core h slot)
  exact hnode

theorem prev_eq_of_core : (zi'.nodes slot).prev = (zi.nodes slot).prev := by
  have hnode := congrArg ZOrderNode.prev (node_core h slot)
  exact hnode

theorem rc_eq_of_core : (zi'.nodes slot).rc = (zi.nodes slot).rc := by
  have hnode := congrArg ZOrderNode.rc (node_core h slot)
  exact hnode

theorem cli_eq_of_core : (zi'.nodes slot).cli = (zi.nodes slot).cli := by
  have hnode := congrArg ZOrderNode.cli (node_core h slot)
  exact hnode

theorem and_eq_of_core (hmask : ZOF_REFERENCE &&& mask = 0)
    : (zi'.nodes slot).flags &&& mask = (zi.nodes slot).flags &&& mask := by
  rw [← ZOrderNode.flags_core_and _ hmask, node_core h slot, ZOrderNode.flags_core_and _ hmask]

theorem type_eq_of_core : (zi'.nodes slot).type = (zi.nodes slot).type :=
  and_eq_of_core h slot (by decide)

theorem has_eq_of_core (hflag : ZOF_REFERENCE &&& flag = 0)
    : (zi'.nodes slot).has flag = (zi.nodes slot).has flag := by
  unfold ZOrderNode.has
  rw [and_eq_of_core h slot hflag]

theorem visible_eq_of_core : (zi'.nodes slot).visible = (zi.nodes slot).visible :=
  has_eq_of_core h slot (by decide)

theorem first_eq_of_core : zi'.first = zi.first := by
  have hfirst := congrArg ZOrderInfo.first h
  exact hfirst

theorem maxNr_eq_of_core : zi'.maxNr = zi.maxNr := by
  have hmax := congrArg ZOrderInfo.maxNr h
  exact hmax

theorem maxNrNodes_eq_of_core : zi'.maxNrNodes = zi.maxNrNodes := by
  unfold maxNrNodes
  rw [maxNr_eq_of_core h]

end

section Chains

variable (zi : ZOrderInfo) (t : ZType) (idx slot : Int)

theorem core_unlinkNext : (if (zi.nodes idx).prev ≠ 0 then
          zi.setNode (zi.nodes idx).prev (fun node => { node with next := (zi.nodes idx).next })
        else
          zi).core
        =
      if (zi.core.nodes idx).prev ≠ 0 then
        zi.core.setNode (zi.core.nodes idx).prev
          (fun node => { node with next := (zi.core.nodes idx).next })
      else
        zi.core := by
  rw [apply_ite core, core_setNode_comm]
  . rfl
  . intro
    rfl

theorem core_unlinkPrev : (if (zi.nodes idx).next ≠ 0 then
          zi.setNode (zi.nodes idx).next (fun node => { node with prev := (zi.nodes idx).prev })
        else
          zi).core
        =
      if (zi.core.nodes idx).next ≠ 0 then
        zi.core.setNode (zi.core.nodes idx).next
          (fun node => { node with prev := (zi.core.nodes idx).prev })
      else
        zi.core := by
  rw [apply_ite core, core_setNode_comm]
  . rfl
  . intro
    rfl

theorem core_unlinkZNode : (zi.unlinkZNode idx).core = zi.core.unlinkZNode idx := by
  rw [unlinkZNode, core_unlinkPrev, core_unlinkNext]
  rfl

theorem core_unchainZNode : (zi.unchainZNode idx).core = zi.core.unchainZNode idx := by
  unfold unchainZNode
  rw [← core_unlinkZNode]
  apply core_setNode_comm
  intro node
  unfold ZOrderNode.core
  simp

theorem core_dropFirst : (zi.dropFirst t idx).core = zi.core.dropFirst t idx := by
  unfold dropFirst
  rw [show zi.core.first t = zi.first t from rfl]
  split <;> rfl

theorem core_freeZNode : (zi.freeZNode t idx).core = zi.core.freeZNode t idx := by
  unfold freeZNode
  extract_lets zi1 zi2 zi3 zi4
  have h : zi4 = zi2.core := by
    unfold zi4 zi3 zi2 zi1
    rw [core_dropFirst, core_setNode_comm, core_unchainZNode]
    intro
    rfl
  rw [h, show zi2.core.activeWin = zi2.activeWin from rfl]
  split <;> rfl

theorem core_insertZNode : (zi.insertZNode t slot).core = zi.core.insertZNode t slot := by
  unfold insertZNode
  extract_lets oldFirst zi1 zi2 oldFirst' zi3 zi4
  have h : zi4 = zi2.core := by
    unfold zi4 zi3 zi2 zi1
    rw [core_setNode_comm, core_setNode_comm]
    . rfl
    . intro
      rfl
    . intro
      rfl
  rw [h]
  rfl

theorem core_raiseZNode : (zi.raiseZNode t idx).core = zi.core.raiseZNode t idx := by
  unfold raiseZNode
  extract_lets zi1 first zi2 zi3 zi1' first' zi4 zi5
  have h : zi5 = zi3.core := by
    have h1 : zi1' = zi1.core := (core_unlinkZNode zi idx).symm
    unfold zi5 zi4 zi3 zi2 first'
    rw [h1, core_setNode_comm, core_setNode_comm]
    . rfl
    . intro
      rfl
    . intro
      rfl
  rw [h]
  rfl

end Chains

section Remove

variable (cli : Int) (t : ZType)

def removeZNode (slot : Int) (zi : ZOrderInfo) : ZOrderInfo :=
  if (zi.nodes slot).cli = cli then (zi.unchainZNode slot).dropFirst t slot else zi

def removeLoop (fuel : Nat) (slot : Int) (zi : ZOrderInfo) : ZOrderInfo :=
  match fuel with
  | 0 => zi
  | fuel + 1 =>
    if Work.atEnd slot then
      zi
    else
      let zi := zi.removeZNode cli t slot
      removeLoop fuel (zi.nodes slot).next zi

def removeClient (zi : ZOrderInfo) : ZOrderInfo :=
  let fuel := zi.maxNrNodes + 1
  let zi := removeLoop cli .topmost fuel (zi.first .topmost) zi
  let zi := removeLoop cli .normal fuel (zi.first .normal) zi
  if (zi.nodes zi.activeWin).cli = cli then { zi with activeWin := 0 } else zi

theorem core_removeZNode (slot : Int) (zi : ZOrderInfo)
    : (zi.removeZNode cli t slot).core = zi.core.removeZNode cli t slot := by
  unfold removeZNode
  rw [show (zi.core.nodes slot).cli = (zi.nodes slot).cli from rfl]
  split
  . rw [core_dropFirst, core_unchainZNode]
  . rfl

end Remove

end ZOrderInfo

namespace Work

variable {w : Work} {slot : Int} {rc : Rect} {cli : Int}

theorem core_setNode (h : (f (w.zi.nodes slot)).core = (w.zi.nodes slot).core)
    : (w.setNode slot f).zi.core = w.zi.core :=
  ZOrderInfo.core_setNode h

@[simp]
theorem zi_output (o : Output) : (w.output o).zi = w.zi := by
  rfl

section Loops

variable {stop : Int → Bool} {body : Int → Work → Work}

theorem core_loop (h : ∀ slot w, (body slot w).zi.core = w.zi.core) (fuel : Nat)
    : (loop stop body fuel slot w).zi.core = w.zi.core := by
  induction fuel generalizing slot w with
  | zero => rfl
  | succ fuel ih =>
    rw [loop]
    split
    . rfl
    . rw [ih, h]

theorem core_forZNodes (h : ∀ slot w, (body slot w).zi.core = w.zi.core)
    : (forZNodes stop body slot w).zi.core = w.zi.core :=
  core_loop h _

theorem core_foldl {α : Type} {f : Work → α → Work} (h : ∀ w a, (f w a).zi.core = w.zi.core) (l : List α)
    : (l.foldl f w).zi.core = w.zi.core := by
  induction l generalizing w with
  | nil => rfl
  | cons a l ih => rw [List.foldl_cons, ih, h]

theorem core_doForAllZNodes (h : ∀ slot w, (body slot w).zi.core = w.zi.core) (types : List ZType)
    : (w.doForAllZNodes body types).zi.core = w.zi.core := by
  unfold doForAllZNodes
  apply core_foldl
  intro w t
  apply core_forZNodes h

end Loops

@[simp]
theorem core_intersectRc : (intersectRc rc slot w).zi.core = w.zi.core := by
  unfold intersectRc
  dsimp only
  split
  . apply core_setNode
    simp
  . rfl

@[simp]
theorem core_subtractNode : (subtractNode slot w).zi.core = w.zi.core := by
  unfold subtractNode
  dsimp only
  split
  . apply core_setNode
    simp
  . rfl

@[simp]
theorem core_updateRc : (updateRc slot w).zi.core = w.zi.core := by
  unfold updateRc
  split
  . apply core_subtractNode
  . rfl

@[simp]
theorem core_updateUnmarked : (updateUnmarked slot w).zi.core = w.zi.core := by
  unfold updateUnmarked
  dsimp only
  split
  . apply core_subtractNode
  . rfl

@[simp]
theorem core_updateRcNoCli : (updateRcNoCli cli slot w).zi.core = w.zi.core := by
  unfold updateRcNoCli
  dsimp only
  split
  . apply core_subtractNode
  . rfl

@[simp]
theorem core_updateClientWindow : (updateClientWindow slot rc w).zi.core = w.zi.core := by
  unfold updateClientWindow
  dsimp only
  split
  . rfl
  . apply core_setNode
    simp

@[simp]
theorem core_updateZNode : (updateZNode rc slot w).zi.core = w.zi.core := by
  unfold updateZNode
  dsimp only
  split
  . rw [core_setNode (by simp), core_updateClientWindow]
  . rfl

@[simp]
theorem core_updateCliZNode {rcScr : Rect} : (updateCliZNode rcScr cli slot w).zi.core = w.zi.core := by
  unfold updateCliZNode
  dsimp only
  split
  . rw [zi_output, core_setNode (by simp)]
  . rfl

@[simp]
theorem zi_postMsg {message : Int} {wParam : Hwnd} : (postMsg slot message wParam w).zi = w.zi := by
  rfl

@[simp]
theorem zi_setUpdateRgn : (w.setUpdateRgn rc).zi = w.zi := by
  rfl

@[simp]
theorem zi_addCovered : (addCovered rc slot w).zi = w.zi := by
  unfold addCovered
  dsimp only
  split <;> rfl

section Desktop

variable {rcScr : Rect}

@[simp]
theorem core_updateDesktop : (w.updateDesktop rcScr).zi.core = w.zi.core := by
  unfold updateDesktop
  dsimp only
  split
  . apply core_setNode
    simp
  . rfl

@[simp]
theorem core_updateDesktopUnmarked : (w.updateDesktopUnmarked rcScr).zi.core = w.zi.core := by
  unfold updateDesktopUnmarked
  split
  . rfl
  . apply core_updateDesktop

@[simp]
theorem core_intersectDesktop : (w.intersectDesktop rcScr rc).zi.core = w.zi.core := by
  unfold intersectDesktop
  split
  . apply core_setNode
    simp
  . rfl

@[simp]
theorem core_updateDirty : (w.updateDirty rc).zi.core = w.zi.core := by
  unfold updateDirty
  dsimp only
  have hloop : (w.doForAllZNodes (updateZNode rc) ZT_ALL).zi.core = w.zi.core := by
    apply core_doForAllZNodes
    intro slot w
    apply core_updateZNode
  split
  . rw [core_setNode (by simp), zi_output, hloop]
  . exact hloop

theorem core_updateBelow {type : BitVec 32} {body : Int → Work → Work}
    (h : ∀ slot w, (body slot w).zi.core = w.zi.core)
    : (w.updateBelow type slot body).zi.core = w.zi.core := by
  unfold updateBelow
  split <;> split <;> simp only [core_forZNodes h]

end Desktop

section Locked

variable {rcScr rcWin : Rect} {type : BitVec 32} {t : ZType} {idx : Int}

theorem core_setNode_congr {zi zi' : ZOrderInfo} {g : ZOrderNode → ZOrderNode} (h : zi'.core = zi.core)
    (hfg : ∀ node node', node'.core = node.core → (f node').core = (g node).core)
    : (zi'.setNode slot f).core = (zi.setNode slot g).core := by
  have hrest : ∀ {a b : ZOrderInfo}, a.core = b.core → ∀ m n : Int → ZOrderNode,
      (∀ i, (m i).core = (n i).core) → { a with nodes := m }.core = { b with nodes := n }.core := by
    intro a b hab m n hmn
    have hfields := congrArg (fun zi => { zi with nodes := fun i => (m i).core }) hab
    have hnodes : (fun i => (m i).core) = fun i => (n i).core := funext hmn
    unfold ZOrderInfo.core at hfields ⊢
    rw [hfields, hnodes]
  apply hrest h
  intro i
  by_cases hi : i = slot
  . rw [hi, update_self, update_self]
    apply hfg
    exact ZOrderInfo.node_core h slot
  . rw [update_of_ne hi, update_of_ne hi]
    exact ZOrderInfo.node_core h i

theorem core_allocLocked {freeSlot : Int} : (allocLocked rcScr type t node freeSlot w).zi.core
        =
      ((w.zi.setNode freeSlot
          (fun old => { node with dirtyRc := old.dirtyRc, next := old.next, prev := old.prev })).insertZNode
        t freeSlot).core := by
  unfold allocLocked
  extract_lets w1 w2 w3 w4 w5
  have hcore : w5.zi.core = w1.zi.core := by
    have hintersect : ∀ slot w, (intersectRc node.rc slot w).zi.core = w.zi.core :=
      fun _ _ => core_intersectRc
    unfold w5 w4 w3 w2
    split
    . rw [core_intersectDesktop]
      split <;> split <;> split <;> simp only [core_forZNodes hintersect]
    . rfl
  have hinsert : (w5.zi.insertZNode t freeSlot).core = (w1.zi.insertZNode t freeSlot).core := by
    rw [ZOrderInfo.core_insertZNode, hcore, ← ZOrderInfo.core_insertZNode]
  exact hinsert

theorem core_freeLocked
    : (freeLocked rcScr type t idx w).zi.core = (w.zi.freeZNode t idx).core := by
  unfold freeLocked
  extract_lets w1 w2
  have hcore : w2.zi.core = w.zi.core := by
    unfold w2 w1
    split
    . rw [core_updateDesktop, core_updateBelow (fun _ _ => core_updateRc)]
      rfl
    . rfl
  have hfree : (w2.zi.freeZNode t idx).core = (w.zi.freeZNode t idx).core := by
    rw [ZOrderInfo.core_freeZNode, hcore, ← ZOrderInfo.core_freeZNode]
  exact hfree

theorem core_move2TopLocked : (move2TopLocked t idx w).zi.core = (w.zi.raiseZNode t idx).core := by
  unfold move2TopLocked
  extract_lets rc body w1
  have hcore : w1.zi.core = w.zi.core := by
    unfold w1
    split
    . apply core_forZNodes
      intro slot w
      unfold body
      dsimp only
      split
      . apply core_setNode
        simp
      . rfl
    . rfl
  have hraise : (w1.zi.raiseZNode t idx).core = (w.zi.raiseZNode t idx).core := by
    rw [ZOrderInfo.core_raiseZNode, hcore, ← ZOrderInfo.core_raiseZNode]
  rw [← hraise]
  apply core_setNode
  simp

theorem core_showLocked : (showLocked rcScr type idx w).zi.core
        = (w.zi.setNode idx (fun node => node.setFlag ZOF_VISIBLE)).core := by
  unfold showLocked
  extract_lets rc w1 w2 w3 w4 w5
  have hcore : w5.zi.core = w.zi.core := by
    have hintersect : ∀ slot w, (intersectRc rc slot w).zi.core = w.zi.core :=
      fun _ _ => core_intersectRc
    unfold w5 w4 w3 w2 w1
    rw [core_intersectDesktop, core_forZNodes hintersect]
    split <;> split <;> split <;> simp only [core_doForAllZNodes hintersect]
  apply core_setNode_congr hcore
  intro node node' hnode
  rw [ZOrderNode.core_setFlag _ (by decide), ZOrderNode.core_setFlag _ (by decide),
    ZOrderNode.core_bumpAge, hnode]

theorem core_hideLocked : (hideLocked rcScr type idx w).zi.core
        = (w.zi.setNode idx (fun node => node.clearFlag ZOF_VISIBLE)).core := by
  unfold hideLocked
  extract_lets w1 w2 node w3
  have h2 : w2.zi.core = w.zi.core := by
    unfold w2 w1
    split
    . rw [core_updateDesktop, core_updateBelow (fun _ _ => core_updateRc)]
      rfl
    . rfl
  have h3 : w3.zi = w2.zi := by
    unfold w3
    split <;> rfl
  rw [← h3] at h2
  apply core_setNode_congr h2
  intro node node' hnode
  rw [ZOrderNode.core_clearFlag, ZOrderNode.core_clearFlag, hnode]

theorem core_moveLocked : (moveLocked rcScr type idx rcWin w).zi.core
        = (w.zi.setNode idx (fun node => { node with rc := rcWin })).core := by
  unfold moveLocked
  extract_lets rcInv w1 w2 w3 w4 piece w5
  have h4 : w4.zi.core = w.zi.core := by
    have hintersect : ∀ slot w, (intersectRc rcWin slot w).zi.core = w.zi.core :=
      fun _ _ => core_intersectRc
    unfold w4 w3 w2 w1
    rw [core_intersectDesktop, core_forZNodes hintersect]
    split <;> split <;> simp only [core_doForAllZNodes hintersect]
  have h5 : w5.zi.core = w.zi.core := by
    rw [← h4]
    apply core_foldl
    intro w rc
    unfold piece
    rw [core_updateDesktopUnmarked, core_updateBelow (fun _ _ => core_updateUnmarked)]
    rfl
  apply core_setNode_congr h5
  intro node node' hnode
  have hrc := congrArg (fun node => { node with rc := rcWin }) hnode
  exact hrc

theorem core_moveInvalid {rcOld : Rect} {erase : Bool}
    : (moveInvalid rcScr type t idx rcOld rcWin erase w).zi.core = w.zi.core := by
  unfold moveInvalid
  extract_lets w1 add w2 w3 w4 w5 w6 w7 w8 w9
  have hcovered : ∀ slot w, (addCovered rcOld slot w).zi.core = w.zi.core := by
    intro slot w
    rw [zi_addCovered]
  have h2 : w2.zi.core = w1.zi.core := by
    apply core_foldl
    intro w rc
    rfl
  have h5 : w5.zi.core = w.zi.core := by
    rw [show w.zi.core = w1.zi.core from rfl, ← h2]
    unfold w5 w4 w3
    rw [core_forZNodes hcovered]
    split <;> split <;> simp only [core_forZNodes hcovered]
  have h6 : w6.zi.core = w.zi.core := by
    rw [← h5]
    apply core_doForAllZNodes
    intro slot w
    apply core_updateZNode
  have h7 : w7.zi = w6.zi := by
    unfold w7
    split <;> rfl
  have h8 : w8.zi.core = w.zi.core := by
    rw [← h6, ← h7]
    unfold w8
    split
    . apply core_setNode
      simp
    . rw [h7]
  rw [← h8]
  rfl

theorem core_startMenuLocked {ptmi : Hwnd}
    : (startMenuLocked rcScr cli rc ptmi w).zi.core = (w.zi.startMenu cli rc ptmi).core := by
  unfold startMenuLocked
  extract_lets w1
  have hcore : (w1.intersectDesktop rcScr rc).zi.core = w.zi.core := by
    rw [core_intersectDesktop]
    apply core_doForAllZNodes
    intro slot w
    apply core_intersectRc
  have hmenu := congrArg (fun zi => zi.startMenu cli rc ptmi) hcore
  exact hmenu

theorem core_endMenuLocked : (endMenuLocked rcScr rc w).zi.core = w.zi.endMenu.core := by
  unfold endMenuLocked
  extract_lets w1
  have hcore : ((w1.doForAllZNodes updateRc ZT_ALL).updateDesktop rcScr).zi.core = w.zi.core := by
    rw [core_updateDesktop, core_doForAllZNodes (fun _ _ => core_updateRc)]
    rfl
  have hmenu := congrArg ZOrderInfo.endMenu hcore
  exact hmenu

theorem core_closeMenusLocked {body : Int → Work → Work} (h : ∀ slot w, (body slot w).zi.core = w.zi.core)
    : (closeMenusLocked rcScr body w).zi.core = w.zi.closeMenus.core := by
  unfold closeMenusLocked
  extract_lets w1
  have hcore : ((w1.doForAllZNodes body ZT_ALL).updateDesktop rcScr).zi.core = w.zi.core := by
    rw [core_updateDesktop, core_doForAllZNodes h]
    rfl
  have hmenu := congrArg ZOrderInfo.closeMenus hcore
  exact hmenu

variable {r : Rect × Work}

theorem core_removeZNode
    : (removeZNode rcScr cli t slot r).2.zi.core = (r.2.zi.removeZNode cli t slot).core := by
  unfold removeZNode ZOrderInfo.removeZNode
  extract_lets w node w1 w2 w3 r'
  rw [show (r.2.zi.nodes slot).cli = node.cli from rfl]
  split
  . have hcore : r'.2.zi.core = r.2.zi.core := by
      have hbody : ∀ slot w, (updateRcNoCli cli slot w).zi.core = w.zi.core :=
        fun _ _ => core_updateRcNoCli
      unfold r'
      split
      . have h3 : w3.zi.core = w2.zi.core := by
          unfold w3
          cases t <;> simp only [core_doForAllZNodes hbody]
        rw [core_updateDesktopUnmarked, h3]
        unfold w2
        rw [core_forZNodes hbody]
        rfl
      . rfl
    have hdrop : ((r'.2.zi.unchainZNode slot).dropFirst t slot).core
        = ((r.2.zi.unchainZNode slot).dropFirst t slot).core := by
      rw [ZOrderInfo.core_dropFirst, ZOrderInfo.core_unchainZNode, hcore,
        ← ZOrderInfo.core_unchainZNode, ← ZOrderInfo.core_dropFirst]
    exact hdrop
  . rfl

theorem core_removeLoop {zi : ZOrderInfo} (fuel : Nat) (h : r.2.zi.core = zi.core)
    : (removeLoop rcScr cli t fuel slot r).2.zi.core = (zi.removeLoop cli t fuel slot).core := by
  induction fuel generalizing slot r zi with
  | zero => exact h
  | succ fuel ih =>
    rw [removeLoop, ZOrderInfo.removeLoop]
    split
    . exact h
    dsimp only
    have hstep : (removeZNode rcScr cli t slot r).2.zi.core = (zi.removeZNode cli t slot).core := by
      rw [core_removeZNode, ZOrderInfo.core_removeZNode, h, ← ZOrderInfo.core_removeZNode]
    rw [ZOrderInfo.next_eq_of_core hstep]
    apply ih hstep

theorem core_removeLocked {rcBound : Rect}
    : (removeLocked rcScr cli rcBound w).2.zi.core = (w.zi.removeClient cli).core := by
  unfold removeLocked ZOrderInfo.removeClient
  extract_lets fuel r1 r2 clear zi1 zi2
  have h1 : r1.2.zi.core = zi1.core := by
    apply core_removeLoop
    rfl
  have h2 : r2.2.zi.core = zi2.core := by
    unfold r2
    rw [ZOrderInfo.first_eq_of_core h1]
    apply core_removeLoop _ h1
  have hactive : r2.2.zi.activeWin = zi2.activeWin := by
    have h := congrArg ZOrderInfo.activeWin h2
    exact h
  have hclear : (clear r2.2.zi).core = (clear zi2).core := by
    unfold clear
    rw [hactive, ZOrderInfo.cli_eq_of_core h2]
    split
    . have h := congrArg (fun zi => { zi with activeWin := 0 }) h2
      exact h
    . exact h2
  exact hclear

end Locked

end Work

end MiniGui
