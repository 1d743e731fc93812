import MiniGui.Desktop.StoreSteps
import MiniGui.Library.Reach

/-!
The handlers of the server change one layer after the other, each time in one of a few ways. What all of these
ways keep is kept by the handlers. Setting the active window and the change of the topmost layer are left to
those who use this.
-/

namespace MiniGui

open Function

open ZOrderNode (clearFlag_and has setFlag_and visible)

inductive LayerStep (track : Prop) (zi zi' : ZOrderInfo) : Prop where
  | same (h : zi'.core = zi.core)
  | alloc (t : ZType) (slot : Int) (usageBmp : Nat → BitVec 8) (node : ZOrderNode)
      (hnr : zi.nr t < zi.maxNr t) (hslot : zi.allocSlot t = some (slot, usageBmp))
      (htype : chainOf node.type = some t)
      (h : zi'.core
        =
        (({ zi with usageBmp }.setNode slot
            (fun old => { node with dirtyRc := old.dirtyRc, next := old.next, prev := old.prev })).insertZNode
          t slot).core)
  | free (t : ZType) (idx : Int) (htype : chainOf (zi.nodes idx).type = some t)
      (h : zi'.core = (zi.freeZNode t idx).core)
  | raise (t : ZType) (idx : Int) (htype : chainOf (zi.nodes idx).type = some t) (hfirst : zi.first t ≠ idx)
      (h : zi'.core = (zi.raiseZNode t idx).core)
  | change (idx : Int) (f : ZOrderNode → ZOrderNode)
      (hf : ∀ node, (f node).next = node.next ∧ (f node).prev = node.prev ∧ (f node).type = node.type
        ∧ (f node).cli = node.cli)
      (hrc : (∀ node, (f node).rc = node.rc ∧ (f node).visible = node.visible)
        ∨ ∃ t, chainOf (zi.nodes idx).type = some t)
      (h : zi'.core = (zi.setNode idx f).core)
  | startMenu (htrack : track) (cli : Int) (rc : Rect) (ptmi : Hwnd)
      (h : zi'.core = (zi.startMenu cli rc ptmi).core)
  | endMenu (htrack : track) (h : zi'.core = zi.endMenu.core)
  | closeMenus (h : zi'.core = zi.closeMenus.core)
  | remove (cli : Int) (h : zi'.core = (zi.removeClient cli).core)

namespace ZOrderInfo

variable {zi zi' : ZOrderInfo} {t : ZType} {slot idx cli : Int}

def sizes (zi : ZOrderInfo) : (ZType → Nat) × Nat :=
  (zi.maxNr, zi.maxNrPopupmenus)

theorem nr_lt_of_store (hstore : zi'.store = zi.store) (hlt : zi.nr t < zi.maxNr t) : zi'.nr t < zi'.maxNr t := by
  have hnr : zi'.nr t = zi.nr t := congrFun (congrArg Store.nr hstore) t
  have hmax : zi'.maxNr t = zi.maxNr t := congrFun (congrArg Store.maxNr hstore) t
  rw [hnr, hmax]
  exact hlt

structure OffStore {β : Type} (q : ZOrderInfo → β) : Prop where
  nodes : ∀ zi nodes, q { zi with nodes } = q zi
  first : ∀ zi first, q { zi with first } = q zi
  nr : ∀ zi nr, q { zi with nr } = q zi
  usageBmp : ∀ zi usageBmp, q { zi with usageBmp } = q zi
  activeWin : ∀ zi activeWin, q { zi with activeWin } = q zi

namespace OffStore

variable {β : Type} {q : ZOrderInfo → β} (hq : OffStore q)

include hq

theorem eq_of_core (h : zi'.core = zi.core) : q zi' = q zi := by
  have hcore : ∀ zi : ZOrderInfo, q zi.core = q zi := fun zi => hq.nodes zi _
  rw [← hcore zi', h, hcore]

theorem setNode {f : ZOrderNode → ZOrderNode} : q (zi.setNode slot f) = q zi :=
  hq.nodes zi _

theorem unlinkZNode : q (zi.unlinkZNode idx) = q zi := by
  unfold ZOrderInfo.unlinkZNode
  extract_lets prev zi1 next
  have h1 : q zi1 = q zi := by
    unfold zi1
    split
    . apply hq.setNode
    . rfl
  rw [← h1]
  split
  . apply hq.setNode
  . rfl

theorem dropFirst : q (zi.dropFirst t idx) = q zi := by
  unfold ZOrderInfo.dropFirst
  extract_lets zi1
  have h1 : q zi1 = q zi := by
    unfold zi1
    split
    . apply hq.first
    . rfl
  rw [← h1]
  apply hq.nr

theorem unchainZNode : q (zi.unchainZNode idx) = q zi := by
  unfold ZOrderInfo.unchainZNode
  extract_lets zi1 zi2
  have h2 : q zi2 = q zi1 := hq.usageBmp zi1 _
  have h3 : q (zi.unlinkZNode idx) = q zi := hq.unlinkZNode
  rw [← h3, ← h2]
  apply hq.setNode

theorem freeZNode : q (zi.freeZNode t idx) = q zi := by
  unfold ZOrderInfo.freeZNode
  extract_lets zi1 zi2
  have h2 : q zi2 = q zi := by
    unfold zi2 zi1
    rw [hq.dropFirst, hq.setNode, hq.unchainZNode]
  rw [← h2]
  split
  . apply hq.activeWin
  . rfl

theorem insertZNode : q (zi.insertZNode t slot) = q zi := by
  unfold ZOrderInfo.insertZNode
  extract_lets oldFirst zi1 zi2
  have h2 : q zi2 = q zi := by
    unfold zi2 zi1
    rw [hq.setNode, hq.setNode]
  have h3 : q (zi2.setFirst t slot) = q zi2 := hq.first zi2 _
  rw [← h2, ← h3]
  apply hq.nr

theorem raiseZNode : q (zi.raiseZNode t idx) = q zi := by
  unfold ZOrderInfo.raiseZNode
  extract_lets zi1 first zi2 zi3
  have h3 : q zi3 = q zi := by
    unfold zi3 zi2 zi1
    rw [hq.setNode, hq.setNode, hq.unlinkZNode]
  rw [← h3]
  apply hq.first

theorem removeLoop {fuel : Nat} : q (zi.removeLoop cli t fuel slot) = q zi := by
  induction fuel generalizing zi slot with
  | zero => rfl
  | succ fuel ih =>
    rw [ZOrderInfo.removeLoop]
    split
    . rfl
    rw [ih]
    unfold removeZNode
    split
    . rw [hq.dropFirst, hq.unchainZNode]
    . rfl

theorem removeClient : q (zi.removeClient cli) = q zi := by
  unfold ZOrderInfo.removeClient
  extract_lets fuel zi1 zi2
  have h2 : q zi2 = q zi := by
    unfold zi2 zi1
    rw [hq.removeLoop, hq.removeLoop]
  rw [← h2]
  split
  . apply hq.activeWin
  . rfl

theorem takeGlobals {old : ZOrderInfo} : q (zi.takeGlobals old) = q zi := by
  unfold ZOrderInfo.takeGlobals
  extract_lets nrGlobals bytes zi1 zi2 zi3 copied zi4
  have h1 : q zi1 = q zi := by
    have hnr : q (zi.setNr .global nrGlobals) = q zi := hq.nr zi _
    rw [← hnr]
    apply hq.first
  have h2 : q zi2 = q zi1 := by
    unfold zi2
    split
    . apply hq.activeWin
    . rfl
  have h3 : q zi3 = q zi2 := hq.usageBmp zi2 _
  have h4 : q zi4 = q zi3 := hq.nodes zi3 _
  rw [← h1, ← h2, ← h3, ← h4]
  apply hq.setNode

end OffStore

theorem offStore_sizes : OffStore sizes := by
  constructor <;> intros <;> rfl

end ZOrderInfo

namespace LayerStep

open Store ZOrderInfo

variable {track : Prop} {zi zi' : ZOrderInfo} {c : ZType → List Int}

theorem offStore {β : Type} {q : ZOrderInfo → β} (hq : OffStore q) (hstep : LayerStep track zi zi')
    : q zi' = q zi ∨ q zi' = q zi.closeMenus
        ∨ track ∧ (q zi' = q zi.endMenu ∨ ∃ cli rc ptmi, q zi' = q (zi.startMenu cli rc ptmi)) := by
  cases hstep with
  | same h => exact .inl (hq.eq_of_core h)
  | alloc t slot usageBmp node _ _ _ h =>
    left
    rw [hq.eq_of_core h, hq.insertZNode, hq.setNode, hq.usageBmp]
  | free t idx _ h =>
    left
    rw [hq.eq_of_core h, hq.freeZNode]
  | raise t idx _ _ h =>
    left
    rw [hq.eq_of_core h, hq.raiseZNode]
  | change idx f _ _ h =>
    left
    rw [hq.eq_of_core h, hq.setNode]
  | startMenu htrack cli rc ptmi h => exact .inr (.inr ⟨htrack, .inr ⟨cli, rc, ptmi, hq.eq_of_core h⟩⟩)
  | endMenu htrack h => exact .inr (.inr ⟨htrack, .inl (hq.eq_of_core h)⟩)
  | closeMenus h => exact .inr (.inl (hq.eq_of_core h))
  | remove cli h =>
    left
    rw [hq.eq_of_core h, hq.removeClient]

theorem sizes_eq (hstep : LayerStep track zi zi') : zi'.sizes = zi.sizes := by
  rcases hstep.offStore offStore_sizes with hsame | hclose | ⟨_, hend | ⟨cli, rc, ptmi, hstart⟩⟩
  . exact hsame
  . exact hclose
  . exact hend
  . exact hstart

theorem chains (hstep : LayerStep track zi zi') (h : Chains zi.store c) : ∃ c', Chains zi'.store c' := by
  cases hstep with
  | same hcore | startMenu _ cli rc ptmi hcore | endMenu _ hcore | closeMenus hcore =>
    rw [store_of_core hcore]
    exact ⟨c, h⟩
  | alloc t slot usageBmp node hnr hslot htype hcore =>
    have hfree := allocSlot_free h hslot
    rcases allocSlot_found h hnr with ⟨slot', bmp', hslot', hrange⟩
    rw [hslot, Option.some.injEq, Prod.mk.injEq] at hslot'
    rw [← hslot'.1] at hrange
    rw [store_of_core hcore, @store_insertZNode _ _ _ zi.store node.type]
    . exact ⟨_, h.push htype hrange hfree.2.1 hnr⟩
    . rw [store_setNode]
      unfold store ZOrderNode.type Store.setType
      simp [hfree.2.2]
  | free t idx htype hcore =>
    rw [store_of_core hcore, store_freeZNode]
    exact ⟨_, h.drop ((h.type idx t).mp htype)⟩
  | raise t idx htype hfirst hcore =>
    rw [store_of_core hcore, store_raiseZNode hfirst]
    exact ⟨_, h.raise ((h.type idx t).mp htype) hfirst⟩
  | change idx f hf _ hcore =>
    rw [store_of_core hcore, store_setNode_same (hf _).1 (hf _).2.1 (hf _).2.2.1]
    exact ⟨c, h⟩
  | remove cli hcore =>
    rw [store_of_core hcore]
    exact ⟨_, chains_removeClient h⟩

section Handlers

variable {w : Work} {t : ZType} {idx : Int} {rcScr rcWin : Rect} {type : BitVec 32}
  (htype : chainOf (w.zi.nodes idx).type = some t)

include htype

theorem showLocked : LayerStep track w.zi (Work.showLocked rcScr type idx w).zi := by
  apply LayerStep.change idx (fun node => node.setFlag ZOF_VISIBLE) _ (.inr ⟨t, htype⟩) Work.core_showLocked
  intro node
  refine ⟨rfl, rfl, ?_, rfl⟩
  apply setFlag_and
  decide

theorem hideLocked : LayerStep track w.zi (Work.hideLocked rcScr type idx w).zi := by
  apply LayerStep.change idx (fun node => node.clearFlag ZOF_VISIBLE) _ (.inr ⟨t, htype⟩) Work.core_hideLocked
  intro node
  refine ⟨rfl, rfl, ?_, rfl⟩
  apply clearFlag_and
  decide

theorem moveLocked : LayerStep track w.zi (Work.moveLocked rcScr type idx rcWin w).zi := by
  apply LayerStep.change idx (fun node => { node with rc := rcWin }) _ (.inr ⟨t, htype⟩) Work.core_moveLocked
  intro node
  exact ⟨rfl, rfl, rfl, rfl⟩

theorem moveHidden
    : LayerStep track w.zi (w.setNode idx (fun node => { node with rc := rcWin }.bumpAge)).zi := by
  apply LayerStep.change idx (fun node => { node with rc := rcWin }) _ (.inr ⟨t, htype⟩)
  . apply Work.core_setNode_congr rfl
    intro node node' hnode
    have hrc := congrArg (fun node => { node with rc := rcWin }) hnode
    exact hrc
  . intro node
    exact ⟨rfl, rfl, rfl, rfl⟩

end Handlers

end LayerStep

namespace Server

open Reach

variable {κ : Type} [DecidableEq κ] {s s' : Server κ} {l : κ} {f : Work → Work}

section Locks

variable {msg x y : Int}

@[simp]
theorem layers_doDragDropWindow : (s.doDragDropWindow msg x y).2.layers = s.layers := by
  unfold doDragDropWindow
  dsimp only
  split
  . rfl
  . split <;> rfl

@[simp]
theorem topmost_doDragDropWindow : (s.doDragDropWindow msg x y).2.topmost = s.topmost := by
  unfold doDragDropWindow
  dsimp only
  split
  . rfl
  . split <;> rfl

@[simp]
theorem clientLayer_doDragDropWindow
    : (s.doDragDropWindow msg x y).2.clientLayer = s.clientLayer := by
  unfold doDragDropWindow
  dsimp only
  split
  . rfl
  . split <;> rfl

theorem work_doDragDropWindow : (s.doDragDropWindow msg x y).2.work l = s.work l := by
  unfold doDragDropWindow
  dsimp only
  split
  . rfl
  . split <;> rfl

@[simp]
theorem layers_lockZiForChange : (s.lockZiForChange l).layers = s.layers :=
  layers_doDragDropWindow

@[simp]
theorem topmost_lockZiForChange : (s.lockZiForChange l).topmost = s.topmost :=
  topmost_doDragDropWindow

@[simp]
theorem clientLayer_lockZiForChange : (s.lockZiForChange l).clientLayer = s.clientLayer :=
  clientLayer_doDragDropWindow

theorem work_lockZiForChange {l' : κ} : (s.lockZiForChange l).work l' = s.work l' :=
  work_doDragDropWindow

end Locks

structure Updates (s s' : Server κ) (l : κ) (zi : ZOrderInfo) : Prop where
  layers : s'.layers = update s.layers l zi
  topmost : s'.topmost = s.topmost
  clientLayer : s'.clientLayer = s.clientLayer

theorem updates_onLayer : Updates s (s.onLayer l f) l (f (s.work l)).zi := by
  constructor <;> rfl

theorem updates_locked : Updates s (s.locked l f) l (f (s.work l)).zi := by
  rw [← work_lockZiForChange (l := l)]
  unfold locked
  constructor
  . have hlayers : (s.lockZiForChange l).layers = s.layers := layers_lockZiForChange
    rw [← hlayers]
    rfl
  . exact topmost_lockZiForChange (l := l)
  . exact clientLayer_lockZiForChange (l := l)

theorem core_srvForceCloseMenu (env : DesktopEnv) (cli : Int)
    : ((s.srvForceCloseMenu env cli).layers l).core = (s.layers l).core
        ∨ ((s.srvForceCloseMenu env cli).layers l).core = (s.layers l).closeMenus.core := by
  unfold srvForceCloseMenu
  extract_lets l' zi s1
  split
  . left
    rfl
  have hclose : (s1.layers l').core = (s.layers l').closeMenus.core := by
    unfold s1
    rw [updates_locked.layers, update_self]
    apply Work.core_closeMenusLocked
    intro slot w
    simp
  rw [updates_onLayer.layers]
  by_cases hl : l = l'
  . right
    rw [hl, update_self, Work.zi_output, Work.core_updateDirty]
    exact hclose
  left
  rw [update_of_ne hl]
  unfold s1
  rw [updates_locked.layers, update_of_ne hl]

theorem store_srvForceCloseMenu (env : DesktopEnv) (cli : Int)
    : ((s.srvForceCloseMenu env cli).layers l).store = (s.layers l).store := by
  rcases s.core_srvForceCloseMenu (l := l) env cli with hsame | hclose
  . exact ZOrderInfo.store_of_core hsame
  . exact @ZOrderInfo.store_of_core ((s.layers l).closeMenus) _ hclose

theorem store_closeMenuIf {c : Prop} [Decidable c] (env : DesktopEnv) (cli : Int)
    : ((if c then s.srvForceCloseMenu env cli else s).layers l).store = (s.layers l).store := by
  split
  . apply store_srvForceCloseMenu
  . rfl

structure Kept (track : Prop) (P : Server κ → Prop) : Prop where
  onLayer : ∀ {s : Server κ} {l : κ} {f : Work → Work},
    LayerStep track (s.layers l) (f (s.work l)).zi → P s → P (s.onLayer l f)
  locked : ∀ {s : Server κ} {l : κ} {f : Work → Work},
    LayerStep track (s.layers l) (f (s.work l)).zi → P s → P (s.locked l f)
  rgn : ∀ {s : Server κ} (rgn : ClipRgn), P s → P { s with updateRgn := rgn }
  noSlot : ∀ {s : Server κ} {l : κ} {t : ZType},
    (s.layers l).nr t < (s.layers l).maxNr t → (s.layers l).allocSlot t = none → P s → P (s.lockZiForChange l)

namespace Kept

variable {track : Prop} {P : Server κ → Prop} (hP : Kept track P) (env : DesktopEnv)

include hP

theorem onLayer_same (hf : ∀ w, (f w).zi.core = w.zi.core) (h : P s) : P (s.onLayer l f) := by
  apply hP.onLayer _ h
  apply LayerStep.same
  rw [hf]
  rfl

theorem srvForceCloseMenu (cli : Int) (h : P s) : P (s.srvForceCloseMenu env cli) := by
  unfold Server.srvForceCloseMenu
  dsimp only
  split
  . exact h
  apply hP.onLayer_same
  . intro w
    simp
  apply hP.locked _ h
  apply LayerStep.closeMenus
  apply Work.core_closeMenusLocked
  intro slot w
  simp

theorem closeMenuIf {c : Prop} [Decidable c] (cli : Int) (h : P s)
    : P (if c then s.srvForceCloseMenu env cli else s) := by
  split
  . exact hP.srvForceCloseMenu env cli h
  . exact h

theorem srvAllocZOrderNode (cli : Int) (hwnd mainWin : Hwnd) (flags : BitVec 32) (rc : Rect)
    (caption : String) (h : P s)
    : P (s.srvAllocZOrderNode env cli hwnd mainWin flags rc caption).2 := by
  unfold Server.srvAllocZOrderNode
  extract_lets type l s1 s2
  split
  . exact h
  rename_i t hfilter
  rw [Option.filter_eq_some_iff, decide_eq_true_eq] at hfilter
  have h1 : P s1 := hP.closeMenuIf env 0 h
  have hstore : (s1.layers l).store = (s.layers l).store := store_closeMenuIf env 0
  have hlayer : s2.layers l = s1.layers l := congrFun layers_lockZiForChange l
  have hnr := ZOrderInfo.nr_lt_of_store hstore hfilter.2
  split
  . next hslot =>
    rw [hlayer] at hslot
    exact hP.noSlot hnr hslot h1
  rename_i freeSlot usageBmp hslot
  rw [hlayer] at hslot
  apply hP.locked _ h1
  apply LayerStep.alloc t freeSlot usageBmp _ hnr hslot _ Work.core_allocLocked
  exact hfilter.1

theorem srvMove2Top (cli idx : Int) (h : P s) : P (s.srvMove2Top env cli idx).2 := by
  unfold Server.srvMove2Top
  extract_lets l zi s1 s2
  have h1 : P s1 := hP.closeMenuIf env 0 h
  split
  . exact h
  split
  . exact h1
  rename_i t htype
  split
  . exact h1
  rename_i hfirst
  have h2 : P s2 := hP.rgn emptyClipRgn h1
  dsimp only
  apply hP.onLayer_same
  . intro w
    split <;> rfl
  . apply hP.locked _ h2
    apply LayerStep.raise t idx htype hfirst
    apply Work.core_move2TopLocked

theorem srvShowWindow (cli idx : Int) (h : P s) : P (s.srvShowWindow env cli idx).2 := by
  unfold Server.srvShowWindow
  extract_lets l zi s1 type
  have h1 : P s1 := hP.closeMenuIf env 0 h
  split
  . exact h
  . split
    . exact h1
    . next t htype => exact hP.locked (LayerStep.showLocked (w := s1.work l) htype) h1

theorem srvHideWindow (cli idx : Int) (h : P s) : P (s.srvHideWindow env cli idx).2 := by
  unfold Server.srvHideWindow
  extract_lets l zi s1 type s2
  have h1 : P s1 := hP.closeMenuIf env 0 h
  split
  . exact h
  split
  . exact h1
  rename_i t htype
  dsimp only
  apply hP.onLayer_same
  . intro w
    apply Work.core_updateDirty
  . exact hP.locked (LayerStep.hideLocked (w := s1.work l) htype) h1

theorem srvMoveWindow (cli idx : Int) (rcWin : Rect) (h : P s)
    : P (s.srvMoveWindow env cli idx rcWin).2 := by
  unfold Server.srvMoveWindow
  extract_lets l zi type s1 rcOld erase s2 move
  have h1 : P s1 := hP.closeMenuIf env 0 h
  split
  . exact h
  split
  . exact h
  rename_i t htype
  split
  . exact h
  split
  . apply hP.onLayer_same
    . intro w
      apply Work.core_moveInvalid
    have hstore : (s1.layers l).store = (s.layers l).store := store_closeMenuIf env 0
    have htype1 : ((s1.layers l).nodes idx).type = (zi.nodes idx).type :=
      congrFun (congrArg Store.type hstore) idx
    have hchain : chainOf ((s1.layers l).nodes idx).type = some t := by
      rw [htype1]
      exact htype
    exact hP.locked (LayerStep.moveLocked (w := s1.work l) hchain) h1
  . exact hP.locked (LayerStep.moveHidden (w := s.work l) htype) h

theorem srvStartTrackPopupMenu (htrack : track) (cli : Int) (rc : Rect) (ptmi : Hwnd) (h : P s)
    : P (s.srvStartTrackPopupMenu env cli rc ptmi).2 := by
  unfold Server.srvStartTrackPopupMenu
  extract_lets l zi s1 zi1
  have h1 : P s1 := hP.closeMenuIf env 0 h
  split
  . exact h1
  . apply hP.locked _ h1
    exact LayerStep.startMenu htrack cli rc ptmi Work.core_startMenuLocked

theorem srvEndTrackPopupMenu (htrack : track) (cli idx : Int) (h : P s)
    : P (s.srvEndTrackPopupMenu env cli idx).2 := by
  unfold Server.srvEndTrackPopupMenu
  extract_lets l zi rc s1
  split
  . exact h
  dsimp only
  apply hP.onLayer_same
  . intro w
    apply Work.core_updateDirty
  . apply hP.locked _ h
    exact LayerStep.endMenu htrack Work.core_endMenuLocked

theorem srvEnableWindow (cli idx : Int) (flags : BitVec 32) (h : P s)
    : P (s.srvEnableWindow cli idx flags).2 := by
  unfold Server.srvEnableWindow
  extract_lets l zi enable
  split
  . exact h
  apply hP.locked _ h
  apply LayerStep.change idx enable _ _ rfl
  . intro node
    unfold enable
    split
    . refine ⟨rfl, rfl, ?_, rfl⟩
      apply clearFlag_and
      decide
    . refine ⟨rfl, rfl, ?_, rfl⟩
      apply setFlag_and
      decide
  left
  intro node
  unfold enable visible has
  split
  . refine ⟨rfl, ?_⟩
    rw [clearFlag_and (by decide)]
  . refine ⟨rfl, ?_⟩
    rw [setFlag_and (by decide)]

theorem srvChangeCaption (cli idx : Int) (caption : String) (h : P s)
    : P (s.srvChangeCaption env cli idx caption).2 := by
  unfold Server.srvChangeCaption
  extract_lets l
  split
  . dsimp only
    apply hP.onLayer _ h
    apply LayerStep.change idx (fun node => { node with caption := env.changeCaption caption }) _
      (.inl (fun _ => ⟨rfl, rfl⟩)) rfl
    intro node
    exact ⟨rfl, rfl, rfl, rfl⟩
  . exact h

theorem checkDirtyZNode (cli : Int) (h : P s) : P (s.checkDirtyZNode env cli) := by
  unfold Server.checkDirtyZNode
  extract_lets l
  apply hP.onLayer_same _ h
  intro w
  apply Work.core_doForAllZNodes
  intro slot w
  apply Work.core_updateCliZNode

theorem freeNode (type : BitVec 32) (t : ZType) (idx : Int)
    (htype : chainOf ((s.layers l).nodes idx).type = some t) (h : P s)
    : P (s.freeNode env l type t idx) := by
  unfold Server.freeNode
  apply hP.onLayer_same
  . intro w
    apply Work.core_updateDirty
  . apply hP.locked _ h
    exact LayerStep.free t idx htype Work.core_freeLocked

theorem removeNodes (cli : Int) (h : P s) : P (s.removeNodes env cli) := by
  unfold Server.removeNodes
  extract_lets l zi tracks rcBound s1 s2 r s3
  have h1 : P s1 := by
    unfold s1
    split
    . apply hP.locked _ h
      apply LayerStep.closeMenus
      apply Work.core_closeMenusLocked
      intro slot w
      apply Work.core_updateRcNoCli
    . exact h
  have h3 : P s3 := by
    change P (s1.locked l fun w => (Work.removeLocked env.rcScr cli rcBound w).2)
    apply hP.locked _ h1
    apply LayerStep.remove cli
    apply Work.core_removeLocked
  apply hP.onLayer_same _ h3
  intro w
  apply Work.core_updateDirty

theorem doZOrderOperation (cli : Int) (info : ZOrderOpInfo)
    (htrack : info.idOp = ID_ZOOP_START_TRACKMENU ∨ info.idOp = ID_ZOOP_END_TRACKMENU → track)
    (hfree : info.idOp = ID_ZOOP_FREE → P (s.srvFreeZOrderNode env cli info.idxZnode).2)
    (hactive : info.idOp = ID_ZOOP_SETACTIVE → P (s.srvSetActiveWindow env cli info.idxZnode).2)
    (hstart : P (s.srvStartDragWindow cli info.idxZnode info.hwnd info.rc.left info.rc.top).2)
    (hcancel : P (s.srvCancelDragWindow cli info.idxZnode).2) (h : P s)
    : P (s.doZOrderOperation env cli info).2 := by
  have hite : ∀ {c : Prop} [Decidable c] {a b : Int × Server κ}, (c → P a.2) → P b.2 → P (if c then a else b).2 := by
    intro c _ a b ha hb
    split
    . next hc => exact ha hc
    . exact hb
  unfold Server.doZOrderOperation
  apply hite (fun _ => hP.srvAllocZOrderNode env _ _ _ _ _ _ h)
  apply hite hfree
  apply hite (fun _ => hP.srvMove2Top env _ _ h)
  apply hite (fun _ => hP.srvShowWindow env _ _ h)
  apply hite (fun _ => hP.srvHideWindow env _ _ h)
  apply hite (fun _ => hP.srvMoveWindow env _ _ _ h)
  apply hite hactive
  apply hite (fun hid => hP.srvStartTrackPopupMenu env (htrack (.inl hid)) _ _ _ h)
  apply hite (fun hid => hP.srvEndTrackPopupMenu env (htrack (.inr hid)) _ _ h)
  apply hite (fun _ => hP.srvForceCloseMenu env _ h)
  apply hite (fun _ => hP.srvEnableWindow _ _ _ h)
  apply hite (fun _ => hstart)
  apply hite (fun _ => hcancel)
  apply hite _ h
  intro _
  apply hP.srvChangeCaption env _ _ _ h

end Kept

structure KeptActive (track : Prop) (P : Server κ → Prop) : Prop extends Kept track P where
  active : ∀ {s : Server κ} {l : κ} (idx : Int),
    P s → P (s.locked l fun w => { w with zi := { w.zi with activeWin := idx } })

namespace KeptActive

variable {track : Prop} {P : Server κ → Prop} (hP : KeptActive track P) (env : DesktopEnv)

include hP

theorem srvSetActiveWindow (cli idx : Int) (h : P s) : P (s.srvSetActiveWindow env cli idx).2 := by
  unfold Server.srvSetActiveWindow
  extract_lets l zi s1 zi1 oldActive s2 hwndFor oldHwnd newHwnd s3 s4
  have h2 : P s2 := hP.active idx (hP.closeMenuIf env 0 h)
  have h3 : P s3 := by
    unfold s3
    split
    . exact hP.onLayer_same (fun _ => rfl) h2
    . exact h2
  have h4 : P s4 := by
    unfold s4
    split
    . exact hP.onLayer_same (fun _ => rfl) h3
    . exact h3
  split
  . exact h
  . split
    . exact h
    . exact h4

theorem activateNext (start : Int) (h : P s) : P (s.activateNext env l start) :=
  hP.srvSetActiveWindow env _ _ h

theorem srvFreeZOrderNode (cli idx : Int) (h : P s) : P (s.srvFreeZOrderNode env cli idx).2 := by
  unfold Server.srvFreeZOrderNode
  extract_lets l zi s1 type oldActive
  have h1 : P s1 := hP.closeMenuIf env 0 h
  split
  . exact h
  split
  . exact h1
  rename_i t htype
  have h2 := hP.freeNode env type t idx htype h1
  split
  . exact hP.activateNext env idx h2
  . exact h2

theorem removeAllZNodesOfClient (cli : Int) (h : P s) : P (s.removeAllZNodesOfClient env cli) := by
  unfold Server.removeAllZNodesOfClient
  extract_lets l oldActive s1
  have h1 : P s1 := hP.removeNodes env cli h
  split
  . exact hP.activateNext env 0 h1
  . exact h1

end KeptActive

structure KeptRun (P : Server κ → Prop) : Prop extends KeptActive True P where
  startDrag : ∀ {s : Server κ} (cli idx location x y : Int), P s → P (s.srvStartDragWindow cli idx location x y).2
  cancelDrag : ∀ {s : Server κ} (cli idx : Int), P s → P (s.srvCancelDragWindow cli idx).2
  drag : ∀ {s : Server κ} (msg x y : Int), P s → P (s.doDragDropWindow msg x y).2
  ime : ∀ {s : Server κ} (hwnd : Hwnd), P s → P { s with imeWnd := hwnd }
  switch : ∀ {s : Server κ} (l : κ), P s → P { s with topmost := l }
  globals : ∀ {s : Server κ} (old : κ),
    P s → P (s.locked s.topmost fun w => w.onZi (fun zi => zi.takeGlobals (s.layers old)))

namespace KeptRun

variable {P : Server κ → Prop} (hP : KeptRun P) (env : DesktopEnv)

include hP

theorem setTopmostLayer (l : κ) (h : P s) : P (s.setTopmostLayer env l) := by
  unfold Server.setTopmostLayer
  split
  . exact h
  unfold doChangeTopmostLayer
  extract_lets s1
  have h1 : P s1 := hP.srvForceCloseMenu env 0 (hP.switch l h)
  exact hP.globals s.topmost h1

theorem exec (a : Action κ) (h : P s) : P (s.exec env a) := by
  cases a with
  | request cli info =>
    apply hP.doZOrderOperation env cli info (fun _ => trivial) _ _ _ _ h
    . intro _
      exact hP.srvFreeZOrderNode env cli info.idxZnode h
    . intro _
      exact hP.srvSetActiveWindow env cli info.idxZnode h
    . exact hP.startDrag _ _ _ _ _ h
    . exact hP.cancelDrag _ _ h
  | removeClient cli => exact hP.removeAllZNodesOfClient env cli h
  | setTopmost l => exact hP.setTopmostLayer env l h
  | input msg x y => exact hP.drag msg x y h
  | checkDirty cli => exact hP.checkDirtyZNode env cli h
  | setIme hwnd => exact hP.ime hwnd h

theorem run (actions : List (Action κ)) (h : P s) : P (s.run env actions) := by
  have hreach : Reachable (step env) (fun _ _ => True) s (s.run env actions) := by
    apply Reachable.foldl (fun _ _ => rfl)
    intro _ _ _
    trivial
  apply hreach.invariant h
  intro s a s' h _ hstep
  rw [← hstep]
  exact hP.exec env _ h

end KeptRun

def LayerClosed (track : Prop) (P : Server κ → Prop) : Prop :=
  ∀ {s s' : Server κ} {l : κ} {zi : ZOrderInfo}, LayerStep track (s.layers l) zi → Updates s s' l zi → P s → P s'

namespace LayerClosed

variable {track : Prop} {P : Server κ → Prop} (hP : LayerClosed track P)

include hP

theorem same (hlayers : s'.layers = s.layers) (htopmost : s'.topmost = s.topmost)
    (hclient : s'.clientLayer = s.clientLayer) (h : P s) : P s' := by
  have hsame : LayerStep track (s.layers s.topmost) (s.layers s.topmost) := LayerStep.same rfl
  apply hP hsame _ h
  constructor
  . rw [hlayers, update_eq_self]
  . exact htopmost
  . exact hclient

theorem drag (msg x y : Int) (h : P s) : P (s.doDragDropWindow msg x y).2 := by
  apply hP.same _ _ _ h <;> simp

theorem lock (h : P s) : P (s.lockZiForChange l) := by
  apply hP.same _ _ _ h <;> simp

theorem startDrag (cli idx location x y : Int) (h : P s) : P (s.srvStartDragWindow cli idx location x y).2 := by
  unfold Server.srvStartDragWindow
  extract_lets l zi s1 node ddInfo
  split
  . exact h
  . split
    . exact h
    . exact hP.same (s := s.lockZiForChange l) rfl rfl rfl (hP.lock h)

theorem cancelDrag (cli idx : Int) (h : P s) : P (s.srvCancelDragWindow cli idx).2 := by
  unfold Server.srvCancelDragWindow
  extract_lets l zi
  split
  . exact h
  . split
    . exact h
    . exact hP.same (s := s) rfl rfl rfl h

theorem kept : Kept track P := by
  constructor
  . intro s l f hstep h
    exact hP hstep updates_onLayer h
  . intro s l f hstep h
    exact hP hstep updates_locked h
  . intro s rgn h
    exact hP.same (s := s) rfl rfl rfl h
  . intro s l t _ _ h
    exact hP.lock h

theorem keptActive (hactive : ∀ {s s' : Server κ} {l : κ} (idx : Int),
      Updates s s' l { s.layers l with activeWin := idx } → P s → P s')
    : KeptActive track P := by
  refine ⟨hP.kept, ?_⟩
  intro s l idx h
  exact hactive idx updates_locked h

end LayerClosed

theorem LayerClosed.keptRun {P : Server κ → Prop} (hP : LayerClosed True P)
    (hactive : ∀ {s s' : Server κ} {l : κ} (idx : Int),
      Updates s s' l { s.layers l with activeWin := idx } → P s → P s')
    (hswitch : ∀ {s : Server κ} (l : κ), P s → P { s with topmost := l })
    (hglobals : ∀ {s s' : Server κ} (old : κ),
      Updates s s' s.topmost ((s.layers s.topmost).takeGlobals (s.layers old)) → P s → P s')
    : KeptRun P := by
  constructor
  . exact hP.keptActive hactive
  . intro s
    exact hP.startDrag
  . intro s
    exact hP.cancelDrag
  . intro s
    exact hP.drag
  . intro s hwnd h
    exact hP.same (s := s) rfl rfl rfl h
  . exact hswitch
  . intro s old h
    exact hglobals old updates_locked h

end Server

end MiniGui
