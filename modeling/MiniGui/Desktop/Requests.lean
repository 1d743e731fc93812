import MiniGui.Desktop.ClipRuns
import MiniGui.Desktop.Frames
import MiniGui.Desktop.LayerSwitch
import MiniGui.Desktop.NextActive

/-!
Which slots a request uses. The indices that come from clients are compared with the number of slots, by which the
slot behind the last one is taken for a slot of the layer, and some requests do not look at one side of the range.
-/

namespace MiniGui

open Function List

def ZOrderInfo.ActiveOk (zi : ZOrderInfo) (imeWnd : Hwnd) (idx : Int) : Prop :=
  zi.maxNrNodes < idx
    ∨ zi.hasSlot idx
      ∧ (imeWnd = (zi.nodes idx).mainWin ∨ (zi.nodes idx).has ZOF_TF_TOOLWIN = true ∨ zi.hasSlot zi.activeWin)

namespace Server

open Store ZOrderInfo Work

variable {κ : Type} [DecidableEq κ] {s : Server κ} {l l' : κ} {k idx cli : Int} {node : ZOrderNode} {f : Work → Work}

structure Outside (s : Server κ) (l : κ) (k : Int) : Prop where
  stored : Stored s
  slot : ¬(s.layers l).hasSlot k

theorem maxNrNodes_eq_of_sizes {zi zi' : ZOrderInfo} (h : zi'.sizes = zi.sizes) : zi'.maxNrNodes = zi.maxNrNodes := by
  have hmax : zi'.maxNr = zi.maxNr := congrArg Prod.fst h
  unfold ZOrderInfo.maxNrNodes
  rw [hmax]

theorem hasSlot_congr {zi zi' : ZOrderInfo} (h : zi'.maxNrNodes = zi.maxNrNodes) : zi'.hasSlot k ↔ zi.hasSlot k := by
  unfold hasSlot
  rw [h]

theorem kept_outside : Kept True (fun s : Server κ => Outside s l k) := by
  apply LayerClosed.kept
  intro s s' l' zi hstep hupdates h
  refine ⟨layerClosed_stored hstep hupdates h.stored, ?_⟩
  rw [hupdates.layers, update_apply]
  split
  . next hl =>
    have hslot := h.slot
    rw [hl] at hslot
    rw [hasSlot_congr (maxNrNodes_eq_of_sizes hstep.sizes_eq)]
    exact hslot
  . exact h.slot

section Chains

variable {zi : ZOrderInfo} {c : ZType → List Int} {t : ZType}

theorem hasSlot_zero (h : Chains zi.store c) : zi.hasSlot 0 := by
  have hpos := h.global_pos
  have hle : zi.store.maxNr .global ≤ zi.maxNrNodes := by
    unfold ZOrderInfo.maxNrNodes
    exact Nat.le_add_right_of_le (Nat.le_add_right _ _)
  refine ⟨by omega, ?_⟩
  omega

theorem hasSlot_of_mem (h : Chains zi.store c) (hidx : idx ∈ c t) : zi.hasSlot idx := by
  have hpos := h.pos hidx
  refine ⟨by omega, ?_⟩
  exact h.lt_maxNrNodes hidx

theorem apart_of_not_hasSlot (h : Chains zi.store c) (hk : ¬zi.hasSlot k) : Apart k c := by
  constructor
  . intro hzero
    rw [hzero] at hk
    exact hk (hasSlot_zero h)
  . intro t hmem
    exact hk (hasSlot_of_mem h hmem)

theorem hasSlot_allocSlot {slot : Int} {bmp : Nat → BitVec 8} (hc : Chains zi.store c) (hnr : zi.nr t < zi.maxNr t)
    (hslot : zi.allocSlot t = some (slot, bmp)) : zi.hasSlot slot := by
  rcases allocSlot_found hc hnr with ⟨slot', bmp', hslot', hrange⟩
  have hpos := (allocSlot_free hc hslot).1
  rw [hslot, Option.some.injEq, Prod.mk.injEq] at hslot'
  rw [← hslot'.1] at hrange
  refine ⟨by omega, ?_⟩
  have hlt : slot < zi.store.maxNrNodes := by
    cases t with
    | global =>
      have hlt : slot < zi.store.maxNr .global := hrange.2
      unfold Store.maxNrNodes
      omega
    | topmost | normal => exact hrange.2
  exact hlt

end Chains

omit [DecidableEq κ] in
theorem Outside.chains (h : Outside s l k) : ∃ c, Chains (s.layers l).store c ∧ Apart k c := by
  rcases h.stored.chains l with ⟨c, hc⟩
  exact ⟨c, hc, apart_of_not_hasSlot hc h.slot⟩

theorem work_poke_self : (s.poke l k node).work l = (s.work l).poke k node := by
  unfold work
  rw [layers_poke_self]
  rfl

theorem onLayer_poke (hf : l' = l → Work.Frame k f (s.work l'))
    : (s.poke l k node).onLayer l' f = (s.onLayer l' f).poke l k node := by
  by_cases hl : l' = l
  . have hframe := hf hl
    rw [hl] at hframe ⊢
    unfold onLayer
    rw [work_poke_self, hframe node]
    unfold finish Server.poke Work.poke Work.setNode
    dsimp only
    rw [update_idem, update_idem, update_self]
  . exact onLayer_poke_of_ne hl

theorem locked_poke (hf : l' = l → Work.Frame k f (s.work l'))
    : (s.poke l k node).locked l' f = (s.locked l' f).poke l k node := by
  unfold locked
  rw [lockZiForChange_poke, onLayer_poke, unlockZiForChange_poke]
  intro hl
  rw [work_lockZiForChange]
  exact hf hl

theorem nodes_poke (hidx : l' = l → idx ≠ k) : ((s.poke l k node).layers l').nodes idx = (s.layers l').nodes idx := by
  by_cases hl : l' = l
  . have hne := hidx hl
    rw [hl, layers_poke_self]
    exact nodes_setNode_of_ne hne
  . rw [layers_poke_of_ne hl]

variable {q : ZOrderInfo → β} {β : Type} {s' : Server κ}

theorem field_poke (hq : ∀ zi nodes, q { zi with nodes } = q zi)
    : q ((s.poke l k node).layers l') = q (s.layers l') := by
  by_cases hl : l' = l
  . rw [hl, layers_poke_self]
    apply hq
  . rw [layers_poke_of_ne hl]

theorem ziFromClient_poke : (s.poke l k node).ziFromClient cli = s.ziFromClient cli := by
  rfl

@[simp]
theorem maxNrNodes_poke : ((s.poke l k node).layers l').maxNrNodes = (s.layers l').maxNrNodes :=
  field_poke (fun _ _ => rfl)

@[simp]
theorem cliTrackmenu_poke : ((s.poke l k node).layers l').cliTrackmenu = (s.layers l').cliTrackmenu :=
  field_poke (fun _ _ => rfl)

@[simp]
theorem nrPopupmenus_poke : ((s.poke l k node).layers l').nrPopupmenus = (s.layers l').nrPopupmenus :=
  field_poke (fun _ _ => rfl)

@[simp]
theorem activeWin_poke : ((s.poke l k node).layers l').activeWin = (s.layers l').activeWin :=
  field_poke (fun _ _ => rfl)

@[simp]
theorem first_poke : ((s.poke l k node).layers l').first = (s.layers l').first :=
  field_poke (fun _ _ => rfl)

@[simp]
theorem boundMenus_poke : ((s.poke l k node).layers l').boundMenus = (s.layers l').boundMenus :=
  field_poke (fun _ _ => rfl)

@[simp]
theorem nr_poke : ((s.poke l k node).layers l').nr = (s.layers l').nr :=
  field_poke (fun _ _ => rfl)

@[simp]
theorem maxNr_poke : ((s.poke l k node).layers l').maxNr = (s.layers l').maxNr :=
  field_poke (fun _ _ => rfl)

@[simp]
theorem maxNrPopupmenus_poke : ((s.poke l k node).layers l').maxNrPopupmenus = (s.layers l').maxNrPopupmenus :=
  field_poke (fun _ _ => rfl)

@[simp]
theorem menuNodes_poke : ((s.poke l k node).layers l').menuNodes = (s.layers l').menuNodes :=
  field_poke (fun _ _ => rfl)

@[simp]
theorem allocSlot_poke {t : ZType} : ((s.poke l k node).layers l').allocSlot t = (s.layers l').allocSlot t :=
  field_poke (q := fun zi => zi.allocSlot t) (fun _ _ => rfl)

variable (env : DesktopEnv)

omit [DecidableEq κ] in
theorem frame_updateDirty (h : Outside s l k) (rc : Rect) : Work.Frame k (fun w => w.updateDirty rc) (s.work l) := by
  rcases h.chains with ⟨c, hc, hk⟩
  exact Work.frame_updateDirty (walks hc) hk

theorem srvForceCloseMenu_poke (h : Outside s l k)
    : (s.poke l k node).srvForceCloseMenu env cli = (s.srvForceCloseMenu env cli).poke l k node := by
  unfold srvForceCloseMenu
  simp only [ziFromClient_poke, cliTrackmenu_poke, nrPopupmenus_poke, boundMenus_poke]
  split
  . rfl
  have hclose : ∀ w, (closeMenusLocked env.rcScr updateRc w).zi.core = w.zi.closeMenus.core :=
    fun w => core_closeMenusLocked (fun _ _ => core_updateRc)
  rw [locked_poke, onLayer_poke]
  . intro hl
    have hlocked : Outside (s.locked (s.ziFromClient cli) (closeMenusLocked env.rcScr updateRc)) l k :=
      kept_outside.locked (LayerStep.closeMenus (hclose _)) h
    rw [hl] at hlocked ⊢
    exact frame_output.comp (frame_updateDirty hlocked _)
  intro hl
  rcases h.chains with ⟨c, hc, hk⟩
  rw [hl]
  exact frame_closeMenusLocked (walks hc) hk (fun _ _ => core_updateRc) frame_updateRc

theorem closeMenuIf_poke (h : Outside s l k) {c : Prop} [Decidable c]
    : (if c then (s.poke l k node).srvForceCloseMenu env cli else s.poke l k node)
        = (if c then s.srvForceCloseMenu env cli else s).poke l k node := by
  split
  . exact srvForceCloseMenu_poke env h
  . rfl

section Handlers

variable (h : Outside s l k)

include h

omit [DecidableEq κ] in
theorem Outside.ne (hidx : (s.layers l').hasSlot idx) (hl : l' = l) : idx ≠ k := by
  intro heq
  rw [hl, heq] at hidx
  exact h.slot hidx

theorem Outside.nodes_eq (hidx : (s.layers l').hasSlot idx)
    : ((s.poke l k node).layers l').nodes idx = (s.layers l').nodes idx :=
  nodes_poke (h.ne hidx)

variable {caption : String} {flags : BitVec 32} {rc : Rect}

theorem srvAllocZOrderNode_poke {hwnd mainWin : Hwnd}
    : (s.poke l k node).srvAllocZOrderNode env cli hwnd mainWin flags rc caption
        = ((s.srvAllocZOrderNode env cli hwnd mainWin flags rc caption).1,
          (s.srvAllocZOrderNode env cli hwnd mainWin flags rc caption).2.poke l k node) := by
  unfold srvAllocZOrderNode
  simp only [ziFromClient_poke, cliTrackmenu_poke, nr_poke, maxNr_poke]
  split
  . rfl
  rename_i t hfilter
  rw [Option.filter_eq_some_iff, decide_eq_true_eq] at hfilter
  rw [closeMenuIf_poke env h]
  generalize hs1 : (if (s.layers (s.ziFromClient cli)).cliTrackmenu ≥ 0 ∧ flags &&& ZOF_VISIBLE ≠ 0 then
    s.srvForceCloseMenu env 0 else s) = s1
  have h1 : Outside s1 l k := by
    rw [← hs1]
    exact kept_outside.closeMenuIf env 0 h
  have hstore : (s1.layers (s.ziFromClient cli)).store = (s.layers (s.ziFromClient cli)).store := by
    rw [← hs1]
    exact store_closeMenuIf env 0
  rw [lockZiForChange_poke]
  simp only [allocSlot_poke]
  split
  . rfl
  rename_i slot bmp hslot
  rw [onLayer_poke, unlockZiForChange_poke]
  intro hl
  rw [work_lockZiForChange]
  rw [layers_lockZiForChange] at hslot
  rw [hl] at hslot hstore hfilter ⊢
  rcases h1.chains with ⟨c, hc, hk⟩
  have hnr := nr_lt_of_store hstore hfilter.2
  have hne := h1.ne (hasSlot_allocSlot hc hnr hslot) rfl
  have hwalks : Walks { s1.layers l with usageBmp := bmp } c :=
    ⟨(walks hc).linked, (walks hc).pos, (walks hc).length_le⟩
  intro node
  exact frame_allocLocked (w := { s1.work l with zi := { s1.layers l with usageBmp := bmp } }) hwalks hk hne node

theorem outside_closeMenuIf {c : Prop} [Decidable c]
    : Outside (if c then s.srvForceCloseMenu env 0 else s) l k :=
  kept_outside.closeMenuIf env 0 h

theorem locked_poke_of_mem {t : ZType} (htype : chainOf ((s.layers l').nodes idx).type = some t)
    (hf : ∀ c, Chains (s.layers l).store c → Apart k c → idx ∈ c t → Work.Frame k f (s.work l))
    : (s.poke l k node).locked l' f = (s.locked l' f).poke l k node := by
  apply locked_poke
  intro hl
  rcases h.chains with ⟨c, hc, hk⟩
  rw [hl] at htype ⊢
  exact hf c hc hk ((hc.type idx t).mp htype)

omit h in
theorem badIndex_poke : badIndex ((s.poke l k node).layers l') idx ↔ badIndex (s.layers l') idx := by
  unfold badIndex
  rw [maxNrNodes_poke]

omit [DecidableEq κ] h in
theorem hasSlot_of_not_badIndex {zi : ZOrderInfo} (hbad : ¬badIndex zi idx) (hidx : idx ≠ zi.maxNrNodes)
    : zi.hasSlot idx := by
  unfold badIndex at hbad
  refine ⟨by omega, ?_⟩
  omega

omit h in
theorem hasSlot_closeMenuIf {c : Prop} [Decidable c] (hidx : (s.layers l').hasSlot idx)
    : ((if c then s.srvForceCloseMenu env cli else s).layers l').hasSlot idx := by
  rw [@hasSlot_congr _ (s.layers l') _]
  . exact hidx
  . exact congrArg Store.maxNrNodes (store_closeMenuIf (s := s) env cli)

theorem menuClosed (hidx : (s.layers l').hasSlot idx)
    : ∃ s1, (if (s.layers l').cliTrackmenu ≥ 0 then s.srvForceCloseMenu env 0 else s) = s1 ∧ Outside s1 l k
        ∧ (s1.layers l').hasSlot idx :=
  ⟨_, rfl, outside_closeMenuIf env h, hasSlot_closeMenuIf env hidx⟩

theorem srvShowWindow_poke (hidx : idx ≠ (s.layers (s.ziFromClient cli)).maxNrNodes)
    : (s.poke l k node).srvShowWindow env cli idx
        = ((s.srvShowWindow env cli idx).1, (s.srvShowWindow env cli idx).2.poke l k node) := by
  unfold srvShowWindow
  simp only [ziFromClient_poke, cliTrackmenu_poke, badIndex_poke]
  generalize s.ziFromClient cli = l' at hidx ⊢
  split
  . rfl
  rename_i hbad
  have hslot := hasSlot_of_not_badIndex hbad hidx
  rw [closeMenuIf_poke env h]
  obtain ⟨s1, hs1, h, hslot⟩ := menuClosed env h hslot
  rw [hs1]
  rw [h.nodes_eq hslot]
  split
  . rfl
  rename_i t htype
  rw [locked_poke_of_mem h htype]
  intro c hc hk hmem
  exact frame_showLocked (walks hc) hk hmem

theorem srvHideWindow_poke
    (hidx : (s.layers (s.ziFromClient cli)).maxNrNodes < idx ∨ (s.layers (s.ziFromClient cli)).hasSlot idx)
    : (s.poke l k node).srvHideWindow env cli idx
        = ((s.srvHideWindow env cli idx).1, (s.srvHideWindow env cli idx).2.poke l k node) := by
  unfold srvHideWindow
  simp only [ziFromClient_poke, cliTrackmenu_poke, maxNrNodes_poke]
  generalize s.ziFromClient cli = l' at hidx ⊢
  split
  . rfl
  rename_i hgt
  have hslot := hidx.resolve_left hgt
  rw [closeMenuIf_poke env h]
  obtain ⟨s1, hs1, h, hslot⟩ := menuClosed env h hslot
  rw [hs1]
  rw [h.nodes_eq hslot]
  split
  . rfl
  rename_i t htype
  rw [locked_poke_of_mem h htype, onLayer_poke]
  . intro hl node
    have hne := h.ne hslot hl
    have hlocked := kept_outside.locked
      (@LayerStep.hideLocked _ (s1.work l') _ _ env.rcScr (((s1.layers l').nodes idx).type) htype) h
    rw [hl] at hlocked ⊢
    dsimp only
    rw [Work.node_poke hne]
    exact frame_updateDirty hlocked _ node
  . intro c hc hk hmem
    exact frame_hideLocked (walks hc) hk hmem

theorem srvMove2Top_poke (hidx : idx ≠ (s.layers (s.ziFromClient cli)).maxNrNodes)
    : (s.poke l k node).srvMove2Top env cli idx
        = ((s.srvMove2Top env cli idx).1, (s.srvMove2Top env cli idx).2.poke l k node) := by
  unfold srvMove2Top
  simp only [ziFromClient_poke, cliTrackmenu_poke, badIndex_poke]
  generalize s.ziFromClient cli = l' at hidx ⊢
  split
  . rfl
  rename_i hbad
  have hslot := hasSlot_of_not_badIndex hbad hidx
  rw [closeMenuIf_poke env h]
  obtain ⟨s1, hs1, h, hslot⟩ := menuClosed env h hslot
  rw [hs1]
  rw [h.nodes_eq hslot, first_poke]
  split
  . rfl
  rename_i t htype
  split
  . rfl
  rename_i hfirst
  have hempty : { s1.poke l k node with updateRgn := emptyClipRgn }
      = { s1 with updateRgn := emptyClipRgn }.poke l k node := rfl
  have h1 : Outside { s1 with updateRgn := emptyClipRgn } l k := kept_outside.rgn emptyClipRgn h
  rw [hempty, locked_poke_of_mem h1 htype, onLayer_poke]
  . intro hl node
    have hne := h.ne hslot hl
    dsimp only
    rw [Work.node_poke hne]
    split
    . exact frame_updateClientWindowRgn hne node
    . rfl
  . intro c hc hk hmem
    exact frame_move2TopLocked hc hk hmem

theorem srvMoveWindow_poke {rcWin : Rect} (hidx : idx ≠ (s.layers (s.ziFromClient cli)).maxNrNodes)
    : (s.poke l k node).srvMoveWindow env cli idx rcWin
        = ((s.srvMoveWindow env cli idx rcWin).1, (s.srvMoveWindow env cli idx rcWin).2.poke l k node) := by
  unfold srvMoveWindow
  simp only [ziFromClient_poke, cliTrackmenu_poke, maxNrNodes_poke]
  generalize s.ziFromClient cli = l' at hidx ⊢
  split
  . rfl
  rename_i hbad
  have hslot : (s.layers l').hasSlot idx := ⟨by omega, by omega⟩
  rw [h.nodes_eq hslot]
  split
  . rfl
  rename_i t htype
  split
  . rfl
  split
  . have htype1 : chainOf (((if (s.layers l').cliTrackmenu ≥ 0 then s.srvForceCloseMenu env 0 else s).layers
        l').nodes idx).type = some t := by
      have hstore := congrArg (fun st => chainOf (st.type idx)) (store_closeMenuIf
        (c := (s.layers l').cliTrackmenu ≥ 0) (s := s) (l := l') env 0)
      rw [← htype]
      exact hstore
    have h1 := outside_closeMenuIf env (c := (s.layers l').cliTrackmenu ≥ 0) h
    rw [closeMenuIf_poke env h]
    generalize (if (s.layers l').cliTrackmenu ≥ 0 then s.srvForceCloseMenu env 0 else s) = s1 at h1 htype1 ⊢
    have hmove := kept_outside.locked (@LayerStep.moveLocked _ (s1.work l') _ _ env.rcScr rcWin (((s.layers l').nodes idx).type) htype1) h1
    rw [locked_poke_of_mem h1 htype1, onLayer_poke]
    . rfl
    . intro hl
      have htype2 : chainOf (((s1.locked l' (moveLocked env.rcScr ((s.layers l').nodes idx).type idx rcWin)).layers
          l').nodes idx).type = some t := by
        rw [updates_locked.layers, update_self, type_eq_of_core core_moveLocked]
        rw [field_setNode (p := ZOrderNode.type) (f := fun node => { node with rc := rcWin }) (fun _ => rfl)]
        exact htype1
      rw [hl] at hmove htype2 ⊢
      rcases hmove.chains with ⟨c, hc, hk⟩
      exact frame_moveInvalid (walks hc) hk ((hc.type idx t).mp htype2)
    . intro c hc hk hmem
      exact frame_moveLocked (walks hc) hk hmem
  . rw [locked_poke]
    intro hl
    exact frame_setNode (h.ne hslot hl)

theorem srvStartTrackPopupMenu_poke {ptmi : Hwnd}
    : (s.poke l k node).srvStartTrackPopupMenu env cli rc ptmi
        = ((s.srvStartTrackPopupMenu env cli rc ptmi).1,
          (s.srvStartTrackPopupMenu env cli rc ptmi).2.poke l k node) := by
  unfold srvStartTrackPopupMenu
  simp only [ziFromClient_poke, cliTrackmenu_poke]
  generalize s.ziFromClient cli = l'
  rw [closeMenuIf_poke env h]
  replace h := outside_closeMenuIf env
    (c := (s.layers l').cliTrackmenu ≥ 0 ∧ (s.layers l').cliTrackmenu ≠ cli) h
  generalize (if (s.layers l').cliTrackmenu ≥ 0 ∧ (s.layers l').cliTrackmenu ≠ cli then s.srvForceCloseMenu env 0 else s)
    = s1 at h ⊢
  simp only [nrPopupmenus_poke, maxNrPopupmenus_poke]
  split
  . rfl
  rw [locked_poke]
  intro hl
  rcases h.chains with ⟨c, hc, hk⟩
  rw [hl]
  exact frame_startMenuLocked (walks hc) hk

theorem srvEndTrackPopupMenu_poke : (s.poke l k node).srvEndTrackPopupMenu env cli idx
        = ((s.srvEndTrackPopupMenu env cli idx).1, (s.srvEndTrackPopupMenu env cli idx).2.poke l k node) := by
  unfold srvEndTrackPopupMenu
  simp only [ziFromClient_poke, cliTrackmenu_poke, nrPopupmenus_poke, menuNodes_poke]
  generalize s.ziFromClient cli = l'
  split
  . rfl
  rw [locked_poke, onLayer_poke]
  . intro hl
    have hlocked := kept_outside.locked (LayerStep.endMenu trivial (@core_endMenuLocked (s.work l') (((s.layers l').menuNodes idx).rc) env.rcScr)) h
    rw [hl] at hlocked ⊢
    exact frame_updateDirty hlocked _
  intro hl
  rcases h.chains with ⟨c, hc, hk⟩
  rw [hl]
  exact frame_endMenuLocked (walks hc) hk

theorem srvEnableWindow_poke (hidx : idx ≠ (s.layers (s.ziFromClient cli)).maxNrNodes)
    : (s.poke l k node).srvEnableWindow cli idx flags
        = ((s.srvEnableWindow cli idx flags).1, (s.srvEnableWindow cli idx flags).2.poke l k node) := by
  unfold srvEnableWindow
  simp only [ziFromClient_poke, maxNrNodes_poke]
  generalize s.ziFromClient cli = l' at hidx ⊢
  split
  . rfl
  rename_i hbad
  have hslot : (s.layers l').hasSlot idx := ⟨by omega, by omega⟩
  rw [locked_poke]
  intro hl
  exact frame_setNode (h.ne hslot hl)

theorem srvStartDragWindow_poke {location x y : Int}
    (hidx : idx ≠ (s.layers (s.ziFromClient cli)).maxNrNodes ∨ s.ddInfo.cli ≥ 0)
    : (s.poke l k node).srvStartDragWindow cli idx location x y
        = ((s.srvStartDragWindow cli idx location x y).1,
          (s.srvStartDragWindow cli idx location x y).2.poke l k node) := by
  have hdd : (s.poke l k node).ddInfo = s.ddInfo := rfl
  unfold srvStartDragWindow
  simp only [ziFromClient_poke, maxNrNodes_poke]
  generalize s.ziFromClient cli = l' at hidx ⊢
  rw [hdd]
  split
  . rfl
  split
  . rfl
  rename_i hbad hdrag
  have hslot : ((s.lockZiForChange l').layers l').hasSlot idx := by
    rw [layers_lockZiForChange]
    exact ⟨by omega, by omega⟩
  have hlock : Outside (s.lockZiForChange l') l k := by
    refine ⟨⟨?_, ?_⟩, ?_⟩
    . rw [layers_lockZiForChange]
      exact h.stored.chains
    . rw [layers_lockZiForChange]
      exact h.stored.globals
    . rw [layers_lockZiForChange]
      exact h.slot
  rw [lockZiForChange_poke, hlock.nodes_eq hslot]
  rfl

omit h in
theorem srvCancelDragWindow_poke : (s.poke l k node).srvCancelDragWindow cli idx
        = ((s.srvCancelDragWindow cli idx).1, (s.srvCancelDragWindow cli idx).2.poke l k node) := by
  have hdd : (s.poke l k node).ddInfo = s.ddInfo := rfl
  unfold srvCancelDragWindow
  simp only [ziFromClient_poke, maxNrNodes_poke]
  rw [hdd]
  split
  . rfl
  split
  . rfl
  . rw [← unlockZiForChange_poke]
    rfl

theorem srvChangeCaption_poke (hidx : idx < (s.layers (s.ziFromClient cli)).maxNrNodes)
    : (s.poke l k node).srvChangeCaption env cli idx caption
        = ((s.srvChangeCaption env cli idx caption).1, (s.srvChangeCaption env cli idx caption).2.poke l k node) := by
  unfold srvChangeCaption
  simp only [ziFromClient_poke]
  generalize s.ziFromClient cli = l' at hidx ⊢
  split
  . next hpos =>
    have hslot : (s.layers l').hasSlot idx := ⟨by omega, by omega⟩
    rw [onLayer_poke]
    intro hl
    exact frame_setNode (h.ne hslot hl)
  . rfl

omit h in
theorem core_closeMenuIf {c : Prop} [Decidable c] (s : Server κ) (l : κ) (cli : Int)
    : ((if c then s.srvForceCloseMenu env cli else s).layers l).core = (s.layers l).core
        ∨ ((if c then s.srvForceCloseMenu env cli else s).layers l).core = (s.layers l).closeMenus.core := by
  split
  . apply core_srvForceCloseMenu
  . left
    rfl

omit h in
theorem activeWin_closeMenuIf {c : Prop} [Decidable c] (s : Server κ) (l : κ) (cli : Int)
    : ((if c then s.srvForceCloseMenu env cli else s).layers l).activeWin = (s.layers l).activeWin := by
  rcases core_closeMenuIf env (c := c) s l cli with hsame | hclose
  . have hactive := congrArg ZOrderInfo.activeWin hsame
    exact hactive
  . have hactive := congrArg ZOrderInfo.activeWin hclose
    exact hactive

omit h in
theorem posts_poke {a m1 m2 m3 : Int} {p1 p2 p3 : Hwnd} (ha : l' = l → a ≠ k)
    : ((s.poke l k node).onLayer l' fun w => ((w.postMsg a m1 p1).postMsg a m2 p2).postMsg a m3 p3)
        = (s.onLayer l' fun w => ((w.postMsg a m1 p1).postMsg a m2 p2).postMsg a m3 p3).poke l k node := by
  apply onLayer_poke
  intro hl node
  have hne := ha hl
  dsimp only
  rw [frame_postMsg hne, frame_postMsg hne, frame_postMsg hne]

omit h in
theorem ite_poke {c : Prop} [Decidable c]
    : (if c then s.poke l k node else s'.poke l k node) = (if c then s else s').poke l k node := by
  split <;> rfl

theorem srvSetActiveWindow_poke (hok : (s.layers (s.ziFromClient cli)).ActiveOk s.imeWnd idx)
    : (s.poke l k node).srvSetActiveWindow env cli idx
        = ((s.srvSetActiveWindow env cli idx).1, (s.srvSetActiveWindow env cli idx).2.poke l k node) := by
  have hime : (s.poke l k node).imeWnd = s.imeWnd := rfl
  unfold ActiveOk at hok
  unfold srvSetActiveWindow
  simp only [ziFromClient_poke, cliTrackmenu_poke, maxNrNodes_poke]
  generalize s.ziFromClient cli = l' at hok ⊢
  split
  . rfl
  rename_i hgt
  have hok := hok.resolve_left hgt
  rw [h.nodes_eq hok.1, hime]
  split
  . rfl
  rename_i hplain
  rw [not_or] at hplain
  have hactive := (hok.2.resolve_left hplain.1).resolve_left hplain.2
  have hslot := hok.1
  rw [closeMenuIf_poke env h]
  have hsame := activeWin_closeMenuIf env (c := (s.layers l').cliTrackmenu ≥ 0) s l' 0
  rw [← hsame] at hactive
  replace hactive := @hasSlot_closeMenuIf _ _ _ _ _ 0 env ((s.layers l').cliTrackmenu ≥ 0) _ hactive
  replace hslot := @hasSlot_closeMenuIf _ _ _ _ _ 0 env ((s.layers l').cliTrackmenu ≥ 0) _ hslot
  replace h := outside_closeMenuIf env (c := (s.layers l').cliTrackmenu ≥ 0) h
  generalize (if (s.layers l').cliTrackmenu ≥ 0 then s.srvForceCloseMenu env 0 else s) = s1
    at h hslot hactive ⊢
  simp only [activeWin_poke]
  rw [h.nodes_eq hslot, h.nodes_eq hactive]
  rw [locked_poke]
  . generalize (s1.locked l' fun w => { w with zi := { w.zi with activeWin := idx } }) = s2
    rw [posts_poke (h.ne hactive), ite_poke, posts_poke (h.ne hslot), ite_poke]
  . intro _ node
    rfl

end Handlers

structure SameWindows (s s' : Server κ) : Prop where
  layers : ∀ l, (s'.layers l).core = (s.layers l).core ∨ (s'.layers l).core = (s.layers l).closeMenus.core
  topmost : s'.topmost = s.topmost
  clientLayer : s'.clientLayer = s.clientLayer
  imeWnd : s'.imeWnd = s.imeWnd

theorem imeWnd_lockZiForChange : (s.lockZiForChange l).imeWnd = s.imeWnd := by
  unfold lockZiForChange doDragDropWindow
  dsimp only
  split
  . rfl
  . split <;> rfl

theorem sameWindows_srvForceCloseMenu : SameWindows s (s.srvForceCloseMenu env cli) := by
  refine ⟨fun l => core_srvForceCloseMenu env cli, topmost_srvForceCloseMenu env, ?_, ?_⟩
  . unfold srvForceCloseMenu
    dsimp only
    split
    . rfl
    . rw [updates_onLayer.clientLayer, updates_locked.clientLayer]
  unfold srvForceCloseMenu
  dsimp only
  split
  . rfl
  . exact imeWnd_lockZiForChange (l := s.ziFromClient cli)

theorem sameWindows_closeMenuIf {c : Prop} [Decidable c]
    : SameWindows s (if c then s.srvForceCloseMenu env cli else s) := by
  split
  . apply sameWindows_srvForceCloseMenu
  . exact ⟨fun _ => Or.inl rfl, rfl, rfl, rfl⟩

omit [DecidableEq κ] in
theorem SameWindows.field (h : SameWindows s s')
    (hcore : ∀ zi, q zi.core = q zi) (hclose : ∀ zi, q zi.closeMenus = q zi) (l : κ)
    : q (s'.layers l) = q (s.layers l) := by
  rcases h.layers l with hsame | hsame
  . rw [← hcore, hsame, hcore]
  . rw [← hcore, hsame, hcore, hclose]

omit [DecidableEq κ] in
theorem SameWindows.ziFromClient (h : SameWindows s s') : s'.ziFromClient cli = s.ziFromClient cli := by
  unfold Server.ziFromClient
  rw [h.topmost, h.clientLayer]

theorem activeOk_core (zi : ZOrderInfo) (imeWnd : Hwnd) (idx : Int)
    : zi.core.ActiveOk imeWnd idx = zi.ActiveOk imeWnd idx := by
  have htool : (zi.core.nodes idx).has ZOF_TF_TOOLWIN = (zi.nodes idx).has ZOF_TF_TOOLWIN := by
    unfold ZOrderNode.has
    rw [show (zi.core.nodes idx).flags = (zi.nodes idx).core.flags from rfl, ZOrderNode.flags_core_and _ (by decide)]
  unfold ActiveOk
  rw [htool]
  rfl

theorem heir_core (zi : ZOrderInfo) (t : ZType) (idx : Int) : zi.core.heir t idx = zi.heir t idx := by
  have hidem : zi.core.core = zi.core := by
    unfold ZOrderInfo.core
    congr 1
    funext slot
    unfold ZOrderNode.core
    rw [BitVec.and_assoc, BitVec.and_self]
  apply heir_congr
  . exact next_eq_of_core hidem
  . rfl
  . rfl
  . exact activatable_eq_of_core hidem

theorem heir_closeMenus (zi : ZOrderInfo) (t : ZType) (idx : Int) : zi.closeMenus.heir t idx = zi.heir t idx := by
  apply heir_congr <;> intros <;> rfl

theorem freeNode_poke (h : Outside s l k) {t : ZType} {type : BitVec 32} (hslot : (s.layers l').hasSlot idx)
    (htype : chainOf ((s.layers l').nodes idx).type = some t)
    : (s.poke l k node).freeNode env l' type t idx = (s.freeNode env l' type t idx).poke l k node := by
  unfold freeNode
  rw [h.nodes_eq hslot]
  rw [locked_poke_of_mem h htype, onLayer_poke]
  . intro hl
    have hlocked := kept_outside.locked (LayerStep.free t idx htype (@core_freeLocked (s.work l') env.rcScr type _ _)) h
    rw [hl] at hlocked ⊢
    exact frame_updateDirty hlocked _
  . intro c hc hk hmem
    exact frame_freeLocked hc hk hmem

theorem layers_freeNode_of_ne {t : ZType} {type : BitVec 32} (hl : l ≠ l')
    : (s.freeNode env l' type t idx).layers l = s.layers l := by
  unfold freeNode
  rw [updates_onLayer.layers, update_of_ne hl, updates_locked.layers, update_of_ne hl]

theorem core_freeNode {t : ZType} {type : BitVec 32}
    : ((s.freeNode env l type t idx).layers l).core = ((s.layers l).freeZNode t idx).core := by
  unfold freeNode
  rw [updates_onLayer.layers, update_self, core_updateDirty]
  change ((s.locked l _).layers l).core = _
  rw [updates_locked.layers, update_self, core_freeLocked]
  rfl

theorem updates_freeNode {t : ZType} {type : BitVec 32}
    : (s.freeNode env l type t idx).topmost = s.topmost ∧ (s.freeNode env l type t idx).clientLayer = s.clientLayer
        ∧ (s.freeNode env l type t idx).imeWnd = s.imeWnd := by
  refine ⟨?_, ?_, ?_⟩
  . exact topmost_lockZiForChange (l := l)
  . exact clientLayer_lockZiForChange (l := l)
  . exact imeWnd_lockZiForChange (l := l)

theorem ziFromClient_freeNode {t : ZType} {type : BitVec 32}
    : (s.freeNode env l type t idx).ziFromClient cli = s.ziFromClient cli := by
  have hsame := @updates_freeNode _ _ s l idx env t type
  unfold ziFromClient
  rw [hsame.1, hsame.2.1]

theorem chains_freeNode {c : ZType → List Int} {t : ZType} {type : BitVec 32} (hc : Chains (s.layers l).store c)
    (hidx : idx ∈ c t)
    : Chains ((s.freeNode env l type t idx).layers l).store (Function.update c t ((c t).erase idx)) := by
  rw [store_of_core (core_freeNode env), store_freeZNode]
  exact hc.drop hidx

theorem next_freeNode {c : ZType → List Int} {t : ZType} {type : BitVec 32} (hc : Chains (s.layers l).store c)
    (hidx : idx ∈ c t)
    : getNextVisibleMainwin ((s.freeNode env l type t idx).layers l) idx = (s.layers l).heir t idx := by
  rw [getNextVisibleMainwin_eq_of_core (core_freeNode env), getNextVisibleMainwin_freeZNode hc hidx]

def FreeOk (s : Server κ) (cli idx : Int) : Prop :=
  let l := s.ziFromClient cli
  let zi := s.layers l
  idx ≤ 0 ∨ zi.maxNrNodes < idx
    ∨ idx < zi.maxNrNodes
      ∧ ∀ t, chainOf (zi.nodes idx).type = some t → idx = zi.activeWin →
        let next := zi.heir t idx
        let l' := s.ziFromClient (zi.nodes next).cli
        l' = l ∨ (s.layers l').ActiveOk s.imeWnd next

omit [DecidableEq κ] in
theorem FreeOk.sameWindows (h : SameWindows s s') (hok : s.FreeOk cli idx) : s'.FreeOk cli idx := by
  have hfrom : ∀ cli, s'.ziFromClient cli = s.ziFromClient cli := fun _ => h.ziFromClient
  have hmax := fun l => h.field (q := ZOrderInfo.maxNrNodes) (fun _ => rfl) (fun _ => rfl) l
  have htype := fun l => h.field (q := fun zi => (zi.nodes idx).type) (fun zi => (zi.nodes idx).flags_core_and (by decide))
    (fun _ => rfl) l
  have hactive := fun l => h.field (q := fun zi => zi.activeWin) (fun _ => rfl) (fun _ => rfl) l
  have hcli := fun a l => h.field (q := fun zi => (zi.nodes a).cli) (fun _ => rfl) (fun _ => rfl) l
  have hheir := fun t l => h.field (q := fun zi => zi.heir t idx) (fun zi => heir_core zi t idx)
    (fun zi => heir_closeMenus zi t idx) l
  have hok' := fun ime a l => h.field (q := fun zi => zi.ActiveOk ime a) (fun zi => activeOk_core zi ime a)
    (fun _ => rfl) l
  unfold FreeOk at hok ⊢
  simp only [hfrom, hmax, htype, hactive, hcli, hheir, hok', h.imeWnd]
  exact hok

theorem getNextVisibleMainwin_setNode {zi : ZOrderInfo} {c : ZType → List Int} {start : Int} {rest : List Int}
    {g : ZOrderNode → ZOrderNode} (h : Walks zi c) (hk : Apart k c) (hstart : zi.From (zi.nodes start).next rest)
    (hlen : rest.length ≤ zi.maxNrNodes) (hrest : ∀ a ∈ rest, ∃ t, a ∈ c t) (hpos : start ≠ 0) (hne : start ≠ k)
    : getNextVisibleMainwin (zi.setNode k g) start = getNextVisibleMainwin zi start := by
  have hmem : ∀ a ∈ rest ++ (c .global ++ c .topmost ++ c .normal), a ≠ k := by
    intro a ha
    rw [mem_append, mem_append, mem_append] at ha
    rcases ha with ha | (ha | ha) | ha
    . rcases hrest a ha with ⟨t, ht⟩
      exact hk.ne ht
    . exact hk.ne ha
    . exact hk.ne ha
    . exact hk.ne ha
  have hfrom : ∀ {slot : Int} {l : List Int}, zi.From slot l → (∀ a ∈ l, a ≠ k) → (zi.setNode k g).From slot l := by
    intro slot l hl hne
    unfold From at hl ⊢
    rw [@Chain.Linked.congr _ (fun a => DList.link 0 (zi.nodes a).next)]
    . exact hl
    . intro a ha
      rw [nodes_setNode_of_ne (hne a ha)]
  have hwalks : Walks (zi.setNode k g) c := by
    refine ⟨?_, h.pos, h.length_le⟩
    intro t
    exact hfrom (h.linked t) (fun a ha => hk.ne ha)
  have hstart' : start ≠ 0 → (zi.setNode k g).From ((zi.setNode k g).nodes start).next rest := by
    intro _
    rw [nodes_setNode_of_ne hne]
    exact hfrom hstart (fun a ha => hmem a (mem_append_left _ ha))
  rw [getNextVisibleMainwin_eq hwalks hstart' hlen (fun hzero => absurd hzero hpos),
    getNextVisibleMainwin_eq h (fun _ => hstart) hlen (fun hzero => absurd hzero hpos)]
  congr 1
  apply find?_congr
  intro a ha
  rw [nodes_setNode_of_ne (hmem a ha)]

section FreeRequest

variable (h : Outside s l k) {t : ZType} {type : BitVec 32} {c : ZType → List Int}
  (htype : chainOf ((s.layers l').nodes idx).type = some t)

include h htype

theorem next_freeNode_poke
    : getNextVisibleMainwin (((s.freeNode env l' type t idx).poke l k node).layers l') idx
        = getNextVisibleMainwin ((s.freeNode env l' type t idx).layers l') idx := by
  by_cases hl : l' = l
  . rw [hl] at htype ⊢
    rcases h.chains with ⟨c, hc, hk⟩
    have hidx := (hc.type idx t).mp htype
    have hpos := hc.pos hidx
    rcases append_of_mem hidx with ⟨done, rest, hsplit⟩
    have hcore := @core_freeNode _ _ s l idx env t type
    have hfree : Outside (s.freeNode env l type t idx) l k := kept_outside.freeNode env type t idx htype h
    have hdrop := @chains_freeNode _ _ _ _ _ env _ _ type hc hidx
    have hfrom := from_freeZNode hc hidx hsplit
    rw [← From.of_core hcore, ← next_eq_of_core hcore] at hfrom
    have hrest : ∀ a ∈ rest, a ∈ (c t).erase idx := by
      intro a ha
      rw [hc.mem_erase]
      refine ⟨?_, by rw [hsplit]; simp [ha]⟩
      intro heq
      have hnodup := (hc.valid t).nodup
      rw [hsplit, nodup_append, nodup_cons] at hnodup
      rw [heq] at ha
      exact hnodup.2.1.1 ha
    have hlen : rest.length ≤ ((s.freeNode env l type t idx).layers l).maxNrNodes := by
      have hle := (walks hc).length_rest_le hsplit
      have hmax := congrArg Store.maxNrNodes (store_of_core hcore)
      rw [store_freeZNode] at hmax
      change ((s.freeNode env l type t idx).layers l).maxNrNodes = (s.layers l).maxNrNodes at hmax
      omega
    rw [layers_poke_self]
    apply getNextVisibleMainwin_setNode (walks hdrop) (apart_of_not_hasSlot hdrop hfree.slot) hfrom hlen
    . intro a ha
      refine ⟨t, ?_⟩
      rw [update_self]
      exact hrest a ha
    . omega
    . exact h.ne (hasSlot_of_mem hc hidx) rfl
  . rw [layers_poke_of_ne hl]

theorem activateNext_freeNode_poke
    (hok : ((s.freeNode env l' type t idx).layers ((s.freeNode env l' type t idx).ziFromClient
        (((s.layers l').nodes ((s.layers l').heir t idx)).cli))).ActiveOk s.imeWnd ((s.layers l').heir t idx))
    : ((s.freeNode env l' type t idx).poke l k node).activateNext env l' idx
        = ((s.freeNode env l' type t idx).activateNext env l' idx).poke l k node := by
  rcases h.stored.chains l' with ⟨c, hc⟩
  have hidx := (hc.type idx t).mp htype
  have hfree : Outside (s.freeNode env l' type t idx) l k := kept_outside.freeNode env type t idx htype h
  have hnext := @next_freeNode _ _ _ _ _ env _ _ type hc hidx
  have hslot : ((s.freeNode env l' type t idx).layers l').hasSlot ((s.layers l').heir t idx) := by
    have hdrop := @chains_freeNode _ _ _ _ _ env _ _ type hc hidx
    rcases heir_mem hc hidx with hzero | ⟨t', hmem⟩
    . rw [hzero]
      exact hasSlot_zero hdrop
    . exact hasSlot_of_mem hdrop hmem
  have hcli : (((s.freeNode env l' type t idx).layers l').nodes ((s.layers l').heir t idx)).cli
      = ((s.layers l').nodes ((s.layers l').heir t idx)).cli := by
    rw [cli_eq_of_core (core_freeNode env), field_freeZNode lasting_cli.toUnlinked (fun _ => lasting_cli)]
  unfold activateNext
  dsimp only
  rw [next_freeNode_poke env h htype, hnext, hfree.nodes_eq hslot, hcli, srvSetActiveWindow_poke env hfree]
  rw [(updates_freeNode env).2.2]
  exact hok

end FreeRequest

theorem activeOk_freeNode {t : ZType} {type : BitVec 32} {c : ZType → List Int} (hc : Chains (s.layers l).store c)
    (htype : chainOf ((s.layers l).nodes idx).type = some t) (hactive : idx = (s.layers l).activeWin)
    (hok : l' = l ∨ (s.layers l').ActiveOk s.imeWnd ((s.layers l).heir t idx))
    : ((s.freeNode env l type t idx).layers l').ActiveOk s.imeWnd ((s.layers l).heir t idx) := by
  have hidx := (hc.type idx t).mp htype
  by_cases hl : l' = l
  . have hdrop := @chains_freeNode _ _ _ _ _ env _ _ type hc hidx
    have hzero : ((s.freeNode env l type t idx).layers l).activeWin = 0 := by
      have hcore := congrArg ZOrderInfo.activeWin
        (@core_freeNode _ _ s l idx env t type)
      change ((s.freeNode env l type t idx).layers l).activeWin = ((s.layers l).freeZNode t idx).activeWin at hcore
      rw [hcore]
      exact activeWin_freeZNode hactive
    rw [hl]
    right
    refine ⟨?_, Or.inr (.inr ?_)⟩
    . rcases heir_mem hc hidx with hnext | ⟨t', hmem⟩
      . rw [hnext]
        exact hasSlot_zero hdrop
      . exact hasSlot_of_mem hdrop hmem
    . rw [hzero]
      exact hasSlot_zero hdrop
  . rw [layers_freeNode_of_ne env hl]
    exact hok.resolve_left hl

theorem srvFreeZOrderNode_poke (h : Outside s l k) (hok : s.FreeOk cli idx)
    : (s.poke l k node).srvFreeZOrderNode env cli idx
        = ((s.srvFreeZOrderNode env cli idx).1, (s.srvFreeZOrderNode env cli idx).2.poke l k node) := by
  unfold srvFreeZOrderNode
  simp only [ziFromClient_poke, cliTrackmenu_poke, badIndex_poke]
  split
  . rfl
  rename_i hbad
  have hslot : (s.layers (s.ziFromClient cli)).hasSlot idx := by
    apply hasSlot_of_not_badIndex hbad
    unfold badIndex at hbad
    rcases hok with hle | hgt | hlt
    . omega
    . omega
    . have hne := hlt.1
      omega
  rw [h.nodes_eq hslot, closeMenuIf_poke env h]
  generalize hl' : s.ziFromClient cli = l' at hbad hslot ⊢
  have hsame := @sameWindows_closeMenuIf _ _ s 0 env
    ((s.layers l').cliTrackmenu ≥ 0 ∧ ((s.layers l').nodes idx).visible = true) _
  replace hslot := @hasSlot_closeMenuIf _ _ _ _ _ 0 env
    ((s.layers l').cliTrackmenu ≥ 0 ∧ ((s.layers l').nodes idx).visible = true) _ hslot
  replace h := outside_closeMenuIf env
    (c := (s.layers l').cliTrackmenu ≥ 0 ∧ ((s.layers l').nodes idx).visible = true) h
  replace hok := hok.sameWindows hsame
  have hfrom : (if (s.layers l').cliTrackmenu ≥ 0 ∧ ((s.layers l').nodes idx).visible = true then
      s.srvForceCloseMenu env 0 else s).ziFromClient cli = l' := by
    rw [hsame.ziFromClient, hl']
  generalize (if (s.layers l').cliTrackmenu ≥ 0 ∧ ((s.layers l').nodes idx).visible = true then
      s.srvForceCloseMenu env 0 else s) = s1 at h hslot hok hfrom ⊢
  rw [h.nodes_eq hslot]
  split
  . rfl
  rename_i t htype
  simp only [activeWin_poke]
  rw [freeNode_poke env h hslot htype]
  split
  . next hactive =>
    rcases h.stored.chains l' with ⟨c, hc⟩
    rw [activateNext_freeNode_poke env h htype]
    rw [ziFromClient_freeNode]
    apply activeOk_freeNode env hc htype hactive
    unfold FreeOk at hok
    rw [hfrom] at hok
    rcases hok with hle | hgt | ⟨_, hnext⟩
    . have hpos := hc.pos ((hc.type idx t).mp htype)
      omega
    . have hlt := hslot.2
      omega
    . exact hnext t htype hactive
  . rfl

end Server

end MiniGui
