import MiniGui.Desktop.MenuStack

namespace MiniGui.Server

open Function

open ZOrderInfo

variable {κ : Type} [DecidableEq κ] {s s' : Server κ} {l : κ} {f : Work → Work}

structure Unlocked (s : Server κ) : Prop where
  stuck : s.stuck = false
  sem : ∀ l, s.sem l = if 0 ≤ s.ddInfo.cli ∧ l = s.ddInfo.zi then 0 else nrClients (s.layers l)

def DragsAtHome (s : Server κ) : Prop :=
  0 ≤ s.ddInfo.cli → s.ddInfo.zi = s.ziFromClient s.ddInfo.cli

theorem nrClients_of_sizes {zi zi' : ZOrderInfo} (h : zi'.sizes = zi.sizes) : nrClients zi' = nrClients zi := by
  have hmax : zi'.maxNr = zi.maxNr := congrArg Prod.fst h
  have hmenus : zi'.maxNrPopupmenus = zi.maxNrPopupmenus := congrArg Prod.snd h
  unfold nrClients
  rw [hmax, hmenus]

theorem Unlocked.drag (h : Unlocked s) (msg x y : Int) : Unlocked (s.doDragDropWindow msg x y).2 := by
  unfold doDragDropWindow
  extract_lets dd s1 s2
  have hdd : dd = s.ddInfo := rfl
  split
  . exact h
  rename_i hdrag
  split
  . constructor
    . exact h.stuck
    . exact h.sem
  constructor
  . exact h.stuck
  intro l
  have hsem := h.sem l
  change update s.sem dd.zi (s.sem dd.zi + nrClients (s.layers dd.zi)) l
    = if 0 ≤ (-1 : Int) ∧ l = dd.zi then 0 else nrClients (s.layers l)
  rw [if_neg (by omega), hdd]
  by_cases hl : l = s.ddInfo.zi
  . have hzero := h.sem s.ddInfo.zi
    rw [hdd] at hdrag
    rw [if_pos ⟨by omega, rfl⟩] at hzero
    rw [hl, update_self, hzero]
    omega
  . rw [update_of_ne hl, hsem, if_neg (fun hheld => hl hheld.2)]

theorem not_dragging_lockZiForChange : (s.lockZiForChange l).ddInfo.cli < 0 := by
  change (s.doDragDropWindow MSG_IDLE 0 0).2.ddInfo.cli < 0
  unfold doDragDropWindow
  extract_lets dd s1 s2
  split
  . next hidle => exact hidle
  . rw [if_neg (by decide)]
    change (-1 : Int) < 0
    omega

theorem Unlocked.lock (h : Unlocked s) : (s.lockZiForChange l).stuck = false
        ∧ ∀ l', (s.lockZiForChange l).sem l' = if l' = l then 0 else nrClients (s.layers l') := by
  have hended := h.drag MSG_IDLE 0 0
  have hidle : (s.doDragDropWindow MSG_IDLE 0 0).2.ddInfo.cli < 0 := not_dragging_lockZiForChange (l := l)
  have hsem : ∀ l', (s.doDragDropWindow MSG_IDLE 0 0).2.sem l' = nrClients (s.layers l') := by
    intro l'
    rw [hended.sem l', if_neg (by omega), layers_doDragDropWindow]
  unfold lockZiForChange
  dsimp only
  rw [layers_doDragDropWindow, hended.stuck]
  constructor
  . rw [hsem]
    simp
  intro l'
  by_cases hl : l' = l
  . rw [hl, update_self, hsem, if_pos rfl]
    omega
  . rw [update_of_ne hl, hsem, if_neg hl]

theorem Unlocked.onLayer (h : Unlocked s) (hsizes : (f (s.work l)).zi.sizes = (s.layers l).sizes)
    : Unlocked (s.onLayer l f) := by
  constructor
  . exact h.stuck
  intro l'
  have hclients : nrClients ((s.onLayer l f).layers l') = nrClients (s.layers l') := by
    rw [updates_onLayer.layers, update_apply]
    split
    . next hl => rw [hl, nrClients_of_sizes hsizes]
    . rfl
  rw [hclients]
  exact h.sem l'

theorem Unlocked.locked (h : Unlocked s) (hsizes : (f (s.work l)).zi.sizes = (s.layers l).sizes)
    : Unlocked (s.locked l f) := by
  have hlock := h.lock (l := l)
  have hidle : (s.locked l f).ddInfo.cli < 0 := not_dragging_lockZiForChange (s := s) (l := l)
  have hclients : ∀ l', nrClients ((s.locked l f).layers l') = nrClients (s.layers l') := by
    intro l'
    rw [updates_locked.layers, update_apply]
    split
    . next hl => rw [hl, nrClients_of_sizes hsizes]
    . rfl
  constructor
  . exact hlock.1
  intro l'
  have hsem : (s.locked l f).sem l'
      = update (s.lockZiForChange l).sem l
          ((s.lockZiForChange l).sem l + nrClients ((s.locked l f).layers l)) l' := rfl
  rw [hsem, hclients, hclients, if_neg (by omega)]
  by_cases hl : l' = l
  . rw [hl, update_self, hlock.2, if_pos rfl]
    omega
  . rw [update_of_ne hl, hlock.2, if_neg hl]

structure LockInv (s : Server κ) : Prop where
  stored : Stored s
  unlocked : Unlocked s

theorem kept_lockInv : KeptActive (κ := κ) True LockInv := by
  constructor
  . constructor
    . intro s l f hstep h
      exact ⟨kept_stored.onLayer hstep h.stored, h.unlocked.onLayer hstep.sizes_eq⟩
    . intro s l f hstep h
      exact ⟨kept_stored.locked hstep h.stored, h.unlocked.locked hstep.sizes_eq⟩
    . intro s rgn h
      exact ⟨kept_stored.rgn rgn h.stored, ⟨h.unlocked.stuck, h.unlocked.sem⟩⟩
    intro s l t hnr hslot h
    rcases h.stored.chains l with ⟨c, hc⟩
    rcases allocSlot_found hc hnr with ⟨slot, bmp, hfound, _⟩
    rw [hslot] at hfound
    simp at hfound
  . intro s l idx h
    refine ⟨kept_stored.active idx h.stored, h.unlocked.locked ?_⟩
    rfl

theorem dragsAtHome_of_idle (h : s.ddInfo.cli < 0) : DragsAtHome s := by
  intro hdrag
  omega

theorem dragsAtHome_locked : DragsAtHome (s.locked l f) :=
  dragsAtHome_of_idle (not_dragging_lockZiForChange (s := s) (l := l))

theorem kept_dragsAtHome : KeptActive (κ := κ) True DragsAtHome := by
  constructor
  . constructor
    . intro _ _ _ _ h
      exact h
    . intro _ _ _ _ _
      exact dragsAtHome_locked
    . intro _ _ h
      exact h
    . intro _ _ _ _ _ _
      exact dragsAtHome_of_idle not_dragging_lockZiForChange
  . intro _ _ _ _
    exact dragsAtHome_locked

section Dragging

variable {cli : Int}

theorem DragsAtHome.drag (h : DragsAtHome s) (msg x y : Int) : DragsAtHome (s.doDragDropWindow msg x y).2 := by
  unfold doDragDropWindow
  extract_lets dd s1 s2
  split
  . exact h
  split
  . exact h
  . apply dragsAtHome_of_idle
    change (-1 : Int) < 0
    omega

theorem LockInv.startDrag (h : LockInv s) (hcli : 0 ≤ cli) (idx location x y : Int)
    : LockInv (s.srvStartDragWindow cli idx location x y).2 := by
  have hstored := kept_stored.startDrag cli idx location x y h.stored
  unfold srvStartDragWindow at hstored ⊢
  extract_lets l zi s1 node ddInfo at hstored ⊢
  split
  . exact h
  split
  . exact h
  rename_i hrange hidle
  rw [if_neg hrange, if_neg hidle] at hstored
  have hlock := h.unlocked.lock (l := l)
  have hlayers : s1.layers = s.layers := layers_lockZiForChange
  refine ⟨hstored, ⟨hlock.1, ?_⟩⟩
  intro l'
  have hsem := hlock.2 l'
  change s1.sem l' = if 0 ≤ cli ∧ l' = l then 0 else nrClients (s1.layers l')
  rw [hlayers]
  simp only [hcli, true_and]
  exact hsem

theorem DragsAtHome.startDrag (h : DragsAtHome s) (idx location x y : Int)
    : DragsAtHome (s.srvStartDragWindow cli idx location x y).2 := by
  unfold srvStartDragWindow
  extract_lets l zi s1 node ddInfo
  split
  . exact h
  split
  . exact h
  intro _
  unfold ziFromClient s1
  rw [topmost_lockZiForChange, clientLayer_lockZiForChange]
  rfl

theorem LockInv.cancelDrag (h : LockInv s) (hhome : DragsAtHome s) (hcli : 0 ≤ cli) (idx : Int)
    : LockInv (s.srvCancelDragWindow cli idx).2 := by
  have hstored := kept_stored.cancelDrag cli idx h.stored
  unfold srvCancelDragWindow at hstored ⊢
  extract_lets l zi at hstored ⊢
  split
  . exact h
  split
  . exact h
  rename_i hrange hmine
  rw [if_neg hrange, if_neg hmine] at hstored
  have hdrag : s.ddInfo.cli = cli := by omega
  have hzi : s.ddInfo.zi = l := by
    have hlayer := hhome (by omega)
    rw [hdrag] at hlayer
    exact hlayer
  refine ⟨hstored, ⟨h.unlocked.stuck, ?_⟩⟩
  intro l'
  change update s.sem l (s.sem l + nrClients (s.layers l)) l'
    = if 0 ≤ (-1 : Int) ∧ l' = s.ddInfo.zi then 0 else nrClients (s.layers l')
  rw [if_neg (by omega)]
  by_cases hl : l' = l
  . have hsem := h.unlocked.sem l
    rw [if_pos ⟨by omega, hzi.symm⟩] at hsem
    rw [hl, update_self, hsem]
    omega
  . have hsem := h.unlocked.sem l'
    rw [hzi, if_neg (fun hheld => hl hheld.2)] at hsem
    rw [update_of_ne hl, hsem]

theorem DragsAtHome.cancelDrag (h : DragsAtHome s) (idx : Int)
    : DragsAtHome (s.srvCancelDragWindow cli idx).2 := by
  unfold srvCancelDragWindow
  extract_lets l zi
  split
  . exact h
  split
  . exact h
  . apply dragsAtHome_of_idle
    change (-1 : Int) < 0
    omega

end Dragging

section Runs

variable (env : DesktopEnv)

theorem LockInv.setTopmostLayer (l : κ) (h : LockInv s) : LockInv (s.setTopmostLayer env l) := by
  have hstored := kept_stored.setTopmostLayer env l h.stored
  unfold Server.setTopmostLayer doChangeTopmostLayer at hstored ⊢
  split
  . exact h
  rename_i hl
  rw [if_neg hl] at hstored
  have hswitch : LockInv { s with topmost := l } :=
    ⟨kept_stored.switch l h.stored, ⟨h.unlocked.stuck, h.unlocked.sem⟩⟩
  have hclosed := kept_lockInv.srvForceCloseMenu env 0 hswitch
  refine ⟨hstored, hclosed.unlocked.locked ?_⟩
  apply offStore_sizes.takeGlobals

theorem dragsAtHome_setTopmostLayer (l : κ) (h : DragsAtHome s) : DragsAtHome (s.setTopmostLayer env l) := by
  unfold Server.setTopmostLayer doChangeTopmostLayer
  split
  . exact h
  . exact dragsAtHome_locked

theorem LockInv.exec {a : Action κ} (h : LockInv s) (hhome : DragsAtHome s) (ha : a.fromClient)
    : LockInv (s.exec env a) := by
  cases a with
  | request cli info =>
    apply kept_lockInv.doZOrderOperation env cli info (fun _ => trivial) _ _ _ _ h
    . intro _
      exact kept_lockInv.srvFreeZOrderNode env cli info.idxZnode h
    . intro _
      exact kept_lockInv.srvSetActiveWindow env cli info.idxZnode h
    . exact h.startDrag ha _ _ _ _
    . exact h.cancelDrag hhome ha _
  | removeClient cli => exact kept_lockInv.removeAllZNodesOfClient env cli h
  | setTopmost l => exact h.setTopmostLayer env l
  | input msg x y => exact ⟨kept_stored.drag msg x y h.stored, h.unlocked.drag msg x y⟩
  | checkDirty cli => exact kept_lockInv.checkDirtyZNode env cli h
  | setIme hwnd => exact ⟨kept_stored.ime hwnd h.stored, ⟨h.unlocked.stuck, h.unlocked.sem⟩⟩

theorem DragsAtHome.exec {a : Action κ} (h : DragsAtHome s) : DragsAtHome (s.exec env a) := by
  cases a with
  | request cli info =>
    apply kept_dragsAtHome.doZOrderOperation env cli info (fun _ => trivial) _ _ _ _ h
    . intro _
      exact kept_dragsAtHome.srvFreeZOrderNode env cli info.idxZnode h
    . intro _
      exact kept_dragsAtHome.srvSetActiveWindow env cli info.idxZnode h
    . exact h.startDrag _ _ _ _
    . exact h.cancelDrag _
  | removeClient cli => exact kept_dragsAtHome.removeAllZNodesOfClient env cli h
  | setTopmost l => exact dragsAtHome_setTopmostLayer env l h
  | input msg x y => exact h.drag msg x y
  | checkDirty cli => exact kept_dragsAtHome.checkDirtyZNode env cli h
  | setIme hwnd => exact h

end Runs

end MiniGui.Server
