import MiniGui.Desktop.Clipping

namespace MiniGui

open Function

namespace ZOrderInfo

def hasSlot (zi : ZOrderInfo) (slot : Int) : Prop :=
  0 ≤ slot ∧ slot < zi.maxNrNodes

def globalWindows (zi : ZOrderInfo) : List (Bool × Rect) :=
  (zi.slots .global).map (fun slot => ((zi.nodes slot).visible, (zi.nodes slot).rc))

end ZOrderInfo

namespace Server

open ZOrderInfo

variable {κ : Type} [DecidableEq κ] {s : Server κ} {l old : κ} {slot : Int} {node : ZOrderNode}

def poke (s : Server κ) (l : κ) (slot : Int) (node : ZOrderNode) : Server κ :=
  { s with layers := update s.layers l ((s.layers l).setNode slot (fun _ => node)) }

structure SwitchOk (env : DesktopEnv) (before s : Server κ) (l : κ) : Prop where
  ages : ((s.setTopmostLayer env l).layers l).globalWindows ≠ (before.layers l).globalWindows →
    ∀ slot, (s.layers l).hasSlot slot → slot = 0 ∨ (s.layers l).maxNr .global ≤ slot →
      (((s.setTopmostLayer env l).layers l).nodes slot).age ≠ ((before.layers l).nodes slot).age
  written : ∀ slot, ¬(s.layers l).hasSlot slot →
    ((s.setTopmostLayer env l).layers l).nodes slot = (s.layers l).nodes slot
  read : ∀ slot, ¬(s.layers s.topmost).hasSlot slot → ∀ node,
    (s.poke s.topmost slot node).setTopmostLayer env l = (s.setTopmostLayer env l).poke s.topmost slot node

section Poke

theorem layers_poke_self : (s.poke l slot node).layers l = (s.layers l).setNode slot (fun _ => node) := by
  unfold poke
  dsimp only
  rw [update_self]

theorem layers_poke_of_ne {l' : κ} (hl : l' ≠ l) : (s.poke l slot node).layers l' = s.layers l' := by
  unfold poke
  dsimp only
  rw [update_of_ne hl]

theorem node_poke : ((s.poke l slot node).layers l).nodes slot = node := by
  rw [layers_poke_self]
  unfold setNode
  dsimp only
  rw [update_self]

variable {msg x y : Int} {f : Work → Work}

theorem nrClients_poke {l' : κ} : nrClients ((s.poke l slot node).layers l') = nrClients (s.layers l') := by
  by_cases hl : l' = l
  . rw [hl, layers_poke_self]
    rfl
  . rw [layers_poke_of_ne hl]

theorem unlockZiForChange_poke {l' : κ}
    : (s.poke l slot node).unlockZiForChange l' = (s.unlockZiForChange l').poke l slot node := by
  unfold unlockZiForChange
  rw [nrClients_poke]
  rfl

theorem doDragDropWindow_poke : (s.poke l slot node).doDragDropWindow msg x y
        = ((s.doDragDropWindow msg x y).1, (s.doDragDropWindow msg x y).2.poke l slot node) := by
  unfold doDragDropWindow
  have hdd : (s.poke l slot node).ddInfo = s.ddInfo := rfl
  dsimp only
  rw [hdd]
  split
  . rfl
  split
  . rfl
  . rw [← unlockZiForChange_poke]
    rfl

theorem lockZiForChange_poke {l' : κ}
    : (s.poke l slot node).lockZiForChange l' = (s.lockZiForChange l').poke l slot node := by
  unfold lockZiForChange
  rw [doDragDropWindow_poke]
  dsimp only
  rw [nrClients_poke]
  rfl

theorem onLayer_poke_of_ne {l' : κ} (hl : l' ≠ l)
    : (s.poke l slot node).onLayer l' f = (s.onLayer l' f).poke l slot node := by
  have hwork : (s.poke l slot node).work l' = s.work l' := by
    unfold work
    rw [layers_poke_of_ne hl]
    rfl
  unfold onLayer
  rw [hwork]
  unfold finish poke
  dsimp only
  rw [update_comm hl, update_of_ne hl.symm]

end Poke

variable (env : DesktopEnv)

theorem layers_srvForceCloseMenu_of_ne {cli : Int} (hl : l ≠ s.ziFromClient cli)
    : (s.srvForceCloseMenu env cli).layers l = s.layers l := by
  unfold srvForceCloseMenu
  dsimp only
  split
  . rfl
  . rw [updates_onLayer.layers, update_of_ne hl, updates_locked.layers, update_of_ne hl]

theorem nodes_takeGlobals (zi old : ZOrderInfo) (slot : Int) : (zi.takeGlobals old).nodes slot
        =
      if 0 ≤ slot ∧ slot < old.maxNr .global then
        if slot = 0 then { old.nodes 0 with age := (old.nodes 0).age + 1 } else old.nodes slot
      else if 0 ≤ slot ∧ slot ≤ old.maxNrNodes then
        { zi.nodes slot with age := (old.nodes slot).age + 1 }
      else
        zi.nodes slot := by
  unfold takeGlobals
  extract_lets nrGlobals bytes zi1 zi2 zi3 copied zi4
  have h3 : zi3.nodes = zi.nodes := by
    unfold zi3 zi2
    split <;> rfl
  have h4 : zi4.nodes slot = ageOthers old copied slot := rfl
  have hcopied : copied slot = if 0 ≤ slot ∧ slot < old.maxNr .global then old.nodes slot else zi.nodes slot := by
    unfold copied
    rw [h3]
  unfold setNode
  dsimp only
  by_cases hzero : slot = 0
  . subst hzero
    rw [update_self, h4]
    unfold ageOthers
    rw [hcopied]
    by_cases hglobal : (0 : Int) ≤ 0 ∧ (0 : Int) < old.maxNr .global
    . rw [if_neg (by omega), if_pos hglobal, if_pos hglobal, if_pos rfl]
    . rw [if_pos (by omega), if_neg hglobal, if_neg hglobal, if_pos (by omega)]
  rw [update_of_ne hzero, h4]
  unfold ageOthers
  rw [hcopied, if_neg hzero]
  by_cases hglobal : 0 ≤ slot ∧ slot < old.maxNr .global
  . rw [if_neg (by omega), if_pos hglobal, if_pos hglobal]
  rw [if_neg hglobal, if_neg hglobal]
  by_cases hother : 0 ≤ slot ∧ slot ≤ old.maxNrNodes
  . rw [if_pos (by omega), if_pos hother]
  . rw [if_neg (by omega), if_neg hother]

theorem topmost_srvForceCloseMenu {cli : Int} : (s.srvForceCloseMenu env cli).topmost = s.topmost := by
  unfold srvForceCloseMenu
  dsimp only
  split
  . rfl
  . rw [updates_onLayer.topmost, updates_locked.topmost]

theorem layers_setTopmostLayer_of_ne {l' : κ} (hl : l' ≠ l)
    : (s.setTopmostLayer env l).layers l' = s.layers l' := by
  unfold setTopmostLayer doChangeTopmostLayer
  split
  . rfl
  . dsimp only
    rw [updates_locked.layers, topmost_srvForceCloseMenu, update_of_ne hl]
    exact layers_srvForceCloseMenu_of_ne (s := { s with topmost := l }) env hl

theorem layers_setTopmostLayer (hl : l ≠ s.topmost) : (s.setTopmostLayer env l).layers l
        = (({ s with topmost := l }.srvForceCloseMenu env 0).layers l).takeGlobals (s.layers s.topmost) := by
  have hold : ({ s with topmost := l }.srvForceCloseMenu env 0).layers s.topmost = s.layers s.topmost :=
    layers_srvForceCloseMenu_of_ne (s := { s with topmost := l }) env hl.symm
  have htopmost : ({ s with topmost := l }.srvForceCloseMenu env 0).topmost = l := topmost_srvForceCloseMenu env
  unfold setTopmostLayer doChangeTopmostLayer
  rw [if_neg hl]
  rw [updates_locked.layers, htopmost, update_self, hold]
  rfl

theorem age_setTopmostLayer (hl : l ≠ s.topmost) {slot : Int} (hslot : slot = (s.layers s.topmost).maxNrNodes)
    : (((s.setTopmostLayer env l).layers l).nodes slot).age = ((s.layers s.topmost).nodes slot).age + 1 := by
  have hsum : (s.layers s.topmost).maxNr .global ≤ (s.layers s.topmost).maxNrNodes := by
    unfold maxNrNodes
    omega
  rw [layers_setTopmostLayer env hl, nodes_takeGlobals, if_neg (by omega), if_pos (by omega)]

theorem setTopmostLayer_reads (hl : l ≠ s.topmost)
    : ∃ node, (s.poke s.topmost (s.layers s.topmost).maxNrNodes node).setTopmostLayer env l
        ≠ (s.setTopmostLayer env l).poke s.topmost (s.layers s.topmost).maxNrNodes node := by
  generalize hslot : ((s.layers s.topmost).maxNrNodes : Int) = slot
  let node : ZOrderNode := { ZOrderNode.zero with age := ((s.layers s.topmost).nodes slot).age + 1 }
  refine ⟨node, ?_⟩
  intro heq
  have htopmost : (s.poke s.topmost slot node).topmost = s.topmost := rfl
  have hmax : slot = ((s.poke s.topmost slot node).layers s.topmost).maxNrNodes := by
    rw [layers_poke_self, ← hslot]
    rfl
  have hpoked := age_setTopmostLayer (s := s.poke s.topmost slot node) env hl hmax
  have hage := age_setTopmostLayer (s := s) env hl hslot.symm
  rw [heq, layers_poke_of_ne hl, hage, htopmost, node_poke] at hpoked
  simp [node] at hpoked

/--
Whatever the layers have been through, the change uses a slot that the old layer does not have.
-/
theorem layer_switch (sizes : Sizes κ) (topmost : κ) (clientLayer : Int → κ) (first away : List (Action κ)) (l : κ)
    (hl : l ≠ (((Server.init env sizes topmost clientLayer).run env first).run env away).topmost)
    : let before := (Server.init env sizes topmost clientLayer).run env first
      ¬SwitchOk env before (before.run env away) l := by
  intro before h
  rcases setTopmostLayer_reads env hl with ⟨node, hreads⟩
  apply hreads
  apply h.read
  rintro ⟨_, hlt⟩
  exact lt_irrefl _ hlt

def switchActions : List (Action Bool) × List (Action Bool) :=
  let flags := ZOF_TYPE_NORMAL ||| ZOF_VISIBLE
  (List.replicate 3 (.request 1 (allocOp flags { left := 0, top := 0, right := 50, bottom := 50 })),
    [
      .setTopmost false,
      .request 0 (allocOp (ZOF_TYPE_GLOBAL ||| ZOF_VISIBLE) { left := 9, top := 9, right := 70, bottom := 70 })
    ])

def switchSizes : Sizes Bool :=
  { globalBytes := 1, nrTopmosts := fun _ => 0, nrNormals := fun l => if l then 4 else 1, globalBytes_pos := Nat.one_pos }

theorem layer_switch_stale
    : let before := (init smallEnv switchSizes true (fun _ => true)).run smallEnv switchActions.1
      before.topmost = true ∧ ¬SwitchOk smallEnv before (before.run smallEnv switchActions.2) true := by
  intro before
  refine ⟨by decide +kernel, ?_⟩
  intro h
  have hslot : ((before.run smallEnv switchActions.2).layers true).hasSlot 10 := by
    refine ⟨by decide, ?_⟩
    decide +kernel
  apply h.ages _ 10 hslot
  . right
    decide +kernel
  . decide +kernel
  . decide +kernel

theorem layer_switch_two
    : let before := (init smallEnv switchSizes true (fun _ => true)).run smallEnv switchActions.1
      ¬SwitchOk smallEnv before (before.run smallEnv [.setTopmost false]) true := by
  apply layer_switch
  decide +kernel

end Server

end MiniGui
