import MiniGui.Desktop.LayerSwitch

/-!
Who has pushed the popup menus that are on the stacks of the layers. A client pushes its menus on the stack of its
layer, but the menus that are in the way are always closed on the topmost layer.
-/

namespace MiniGui

open Function

structure MenuStack where
  nr : Int
  cli : Int
  nodes : Int → MenuNode
  max : Nat

namespace MenuStack

def closed (m : MenuStack) : MenuStack :=
  { m with nr := 0, cli := -1 }

@[simp]
theorem closed_closed (m : MenuStack) : m.closed.closed = m.closed := by
  rfl

def push (m : MenuStack) (cli : Int) (node : MenuNode) : MenuStack :=
  {
    m with
    nodes := Function.update m.nodes m.nr node
    cli := if m.cli = -1 then cli else m.cli
    nr := m.nr + 1
  }

def pop (m : MenuStack) : MenuStack :=
  { m with nr := m.nr - 1, cli := if m.nr - 1 = 0 then -1 else m.cli }

structure Owned (m : MenuStack) (pushed : Int → Option (Int × Rect)) : Prop where
  nr_nonneg : 0 ≤ m.nr
  cli_ge : -1 ≤ m.cli
  idle : m.nr = 0 ↔ m.cli = -1
  owner : ∀ i, 0 ≤ i → i < m.nr → pushed i = some (m.cli, (m.nodes i).rc)

variable {m : MenuStack} {pushed : Int → Option (Int × Rect)} {cli : Int}

theorem Owned.closed : m.closed.Owned pushed := by
  unfold MenuStack.closed
  constructor <;> grind

variable {node : MenuNode}

theorem cli_push (hm : m.cli = -1 ∨ m.cli = cli) : (m.push cli node).cli = cli := by
  unfold MenuStack.push
  grind

theorem Owned.push (h : m.Owned pushed) (hcli : 0 ≤ cli) (hm : m.cli = -1 ∨ m.cli = cli)
    : (m.push cli node).Owned (Function.update pushed m.nr (some (cli, node.rc))) := by
  have hnr := h.nr_nonneg
  have hafter : (m.push cli node).cli = cli := cli_push hm
  constructor
  . change 0 ≤ m.nr + 1
    omega
  . omega
  . rw [hafter]
    change m.nr + 1 = 0 ↔ _
    omega
  intro i hi hlt
  rw [hafter]
  change i < m.nr + 1 at hlt
  change _ = some (cli, (Function.update m.nodes m.nr node i).rc)
  by_cases hlast : i = m.nr
  . rw [hlast, update_self, update_self]
  rw [update_of_ne hlast, update_of_ne hlast, h.owner i hi (by omega)]
  have hidle := h.idle
  have hsame : m.cli = cli := by omega
  rw [hsame]

theorem Owned.pop (h : m.Owned pushed) (hpos : 0 < m.nr) : m.pop.Owned pushed := by
  have hidle := h.idle
  have hge := h.cli_ge
  unfold MenuStack.pop
  constructor
  . dsimp only
    omega
  . dsimp only
    split <;> omega
  . dsimp only
    split <;> omega
  intro i hi hlt
  dsimp only at hlt ⊢
  rw [if_neg (by omega)]
  exact h.owner i hi (by omega)

end MenuStack

namespace ZOrderInfo

def menuStack (zi : ZOrderInfo) : MenuStack :=
  { nr := zi.nrPopupmenus, cli := zi.cliTrackmenu, nodes := zi.menuNodes, max := zi.maxNrPopupmenus }

theorem offStore_menuStack : OffStore menuStack := by
  constructor <;> intros <;> rfl

end ZOrderInfo

namespace Server

open ZOrderInfo Reach

variable {κ : Type} [DecidableEq κ]

structure Tracked (κ : Type) where
  server : Server κ
  pushed : κ → Int → Option (Int × Rect)

namespace Tracked

def exec (env : DesktopEnv) (t : Tracked κ) (a : Action κ) : Tracked κ :=
  {
    server := t.server.exec env a
    pushed :=
      match a with
      | .request cli info =>
        let l := t.server.ziFromClient cli
        let i := (t.server.doZOrderOperation env cli info).1
        if info.idOp = ID_ZOOP_START_TRACKMENU ∧ i ≥ 0 then
          Function.update t.pushed l (Function.update (t.pushed l) i (some (cli, info.rc)))
        else
          t.pushed
      | _ => t.pushed
  }

def step (env : DesktopEnv) (t : Tracked κ) (a : Action κ) (t' : Tracked κ) : Prop :=
  t.exec env a = t'

def init (env : DesktopEnv) (sizes : Sizes κ) (topmost : κ) (clientLayer : Int → κ) : Tracked κ :=
  { server := Server.init env sizes topmost clientLayer, pushed := fun _ _ => none }

end Tracked

def Action.fromClient : Action κ → Prop
  | .request cli _ => 0 ≤ cli
  | _ => True

def OwnMenus (s : Server κ) : Action κ → Prop
  | .request cli info =>
    let l := s.ziFromClient cli
    let zi := s.layers l
    info.idOp = ID_ZOOP_START_TRACKMENU →
      l = s.topmost ∨ zi.cliTrackmenu < 0 ∨ zi.cliTrackmenu = cli ∨ zi.nrPopupmenus = zi.maxNrPopupmenus
  | .setTopmost l => l = s.topmost ∨ (s.layers s.topmost).cliTrackmenu ≠ 0
  | _ => True

structure MenusOwned (env : DesktopEnv) (t : Tracked κ) : Prop where
  idle : ∀ l, (t.server.layers l).nrPopupmenus = 0 ↔ (t.server.layers l).cliTrackmenu = -1
  owner : ∀ l i, 0 ≤ i → i < (t.server.layers l).nrPopupmenus →
    t.pushed l i = some ((t.server.layers l).cliTrackmenu, ((t.server.layers l).menuNodes i).rc)
  pop : ∀ l i cli rc, 0 ≤ i → i < (t.server.layers l).nrPopupmenus → t.pushed l i = some (cli, rc) →
    (∀ j rc', i < j → j < (t.server.layers l).nrPopupmenus → t.pushed l j ≠ some (cli, rc')) →
    (t.server.srvEndTrackPopupMenu env cli i).1 = 0

variable {zi : ZOrderInfo} {t : Tracked κ}

section Kept

variable {s s' : Server κ} {env : DesktopEnv}

structure MenusKept (s s' : Server κ) : Prop where
  topmost : s'.topmost = s.topmost
  clientLayer : s'.clientLayer = s.clientLayer
  menus : ∀ l, (s'.layers l).menuStack = (s.layers l).menuStack
    ∨ (s'.layers l).menuStack = (s.layers l).menuStack.closed

omit [DecidableEq κ] in
theorem MenusKept.refl (s : Server κ) : MenusKept s s :=
  ⟨rfl, rfl, fun _ => .inl rfl⟩

variable {s0 : Server κ}

theorem MenusKept.update {l : κ} (h : MenusKept s0 s) (hupdates : Updates s s' l zi)
    (hzi : zi.menuStack = (s.layers l).menuStack ∨ zi.menuStack = (s.layers l).menuStack.closed)
    : MenusKept s0 s' := by
  constructor
  . rw [hupdates.topmost, h.topmost]
  . rw [hupdates.clientLayer, h.clientLayer]
  intro l'
  rw [hupdates.layers, update_apply]
  split
  . next hl =>
    rw [hl]
    rcases hzi with hsame | hclosed
    . rw [hsame]
      exact h.menus l
    right
    rw [hclosed]
    rcases h.menus l with hsame | hclosed
    . rw [hsame]
    . rw [hclosed, MenuStack.closed_closed]
  . exact h.menus l'

theorem layerClosed_menusKept : LayerClosed False (MenusKept s0) := by
  intro s s' l zi hstep hupdates h
  apply h.update hupdates
  rcases hstep.offStore offStore_menuStack with hsame | hclosed | ⟨hfalse, _⟩
  . exact .inl hsame
  . exact .inr hclosed
  . exact hfalse.elim

theorem kept_menusKept : KeptActive False (MenusKept s0) := by
  apply layerClosed_menusKept.keptActive
  intro s s' l idx hupdates h
  exact h.update hupdates (.inl rfl)

end Kept

section Invariant

variable {s s' : Server κ} {pushed : κ → Int → Option (Int × Rect)} {env : DesktopEnv} {l : κ}

structure MenuInv (s : Server κ) (pushed : κ → Int → Option (Int × Rect)) : Prop where
  owned : ∀ l, (s.layers l).menuStack.Owned (pushed l)
  home : ∀ l, 0 ≤ (s.layers l).cliTrackmenu → s.ziFromClient (s.layers l).cliTrackmenu = l

theorem MenuInv.kept (h : MenuInv s pushed) (hkept : MenusKept s s') : MenuInv s' pushed := by
  have hfrom : ∀ cli, s'.ziFromClient cli = s.ziFromClient cli := by
    intro cli
    unfold ziFromClient
    rw [hkept.topmost, hkept.clientLayer]
  constructor
  . intro l
    rcases hkept.menus l with hsame | hclosed
    . rw [hsame]
      exact h.owned l
    . rw [hclosed]
      exact MenuStack.Owned.closed
  intro l
  rcases hkept.menus l with hsame | hclosed
  . have hcli : (s'.layers l).cliTrackmenu = (s.layers l).cliTrackmenu := congrArg MenuStack.cli hsame
    rw [hcli, hfrom]
    exact h.home l
  have hcli : (s'.layers l).cliTrackmenu = -1 := congrArg MenuStack.cli hclosed
  rw [hcli]
  intro hneg
  omega

theorem MenuInv.update {owners : Int → Option (Int × Rect)} (h : MenuInv s pushed)
    (hupdates : Updates s s' l zi) (howned : zi.menuStack.Owned owners)
    (hhome : 0 ≤ zi.cliTrackmenu → s.ziFromClient zi.cliTrackmenu = l)
    : MenuInv s' (Function.update pushed l owners) := by
  have hfrom : ∀ cli, s'.ziFromClient cli = s.ziFromClient cli := by
    intro cli
    unfold ziFromClient
    rw [hupdates.topmost, hupdates.clientLayer]
  constructor
  . intro l'
    rw [hupdates.layers]
    by_cases hl : l' = l
    . rw [hl, update_self, update_self]
      exact howned
    . rw [update_of_ne hl, update_of_ne hl]
      exact h.owned l'
  intro l'
  rw [hupdates.layers, hfrom]
  by_cases hl : l' = l
  . rw [hl, update_self]
    exact hhome
  . rw [update_of_ne hl]
    exact h.home l'

theorem MenuInv.menusOwned (h : MenuInv t.server t.pushed) : MenusOwned env t := by
  constructor
  . intro l
    exact (h.owned l).idle
  . intro l
    exact (h.owned l).owner
  intro l i cli rc hi hlt hpushed hlast
  have howner := (h.owned l).owner i hi hlt
  have hcli : (t.server.layers l).cliTrackmenu = cli := by
    rw [hpushed, Option.some.injEq, Prod.mk.injEq] at howner
    exact howner.1.symm
  have hidle := (h.owned l).idle
  have hge := (h.owned l).cli_ge
  change (t.server.layers l).nrPopupmenus = 0 ↔ (t.server.layers l).cliTrackmenu = -1 at hidle
  change -1 ≤ (t.server.layers l).cliTrackmenu at hge
  have hhome := h.home l (by omega)
  have hnr : (t.server.layers l).nrPopupmenus = i + 1 := by
    by_contra hne
    have hnext := (h.owned l).owner (i + 1) (by omega) (by change _ < (t.server.layers l).nrPopupmenus; omega)
    apply hlast (i + 1) _ (by omega) (by omega)
    rw [hnext]
    change some ((t.server.layers l).cliTrackmenu, _) = _
    rw [hcli]
  rw [hcli] at hhome
  unfold srvEndTrackPopupMenu
  rw [hhome]
  rw [if_neg (by omega)]

end Invariant

section Handlers

variable {s s' : Server κ} {pushed : κ → Int → Option (Int × Rect)} (env : DesktopEnv) {l : κ} {cli : Int} {rc : Rect}
  {ptmi : Hwnd}

theorem menusKept_srvForceCloseMenu : MenusKept s (s.srvForceCloseMenu env 0) :=
  kept_menusKept.srvForceCloseMenu env 0 (MenusKept.refl s)

theorem menuStack_srvForceCloseMenu (hcli : 0 ≤ (s.layers s.topmost).cliTrackmenu)
    (hnr : (s.layers s.topmost).nrPopupmenus ≠ 0)
    : ((s.srvForceCloseMenu env 0).layers s.topmost).menuStack = (s.layers s.topmost).menuStack.closed := by
  have hfrom : s.ziFromClient 0 = s.topmost := rfl
  unfold srvForceCloseMenu
  rw [hfrom]
  extract_lets l zi s1
  have hopen : ¬(zi.cliTrackmenu < 0 ∨ zi.nrPopupmenus = 0) := by
    change ¬((s.layers s.topmost).cliTrackmenu < 0 ∨ (s.layers s.topmost).nrPopupmenus = 0)
    omega
  rw [if_neg hopen]
  have hclose : (s1.layers s.topmost).menuStack = (s.layers s.topmost).menuStack.closed := by
    unfold s1
    rw [updates_locked.layers, update_self]
    apply @ZOrderInfo.OffStore.eq_of_core (s.layers s.topmost).closeMenus _ _ _ offStore_menuStack
    apply Work.core_closeMenusLocked
    intro slot w
    simp
  rw [← hclose]
  rw [updates_onLayer.layers, update_self, Work.zi_output]
  apply offStore_menuStack.eq_of_core
  apply Work.core_updateDirty

def closeOthers (s : Server κ) (cli : Int) : Server κ :=
  let zi := s.layers (s.ziFromClient cli)
  if zi.cliTrackmenu ≥ 0 ∧ zi.cliTrackmenu ≠ cli then s.srvForceCloseMenu env 0 else s

theorem menusKept_closeOthers : MenusKept s (s.closeOthers env cli) :=
  kept_menusKept.closeMenuIf env 0 (MenusKept.refl s)

theorem layers_closeOthers (hl : s.ziFromClient cli ≠ s.topmost)
    : (s.closeOthers env cli).layers (s.ziFromClient cli) = s.layers (s.ziFromClient cli) := by
  unfold closeOthers
  dsimp only
  split
  . exact layers_srvForceCloseMenu_of_ne env hl
  . rfl

theorem cli_closeOthers (h : MenuInv s pushed) (hl : s.ziFromClient cli = s.topmost)
    : ((s.closeOthers env cli).layers (s.ziFromClient cli)).cliTrackmenu = -1
        ∨ ((s.closeOthers env cli).layers (s.ziFromClient cli)).cliTrackmenu = cli := by
  have hidle : (s.layers s.topmost).nrPopupmenus = 0 ↔ (s.layers s.topmost).cliTrackmenu = -1 :=
    (h.owned s.topmost).idle
  have hge : -1 ≤ (s.layers s.topmost).cliTrackmenu := (h.owned s.topmost).cli_ge
  unfold closeOthers
  rw [hl]
  dsimp only
  split
  . next hother =>
    left
    have hstack := menuStack_srvForceCloseMenu env hother.1 (by omega)
    exact congrArg MenuStack.cli hstack
  . next hother => omega

theorem srvStartTrackPopupMenu_eq : s.srvStartTrackPopupMenu env cli rc ptmi
        =
      let s1 := s.closeOthers env cli
      let zi := s1.layers (s.ziFromClient cli)
      if zi.nrPopupmenus = zi.maxNrPopupmenus then
        (-1, s1)
      else
        (zi.nrPopupmenus, s1.locked (s.ziFromClient cli) (Work.startMenuLocked env.rcScr cli rc ptmi)) := by
  rfl

theorem menuStack_startMenuLocked {w : Work}
    : (w.startMenuLocked env.rcScr cli rc ptmi).zi.menuStack = w.zi.menuStack.push cli { rc, hwnd := ptmi } := by
  rw [offStore_menuStack.eq_of_core Work.core_startMenuLocked]
  rfl

theorem MenuInv.srvStartTrackPopupMenu (h : MenuInv s pushed) (hcli : 0 ≤ cli)
    (hok : s.ziFromClient cli = s.topmost ∨ (s.layers (s.ziFromClient cli)).cliTrackmenu < 0
      ∨ (s.layers (s.ziFromClient cli)).cliTrackmenu = cli
      ∨ (s.layers (s.ziFromClient cli)).nrPopupmenus = (s.layers (s.ziFromClient cli)).maxNrPopupmenus)
    : let r := s.srvStartTrackPopupMenu env cli rc ptmi
      let l := s.ziFromClient cli
      MenuInv r.2
        (if r.1 ≥ 0 then Function.update pushed l (Function.update (pushed l) r.1 (some (cli, rc))) else pushed) := by
  intro r l
  have hkept : MenusKept s (s.closeOthers env cli) := s.menusKept_closeOthers env
  have hinv := h.kept hkept
  have hr : r = s.srvStartTrackPopupMenu env cli rc ptmi := rfl
  rw [srvStartTrackPopupMenu_eq] at hr
  extract_lets s1 zi at hr
  have hnr : 0 ≤ zi.nrPopupmenus := (hinv.owned l).nr_nonneg
  have hge : -1 ≤ (s.layers l).cliTrackmenu := (h.owned l).cli_ge
  by_cases hfull : zi.nrPopupmenus = zi.maxNrPopupmenus
  . rw [if_pos hfull] at hr
    rw [hr, if_neg (c := (-1 : Int) ≥ 0) (by decide)]
    exact hinv
  rw [if_neg hfull] at hr
  have hfrom : s1.ziFromClient cli = l := by
    unfold ziFromClient
    rw [hkept.topmost, hkept.clientLayer]
    rfl
  have hown : zi.cliTrackmenu = -1 ∨ zi.cliTrackmenu = cli := by
    by_cases hl : s.ziFromClient cli = s.topmost
    . exact cli_closeOthers env h hl
    have hzi : zi = s.layers l := layers_closeOthers env hl
    rw [hzi] at hfull ⊢
    rcases hok with htop | hneg | heq | hmax
    . exact absurd htop hl
    . left
      change (s.layers l).cliTrackmenu < 0 at hneg
      omega
    . exact .inr heq
    . exact absurd hmax hfull
  rw [hr, if_pos hnr]
  apply hinv.update updates_locked
  . rw [menuStack_startMenuLocked]
    exact (hinv.owned l).push hcli hown
  intro _
  have hafter := congrArg MenuStack.cli (@menuStack_startMenuLocked env cli rc ptmi (s1.work l))
  rw [MenuStack.cli_push hown] at hafter
  change ((s1.work l).startMenuLocked env.rcScr cli rc ptmi).zi.cliTrackmenu = cli at hafter
  rw [hafter]
  exact hfrom

theorem MenuInv.srvEndTrackPopupMenu (h : MenuInv s pushed) (hcli : 0 ≤ cli) (idx : Int)
    : MenuInv (s.srvEndTrackPopupMenu env cli idx).2 pushed := by
  unfold Server.srvEndTrackPopupMenu
  extract_lets l zi rc s1
  have howned : zi.menuStack.Owned (pushed l) := h.owned l
  have hnr : 0 ≤ zi.nrPopupmenus := howned.nr_nonneg
  have hidle : zi.nrPopupmenus = 0 ↔ zi.cliTrackmenu = -1 := howned.idle
  split
  . exact h
  rename_i hmine
  have hpop : (s1.layers l).menuStack = zi.menuStack.pop := by
    unfold s1
    rw [updates_locked.layers, update_self, offStore_menuStack.eq_of_core Work.core_endMenuLocked]
    rfl
  have h1 : MenuInv s1 (Function.update pushed l (pushed l)) := by
    apply h.update updates_locked
    . have hlayer : s1.layers l = (Work.endMenuLocked env.rcScr rc (s.work l)).zi := by
        unfold s1
        rw [updates_locked.layers, update_self]
      rw [← hlayer, hpop]
      apply howned.pop
      change 0 < zi.nrPopupmenus
      omega
    have hlayer : s1.layers l = (Work.endMenuLocked env.rcScr rc (s.work l)).zi := by
      unfold s1
      rw [updates_locked.layers, update_self]
    rw [← hlayer]
    have hafter : (s1.layers l).cliTrackmenu = if zi.nrPopupmenus - 1 = 0 then -1 else zi.cliTrackmenu :=
      congrArg MenuStack.cli hpop
    rw [hafter]
    split
    . intro hneg
      omega
    . intro _
      have hcli' : zi.cliTrackmenu = cli := by omega
      rw [hcli']
  rw [update_eq_self] at h1
  apply h1.kept
  dsimp only
  apply (MenusKept.refl s1).update updates_onLayer
  left
  rw [offStore_menuStack.eq_of_core Work.core_updateDirty]
  rfl

theorem menusKept_setTopmostLayer (hl : l ≠ s.topmost)
    : MenusKept { s with topmost := l } (s.setTopmostLayer env l) := by
  unfold Server.setTopmostLayer doChangeTopmostLayer
  rw [if_neg hl]
  apply ({ s with topmost := l }.menusKept_srvForceCloseMenu env).update updates_locked
  left
  apply offStore_menuStack.takeGlobals

theorem MenuInv.setTopmostLayer (h : MenuInv s pushed) (hok : OwnMenus s (.setTopmost l))
    : MenuInv (s.setTopmostLayer env l) pushed := by
  by_cases hl : l = s.topmost
  . unfold Server.setTopmostLayer
    rw [if_pos hl]
    exact h
  have hswitch : MenuInv { s with topmost := l } pushed := by
    refine ⟨h.owned, ?_⟩
    intro l' hcli
    have hhome := h.home l' hcli
    have hpos : (s.layers l').cliTrackmenu > 0 := by
      by_contra hle
      have hzero : (s.layers l').cliTrackmenu = 0 := by
        change 0 ≤ (s.layers l').cliTrackmenu at hcli
        omega
      rw [hzero] at hhome
      change s.topmost = l' at hhome
      rcases hok with heq | hne
      . exact hl heq
      . rw [hhome] at hne
        exact hne hzero
    unfold ziFromClient at hhome ⊢
    rw [if_pos hpos] at hhome
    rw [if_pos hpos]
    exact hhome
  exact hswitch.kept (menusKept_setTopmostLayer env hl)

variable {info : ZOrderOpInfo}

theorem doZOrderOperation_start (hid : info.idOp = ID_ZOOP_START_TRACKMENU)
    : s.doZOrderOperation env cli info = s.srvStartTrackPopupMenu env cli info.rc info.hwnd := by
  unfold doZOrderOperation
  rw [hid]
  simp [ID_ZOOP_ALLOC, ID_ZOOP_FREE, ID_ZOOP_MOVE2TOP, ID_ZOOP_SHOW, ID_ZOOP_HIDE, ID_ZOOP_MOVEWIN, ID_ZOOP_SETACTIVE,
    ID_ZOOP_START_TRACKMENU]

theorem doZOrderOperation_end (hid : info.idOp = ID_ZOOP_END_TRACKMENU)
    : s.doZOrderOperation env cli info = s.srvEndTrackPopupMenu env cli info.idxZnode := by
  unfold doZOrderOperation
  rw [hid]
  simp [ID_ZOOP_ALLOC, ID_ZOOP_FREE, ID_ZOOP_MOVE2TOP, ID_ZOOP_SHOW, ID_ZOOP_HIDE, ID_ZOOP_MOVEWIN, ID_ZOOP_SETACTIVE,
    ID_ZOOP_START_TRACKMENU, ID_ZOOP_END_TRACKMENU]

theorem menusKept_doZOrderOperation (hstart : info.idOp ≠ ID_ZOOP_START_TRACKMENU)
    (hend : info.idOp ≠ ID_ZOOP_END_TRACKMENU)
    : MenusKept s (s.doZOrderOperation env cli info).2 := by
  have hrefl := MenusKept.refl s
  apply kept_menusKept.doZOrderOperation env cli info _ _ _ (layerClosed_menusKept.startDrag _ _ _ _ _ hrefl)
    (layerClosed_menusKept.cancelDrag _ _ hrefl) hrefl
  . rintro (hid | hid)
    . exact hstart hid
    . exact hend hid
  . intro _
    exact kept_menusKept.srvFreeZOrderNode env cli info.idxZnode hrefl
  . intro _
    exact kept_menusKept.srvSetActiveWindow env cli info.idxZnode hrefl

theorem MenuInv.exec {t : Tracked κ} {a : Action κ} (h : MenuInv t.server t.pushed) (ha : a.fromClient)
    (hok : OwnMenus t.server a) : MenuInv (t.exec env a).server (t.exec env a).pushed := by
  have hrefl := MenusKept.refl t.server
  cases a with
  | request cli info =>
    by_cases hstart : info.idOp = ID_ZOOP_START_TRACKMENU
    . have h1 := @MenuInv.srvStartTrackPopupMenu _ _ _ _ env _ info.rc info.hwnd h ha (hok hstart)
      unfold Tracked.exec Server.exec
      dsimp only
      rw [doZOrderOperation_start env hstart]
      simp only [hstart, true_and]
      exact h1
    have hpushed : (t.exec env (.request cli info)).pushed = t.pushed := by
      unfold Tracked.exec
      simp [hstart]
    rw [hpushed]
    by_cases hend : info.idOp = ID_ZOOP_END_TRACKMENU
    . unfold Tracked.exec Server.exec
      dsimp only
      rw [doZOrderOperation_end env hend]
      exact h.srvEndTrackPopupMenu env ha info.idxZnode
    . exact h.kept (t.server.menusKept_doZOrderOperation env hstart hend)
  | removeClient cli => exact h.kept (kept_menusKept.removeAllZNodesOfClient env cli hrefl)
  | setTopmost l => exact h.setTopmostLayer env hok
  | input msg x y => exact h.kept (layerClosed_menusKept.drag msg x y hrefl)
  | checkDirty cli => exact h.kept (kept_menusKept.checkDirtyZNode env cli hrefl)
  | setIme hwnd => exact h.kept (layerClosed_menusKept.same (s := t.server) rfl rfl rfl hrefl)

theorem srvStartTrackPopupMenu_aside (hl : s.ziFromClient cli ≠ s.topmost)
    (hroom : (s.layers (s.ziFromClient cli)).nrPopupmenus ≠ (s.layers (s.ziFromClient cli)).maxNrPopupmenus)
    : let r := s.srvStartTrackPopupMenu env cli rc ptmi
      let zi := s.layers (s.ziFromClient cli)
      r.1 = zi.nrPopupmenus
        ∧ (r.2.layers (s.ziFromClient cli)).menuStack = zi.menuStack.push cli { rc, hwnd := ptmi } := by
  have hsame := layers_closeOthers env hl
  intro r zi
  have hr : r = s.srvStartTrackPopupMenu env cli rc ptmi := rfl
  rw [srvStartTrackPopupMenu_eq] at hr
  dsimp only at hr
  rw [hsame, if_neg hroom] at hr
  rw [hr]
  refine ⟨rfl, ?_⟩
  have hwork : ((s.closeOthers env cli).work (s.ziFromClient cli)).zi = zi := hsame
  rw [updates_locked.layers, update_self, menuStack_startMenuLocked, hwork]

theorem not_menusOwned_start (h : MenuInv t.server t.pushed)
    (hother : ¬OwnMenus t.server (.request cli info))
    : ¬MenusOwned env (t.exec env (.request cli info)) := by
  intro hafter
  simp only [OwnMenus, Classical.not_imp, not_or] at hother
  rcases hother with ⟨hstart, hl, hcli, hne, hroom⟩
  have haside := @srvStartTrackPopupMenu_aside _ _ _ env _ info.rc info.hwnd hl hroom
  extract_lets r zi at haside
  have hnr : 0 ≤ zi.nrPopupmenus := (h.owned (t.server.ziFromClient cli)).nr_nonneg
  have hserver : (t.exec env (.request cli info)).server = r.2 := by
    unfold Tracked.exec Server.exec
    dsimp only
    rw [doZOrderOperation_start env hstart]
  have hpushed : (t.exec env (.request cli info)).pushed (t.server.ziFromClient cli) zi.nrPopupmenus
      = some (cli, info.rc) := by
    unfold Tracked.exec
    dsimp only
    rw [doZOrderOperation_start env hstart, haside.1, if_pos ⟨hstart, hnr⟩, update_self,
      update_self]
  have howner := hafter.owner (t.server.ziFromClient cli) zi.nrPopupmenus hnr
  rw [hserver, hpushed] at howner
  have hnr' : (r.2.layers (t.server.ziFromClient cli)).nrPopupmenus = zi.nrPopupmenus + 1 :=
    congrArg MenuStack.nr haside.2
  have hcli' : (r.2.layers (t.server.ziFromClient cli)).cliTrackmenu
      = if zi.cliTrackmenu = -1 then cli else zi.cliTrackmenu :=
    congrArg MenuStack.cli haside.2
  have hzi : zi.cliTrackmenu ≠ -1 := by
    change ¬zi.cliTrackmenu < 0 at hcli
    omega
  rw [if_neg hzi] at hcli'
  have howned := howner (by omega)
  rw [Option.some.injEq, Prod.mk.injEq, hcli'] at howned
  exact hne howned.1.symm

theorem not_menusOwned_switch (h : MenuInv t.server t.pushed)
    (hleft : ¬OwnMenus t.server (.setTopmost l))
    : ¬MenusOwned env (t.exec env (.setTopmost l)) := by
  intro hafter
  simp only [OwnMenus, not_or, not_not] at hleft
  rcases hleft with ⟨hl, hzero⟩
  have hserver : (t.exec env (.setTopmost l)).server = t.server.setTopmostLayer env l := rfl
  have hpushed : (t.exec env (.setTopmost l)).pushed = t.pushed := rfl
  have hidle := (h.owned t.server.topmost).idle
  have hnr := (h.owned t.server.topmost).nr_nonneg
  change (t.server.layers t.server.topmost).nrPopupmenus = 0 ↔ (t.server.layers t.server.topmost).cliTrackmenu = -1
    at hidle
  change 0 ≤ (t.server.layers t.server.topmost).nrPopupmenus at hnr
  have hold : (t.server.setTopmostLayer env l).layers t.server.topmost = t.server.layers t.server.topmost :=
    layers_setTopmostLayer_of_ne env (Ne.symm hl)
  have hkept := menusKept_setTopmostLayer env hl
  have hnew : (t.server.setTopmostLayer env l).topmost = l := hkept.topmost
  have hclosed : ((t.server.setTopmostLayer env l).layers l).cliTrackmenu ≠ 0 := by
    rcases hkept.menus l with hsame | hclosed
    . have hcli : ((t.server.setTopmostLayer env l).layers l).cliTrackmenu = (t.server.layers l).cliTrackmenu :=
        congrArg MenuStack.cli hsame
      rw [hcli]
      intro hmine
      have hhome := h.home l (by omega)
      rw [hmine] at hhome
      exact hl hhome.symm
    . have hcli : ((t.server.setTopmostLayer env l).layers l).cliTrackmenu = -1 := congrArg MenuStack.cli hclosed
      omega
  have hlast := (h.owned t.server.topmost).owner ((t.server.layers t.server.topmost).nrPopupmenus - 1) (by omega)
    (by change _ < (t.server.layers t.server.topmost).nrPopupmenus; omega)
  have hpop := hafter.pop t.server.topmost ((t.server.layers t.server.topmost).nrPopupmenus - 1) 0 _ (by omega)
    (by rw [hserver, hold]; omega)
    (by rw [hpushed, hlast]; change some ((t.server.layers t.server.topmost).cliTrackmenu, _) = _; rw [hzero])
    (by rw [hserver, hold]; omega)
  have hfrom : (t.server.setTopmostLayer env l).ziFromClient 0 = (t.server.setTopmostLayer env l).topmost := rfl
  rw [hserver] at hpop
  unfold srvEndTrackPopupMenu at hpop
  rw [hfrom, hnew] at hpop
  rw [if_pos (.inl hclosed)] at hpop
  simp at hpop

end Handlers

section Runs

variable (env : DesktopEnv) (sizes : Sizes κ) (topmost : κ) (clientLayer : Int → κ)

omit [DecidableEq κ] in
theorem MenuInv.init : MenuInv (Tracked.init env sizes topmost clientLayer).server
        (Tracked.init env sizes topmost clientLayer).pushed := by
  constructor
  . intro l
    constructor
    . exact le_refl _
    . exact le_refl _
    . constructor
      . intro _
        rfl
      . intro _
        rfl
    . intro i hi hlt
      change i < 0 at hlt
      omega
  . intro l hcli
    change (0 : Int) ≤ -1 at hcli
    omega

/--
As long as all menus are pushed and all changes of the topmost layer are made as `OwnMenus` says, everybody has his
own menus, and the first action that is not breaks that.
-/
theorem menu_ownership {t : Tracked κ}
    (h : Reachable (Tracked.step env) (fun t a => a.fromClient ∧ OwnMenus t.server a)
      (Tracked.init env sizes topmost clientLayer) t)
    : MenusOwned env t
        ∧ ∀ a : Action κ, a.fromClient → (MenusOwned env (t.exec env a) ↔ OwnMenus t.server a) := by
  have hinv : MenuInv t.server t.pushed := by
    apply @Reachable.invariant _ _ _ _ _ (fun t => MenuInv t.server t.pushed) _ _ _ h
    . exact MenuInv.init env sizes topmost clientLayer
    . intro t a t' ht ha hstep
      rw [← hstep]
      exact ht.exec env ha.1 ha.2
  refine ⟨hinv.menusOwned, ?_⟩
  intro a ha
  constructor
  . intro howned
    by_contra hbad
    cases a with
    | request cli info => exact not_menusOwned_start env hinv hbad howned
    | setTopmost l => exact not_menusOwned_switch env hinv hbad howned
    | removeClient | input | checkDirty | setIme => exact hbad trivial
  . intro hok
    exact (hinv.exec env ha hok).menusOwned

def menuDesktop : Tracked Bool :=
  Tracked.init smallEnv smallSizes false (fun _ => true)

def startMenuOp : ZOrderOpInfo :=
  { op ID_ZOOP_START_TRACKMENU 0 with rc := { left := 10, top := 10, right := 30, bottom := 60 } }

theorem menu_ownership_one : let t := menuDesktop.exec smallEnv (.request 1 startMenuOp)
      MenusOwned smallEnv t
        ∧ (MenusOwned smallEnv (t.exec smallEnv (.request 2 startMenuOp))
          ↔ OwnMenus t.server (.request 2 startMenuOp)) := by
  intro t
  have hreach : Reachable (Tracked.step smallEnv) (fun t a => a.fromClient ∧ OwnMenus t.server a) menuDesktop t := by
    apply Reachable.step Reachable.init (a := .request 1 startMenuOp) _ rfl
    refine ⟨by unfold Action.fromClient; decide, ?_⟩
    intro _
    right
    left
    decide
  have howned := menu_ownership smallEnv smallSizes false (fun _ => true) hreach
  exact ⟨howned.1, howned.2 (.request 2 startMenuOp) (by unfold Action.fromClient; decide)⟩

theorem menu_ownership_two : ¬∀ actions : List (Action Bool), (∀ a ∈ actions, a.fromClient) →
        MenusOwned smallEnv (actions.foldl (Tracked.exec smallEnv) menuDesktop) := by
  intro h
  have howned := h [.request 1 startMenuOp, .request 2 startMenuOp] (by simp [Action.fromClient])
  have howner := howned.owner true 1 (by decide) (by decide +kernel)
  revert howner
  decide +kernel

end Runs

end Server

end MiniGui
