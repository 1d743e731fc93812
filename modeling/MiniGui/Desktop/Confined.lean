import MiniGui.Desktop.Requests

namespace MiniGui.Server

open Function Output

open Store ZOrderInfo Work

variable {κ : Type} [DecidableEq κ] {s : Server κ} {l l' : κ} {k idx cli : Int} {node : ZOrderNode}

def usesSlot (idOp : Int) : Prop :=
  idOp ∈ [ID_ZOOP_FREE, ID_ZOOP_MOVE2TOP, ID_ZOOP_SHOW, ID_ZOOP_HIDE, ID_ZOOP_MOVEWIN, ID_ZOOP_SETACTIVE,
    ID_ZOOP_ENABLEWINDOW, ID_ZOOP_STARTDRAG, ID_ZOOP_CANCELDRAG, ID_ZOOP_CHANGECAPTION]

instance (idOp : Int) : Decidable (usesSlot idOp) :=
  inferInstanceAs (Decidable (_ ∈ _))

structure Confined (env : DesktopEnv) (s : Server κ) (cli : Int) (info : ZOrderOpInfo) : Prop where
  outside : ∀ l k, ¬(s.layers l).hasSlot k → ∀ node,
    (s.poke l k node).doZOrderOperation env cli info
      = ((s.doZOrderOperation env cli info).1, (s.doZOrderOperation env cli info).2.poke l k node)
  rejected : usesSlot info.idOp → ¬(s.layers (s.ziFromClient cli)).hasSlot info.idxZnode →
    s.doZOrderOperation env cli info = (-1, s)

def RequestOk (s : Server κ) (cli : Int) (info : ZOrderOpInfo) : Prop :=
  let zi := s.layers (s.ziFromClient cli)
  let idx := info.idxZnode
  if info.idOp = ID_ZOOP_FREE then
    s.FreeOk cli idx
  else if info.idOp = ID_ZOOP_HIDE then
    zi.maxNrNodes < idx ∨ zi.hasSlot idx
  else if info.idOp = ID_ZOOP_SETACTIVE then
    zi.ActiveOk s.imeWnd idx
  else if info.idOp = ID_ZOOP_CHANGECAPTION then
    idx < zi.maxNrNodes
  else if info.idOp = ID_ZOOP_STARTDRAG then
    idx ≠ zi.maxNrNodes ∨ s.ddInfo.cli ≥ 0
  else if info.idOp = ID_ZOOP_CANCELDRAG then
    idx ≠ zi.maxNrNodes ∨ s.ddInfo.cli = -1 ∨ s.ddInfo.cli ≠ cli ∨ s.ddInfo.idxZnode ≠ idx
  else if usesSlot info.idOp then
    idx ≠ zi.maxNrNodes
  else
    True

section Cases

variable {info : ZOrderOpInfo}

omit [DecidableEq κ] in
theorem requestOk_free (hid : info.idOp = ID_ZOOP_FREE) : s.RequestOk cli info ↔ s.FreeOk cli info.idxZnode := by
  unfold RequestOk
  rw [if_pos hid]

omit [DecidableEq κ] in
theorem requestOk_hide (hid : info.idOp = ID_ZOOP_HIDE)
    : s.RequestOk cli info ↔ (s.layers (s.ziFromClient cli)).maxNrNodes < info.idxZnode
        ∨ (s.layers (s.ziFromClient cli)).hasSlot info.idxZnode := by
  unfold RequestOk
  rw [hid, if_neg (by decide), if_pos rfl]

omit [DecidableEq κ] in
theorem requestOk_setActive (hid : info.idOp = ID_ZOOP_SETACTIVE)
    : s.RequestOk cli info ↔ (s.layers (s.ziFromClient cli)).ActiveOk s.imeWnd info.idxZnode := by
  unfold RequestOk
  rw [hid, if_neg (by decide), if_neg (by decide), if_pos rfl]

omit [DecidableEq κ] in
theorem requestOk_changeCaption (hid : info.idOp = ID_ZOOP_CHANGECAPTION)
    : s.RequestOk cli info ↔ info.idxZnode < (s.layers (s.ziFromClient cli)).maxNrNodes := by
  unfold RequestOk
  rw [hid, if_neg (by decide), if_neg (by decide), if_neg (by decide), if_pos rfl]

omit [DecidableEq κ] in
theorem requestOk_startDrag (hid : info.idOp = ID_ZOOP_STARTDRAG)
    : s.RequestOk cli info ↔ info.idxZnode ≠ (s.layers (s.ziFromClient cli)).maxNrNodes ∨ s.ddInfo.cli ≥ 0 := by
  unfold RequestOk
  simp +decide only [hid, ↓reduceIte]

omit [DecidableEq κ] in
theorem requestOk_cancelDrag (hid : info.idOp = ID_ZOOP_CANCELDRAG)
    : s.RequestOk cli info ↔ info.idxZnode ≠ (s.layers (s.ziFromClient cli)).maxNrNodes
        ∨ s.ddInfo.cli = -1 ∨ s.ddInfo.cli ≠ cli ∨ s.ddInfo.idxZnode ≠ info.idxZnode := by
  unfold RequestOk
  simp +decide only [hid, ↓reduceIte]

omit [DecidableEq κ] in
theorem requestOk_other
    (hid : info.idOp ∈ [ID_ZOOP_MOVE2TOP, ID_ZOOP_SHOW, ID_ZOOP_MOVEWIN, ID_ZOOP_ENABLEWINDOW])
    : s.RequestOk cli info ↔ info.idxZnode ≠ (s.layers (s.ziFromClient cli)).maxNrNodes := by
  have hother : ∀ id ∈ [ID_ZOOP_MOVE2TOP, ID_ZOOP_SHOW, ID_ZOOP_MOVEWIN, ID_ZOOP_ENABLEWINDOW],
      id ≠ ID_ZOOP_FREE ∧ id ≠ ID_ZOOP_HIDE ∧ id ≠ ID_ZOOP_SETACTIVE ∧ id ≠ ID_ZOOP_CHANGECAPTION
        ∧ id ≠ ID_ZOOP_STARTDRAG ∧ id ≠ ID_ZOOP_CANCELDRAG ∧ usesSlot id := by
    decide
  rcases hother _ hid with ⟨h1, h2, h3, h4, h5, h6, huses⟩
  unfold RequestOk
  rw [if_neg h1, if_neg h2, if_neg h3, if_neg h4, if_neg h5, if_neg h6, if_pos huses]

variable (env : DesktopEnv)

theorem doZOrderOperation_poke (h : Outside s l k) (hok : s.RequestOk cli info)
    : (s.poke l k node).doZOrderOperation env cli info
        = ((s.doZOrderOperation env cli info).1, (s.doZOrderOperation env cli info).2.poke l k node) := by
  have hite : ∀ {c : Prop} [Decidable c] {a b a' b' : Int × Server κ},
      (c → a' = (a.1, a.2.poke l k node)) → b' = (b.1, b.2.poke l k node) →
        (if c then a' else b') = ((if c then a else b).1, (if c then a else b).2.poke l k node) := by
    intro c _ a b a' b' ha hb
    split
    . next hc => exact ha hc
    . exact hb
  unfold doZOrderOperation
  apply hite (fun _ => srvAllocZOrderNode_poke env h)
  apply hite (fun hid => srvFreeZOrderNode_poke env h ((requestOk_free hid).mp hok))
  apply hite (fun hid => srvMove2Top_poke env h ((requestOk_other (by rw [hid]; decide)).mp hok))
  apply hite (fun hid => srvShowWindow_poke env h ((requestOk_other (by rw [hid]; decide)).mp hok))
  apply hite (fun hid => srvHideWindow_poke env h ((requestOk_hide hid).mp hok))
  apply hite (fun hid => srvMoveWindow_poke env h ((requestOk_other (by rw [hid]; decide)).mp hok))
  apply hite (fun hid => srvSetActiveWindow_poke env h ((requestOk_setActive hid).mp hok))
  apply hite (fun _ => srvStartTrackPopupMenu_poke env h)
  apply hite (fun _ => srvEndTrackPopupMenu_poke env h)
  apply hite
  . intro _
    rw [srvForceCloseMenu_poke env h]
  apply hite (fun hid => srvEnableWindow_poke h ((requestOk_other (by rw [hid]; decide)).mp hok))
  apply hite (fun hid => srvStartDragWindow_poke h ((requestOk_startDrag hid).mp hok))
  apply hite (fun _ => srvCancelDragWindow_poke)
  apply hite
  . intro hid
    rw [srvChangeCaption_poke env h ((requestOk_changeCaption hid).mp hok)]
  . rfl

theorem rejected_of_requestOk (hok : s.RequestOk cli info) (huses : usesSlot info.idOp)
    (hslot : ¬(s.layers (s.ziFromClient cli)).hasSlot info.idxZnode)
    : s.doZOrderOperation env cli info = (-1, s) := by
  have hite : ∀ {c : Prop} [Decidable c] {a b : Int × Server κ},
      (c → a = (-1, s)) → b = (-1, s) → (if c then a else b) = (-1, s) := by
    intro c _ a b ha hb
    split
    . next hc => exact ha hc
    . exact hb
  have hout : info.idxZnode < 0 ∨ (s.layers (s.ziFromClient cli)).maxNrNodes ≤ info.idxZnode := by
    unfold hasSlot at hslot
    omega
  have hbad : info.idxZnode ≠ (s.layers (s.ziFromClient cli)).maxNrNodes →
      badIndex (s.layers (s.ziFromClient cli)) info.idxZnode := by
    intro hne
    unfold badIndex
    omega
  have hrange : info.idxZnode ≠ (s.layers (s.ziFromClient cli)).maxNrNodes →
      info.idxZnode > (s.layers (s.ziFromClient cli)).maxNrNodes ∨ info.idxZnode < 0 := by
    intro hne
    omega
  unfold doZOrderOperation
  apply hite
  . intro hid
    rw [hid] at huses
    exact absurd huses (by decide)
  apply hite
  . intro hid
    have hfree := (requestOk_free hid).mp hok
    have hbadFree : badIndex (s.layers (s.ziFromClient cli)) info.idxZnode := by
      rcases hfree with hle | hgt | hlt
      . exact .inr hle
      . exact .inl hgt
      . right
        have hlt := hlt.1
        omega
    unfold srvFreeZOrderNode
    rw [if_pos hbadFree]
  apply hite
  . intro hid
    unfold srvMove2Top
    rw [if_pos (hbad ((requestOk_other (by rw [hid]; decide)).mp hok))]
  apply hite
  . intro hid
    unfold srvShowWindow
    rw [if_pos (hbad ((requestOk_other (by rw [hid]; decide)).mp hok))]
  apply hite
  . intro hid
    have hgt := ((requestOk_hide hid).mp hok).resolve_right hslot
    unfold srvHideWindow
    rw [if_pos hgt]
  apply hite
  . intro hid
    have hne := (requestOk_other (by rw [hid]; decide)).mp hok
    unfold srvMoveWindow
    rw [if_pos (hrange hne)]
  apply hite
  . intro hid
    have hgt := ((requestOk_setActive hid).mp hok).resolve_right (fun hin => hslot hin.1)
    unfold srvSetActiveWindow
    rw [if_pos hgt]
  apply hite
  . intro hid
    rw [hid] at huses
    exact absurd huses (by decide)
  apply hite
  . intro hid
    rw [hid] at huses
    exact absurd huses (by decide)
  apply hite
  . intro hid
    rw [hid] at huses
    exact absurd huses (by decide)
  apply hite
  . intro hid
    have hne := (requestOk_other (by rw [hid]; decide)).mp hok
    unfold srvEnableWindow
    rw [if_pos (hrange hne)]
  apply hite
  . intro hid
    have hdrag := (requestOk_startDrag hid).mp hok
    unfold srvStartDragWindow
    dsimp only
    split
    . rfl
    . next hin => rw [if_pos (hdrag.resolve_left (fun hne => hin (hrange hne)))]
  apply hite
  . intro hid
    have hdrag := (requestOk_cancelDrag hid).mp hok
    unfold srvCancelDragWindow
    dsimp only
    split
    . rfl
    . next hin => rw [if_pos (hdrag.resolve_left (fun hne => hin (hrange hne)))]
  apply hite
  . intro hid
    have hlt := (requestOk_changeCaption hid).mp hok
    have hle : ¬info.idxZnode > 0 := by omega
    unfold srvChangeCaption
    dsimp only
    rw [if_neg hle]
  . rfl

theorem confined_of_requestOk (hstored : Stored s) (hok : s.RequestOk cli info) : s.Confined env cli info := by
  constructor
  . intro l k hk node
    exact doZOrderOperation_poke env ⟨hstored, hk⟩ hok
  . intro huses hslot
    exact rejected_of_requestOk env hok huses hslot

end Cases

section Observed

variable (env : DesktopEnv)

def handleFor (zi : ZOrderInfo) (cli znode : Int) : Hwnd :=
  if znode = 0 then
    0
  else if (zi.nodes znode).cli = cli then
    (zi.nodes znode).hwnd
  else
    HWND_OTHERPROC

structure Accepted (s : Server κ) (cli idx : Int) : Prop where
  le : idx ≤ (s.layers (s.ziFromClient cli)).maxNrNodes
  ime : s.imeWnd ≠ ((s.layers (s.ziFromClient cli)).nodes idx).mainWin
  tool : ((s.layers (s.ziFromClient cli)).nodes idx).has ZOF_TF_TOOLWIN = false

omit [DecidableEq κ] in
theorem SameWindows.core_node {s' : Server κ} (h : SameWindows s s') (l : κ) (a : Int)
    : ((s'.layers l).nodes a).core = ((s.layers l).nodes a).core := by
  rcases h.layers l with hsame | hsame
  . exact node_core hsame a
  . exact @node_core ((s.layers l).closeMenus) _ hsame a

omit [DecidableEq κ] in
theorem handleFor_sameWindows {s' : Server κ} (h : SameWindows s s') (l : κ) (a : Int)
    : handleFor (s'.layers l) cli a = handleFor (s.layers l) cli a := by
  have hcli : ((s'.layers l).nodes a).cli = ((s.layers l).nodes a).cli := by
    have hnode := congrArg ZOrderNode.cli (h.core_node l a)
    exact hnode
  have hhwnd : ((s'.layers l).nodes a).hwnd = ((s.layers l).nodes a).hwnd := by
    have hnode := congrArg ZOrderNode.hwnd (h.core_node l a)
    exact hnode
  unfold handleFor
  rw [hcli, hhwnd]

theorem visible_core (zi : ZOrderInfo) (a : Int) : (zi.core.nodes a).visible = (zi.nodes a).visible := by
  unfold ZOrderNode.visible ZOrderNode.has
  rw [show (zi.core.nodes a).flags = (zi.nodes a).core.flags from rfl, ZOrderNode.flags_core_and _ (by decide)]

theorem layers_posts {a m1 m2 m3 : Int} {p1 p2 p3 : Hwnd}
    : (s.onLayer l fun w => ((w.postMsg a m1 p1).postMsg a m2 p2).postMsg a m3 p3).layers = s.layers := by
  rw [updates_onLayer.layers, zi_postMsg, zi_postMsg, zi_postMsg]
  exact update_eq_self l s.layers

theorem layers_postsIf {c : Prop} [Decidable c] {a m1 m2 m3 : Int} {p1 p2 p3 : Hwnd}
    : (if c then s.onLayer l fun w => ((w.postMsg a m1 p1).postMsg a m2 p2).postMsg a m3 p3 else s).layers
        = s.layers := by
  split
  . exact layers_posts
  . rfl

theorem getLast_posts {a m1 m2 m3 : Int} {p1 p2 p3 : Hwnd}
    : (s.onLayer l fun w => ((w.postMsg a m1 p1).postMsg a m2 p2).postMsg a m3 p3).outputs.getLast?
        = some (l, post a ((s.layers l).nodes a).cli ((s.layers l).nodes a).mainWin m3 p3) := by
  have houtputs : (s.onLayer l fun w => ((w.postMsg a m1 p1).postMsg a m2 p2).postMsg a m3 p3).outputs
      = s.outputs ++ [
          (l, post a ((s.layers l).nodes a).cli ((s.layers l).nodes a).mainWin m1 p1),
          (l, post a ((s.layers l).nodes a).cli ((s.layers l).nodes a).mainWin m2 p2),
          (l, post a ((s.layers l).nodes a).cli ((s.layers l).nodes a).mainWin m3 p3)] := rfl
  rw [houtputs, List.getLast?_append]
  rfl

def activate (s : Server κ) (l : κ) (cli idx : Int) : Server κ :=
  let zi := s.layers l
  let oldActive := zi.activeWin
  let s := s.locked l fun w => { w with zi := { w.zi with activeWin := idx } }
  let s :=
    if oldActive ≠ 0 ∧ (zi.nodes idx).visible then
      s.onLayer l fun w =>
        ((w.postMsg oldActive MSG_NCACTIVATE 0).postMsg oldActive MSG_ACTIVE 0).postMsg oldActive MSG_KILLFOCUS
          (handleFor zi cli idx)
    else
      s
  if idx ≠ 0 then
    s.onLayer l fun w =>
      ((w.postMsg idx MSG_NCACTIVATE 1).postMsg idx MSG_ACTIVE 1).postMsg idx MSG_SETFOCUS (handleFor zi cli oldActive)
  else
    s

theorem nodes_activate
    : ((s.locked l fun w => { w with zi := { w.zi with activeWin := idx } }).layers l).nodes = (s.layers l).nodes := by
  rw [updates_locked.layers, update_self]
  rfl

theorem getLast_activate (hidx : idx ≠ 0) : (s.activate l cli idx).outputs.getLast?
        = some (l, post idx ((s.layers l).nodes idx).cli ((s.layers l).nodes idx).mainWin MSG_SETFOCUS
            (handleFor (s.layers l) cli (s.layers l).activeWin)) := by
  unfold activate
  rw [if_pos hidx, getLast_posts, layers_postsIf, nodes_activate]

theorem getLast_activate_zero (hactive : (s.layers l).activeWin ≠ 0)
    (hvisible : ((s.layers l).nodes 0).visible = true) : (s.activate l cli 0).outputs.getLast?
        = some (l, post (s.layers l).activeWin ((s.layers l).nodes (s.layers l).activeWin).cli
            ((s.layers l).nodes (s.layers l).activeWin).mainWin MSG_KILLFOCUS 0) := by
  unfold activate
  rw [if_neg (by decide), if_pos ⟨hactive, hvisible⟩, getLast_posts, nodes_activate]
  rfl

variable (h : s.Accepted cli idx)

include h

theorem srvSetActiveWindow_eq : let l := s.ziFromClient cli
      let s1 := if (s.layers l).cliTrackmenu ≥ 0 then s.srvForceCloseMenu env 0 else s
      s.srvSetActiveWindow env cli idx
        = ((handleFor (s1.layers l) cli (s1.layers l).activeWin : Int), s1.activate l cli idx) := by
  intro l s1
  have hle : ¬idx > (s.layers l).maxNrNodes := not_lt.mpr h.le
  have hplain : ¬(s.imeWnd = ((s.layers l).nodes idx).mainWin
      ∨ ((s.layers l).nodes idx).has ZOF_TF_TOOLWIN = true) := by
    rw [not_or, h.tool]
    exact ⟨h.ime, by decide⟩
  unfold srvSetActiveWindow
  rw [if_neg hle, if_neg hplain]
  rfl

theorem fst_srvSetActiveWindow : (s.srvSetActiveWindow env cli idx).1
        = handleFor (s.layers (s.ziFromClient cli)) cli (s.layers (s.ziFromClient cli)).activeWin := by
  have hsame := @sameWindows_closeMenuIf _ _ s 0 env ((s.layers (s.ziFromClient cli)).cliTrackmenu ≥ 0) _
  have hactive := activeWin_closeMenuIf env (c := (s.layers (s.ziFromClient cli)).cliTrackmenu ≥ 0) s (s.ziFromClient cli) 0
  rw [srvSetActiveWindow_eq env h]
  rw [hactive, handleFor_sameWindows hsame]

theorem getLast_srvSetActiveWindow (hidx : idx ≠ 0) : let l := s.ziFromClient cli
      let zi := s.layers l
      (s.srvSetActiveWindow env cli idx).2.outputs.getLast?
        = some (l, post idx (zi.nodes idx).cli (zi.nodes idx).mainWin MSG_SETFOCUS
            (handleFor zi cli zi.activeWin)) := by
  intro l zi
  have hsame := @sameWindows_closeMenuIf _ _ s 0 env (zi.cliTrackmenu ≥ 0) _
  have hactive := activeWin_closeMenuIf env (c := zi.cliTrackmenu ≥ 0) s l 0
  have hcli := congrArg ZOrderNode.cli (hsame.core_node l idx)
  have hmain := congrArg ZOrderNode.mainWin (hsame.core_node l idx)
  rw [srvSetActiveWindow_eq env h]
  rw [getLast_activate hidx, hactive, handleFor_sameWindows hsame]
  dsimp only [ZOrderNode.core] at hcli hmain
  rw [hcli, hmain]

theorem getLast_srvSetActiveWindow_zero (hidx : idx = 0)
    (hactive : (s.layers (s.ziFromClient cli)).activeWin ≠ 0)
    (hvisible : ((s.layers (s.ziFromClient cli)).nodes 0).visible = true)
    : let l := s.ziFromClient cli
      let zi := s.layers l
      (s.srvSetActiveWindow env cli idx).2.outputs.getLast?
        = some (l, post zi.activeWin (zi.nodes zi.activeWin).cli (zi.nodes zi.activeWin).mainWin MSG_KILLFOCUS 0) := by
  intro l zi
  have hsame := @sameWindows_closeMenuIf _ _ s 0 env (zi.cliTrackmenu ≥ 0) _
  have hwin := activeWin_closeMenuIf env (c := zi.cliTrackmenu ≥ 0) s l 0
  have hcli := congrArg ZOrderNode.cli (hsame.core_node l zi.activeWin)
  have hmain := congrArg ZOrderNode.mainWin (hsame.core_node l zi.activeWin)
  have hsee := hsame.field (q := fun zi => (zi.nodes 0).visible) (fun zi => visible_core zi 0) (fun _ => rfl) l
  rw [srvSetActiveWindow_eq env h, hidx]
  rw [getLast_activate_zero]
  . rw [hwin]
    dsimp only [ZOrderNode.core] at hcli hmain
    rw [hcli, hmain]
  . rw [hwin]
    exact hactive
  . rw [hsee]
    exact hvisible

end Observed

section Types

variable (env : DesktopEnv) {t : ZType}

theorem chainOf_closeMenuIf {c : Prop} [Decidable c] (htype : chainOf ((s.layers l).nodes idx).type = some t)
    : chainOf (((if c then s.srvForceCloseMenu env 0 else s).layers l).nodes idx).type = some t := by
  have hstore := congrArg (fun st => chainOf (st.type idx)) (store_closeMenuIf (c := c) (s := s) (l := l) env 0)
  rw [← htype]
  exact hstore

theorem first_closeMenuIf {c : Prop} [Decidable c]
    : ((if c then s.srvForceCloseMenu env 0 else s).layers l).first = (s.layers l).first := by
  have hstore := congrArg Store.first (store_closeMenuIf (c := c) (s := s) (l := l) env 0)
  exact hstore

variable (htype : chainOf ((s.layers (s.ziFromClient cli)).nodes idx).type = some t)

include htype

theorem fst_srvShowWindow (hbad : ¬badIndex (s.layers (s.ziFromClient cli)) idx)
    : (s.srvShowWindow env cli idx).1 = 0 := by
  have htype1 := chainOf_closeMenuIf env (c := (s.layers (s.ziFromClient cli)).cliTrackmenu ≥ 0) htype
  unfold srvShowWindow
  dsimp only
  rw [if_neg hbad, htype1]

theorem fst_srvHideWindow (hle : ¬idx > (s.layers (s.ziFromClient cli)).maxNrNodes)
    : (s.srvHideWindow env cli idx).1 = 0 := by
  have htype1 := chainOf_closeMenuIf env (c := (s.layers (s.ziFromClient cli)).cliTrackmenu ≥ 0) htype
  unfold srvHideWindow
  dsimp only
  rw [if_neg hle, htype1]

theorem fst_srvMove2Top (hbad : ¬badIndex (s.layers (s.ziFromClient cli)) idx)
    (hfirst : (s.layers (s.ziFromClient cli)).first t ≠ idx)
    : (s.srvMove2Top env cli idx).1 = 0 := by
  have htype1 := chainOf_closeMenuIf env (c := (s.layers (s.ziFromClient cli)).cliTrackmenu ≥ 0) htype
  rw [← first_closeMenuIf env (c := (s.layers (s.ziFromClient cli)).cliTrackmenu ≥ 0)] at hfirst
  unfold srvMove2Top
  dsimp only
  rw [if_neg hbad, htype1]
  dsimp only
  rw [if_neg hfirst]

theorem fst_srvMoveWindow {rcWin : Rect} (hin : ¬(idx > (s.layers (s.ziFromClient cli)).maxNrNodes ∨ idx < 0))
    : (s.srvMoveWindow env cli idx rcWin).1 = 0 := by
  unfold srvMoveWindow
  rw [if_neg hin, htype]
  dsimp only
  split
  . rfl
  . split <;> rfl

theorem fst_srvFreeZOrderNode (hbad : ¬badIndex (s.layers (s.ziFromClient cli)) idx)
    : (s.srvFreeZOrderNode env cli idx).1 = 0 := by
  have htype1 := chainOf_closeMenuIf env (c := (s.layers (s.ziFromClient cli)).cliTrackmenu ≥ 0
    ∧ ((s.layers (s.ziFromClient cli)).nodes idx).visible = true) htype
  unfold srvFreeZOrderNode
  dsimp only
  rw [if_neg hbad, htype1]

end Types

section Seen

variable (env : DesktopEnv)

theorem outputs_srvSetActiveWindow_ne (hzero : (s.layers (s.ziFromClient cli)).hasSlot 0)
    (hvisible : ((s.layers (s.ziFromClient cli)).nodes 0).visible = true)
    (hnot : ¬(s.layers (s.ziFromClient cli)).ActiveOk s.imeWnd idx)
    : ∃ k a b, ¬(s.layers (s.ziFromClient cli)).hasSlot k
        ∧ ((s.poke (s.ziFromClient cli) k a).srvSetActiveWindow env cli idx).2.outputs
          ≠ ((s.poke (s.ziFromClient cli) k b).srvSetActiveWindow env cli idx).2.outputs := by
  let l := s.ziFromClient cli
  unfold ZOrderInfo.ActiveOk at hnot
  rw [not_or, not_and, not_or, not_or] at hnot
  rcases hnot with ⟨hgt, hnot⟩
  by_cases hslot : (s.layers l).hasSlot idx
  . rcases hnot hslot with ⟨hime, htool, hactive⟩
    have hwin : (s.layers l).activeWin ≠ 0 := by
      intro heq
      rw [heq] at hactive
      exact hactive hzero
    have hne : idx ≠ (s.layers l).activeWin := by
      intro heq
      rw [heq] at hslot
      exact hactive hslot
    let node (n : Nat) : ZOrderNode := { ZOrderNode.zero with cli, hwnd := n, mainWin := n }
    have hsame : ∀ n a, a ≠ (s.layers l).activeWin →
        ((s.poke l (s.layers l).activeWin (node n)).layers
          l).nodes a = (s.layers l).nodes a :=
      fun n a hne => nodes_poke (fun _ => hne)
    have haccept : ∀ n, (s.poke l (s.layers l).activeWin (node n)).Accepted cli
        idx := by
      intro n
      constructor
      . rw [maxNrNodes_poke, ziFromClient_poke]
        omega
      . rw [ziFromClient_poke, hsame n idx hne]
        exact hime
      . rw [ziFromClient_poke, hsame n idx hne]
        exact Bool.not_eq_true _ ▸ htool
    refine ⟨_, node 1, node 2, hactive, ?_⟩
    intro heq
    by_cases hnext : idx = 0
    . have hlast : ∀ n, ((s.poke l (s.layers l).activeWin
          (node n)).srvSetActiveWindow env cli idx).2.outputs.getLast?
            = some (s.ziFromClient cli, post (s.layers l).activeWin cli n MSG_KILLFOCUS 0) := by
        intro n
        have hlast := getLast_srvSetActiveWindow_zero env (haccept n) hnext
        rw [ziFromClient_poke, activeWin_poke, hsame n 0 hwin.symm] at hlast
        dsimp only at hlast
        rw [activeWin_poke, node_poke] at hlast
        exact hlast hwin hvisible
      have hone := hlast 1
      rw [heq, hlast 2] at hone
      simp at hone
    have hlast : ∀ n, ((s.poke l (s.layers l).activeWin
        (node n)).srvSetActiveWindow env cli idx).2.outputs.getLast?
          = some (s.ziFromClient cli, post idx ((s.layers l).nodes idx).cli
            ((s.layers l).nodes idx).mainWin MSG_SETFOCUS n) := by
      intro n
      have hlast := getLast_srvSetActiveWindow env (haccept n) hnext
      dsimp only at hlast
      rw [ziFromClient_poke, activeWin_poke, hsame n idx hne] at hlast
      unfold handleFor at hlast
      rw [if_neg hwin, node_poke, if_pos rfl] at hlast
      exact hlast
    have hone := hlast 1
    rw [heq, hlast 2] at hone
    simp at hone
  have hwin : idx ≠ 0 := by
    intro heq
    rw [heq] at hslot
    exact hslot hzero
  let node (n : Nat) : ZOrderNode := { ZOrderNode.zero with mainWin := s.imeWnd + 1 + n }
  have hlast : ∀ n, ((s.poke l idx (node n)).srvSetActiveWindow env cli idx).2.outputs.getLast?
      = some (s.ziFromClient cli, post idx 0 (s.imeWnd + 1 + n) MSG_SETFOCUS
          (handleFor ((s.poke l idx (node n)).layers l) cli
            (s.layers l).activeWin)) := by
    intro n
    have haccept : (s.poke l idx (node n)).Accepted cli idx := by
      constructor
      . rw [maxNrNodes_poke, ziFromClient_poke]
        omega
      . rw [ziFromClient_poke, node_poke]
        exact Nat.ne_of_lt (Nat.lt_of_lt_of_le (Nat.lt_succ_self _) (Nat.le_add_right _ n))
      . rw [ziFromClient_poke, node_poke]
        have htool : ZOrderNode.zero.has ZOF_TF_TOOLWIN = false := by decide
        exact htool
    have hlast := getLast_srvSetActiveWindow env haccept hwin
    dsimp only at hlast
    rw [ziFromClient_poke, node_poke, activeWin_poke] at hlast
    exact hlast
  refine ⟨idx, node 0, node 1, hslot, ?_⟩
  intro heq
  have hzero := hlast 0
  rw [heq, hlast 1] at hzero
  simp at hzero

end Seen

section Necessary

variable (env : DesktopEnv) {info : ZOrderOpInfo}

def strayNode : ZOrderNode :=
  { ZOrderNode.zero with flags := ZOF_TYPE_NORMAL }

variable (h : s.Confined env cli info)

include h

theorem Confined.fst_poke (huses : usesSlot info.idOp)
    (hslot : ¬(s.layers (s.ziFromClient cli)).hasSlot info.idxZnode) (node : ZOrderNode)
    : ((s.poke (s.ziFromClient cli) info.idxZnode node).doZOrderOperation env cli info).1 = -1 := by
  rw [h.outside _ _ hslot node, h.rejected huses hslot]

theorem Confined.idx_ne (hstored : Stored s)
    (hid : info.idOp ∈ [ID_ZOOP_FREE, ID_ZOOP_MOVE2TOP, ID_ZOOP_SHOW, ID_ZOOP_HIDE, ID_ZOOP_MOVEWIN, ID_ZOOP_ENABLEWINDOW])
    : info.idxZnode ≠ (s.layers (s.ziFromClient cli)).maxNrNodes := by
  intro hidx
  have huses : usesSlot info.idOp := by
    have hall : ∀ id ∈ [ID_ZOOP_FREE, ID_ZOOP_MOVE2TOP, ID_ZOOP_SHOW, ID_ZOOP_HIDE, ID_ZOOP_MOVEWIN, ID_ZOOP_ENABLEWINDOW],
        usesSlot id := by
      decide
    exact hall _ hid
  have hslot : ¬(s.layers (s.ziFromClient cli)).hasSlot info.idxZnode := by
    rintro ⟨_, hlt⟩
    omega
  rcases hstored.chains (s.ziFromClient cli) with ⟨c, hc⟩
  have hpos := (hasSlot_zero hc).2
  have hfst := h.fst_poke env huses hslot strayNode
  generalize hs' : s.poke (s.ziFromClient cli) info.idxZnode strayNode = s' at hfst
  have hmax : info.idxZnode = (s'.layers (s'.ziFromClient cli)).maxNrNodes := by
    rw [← hs', maxNrNodes_poke]
    exact hidx
  have hbad : ¬badIndex (s'.layers (s'.ziFromClient cli)) info.idxZnode := by
    rw [← hs', badIndex_poke]
    unfold badIndex
    rw [ziFromClient_poke]
    omega
  have htype : chainOf ((s'.layers (s'.ziFromClient cli)).nodes info.idxZnode).type = some .normal := by
    rw [← hs', ziFromClient_poke, node_poke]
    decide
  have hfirst : (s'.layers (s'.ziFromClient cli)).first .normal ≠ info.idxZnode := by
    rw [← hs', first_poke, ziFromClient_poke]
    intro heq
    rcases hc.first_mem .normal with hzero | hmem
    . change (s.layers (s.ziFromClient cli)).first .normal = 0 at hzero
      omega
    . rw [← heq] at hslot
      exact hslot (hasSlot_of_mem hc hmem)
  simp only [List.mem_cons, List.not_mem_nil, or_false] at hid
  unfold doZOrderOperation at hfst
  rcases hid with hid | hid | hid | hid | hid | hid
  . rw [hid, if_neg (by decide), if_pos rfl, fst_srvFreeZOrderNode env htype hbad] at hfst
    omega
  . rw [hid, if_neg (by decide), if_neg (by decide), if_pos rfl, fst_srvMove2Top env htype hbad hfirst] at hfst
    omega
  . rw [hid, if_neg (by decide), if_neg (by decide), if_neg (by decide), if_pos rfl,
      fst_srvShowWindow env htype hbad] at hfst
    omega
  . simp +decide only [hid, ↓reduceIte] at hfst
    rw [fst_srvHideWindow env htype (by omega)] at hfst
    omega
  . simp +decide only [hid, ↓reduceIte] at hfst
    rw [fst_srvMoveWindow env htype (by omega)] at hfst
    omega
  have hin : ¬(info.idxZnode > (s'.layers (s'.ziFromClient cli)).maxNrNodes ∨ info.idxZnode < 0) := by omega
  simp +decide only [hid, ↓reduceIte] at hfst
  unfold srvEnableWindow at hfst
  dsimp only at hfst
  rw [if_neg hin] at hfst
  omega

theorem Confined.hide (hid : info.idOp = ID_ZOOP_HIDE)
    : (s.layers (s.ziFromClient cli)).maxNrNodes < info.idxZnode
        ∨ (s.layers (s.ziFromClient cli)).hasSlot info.idxZnode := by
  by_cases hslot : (s.layers (s.ziFromClient cli)).hasSlot info.idxZnode
  . exact .inr hslot
  left
  by_contra hgt
  have hfst := h.fst_poke env (by rw [hid]; decide) hslot strayNode
  generalize hs' : s.poke (s.ziFromClient cli) info.idxZnode strayNode = s' at hfst
  have hle : ¬info.idxZnode > (s'.layers (s'.ziFromClient cli)).maxNrNodes := by
    rw [← hs', maxNrNodes_poke]
    exact hgt
  have htype : chainOf ((s'.layers (s'.ziFromClient cli)).nodes info.idxZnode).type = some .normal := by
    rw [← hs', ziFromClient_poke, node_poke]
    decide
  unfold doZOrderOperation at hfst
  simp +decide only [hid, ↓reduceIte] at hfst
  rw [fst_srvHideWindow env htype hle] at hfst
  omega

section

variable (hstored : Stored s)
include hstored

theorem Confined.rejected_max (huses : usesSlot info.idOp)
    (hidx : info.idxZnode = (s.layers (s.ziFromClient cli)).maxNrNodes)
    : (s.doZOrderOperation env cli info).1 = -1 ∧ ¬(info.idxZnode > (s.layers (s.ziFromClient cli)).maxNrNodes
        ∨ info.idxZnode < 0) := by
  rcases hstored.chains (s.ziFromClient cli) with ⟨c, hc⟩
  have hslot : ¬(s.layers (s.ziFromClient cli)).hasSlot info.idxZnode := by
    rintro ⟨_, hlt⟩
    omega
  exact ⟨congrArg Prod.fst (h.rejected huses hslot), by omega⟩

theorem Confined.startDrag (hid : info.idOp = ID_ZOOP_STARTDRAG)
    : info.idxZnode ≠ (s.layers (s.ziFromClient cli)).maxNrNodes ∨ s.ddInfo.cli ≥ 0 := by
  by_contra hnone
  rw [not_or, not_not] at hnone
  obtain ⟨hrejected, hin⟩ := h.rejected_max env hstored (by rw [hid]; decide) hnone.1
  unfold doZOrderOperation at hrejected
  simp +decide only [hid, ↓reduceIte] at hrejected
  unfold srvStartDragWindow at hrejected
  dsimp only at hrejected
  rw [if_neg hin, if_neg hnone.2] at hrejected
  omega

theorem Confined.cancelDrag (hid : info.idOp = ID_ZOOP_CANCELDRAG)
    : info.idxZnode ≠ (s.layers (s.ziFromClient cli)).maxNrNodes
        ∨ s.ddInfo.cli = -1 ∨ s.ddInfo.cli ≠ cli ∨ s.ddInfo.idxZnode ≠ info.idxZnode := by
  by_contra hnone
  rw [not_or, not_not] at hnone
  obtain ⟨hrejected, hin⟩ := h.rejected_max env hstored (by rw [hid]; decide) hnone.1
  unfold doZOrderOperation at hrejected
  simp +decide only [hid, ↓reduceIte] at hrejected
  unfold srvCancelDragWindow at hrejected
  rw [if_neg hin, if_neg hnone.2] at hrejected
  omega

theorem Confined.changeCaption (hid : info.idOp = ID_ZOOP_CHANGECAPTION)
    : info.idxZnode < (s.layers (s.ziFromClient cli)).maxNrNodes := by
  by_contra hge
  rcases hstored.chains (s.ziFromClient cli) with ⟨c, hc⟩
  have hpos := (hasSlot_zero hc).2
  have hslot : ¬(s.layers (s.ziFromClient cli)).hasSlot info.idxZnode := by
    rintro ⟨_, hlt⟩
    omega
  have hdo : ∀ s : Server κ, (s.doZOrderOperation env cli info).2
      = s.onLayer (s.ziFromClient cli) (fun w =>
          w.setNode info.idxZnode (fun node => { node with caption := env.changeCaption info.caption })) := by
    intro s
    have hgt : info.idxZnode > 0 := by omega
    unfold doZOrderOperation
    simp +decide only [hid, ↓reduceIte]
    unfold srvChangeCaption
    rw [if_pos hgt]
  have hcaption : ∀ node : ZOrderNode, env.changeCaption info.caption = node.caption := by
    intro node
    have hout := congrArg Prod.snd (h.outside _ _ hslot node)
    rw [hdo, hdo, ziFromClient_poke] at hout
    have hnode := congrArg (fun s' : Server κ => ((s'.layers (s.ziFromClient cli)).nodes info.idxZnode).caption) hout
    rw [node_poke, updates_onLayer.layers, update_self] at hnode
    unfold Work.setNode ZOrderInfo.setNode at hnode
    dsimp only at hnode
    rw [update_self] at hnode
    exact hnode
  have hempty := hcaption { ZOrderNode.zero with caption := "" }
  have hother := hcaption { ZOrderNode.zero with caption := "x" }
  rw [hempty] at hother
  exact absurd hother (by decide)

theorem Confined.setActive (hid : info.idOp = ID_ZOOP_SETACTIVE)
    : (s.layers (s.ziFromClient cli)).ActiveOk s.imeWnd info.idxZnode := by
  let l := s.ziFromClient cli
  have hdo : ∀ s : Server κ, s.doZOrderOperation env cli info = s.srvSetActiveWindow env cli info.idxZnode := by
    intro s
    unfold doZOrderOperation
    simp +decide only [hid, ↓reduceIte]
  rcases hstored.chains l with ⟨c, hc⟩
  have hzero := hasSlot_zero hc
  unfold ZOrderInfo.ActiveOk
  by_cases hgt : (s.layers l).maxNrNodes < info.idxZnode
  . exact .inl hgt
  right
  have hslot : (s.layers l).hasSlot info.idxZnode := by
    by_contra hslot
    let node : ZOrderNode := { ZOrderNode.zero with mainWin := s.imeWnd + 1 }
    have hfst := h.fst_poke env (by rw [hid]; decide) hslot node
    have haccept : (s.poke l info.idxZnode node).Accepted cli info.idxZnode := by
      constructor
      . rw [maxNrNodes_poke, ziFromClient_poke]
        exact not_lt.mp hgt
      . rw [ziFromClient_poke, node_poke]
        exact Nat.ne_of_lt (Nat.lt_succ_self _)
      . rw [ziFromClient_poke, node_poke]
        have htool : ZOrderNode.zero.has ZOF_TF_TOOLWIN = false := by decide
        exact htool
    rw [hdo, fst_srvSetActiveWindow env haccept] at hfst
    omega
  refine ⟨hslot, ?_⟩
  by_contra hplain
  rw [not_or, not_or] at hplain
  rcases hplain with ⟨hime, htool, hactive⟩
  have hfst : ∀ hwnd : Hwnd, (s.doZOrderOperation env cli info).1 = hwnd := by
    intro hwnd
    let node : ZOrderNode := { ZOrderNode.zero with cli, hwnd }
    have hne : info.idxZnode ≠ (s.layers l).activeWin := by
      intro heq
      rw [heq] at hslot
      exact hactive hslot
    have hout := congrArg Prod.fst (h.outside _ _ hactive node)
    have hsame : ((s.poke l (s.layers l).activeWin node).layers
        l).nodes info.idxZnode = (s.layers l).nodes info.idxZnode :=
      nodes_poke (fun _ => hne)
    have haccept : (s.poke l (s.layers l).activeWin node).Accepted cli info.idxZnode := by
      constructor
      . rw [maxNrNodes_poke, ziFromClient_poke]
        exact not_lt.mp hgt
      . rw [ziFromClient_poke, hsame]
        exact hime
      . rw [ziFromClient_poke, hsame]
        exact Bool.not_eq_true _ ▸ htool
    have hwin : (s.layers l).activeWin ≠ 0 := by
      intro heq
      rw [heq] at hactive
      exact hactive hzero
    rw [← hout, hdo, fst_srvSetActiveWindow env haccept, ziFromClient_poke, activeWin_poke]
    unfold handleFor
    rw [if_neg hwin, node_poke, if_pos rfl]
  have hone := hfst 1
  have htwo := hfst 2
  rw [hone] at htwo
  exact absurd htwo (by decide)

end

theorem Confined.free (hscreen : OnScreen env s) (hid : info.idOp = ID_ZOOP_FREE) : s.FreeOk cli info.idxZnode := by
  let l := s.ziFromClient cli
  have hne := h.idx_ne env hscreen.stored (by rw [hid]; decide)
  have hdo : ∀ s : Server κ, s.doZOrderOperation env cli info = s.srvFreeZOrderNode env cli info.idxZnode := by
    intro s
    unfold doZOrderOperation
    rw [hid, if_neg (by decide), if_pos rfl]
  unfold FreeOk
  by_cases hle : info.idxZnode ≤ 0
  . exact .inl hle
  right
  by_cases hgt : (s.layers l).maxNrNodes < info.idxZnode
  . exact .inl hgt
  right
  refine ⟨lt_of_le_of_ne (not_lt.mp hgt) hne, ?_⟩
  intro t htype hactive next l'
  by_contra hnot
  rw [not_or] at hnot
  rcases hnot with ⟨hl, hnot⟩
  rcases hscreen.stored.chains l with ⟨c, hc⟩
  have hmem := (hc.type info.idxZnode t).mp htype
  have hslot := hasSlot_of_mem hc hmem
  have hbad : ¬badIndex (s.layers l) info.idxZnode := by
    unfold badIndex
    omega
  have hfrom := @sameWindows_closeMenuIf _ _ s 0 env
    ((s.layers l).cliTrackmenu ≥ 0
      ∧ ((s.layers l).nodes info.idxZnode).visible = true) _
  generalize hs1 : (if (s.layers l).cliTrackmenu ≥ 0
      ∧ ((s.layers l).nodes info.idxZnode).visible = true then s.srvForceCloseMenu env 0 else s) = s1
    at hfrom
  generalize hs2 : s1.freeNode env l ((s1.layers l).nodes info.idxZnode).type t
    info.idxZnode = s2
  have htype1 : chainOf ((s1.layers l).nodes info.idxZnode).type = some t := by
    rw [← hs1]
    exact chainOf_closeMenuIf env htype
  have hactive1 : info.idxZnode = (s1.layers l).activeWin := by
    rw [hfrom.field (q := fun zi => zi.activeWin) (fun _ => rfl) (fun _ => rfl)]
    exact hactive
  have hheir : (s1.layers l).heir t info.idxZnode = next :=
    hfrom.field (q := fun zi => zi.heir t info.idxZnode) (fun zi => heir_core zi t _) (fun zi => heir_closeMenus zi t _) _
  have hstored1 : Stored s1 := by
    rw [← hs1]
    exact kept_stored.closeMenuIf env 0 hscreen.stored
  rcases hstored1.chains l with ⟨c1, hc1⟩
  have hmem1 := (hc1.type info.idxZnode t).mp htype1
  have hcli : ((s2.layers l).nodes next).cli = ((s.layers l).nodes next).cli := by
    rw [← hs2, cli_eq_of_core (core_freeNode env), field_freeZNode lasting_cli.toUnlinked (fun _ => lasting_cli)]
    exact hfrom.field (q := fun zi => (zi.nodes next).cli) (fun _ => rfl) (fun _ => rfl) _
  have hne' : s.ziFromClient cli ≠ l' := fun heq => hl heq.symm
  have hrun : ∀ k, ¬(s.layers l').hasSlot k → ∀ node,
      ((s.poke l' k node).srvFreeZOrderNode env cli info.idxZnode).2
        = ((s2.poke l' k node).srvSetActiveWindow env ((s.layers l).nodes next).cli next).2 := by
    intro k hk node
    have hout : Outside s l' k := ⟨hscreen.stored, hk⟩
    have hout1 : Outside s1 l' k := by
      rw [← hs1]
      exact outside_closeMenuIf env hout
    unfold srvFreeZOrderNode
    simp only [ziFromClient_poke, cliTrackmenu_poke, badIndex_poke]
    rw [if_neg hbad, hout.nodes_eq hslot, closeMenuIf_poke env hout, hs1,
      nodes_poke (fun heq => absurd heq hne'), htype1]
    dsimp only
    rw [activeWin_poke, if_pos hactive1, freeNode_poke env hout1 (hasSlot_of_mem hc1 hmem1) htype1, hs2]
    unfold activateNext
    dsimp only
    rw [layers_poke_of_ne hne', ← hs2, next_freeNode env hc1 hmem1, hs2, hheir, hcli]
  have hlayer : s2.ziFromClient ((s.layers l).nodes next).cli = l' := by
    rw [← hs2, ziFromClient_freeNode, hfrom.ziFromClient]
  have hsame : s2.layers l' = s1.layers l' := by
    rw [← hs2]
    exact layers_freeNode_of_ne env hl
  have hime : s2.imeWnd = s.imeWnd := by
    rw [← hs2, (updates_freeNode env).2.2, hfrom.imeWnd]
  have hactiveOk : (s2.layers l').ActiveOk s2.imeWnd next = (s.layers l').ActiveOk s.imeWnd next := by
    rw [hsame, hime]
    exact hfrom.field (q := fun zi => zi.ActiveOk s.imeWnd next) (fun zi => activeOk_core zi _ _) (fun _ => rfl) l'
  have hvisible : ((s2.layers l').nodes 0).visible = true := by
    rw [hsame, hfrom.field (q := fun zi => (zi.nodes 0).visible) (fun zi => visible_core zi 0) (fun _ => rfl) l']
    exact hscreen.visible_desktop l'
  have hmax : (s2.layers l').maxNrNodes = (s.layers l').maxNrNodes := by
    rw [hsame]
    exact hfrom.field (q := ZOrderInfo.maxNrNodes) (fun _ => rfl) (fun _ => rfl) l'
  rcases hscreen.stored.chains l' with ⟨c', hc'⟩
  have hzero : (s2.layers l').hasSlot 0 := (hasSlot_congr hmax).mpr (hasSlot_zero hc')
  rw [← hactiveOk] at hnot
  rw [← hlayer] at hzero hvisible hnot
  rcases outputs_srvSetActiveWindow_ne env hzero hvisible hnot with ⟨k, a, b, hk, hdiff⟩
  rw [hlayer, hasSlot_congr hmax] at hk
  rw [hlayer, ← hrun k hk, ← hrun k hk, ← hdo, ← hdo, h.outside l' k hk a, h.outside l' k hk b] at hdiff
  exact hdiff rfl

theorem requestOk_of_confined (hscreen : OnScreen env s) : s.RequestOk cli info := by
  by_cases hfree : info.idOp = ID_ZOOP_FREE
  . rw [requestOk_free hfree]
    exact h.free env hscreen hfree
  by_cases hhide : info.idOp = ID_ZOOP_HIDE
  . rw [requestOk_hide hhide]
    exact h.hide env hhide
  by_cases hactive : info.idOp = ID_ZOOP_SETACTIVE
  . rw [requestOk_setActive hactive]
    exact h.setActive env hscreen.stored hactive
  by_cases hcaption : info.idOp = ID_ZOOP_CHANGECAPTION
  . rw [requestOk_changeCaption hcaption]
    exact h.changeCaption env hscreen.stored hcaption
  by_cases hstart : info.idOp = ID_ZOOP_STARTDRAG
  . rw [requestOk_startDrag hstart]
    exact h.startDrag env hscreen.stored hstart
  by_cases hcancel : info.idOp = ID_ZOOP_CANCELDRAG
  . rw [requestOk_cancelDrag hcancel]
    exact h.cancelDrag env hscreen.stored hcancel
  by_cases huses : usesSlot info.idOp
  . have hother : info.idOp ∈ [ID_ZOOP_MOVE2TOP, ID_ZOOP_SHOW, ID_ZOOP_MOVEWIN, ID_ZOOP_ENABLEWINDOW] := by
      unfold usesSlot at huses
      simp only [List.mem_cons, List.not_mem_nil, or_false] at huses ⊢
      tauto
    rw [requestOk_other hother]
    apply h.idx_ne env hscreen.stored
    simp only [List.mem_cons, List.not_mem_nil, or_false] at hother ⊢
    tauto
  . unfold RequestOk
    rw [if_neg hfree, if_neg hhide, if_neg hactive, if_neg hcaption, if_neg hstart, if_neg hcancel, if_neg huses]
    trivial

end Necessary

/--
In every state that is reached, a request uses only slots of the layers, and is rejected if its index is out of
range, if and only if it is of these.
-/
theorem request_validation (env : DesktopEnv) (sizes : Sizes κ) (topmost : κ) (clientLayer : Int → κ)
    (actions : List (Action κ)) (cli : Int) (info : ZOrderOpInfo)
    : let s := (Server.init env sizes topmost clientLayer).run env actions
      s.Confined env cli info ↔ s.RequestOk cli info := by
  intro s
  have hscreen := onScreen_run env sizes topmost clientLayer actions
  constructor
  . intro h
    exact requestOk_of_confined env h hscreen
  . intro hok
    exact confined_of_requestOk env hscreen.stored hok

theorem request_validation_behind : let s := Server.init smallEnv smallSizes () (fun _ => ())
      ¬s.Confined smallEnv 1 (op ID_ZOOP_ENABLEWINDOW 24) := by
  intro s h
  have hslot : ¬(s.layers (s.ziFromClient 1)).hasSlot 24 := by
    rintro ⟨_, hlt⟩
    exact absurd hlt (by decide +kernel)
  have hrejected := congrArg Prod.fst (h.rejected (by decide) hslot)
  have hdone : (s.doZOrderOperation smallEnv 1 (op ID_ZOOP_ENABLEWINDOW 24)).1 = 0 := by decide +kernel
  rw [hdone] at hrejected
  exact absurd hrejected (by decide)

end MiniGui.Server
