import MiniGui.Desktop.Clipping

namespace MiniGui

open Store ZOrderInfo Function ClipRgn

section DesktopNode

variable {zi zi' : ZOrderInfo} {c : ZType → List Int} {t : ZType} {idx cli : Int}

def ZOrderNode.look (node : ZOrderNode) : Rect × Bool :=
  (node.rc, node.visible)

theorem unlinked_look : ZOrderInfo.Unlinked ZOrderNode.look := by
  constructor <;> intros <;> rfl

theorem look_eq_of_core (h : zi'.core = zi.core) (slot : Int) : (zi'.nodes slot).look = (zi.nodes slot).look := by
  unfold ZOrderNode.look
  rw [rc_eq_of_core h, visible_eq_of_core h]

theorem LayerStep.look_desktop {track : Prop} (hstep : LayerStep track zi zi') (h : Chains zi.store c)
    : (zi'.nodes 0).look = (zi.nodes 0).look := by
  have hother : ∀ {idx : Int} {t : ZType}, chainOf (zi.nodes idx).type = some t → 0 ≠ idx := by
    intro idx t htype
    have hpos := h.pos ((h.type idx t).mp htype)
    omega
  cases hstep with
  | same hcore => rw [look_eq_of_core hcore]
  | alloc t slot usageBmp node _ hslot _ hcore =>
    have hpos := (allocSlot_free h hslot).1
    rw [look_eq_of_core hcore, field_insertZNode unlinked_look]
    unfold setNode
    dsimp only
    rw [update_of_ne (by omega)]
  | free t idx htype hcore =>
    rw [look_eq_of_core hcore, field_freeZNode unlinked_look]
    intro hzero
    exact absurd hzero (hother htype)
  | raise t idx _ _ hcore => rw [look_eq_of_core hcore, field_raiseZNode unlinked_look]
  | change idx f _ hrc hcore =>
    rw [look_eq_of_core hcore]
    rcases hrc with hsame | ⟨t, htype⟩
    . apply field_setNode (p := ZOrderNode.look)
      intro node
      unfold ZOrderNode.look
      rw [(hsame node).1, (hsame node).2]
    . unfold setNode
      dsimp only
      rw [update_of_ne (hother htype)]
  | startMenu _ cli rc ptmi hcore => exact @look_eq_of_core (zi.startMenu cli rc ptmi) _ hcore 0
  | endMenu _ hcore => exact @look_eq_of_core zi.endMenu _ hcore 0
  | closeMenus hcore => exact @look_eq_of_core zi.closeMenus _ hcore 0
  | remove cli hcore =>
    rw [look_eq_of_core hcore, field_removeClient unlinked_look]
    intro hpos
    omega

end DesktopNode

namespace Server

variable {κ : Type} [DecidableEq κ] {s s' : Server κ} {l : κ}

structure OnScreen (env : DesktopEnv) (s : Server κ) : Prop where
  stored : Stored s
  desktop : ∀ l, ((s.layers l).nodes 0).look = (env.rcScr, true)

variable {env : DesktopEnv}

theorem OnScreen.update {zi : ZOrderInfo} (h : OnScreen env s) (hstored : Stored s')
    (hlook : (zi.nodes 0).look = (env.rcScr, true)) (hlayers : s'.layers = update s.layers l zi)
    : OnScreen env s' := by
  refine ⟨hstored, ?_⟩
  intro l'
  rw [hlayers, update_apply]
  split
  . exact hlook
  . apply h.desktop

omit [DecidableEq κ] in
theorem OnScreen.rc_desktop (h : OnScreen env s) (l : κ) : ((s.layers l).nodes 0).rc = env.rcScr := by
  have hrc := congrArg Prod.fst (h.desktop l)
  exact hrc

omit [DecidableEq κ] in
theorem OnScreen.visible_desktop (h : OnScreen env s) (l : κ) : ((s.layers l).nodes 0).visible = true := by
  have hvisible := congrArg Prod.snd (h.desktop l)
  exact hvisible

theorem kept_onScreen : KeptRun (κ := κ) (OnScreen env) := by
  have hclosed : LayerClosed (κ := κ) True (OnScreen env) := by
    intro s s' l zi hstep hupdates h
    rcases h.stored.chains l with ⟨c, hc⟩
    apply h.update (layerClosed_stored hstep hupdates h.stored) _ hupdates.layers
    rw [hstep.look_desktop hc]
    apply h.desktop
  apply hclosed.keptRun
  . intro s s' l idx hupdates h
    apply h.update (h.stored.active hupdates) _ hupdates.layers
    exact h.desktop l
  . intro s l h
    exact ⟨⟨h.stored.chains, h.stored.globals⟩, h.desktop⟩
  intro s s' old hupdates h
  apply h.update (h.stored.globals' hupdates) _ hupdates.layers
  rw [field_takeGlobals _ _ (p := ZOrderNode.look) (fun _ _ => rfl)]
  split
  . apply h.desktop
  . apply h.desktop

omit [DecidableEq κ] in
theorem OnScreen.init (sizes : Sizes κ) (topmost : κ) (clientLayer : Int → κ)
    : OnScreen env (Server.init env sizes topmost clientLayer) := by
  constructor
  . apply Stored.init
  intro l
  have hvisible : (ZOF_TYPE_DESKTOP ||| ZOF_VISIBLE) &&& ZOF_VISIBLE ≠ 0 := by decide
  have hlook : (((Server.init env sizes topmost clientLayer).layers l).nodes 0).look
      = (env.rcScr, decide ((ZOF_TYPE_DESKTOP ||| ZOF_VISIBLE) &&& ZOF_VISIBLE ≠ 0)) := rfl
  rw [hlook, decide_eq_true hvisible]

variable (env : DesktopEnv) (sizes : Sizes κ) (topmost : κ) (clientLayer : Int → κ)

theorem onScreen_run (actions : List (Action κ))
    : OnScreen env ((Server.init env sizes topmost clientLayer).run env actions) :=
  kept_onScreen.run env actions (OnScreen.init sizes topmost clientLayer)

/--
The region that the recalculation gives to a window or to the desktop is what is to be seen of it, unless the
screen has an empty part of the window, when the region that was there is kept: then this is so only if
everything in that region lies under menus and other windows.
-/
theorem clip_recalculation (actions : List (Action κ)) (l : κ) {idx : Int}
    (hidx : idx = 0 ∨ idx ∈ (((Server.init env sizes topmost clientLayer).run env actions).layers l).stack)
    {gcrinfo : GCRInfo} (hcrgn : gcrinfo.crgn.Sound) (hold : gcrinfo.oldZiAge
      ≠ ((((Server.init env sizes topmost clientLayer).run env actions).layers l).nodes idx).age)
    : let zi := ((Server.init env sizes topmost clientLayer).run env actions).layers l
      (zi.lockRecalcGcrinfo env.rcScr idx gcrinfo).crgn.pixels = zi.visibleRegion env.rcScr idx
        ↔
      isRectEmpty (intersectRect (zi.nodes idx).rc env.rcScr).2 = false
        ∨ gcrinfo.crgn.pixels ⊆ zi.covered idx := by
  intro zi
  rcases (onScreen_run env sizes topmost clientLayer actions).stored.chains l with ⟨c, hc⟩
  exact lockRecalcGcrinfo_exact hc hidx hold hcrgn

theorem clip_recalculation_moved
    : let old : Rect := { left := 0, top := 0, right := 50, bottom := 50 }
      let actions : List (Action Unit) :=
        [
          .request 1 (allocOp (ZOF_TYPE_NORMAL ||| ZOF_VISIBLE) old),
          .request 2 (allocOp (ZOF_TYPE_TOPMOST ||| ZOF_VISIBLE) { left := 9, top := 9, right := 30, bottom := 30 }),
          .request 1 { op ID_ZOOP_MOVEWIN 8 with rc := { left := 20, top := 20, right := 70, bottom := 70 } }
        ]
      let zi := ((Server.init smallEnv smallSizes () (fun _ => ())).run smallEnv actions).layers ()
      let gcrinfo : GCRInfo := { crgn := single old, age := 1, oldZiAge := 1 }
      (zi.lockRecalcGcrinfo smallEnv.rcScr 8 gcrinfo).crgn.pixels = zi.visibleRegion smallEnv.rcScr 8 := by
  intro old actions zi gcrinfo
  have hstack : 8 ∈ zi.stack := by decide +kernel
  have hold : gcrinfo.oldZiAge ≠ (zi.nodes 8).age := by decide +kernel
  apply (clip_recalculation smallEnv smallSizes () (fun _ => ()) actions () (Or.inr hstack)
    (sound_single old) hold).mpr
  left
  decide +kernel

theorem clip_recalculation_aside
    : ¬∀ (actions : List (Action Unit)) (idx : Int) (gcrinfo : GCRInfo),
        let zi := ((Server.init smallEnv smallSizes () (fun _ => ())).run smallEnv actions).layers ()
        idx ∈ zi.stack → gcrinfo.crgn.Sound → gcrinfo.oldZiAge ≠ (zi.nodes idx).age →
        (zi.lockRecalcGcrinfo smallEnv.rcScr idx gcrinfo).crgn.pixels = zi.visibleRegion smallEnv.rcScr idx := by
  intro h
  let old : Rect := { left := 0, top := 0, right := 50, bottom := 50 }
  let aside : Rect := { left := 100, top := 0, right := 150, bottom := 50 }
  let actions : List (Action Unit) :=
    [
      .request 1 (allocOp (ZOF_TYPE_NORMAL ||| ZOF_VISIBLE) old),
      .request 1 { op ID_ZOOP_MOVEWIN 8 with rc := aside }
    ]
  let zi := ((Server.init smallEnv smallSizes () (fun _ => ())).run smallEnv actions).layers ()
  let gcrinfo : GCRInfo := { crgn := single old, age := 1, oldZiAge := 1 }
  have hpixels : (zi.lockRecalcGcrinfo smallEnv.rcScr 8 gcrinfo).crgn.pixels = zi.visibleRegion smallEnv.rcScr 8 :=
    h actions 8 gcrinfo (by decide +kernel) (sound_single old) (by decide +kernel)
  have hkept : (zi.lockRecalcGcrinfo smallEnv.rcScr 8 gcrinfo).crgn = single old := by decide +kernel
  have hrc : (zi.nodes 8).rc = aside := by decide +kernel
  have hin : (5, 5) ∈ (single old).pixels := by
    rw [pixels_single, Rect.mem_pixels]
    decide
  rw [hkept] at hpixels
  rw [hpixels] at hin
  have hout := hin.1.1
  rw [hrc, Rect.mem_pixels] at hout
  simp [Rect.Mem, aside] at hout

end Server

end MiniGui
