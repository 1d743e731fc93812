import MiniGui.Desktop.LayerSteps

namespace MiniGui.Server

open Store ZOrderInfo

variable {κ : Type} [DecidableEq κ] {s s' : Server κ} {l : κ}

structure Stored (s : Server κ) : Prop where
  chains : ∀ l, ∃ c, Chains (s.layers l).store c
  globals : ∀ l l', (s.layers l).maxNr .global = (s.layers l').maxNr .global

theorem Stored.update {zi : ZOrderInfo} (h : Stored s) (hchains : ∃ c, Chains zi.store c)
    (hmax : zi.maxNr .global = (s.layers l).maxNr .global)
    (hlayers : s'.layers = Function.update s.layers l zi) : Stored s' := by
  have hglobals : ∀ l', (s'.layers l').maxNr .global = (s.layers l).maxNr .global := by
    intro l'
    rw [hlayers, Function.update_apply]
    split
    . exact hmax
    . apply h.globals
  constructor
  . intro l'
    rw [hlayers, Function.update_apply]
    split
    . exact hchains
    . apply h.chains
  . intro l1 l2
    rw [hglobals, hglobals]

section TakeGlobals

variable (zi old : ZOrderInfo)

theorem field_takeGlobals {α : Type} {p : ZOrderNode → α} (hp : ∀ node age, p { node with age } = p node)
    (slot : Int) : p ((zi.takeGlobals old).nodes slot)
        = if 0 ≤ slot ∧ slot < old.maxNr .global then p (old.nodes slot) else p (zi.nodes slot) := by
  unfold takeGlobals
  extract_lets nrGlobals bytes zi1 zi2 zi3 copied zi4
  have h3 : zi3.nodes = zi.nodes := by
    unfold zi3 zi2
    split <;> rfl
  have hcopied : p (copied slot)
      = if 0 ≤ slot ∧ slot < old.maxNr .global then p (old.nodes slot) else p (zi.nodes slot) := by
    unfold copied
    rw [h3]
    split <;> rfl
  rw [field_setNode (fun _ => hp _ _), ← hcopied]
  change p (ageOthers old copied slot) = p (copied slot)
  unfold ageOthers
  split
  . apply hp
  . rfl

theorem store_takeGlobals : (zi.takeGlobals old).store = zi.store.withGlobals old.store := by
  ext1
  . exact funext (field_takeGlobals zi old (p := ZOrderNode.next) (fun _ _ => rfl))
  . exact funext (field_takeGlobals zi old (p := ZOrderNode.prev) (fun _ _ => rfl))
  . exact funext (field_takeGlobals zi old (p := ZOrderNode.type) (fun _ _ => rfl))
  all_goals
    unfold takeGlobals
    dsimp only
    split <;> rfl

end TakeGlobals

theorem layerClosed_stored {track : Prop} : LayerClosed (κ := κ) track Stored := by
  intro s s' l zi hstep hupdates h
  rcases h.chains l with ⟨c, hc⟩
  have hmax := congrArg Prod.fst hstep.sizes_eq
  exact h.update (hstep.chains hc) (congrFun hmax .global) hupdates.layers

theorem Stored.active {idx : Int} (h : Stored s) (hupdates : Updates s s' l { s.layers l with activeWin := idx })
    : Stored s' := by
  apply h.update _ _ hupdates.layers
  . exact h.chains l
  . rfl

theorem Stored.globals' {old : κ} (h : Stored s)
    (hupdates : Updates s s' s.topmost ((s.layers s.topmost).takeGlobals (s.layers old)))
    : Stored s' := by
  rcases h.chains s.topmost with ⟨c, hc⟩
  rcases h.chains old with ⟨d, hd⟩
  have hstore := store_takeGlobals (s.layers s.topmost) (s.layers old)
  apply h.update _ _ hupdates.layers
  . refine ⟨Function.update c .global (d .global), ?_⟩
    rw [hstore]
    exact hc.withGlobals hd (h.globals _ _)
  . have hmax := congrFun (congrArg Store.maxNr hstore) .global
    exact hmax

theorem kept_stored : KeptRun (κ := κ) Stored := by
  apply layerClosed_stored.keptRun
  . intro s s' l idx hupdates h
    exact h.active hupdates
  . intro s l h
    exact ⟨h.chains, h.globals⟩
  . intro s s' old hupdates h
    exact h.globals' hupdates

variable (env : DesktopEnv)

theorem chains_allocLayer (rcScr : Rect) {nrGlobals : Nat} (nrTopmosts nrNormals : Nat)
    (hpos : 0 < nrGlobals) (hbytes : nrGlobals % 8 = 0)
    : Chains (allocLayer rcScr nrGlobals nrTopmosts nrNormals).store (fun _ => []) := by
  have htype : ∀ slot, (allocLayer rcScr nrGlobals nrTopmosts nrNormals).store.type slot
      = if slot = 0 then ZOF_TYPE_DESKTOP else 0 := by
    intro slot
    unfold allocLayer store
    dsimp only
    split
    . have htype : (ZOF_TYPE_DESKTOP ||| ZOF_VISIBLE) &&& ZOF_TYPE_MASK = ZOF_TYPE_DESKTOP := by decide
      exact htype
    . rfl
  constructor
  . intro t
    rw [DList.valid_nil]
    rfl
  . intro slot t
    rw [htype]
    simp only [List.not_mem_nil, iff_false]
    have hdesktop : chainOf ZOF_TYPE_DESKTOP = none := by decide
    have hzero : chainOf 0 = none := by decide
    split
    . rw [hdesktop]
      simp
    . rw [hzero]
      simp
  . rw [htype, if_pos rfl]
  . simp
  . intro t
    cases t <;> rfl
  . intro t
    cases t with
    | global =>
      change (1 : Int) ≤ nrGlobals
      omega
    | topmost | normal => exact Int.natCast_nonneg _
  . intro k
    have hfull : unused (fun _ => 0xFF#8) k = true := by
      unfold unused
      dsimp only
      have hmod : 7 - k % 8 < 8 := by omega
      generalize 7 - k % 8 = j at hmod
      interval_cases j <;> decide
    change unused (slotSetUse (fun _ => 0xFF#8) 0) k = true ↔ _
    rw [unused_slotSetUse, hfull]
    simp
  . exact hbytes
  . change (7 + nrGlobals + nrTopmosts + nrNormals) / 8 = (7 + (nrGlobals + nrTopmosts + nrNormals)) / 8
    congr 1
    omega

omit [DecidableEq κ] in
theorem Stored.init (sizes : Sizes κ) (topmost : κ) (clientLayer : Int → κ)
    : Stored (Server.init env sizes topmost clientLayer) := by
  have hpos := sizes.globalBytes_pos
  constructor
  . intro l
    refine ⟨fun _ => [], ?_⟩
    apply chains_allocLayer
    . omega
    . omega
  . intro l l'
    rfl

end MiniGui.Server
