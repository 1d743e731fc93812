import MiniGui.Desktop.Loops

namespace MiniGui.Work

open Function List

open Store ZOrderInfo

def poke (w : Work) (k : Int) (node : ZOrderNode) : Work :=
  w.setNode k (fun _ => node)

def Frame (k : Int) (f : Work → Work) (w : Work) : Prop :=
  ∀ node, f (w.poke k node) = (f w).poke k node

variable {w : Work} {k a : Int} {node : ZOrderNode} {f g : Work → Work} {body : Int → Work → Work}

theorem node_poke (ha : a ≠ k) : (w.poke k node).zi.nodes a = w.zi.nodes a := by
  unfold poke Work.setNode ZOrderInfo.setNode
  dsimp only
  rw [update_of_ne ha]

theorem Frame.comp (hg : Frame k g (f w)) (hf : Frame k f w) : Frame k (fun w => g (f w)) w := by
  intro node
  dsimp only
  rw [hf node, hg node]

theorem Frame.ite {c : Work → Prop} [∀ w, Decidable (c w)] (hc : ∀ node, c (w.poke k node) ↔ c w) (hf : Frame k f w)
    (hg : Frame k g w) : Frame k (fun w => if c w then f w else g w) w := by
  intro node
  dsimp only
  by_cases h : c w
  . rw [if_pos h, if_pos ((hc node).mpr h), hf node]
  . rw [if_neg h, if_neg (fun hpoke => h ((hc node).mp hpoke)), hg node]

theorem frame_id : Frame k (fun w => w) w := by
  intro node
  rfl

theorem setNode_poke {h : ZOrderNode → ZOrderNode} (ha : a ≠ k)
    : (w.poke k node).setNode a h = (w.setNode a h).poke k node := by
  unfold poke Work.setNode ZOrderInfo.setNode
  dsimp only
  rw [update_of_ne ha, update_comm ha]

theorem frame_setNode {h : ZOrderNode → ZOrderNode} (ha : a ≠ k) : Frame k (fun w => w.setNode a h) w :=
  fun _ => setNode_poke ha

theorem frame_output {o : Output} : Frame k (fun w => w.output o) w := by
  intro node
  rfl

section Callbacks

variable {rc : Rect}

def FramedBody (k : Int) (body : Int → Work → Work) : Prop :=
  ∀ a, a ≠ k → ∀ w, Frame k (body a) w

theorem frame_intersectRc : FramedBody k (intersectRc rc) := by
  intro a ha w
  apply Frame.ite (c := fun w => ((w.zi.nodes a).visible && doesIntersect rc (w.zi.nodes a).rc) = true)
  . intro node
    rw [node_poke ha]
  . exact frame_setNode ha
  . exact frame_id

theorem frame_subtractNode : FramedBody k subtractNode := by
  intro a ha w node
  have hrgn : (w.poke k node).updateRgn = w.updateRgn := rfl
  unfold subtractNode
  dsimp only
  rw [node_poke ha, hrgn]
  split
  . exact frame_setNode (w := { w with updateRgn := (subtractClipRect w.updateRgn (w.zi.nodes a).rc).2 }) ha node
  . rfl

theorem frame_updateRc : FramedBody k updateRc := by
  intro a ha w
  apply Frame.ite (c := fun w => (w.zi.nodes a).visible = true)
  . intro node
    rw [node_poke ha]
  . exact frame_subtractNode a ha w
  . exact frame_id

theorem frame_updateUnmarked : FramedBody k updateUnmarked := by
  intro a ha w
  apply Frame.ite (c := fun w => ((w.zi.nodes a).visible && !(w.zi.nodes a).has ZOF_REFERENCE) = true)
  . intro node
    rw [node_poke ha]
  . exact frame_subtractNode a ha w
  . exact frame_id

theorem frame_updateClientWindow : FramedBody k (fun a w => updateClientWindow a rc w) := by
  intro a ha w node
  unfold updateClientWindow
  dsimp only
  rw [node_poke ha]
  split
  . rfl
  . rw [setNode_poke ha]
    rfl

theorem frame_updateZNode : FramedBody k (updateZNode rc) := by
  intro a ha w
  apply Frame.ite (c := fun w => ((w.zi.nodes a).visible && (w.zi.nodes a).has ZOF_REFERENCE) = true)
  . intro node
    rw [node_poke ha]
  . exact (frame_setNode ha).comp (frame_updateClientWindow a ha w)
  . exact frame_id

theorem frame_addCovered : FramedBody k (addCovered rc) := by
  intro a ha w node
  have hrgn : (w.poke k node).updateRgn = w.updateRgn := rfl
  unfold addCovered
  dsimp only
  rw [node_poke ha, hrgn]
  split <;> rfl

theorem frame_postMsg {message : Int} {wParam : Hwnd} (ha : a ≠ k) : Frame k (postMsg a message wParam) w := by
  intro node
  unfold postMsg
  rw [node_poke ha]
  rfl

theorem frame_updateClientWindowRgn (ha : a ≠ k) : Frame k (updateClientWindowRgn a) w := by
  intro node
  unfold updateClientWindowRgn
  rw [node_poke ha]
  rfl

end Callbacks

section Loops

variable {c : ZType → List Int} {t : ZType} {idx : Int} {stop : Int → Bool}

structure Apart (k : Int) (c : ZType → List Int) : Prop where
  desktop : k ≠ 0
  chain : ∀ t, k ∉ c t

theorem Apart.ne (h : Apart k c) (ha : a ∈ c t) : a ≠ k := by
  intro heq
  rw [heq] at ha
  exact h.chain t ha

theorem frame_foldl {l : List Int} (hbody : FramedBody k body) (hl : ∀ a ∈ l, a ≠ k)
    : Frame k (fun w => l.foldl (fun w a => body a w) w) w := by
  induction l generalizing w with
  | nil => exact frame_id
  | cons a l ih =>
    intro node
    dsimp only
    rw [foldl_cons, foldl_cons, hbody a (hl a mem_cons_self) w node]
    exact ih (fun b hb => hl b (mem_cons_of_mem a hb)) node

theorem frame_forZNodes {l : List Int} {slot : Int} (hcore : ∀ slot w, (body slot w).zi.core = w.zi.core)
    (hbody : FramedBody k body) (hl : Chain.Linked (fun a => DList.link 0 (w.zi.nodes a).next) (DList.link 0 slot) l)
    (hne : ∀ a ∈ l, a ≠ k) (hlast : stop 0 = true ∨ ∃ a ∈ l, stop a = true) (hlen : l.length ≤ w.zi.maxNrNodes)
    : Frame k (forZNodes stop body slot) w := by
  intro node
  have hl' : Chain.Linked (fun a => DList.link 0 ((w.poke k node).zi.nodes a).next) (DList.link 0 slot) l := by
    rw [@Chain.Linked.congr _ (fun a => DList.link 0 (w.zi.nodes a).next)]
    . exact hl
    . intro a ha
      rw [node_poke (hne a ha)]
  rw [forZNodes_eq hcore hl' hlast hlen, forZNodes_eq hcore hl hlast hlen]
  apply frame_foldl hbody
  intro a ha
  exact hne a ((List.takeWhile_prefix _).subset ha)

variable (hcore : ∀ slot w, (body slot w).zi.core = w.zi.core) (hbody : FramedBody k body) (h : Walks w.zi c)
  (hk : Apart k c)

include hcore hbody h hk

theorem frame_first (hstop : StopsAtEnd stop) (t : ZType) : Frame k (fun w => forZNodes stop body (w.zi.first t) w) w := by
  exact frame_forZNodes hcore hbody (h.linked t) (fun a ha => hk.ne ha) (.inl hstop.zero) (h.length_le t)

theorem frame_next (hstop : StopsAtEnd stop) (hidx : idx ∈ c t)
    : Frame k (fun w => forZNodes stop body (w.zi.nodes idx).next w) w := by
  intro node
  rcases append_of_mem hidx with ⟨done, rest, hc⟩
  dsimp only
  rw [node_poke (hk.ne hidx)]
  apply frame_forZNodes hcore hbody (h.linked_rest hc) _ (.inl hstop.zero) (h.length_rest_le hc)
  intro a ha
  apply hk.ne (t := t)
  rw [hc]
  simp [ha]

theorem frame_upto (hidx : idx ∈ c t)
    : Frame k (fun w => forZNodes (fun slot => slot = idx) body (w.zi.first t) w) w := by
  exact frame_forZNodes hcore hbody (h.linked t) (fun a ha => hk.ne ha) (.inr ⟨idx, hidx, by simp⟩) (h.length_le t)

theorem frame_doForAllZNodes (types : List ZType) : Frame k (doForAllZNodes body types) w := by
  induction types generalizing w with
  | nil => exact frame_id
  | cons t types ih =>
    intro node
    have hloop := frame_first hcore hbody h hk stopsAtEnd_atEnd t node
    have hsame : (forZNodes atEnd body (w.zi.first t) w).zi.core = w.zi.core := core_forZNodes hcore
    have hrest := ih (h.of_core hsame) node
    unfold doForAllZNodes at hrest ⊢
    dsimp only at hloop
    rw [foldl_cons, foldl_cons, hloop, hrest]

end Loops

section Lists

variable {zi : ZOrderInfo} {c : ZType → List Int} {t : ZType} {idx slot : Int}

theorem nodes_setNode_of_ne {h : ZOrderNode → ZOrderNode} (ha : a ≠ k) : (zi.setNode k h).nodes a = zi.nodes a := by
  unfold ZOrderInfo.setNode
  dsimp only
  rw [update_of_ne ha]

theorem setNode_comm {h h' : ZOrderNode → ZOrderNode} (ha : a ≠ k)
    : (zi.setNode k h').setNode a h = (zi.setNode a h).setNode k h' := by
  unfold ZOrderInfo.setNode
  dsimp only
  rw [update_of_ne ha, update_of_ne ha.symm, update_comm ha]

theorem dropFirst_setNode {g : ZOrderNode → ZOrderNode} (ha : idx ≠ k)
    : (zi.setNode k g).dropFirst t idx = (zi.dropFirst t idx).setNode k g := by
  unfold dropFirst
  rw [nodes_setNode_of_ne ha]
  split
  . next hfirst =>
    have hfirst' : zi.first t = idx := hfirst
    rw [if_pos hfirst']
    rfl
  rename_i hfirst
  have hfirst' : ¬zi.first t = idx := hfirst
  rw [if_neg hfirst']
  rfl

theorem ne_of_link {n : Int} (hk : Apart k c) (hn : n = 0 ∨ n ∈ c t) : n ≠ k := by
  rcases hn with hzero | hmem
  . rw [hzero]
    exact hk.desktop.symm
  . exact hk.ne hmem

variable (h : Chains zi.store c) (hk : Apart k c)

include h hk

variable (hidx : idx ∈ c t)

include hidx

theorem next_ne : (zi.nodes idx).next ≠ k :=
  ne_of_link hk ((h.valid t).next_mem hidx)

theorem prev_ne : (zi.nodes idx).prev ≠ k :=
  ne_of_link hk ((h.valid t).prev_mem hidx)

theorem unlinkZNode_setNode {g : ZOrderNode → ZOrderNode}
    : (zi.setNode k g).unlinkZNode idx = (zi.unlinkZNode idx).setNode k g := by
  have hne := hk.ne hidx
  have hnext := next_ne h hk hidx
  have hprev := prev_ne h hk hidx
  unfold unlinkZNode
  rw [nodes_setNode_of_ne hne]
  extract_lets prev zi1 next zi2 next'
  have h1 : zi1 = zi2.setNode k g := by
    unfold zi1 zi2
    split
    . exact setNode_comm hprev
    . rfl
  have hlink : (zi2.nodes idx).next = (zi.nodes idx).next := by
    unfold zi2
    split
    . unfold ZOrderInfo.setNode
      dsimp only
      by_cases hself : idx = prev
      . rw [← hself, update_self]
      . rw [update_of_ne hself]
    . rfl
  have hnode : zi1.nodes idx = zi2.nodes idx := by
    rw [h1, nodes_setNode_of_ne hne]
  have hsame : next = next' := by
    unfold next next'
    rw [hnode]
  have hfar : next' ≠ k := by
    unfold next'
    rw [hlink]
    exact hnext
  rw [hsame, hnode, h1]
  split
  . exact setNode_comm hfar
  . rfl

theorem unchainZNode_setNode {g : ZOrderNode → ZOrderNode}
    : (zi.setNode k g).unchainZNode idx = (zi.unchainZNode idx).setNode k g := by
  unfold unchainZNode
  rw [unlinkZNode_setNode h hk hidx]
  extract_lets zi1 zi2 zi3 zi4
  exact @setNode_comm _ _ zi4 _ _ (hk.ne hidx)

theorem freeZNode_setNode {g : ZOrderNode → ZOrderNode}
    : (zi.setNode k g).freeZNode t idx = (zi.freeZNode t idx).setNode k g := by
  have hne := hk.ne hidx
  unfold freeZNode
  rw [unchainZNode_setNode h hk hidx, setNode_comm hne]
  extract_lets zi1 zi2 zi3 zi4
  have hdrop : zi2 = zi4.setNode k g := @dropFirst_setNode _ zi3 _ _ _ hne
  rw [hdrop]
  split
  . next hactive =>
    have hactive' : idx = zi4.activeWin := hactive
    rw [if_pos hactive']
    rfl
  . next hactive =>
    have hactive' : ¬idx = zi4.activeWin := hactive
    rw [if_neg hactive']

omit h hk hidx in
theorem first_unlinkZNode : (zi.unlinkZNode idx).first = zi.first := by
  unfold unlinkZNode
  extract_lets prev zi1 next
  have h1 : zi1.first = zi.first := by
    unfold zi1
    split <;> rfl
  rw [← h1]
  split <;> rfl

theorem raiseZNode_setNode {g : ZOrderNode → ZOrderNode}
    : (zi.setNode k g).raiseZNode t idx = (zi.raiseZNode t idx).setNode k g := by
  have hne := hk.ne hidx
  unfold raiseZNode
  rw [unlinkZNode_setNode h hk hidx]
  extract_lets zi1 first zi2 zi3 zi4 first' zi5 zi6
  have hsame : first = first' := rfl
  have hfirst : first' ≠ k := by
    unfold first' zi4
    rw [first_unlinkZNode]
    exact ne_of_link hk (h.valid t).first_mem
  have h2 : zi2 = zi5.setNode k g := @setNode_comm _ _ zi4 _ _ hne
  have h3 : zi3 = zi6.setNode k g := by
    unfold zi3
    rw [h2, hsame]
    exact setNode_comm hfirst
  rw [h3]
  rfl

omit h hk hidx in
theorem insertZNode_setNode {g : ZOrderNode → ZOrderNode} (hslot : slot ≠ k) (hfirst : zi.first t ≠ k)
    : (zi.setNode k g).insertZNode t slot = (zi.insertZNode t slot).setNode k g := by
  unfold insertZNode
  extract_lets oldFirst zi1 zi2 oldFirst' zi3 zi4
  have hsame : oldFirst = oldFirst' := rfl
  have h1 : zi1 = zi3.setNode k g := by
    unfold zi1
    rw [hsame]
    exact setNode_comm hfirst
  have h2 : zi2 = zi4.setNode k g := by
    unfold zi2
    rw [h1, hsame]
    exact setNode_comm hslot
  rw [h2]
  rfl

end Lists

theorem frame_onZi {F : ZOrderInfo → ZOrderInfo}
    (hF : ∀ node, F (w.zi.setNode k (fun _ => node)) = (F w.zi).setNode k (fun _ => node))
    : Frame k (fun w => w.onZi F) w := by
  intro node
  unfold onZi poke Work.setNode
  dsimp only
  rw [hF]

section Desktop

variable {c : ZType → List Int} {rcScr rc : Rect}

theorem frame_updateDesktop (hk : k ≠ 0) : Frame k (updateDesktop rcScr) w := by
  intro node
  have hrgn : (w.poke k node).updateRgn = w.updateRgn := rfl
  unfold updateDesktop
  dsimp only
  rw [hrgn]
  split
  . exact setNode_poke (w := { w with updateRgn := (subtractClipRect w.updateRgn rcScr).2 }) hk.symm
  . rfl

theorem frame_updateDesktopUnmarked (hk : k ≠ 0) : Frame k (updateDesktopUnmarked rcScr) w := by
  apply Frame.ite (c := fun w => (w.zi.nodes 0).has ZOF_REFERENCE = true)
  . intro node
    rw [node_poke hk.symm]
  . exact frame_id
  . exact frame_updateDesktop hk

theorem frame_intersectDesktop (hk : k ≠ 0) : Frame k (fun w => w.intersectDesktop rcScr rc) w := by
  apply Frame.ite (c := fun _ => doesIntersect rc rcScr = true)
  . intro node
    rfl
  . exact frame_setNode hk.symm
  . exact frame_id

theorem setUpdateRgn_poke : (w.poke k node).setUpdateRgn rc = (w.setUpdateRgn rc).poke k node := by
  rfl

variable (h : Walks w.zi c) (hk : Apart k c)

include h hk

theorem frame_updateDirty : Frame k (fun w => w.updateDirty rc) w := by
  have hall := frame_doForAllZNodes (fun _ _ => @core_updateZNode _ _ rc) frame_updateZNode h hk ZT_ALL
  have hmark : Frame k (fun w =>
      if (w.zi.nodes 0).has ZOF_REFERENCE = true then
        (w.output (.eraseDesktop rc)).setNode 0 (fun node => node.clearFlag ZOF_REFERENCE)
      else
        w) (w.doForAllZNodes (updateZNode rc) ZT_ALL) := by
    apply Frame.ite (c := fun w => (w.zi.nodes 0).has ZOF_REFERENCE = true)
    . intro node
      rw [node_poke hk.desktop.symm]
    . exact (frame_setNode hk.desktop.symm).comp frame_output
    . exact frame_id
  exact hmark.comp hall

end Desktop

section Locked

variable {c : ZType → List Int} {t : ZType} {idx slot cli : Int} {rcScr rc : Rect} {type : BitVec 32}
  {node : ZOrderNode}

variable (h : Walks w.zi c) (hk : Apart k c)

include h hk

theorem frame_updateBelow (hidx : idx ∈ c t) (hcore : ∀ slot w, (body slot w).zi.core = w.zi.core)
    (hbody : FramedBody k body) : Frame k (updateBelow type idx body) w := by
  intro node
  have hnext := frame_next hcore hbody h hk stopsAtEnd_atEnd hidx node
  dsimp only at hnext
  have hif : ∀ {c' : Prop} [Decidable c'] {t : ZType} {w : Work}, Walks w.zi c →
      (if c' then forZNodes atEnd body ((w.poke k node).zi.first t) (w.poke k node) else w.poke k node)
        = (if c' then forZNodes atEnd body (w.zi.first t) w else w).poke k node := by
    intro c' _ t w h
    split
    . exact frame_first hcore hbody h hk stopsAtEnd_atEnd t node
    . rfl
  unfold updateBelow
  dsimp only
  rw [hnext, hif, hif]
  . have hcore2 : ∀ {c' : Prop} [Decidable c'] {t : ZType} {w : Work},
        (if c' then forZNodes atEnd body (w.zi.first t) w else w).zi.core = w.zi.core := by
      intro c' _ t w
      split
      . exact core_forZNodes hcore
      . rfl
    apply h.of_core
    rw [hcore2, core_forZNodes hcore]
  . exact h.of_core (core_forZNodes hcore)

theorem frame_uncover (hidx : idx ∈ c t) : Frame k (uncover rcScr type idx) w := by
  intro node
  have hne := hk.ne hidx
  unfold uncover
  extract_lets w1 w2
  have h1 : w1 = w2.poke k node := by
    unfold w1 w2
    rw [node_poke hne]
    rfl
  have hbelow := @frame_updateBelow w2 _ _ _ _ _ type h hk hidx (fun _ _ => core_updateRc) frame_updateRc
  rw [h1, node_poke hne, hbelow, frame_updateDesktop hk.desktop]
  split <;> rfl

theorem frame_hideLocked (hidx : idx ∈ c t) : Frame k (hideLocked rcScr type idx) w := by
  have hne := hk.ne hidx
  intro node
  rw [hideLocked_eq, hideLocked_eq, frame_uncover h hk hidx]
  dsimp only
  rw [node_poke hne]
  split
  . rw [frame_postMsg hne, frame_postMsg hne, frame_postMsg hne, setNode_poke hne]
  . rw [setNode_poke hne]

theorem frame_firstIf {c' : Prop} [Decidable c'] (hcore : ∀ slot w, (body slot w).zi.core = w.zi.core)
    (hbody : FramedBody k body) (t : ZType)
    : (if c' then forZNodes atEnd body ((w.poke k node).zi.first t) (w.poke k node) else w.poke k node)
        = (if c' then forZNodes atEnd body (w.zi.first t) w else w).poke k node := by
  split
  . exact frame_first hcore hbody h hk stopsAtEnd_atEnd t node
  . rfl

omit h hk in
theorem core_firstIf {c' : Prop} [Decidable c'] (hcore : ∀ slot w, (body slot w).zi.core = w.zi.core) (t : ZType)
    : (if c' then forZNodes atEnd body (w.zi.first t) w else w).zi.core = w.zi.core := by
  split
  . exact core_forZNodes hcore
  . rfl

theorem frame_allIf {c' : Prop} [Decidable c'] (hcore : ∀ slot w, (body slot w).zi.core = w.zi.core)
    (hbody : FramedBody k body) (types : List ZType)
    : (if c' then doForAllZNodes body types (w.poke k node) else w.poke k node)
        = (if c' then doForAllZNodes body types w else w).poke k node := by
  split
  . exact frame_doForAllZNodes hcore hbody h hk types node
  . rfl

omit h hk in
theorem core_allIf {c' : Prop} [Decidable c'] (hcore : ∀ slot w, (body slot w).zi.core = w.zi.core)
    (types : List ZType) : (if c' then doForAllZNodes body types w else w).zi.core = w.zi.core := by
  split
  . exact core_doForAllZNodes hcore types
  . rfl

theorem frame_allocLocked {new : ZOrderNode} (hslot : slot ≠ k)
    : Frame k (allocLocked rcScr type t new slot) w := by
  intro node
  have hcore : ∀ slot w, (intersectRc new.rc slot w).zi.core = w.zi.core := fun _ _ => core_intersectRc
  unfold allocLocked
  rw [setNode_poke hslot]
  extract_lets w0 w1 w2 w3 w4 v0 v1 v2 v3 v4
  have hv0 : Walks v0.zi c := by
    have hset := @Walks.setNode _ slot _ (fun old => { new with dirtyRc := old.dirtyRc, next := old.next, prev := old.prev }) h
    apply hset
    intro old
    rfl
  have hv1 : Walks v1.zi c := hv0.of_core (core_firstIf hcore .normal)
  have hv2 : Walks v2.zi c := hv1.of_core (core_firstIf hcore .topmost)
  have h1 : w1 = v1.poke k node := frame_firstIf hv0 hk hcore frame_intersectRc .normal
  have h2 : w2 = v2.poke k node := by
    unfold w2
    rw [h1]
    exact frame_firstIf hv1 hk hcore frame_intersectRc .topmost
  have h3 : w3 = v3.poke k node := by
    unfold w3
    rw [h2]
    exact frame_firstIf hv2 hk hcore frame_intersectRc .global
  have h4 : w4 = v4.poke k node := by
    unfold w4 v4
    split
    . rw [h3]
      exact frame_intersectDesktop hk.desktop node
    . rfl
  have hv3 : Walks v3.zi c := hv2.of_core (core_firstIf hcore .global)
  have hv4 : Walks v4.zi c := by
    unfold v4
    split
    . exact hv3.of_core core_intersectDesktop
    . exact hv0
  rw [h4]
  apply frame_onZi
  intro node
  exact insertZNode_setNode hslot (ne_of_link hk hv4.first_mem)

theorem frame_showLocked (hidx : idx ∈ c t) : Frame k (showLocked rcScr type idx) w := by
  intro node
  have hne := hk.ne hidx
  have hcore : ∀ slot w, (intersectRc (w.zi.nodes idx).rc slot w).zi.core = w.zi.core := fun _ _ => core_intersectRc
  unfold showLocked
  rw [node_poke hne]
  extract_lets rc w1 w2 w3 w4 w5 v1 v2 v3 v4 v5
  have hcore : ∀ slot w, (intersectRc rc slot w).zi.core = w.zi.core := fun _ _ => core_intersectRc
  have hv1 : Walks v1.zi c := h.of_core (core_allIf hcore [.normal])
  have hv2 : Walks v2.zi c := hv1.of_core (core_allIf hcore [.topmost])
  have hv3 : Walks v3.zi c := hv2.of_core (core_allIf hcore [.global])
  have h1 : w1 = v1.poke k node := frame_allIf h hk hcore frame_intersectRc [.normal]
  have h2 : w2 = v2.poke k node := by
    unfold w2
    rw [h1]
    exact frame_allIf hv1 hk hcore frame_intersectRc [.topmost]
  have h3 : w3 = v3.poke k node := by
    unfold w3
    rw [h2]
    exact frame_allIf hv2 hk hcore frame_intersectRc [.global]
  have h4 : w4 = v4.poke k node := by
    unfold w4
    rw [h3]
    exact frame_next hcore frame_intersectRc hv3 hk stopsAtEnd_zero hidx node
  have h5 : w5 = v5.poke k node := by
    unfold w5
    rw [h4]
    exact frame_intersectDesktop hk.desktop node
  rw [h5, setNode_poke hne]

theorem frame_moveLocked (hidx : idx ∈ c t) : Frame k (moveLocked rcScr type idx rc) w := by
  intro node
  have hne := hk.ne hidx
  have hcore : ∀ slot w, (intersectRc rc slot w).zi.core = w.zi.core := fun _ _ => core_intersectRc
  unfold moveLocked
  rw [node_poke hne]
  extract_lets rcInv w1 w2 w3 w4 piece w5 v1 v2 v3 v4 v5
  have hv1 : Walks v1.zi c := h.of_core (core_allIf hcore [.normal])
  have hv2 : Walks v2.zi c := hv1.of_core (core_allIf hcore [.topmost])
  have hv3 : Walks v3.zi c := hv2.of_core (core_forZNodes hcore)
  have hv4 : Walks v4.zi c := hv3.of_core core_intersectDesktop
  have h1 : w1 = v1.poke k node := frame_allIf h hk hcore frame_intersectRc [.normal]
  have h2 : w2 = v2.poke k node := by
    unfold w2
    rw [h1]
    exact frame_allIf hv1 hk hcore frame_intersectRc [.topmost]
  have h3 : w3 = v3.poke k node := by
    unfold w3
    rw [h2]
    exact frame_next hcore frame_intersectRc hv2 hk stopsAtEnd_zero hidx node
  have h4 : w4 = v4.poke k node := by
    unfold w4
    rw [h3]
    exact frame_intersectDesktop hk.desktop node
  have hpiece : ∀ (rcs : List Rect) (w : Work), Walks w.zi c
    → rcs.foldl piece (w.poke k node) = (rcs.foldl piece w).poke k node := by
    intro rcs
    induction rcs with
    | nil =>
      intro w _
      rfl
    | cons rc' rcs ih =>
      intro w hw
      have hrgn : (w.setUpdateRgn rc').zi = w.zi := zi_setUpdateRgn
      rw [← hrgn] at hw
      have hbelow := @frame_updateBelow _ _ _ _ _ _ type hw hk hidx (fun _ _ => core_updateUnmarked) frame_updateUnmarked node
      have hstep : piece (w.poke k node) rc' = (piece w rc').poke k node := by
        unfold piece
        rw [setUpdateRgn_poke, hbelow]
        exact frame_updateDesktopUnmarked hk.desktop node
      rw [foldl_cons, foldl_cons, hstep]
      apply ih
      apply hw.of_core
      unfold piece
      rw [core_updateDesktopUnmarked, core_updateBelow (fun _ _ => core_updateUnmarked)]
  have h5 : w5 = v5.poke k node := by
    unfold w5
    rw [h4]
    exact hpiece rcInv v4 hv4
  rw [h5, setNode_poke hne]

end Locked

section Freed

variable {c : ZType → List Int} {t : ZType} {idx : Int} {rcScr : Rect} {type : BitVec 32}

theorem frame_freeLocked (h : Chains w.zi.store c) (hk : Apart k c) (hidx : idx ∈ c t)
    : Frame k (freeLocked rcScr type t idx) w := by
  intro node
  rw [freeLocked_eq, freeLocked_eq, frame_uncover (walks h) hk hidx]
  apply frame_onZi
  intro node
  apply freeZNode_setNode _ hk hidx
  rw [store_of_core core_uncover]
  exact h

def raiseOver (rc : Rect) (slot : Int) (w : Work) : Work :=
  let node := w.zi.nodes slot
  if node.visible && doesIntersect rc node.rc then
    let w := w.setNode slot ZOrderNode.bumpAge
    { w with updateRgn := (addClipRect w.updateRgn node.rc).2 }
  else
    w

theorem core_raiseOver {rc : Rect} {slot : Int} {w : Work} : (raiseOver rc slot w).zi.core = w.zi.core := by
  unfold raiseOver
  dsimp only
  split
  . apply core_setNode
    simp
  . rfl

theorem frame_raiseOver {rc : Rect} : FramedBody k (raiseOver rc) := by
  intro a ha w node
  unfold raiseOver
  dsimp only
  rw [node_poke ha]
  split
  . rw [setNode_poke ha]
    rfl
  . rfl

theorem move2TopLocked_eq : move2TopLocked t idx w
        =
      let node := w.zi.nodes idx
      let w := if node.visible then forZNodes (fun slot => slot = idx) (raiseOver node.rc) (w.zi.first t) w else w
      (w.onZi (fun zi => zi.raiseZNode t idx)).setNode idx ZOrderNode.bumpAge := by
  rfl

theorem frame_move2TopLocked (h : Chains w.zi.store c) (hk : Apart k c) (hidx : idx ∈ c t)
    : Frame k (move2TopLocked t idx) w := by
  intro node
  have hne := hk.ne hidx
  have hcore : ∀ slot w', (raiseOver (w.zi.nodes idx).rc slot w').zi.core = w'.zi.core := fun _ _ => core_raiseOver
  rw [move2TopLocked_eq, move2TopLocked_eq, node_poke hne]
  extract_lets old w1 v1
  have h1 : w1 = v1.poke k node := by
    unfold w1 v1
    split
    . exact frame_upto hcore frame_raiseOver (walks h) hk hidx node
    . rfl
  have hstore : Chains v1.zi.store c := by
    have hv1 : v1.zi.core = w.zi.core := by
      unfold v1
      split
      . exact core_forZNodes hcore
      . rfl
    rw [store_of_core hv1]
    exact h
  have hraise := frame_onZi (w := v1) (k := k) (F := fun zi => zi.raiseZNode t idx)
    (fun node => raiseZNode_setNode hstore hk hidx) node
  rw [h1]
  dsimp only at hraise
  rw [hraise, setNode_poke hne]

end Freed

section Menus

variable {c : ZType → List Int} {idx cli : Int} {rcScr rc : Rect} (h : Walks w.zi c) (hk : Apart k c)

include h hk

theorem frame_startMenuLocked {ptmi : Hwnd} : Frame k (startMenuLocked rcScr cli rc ptmi) w := by
  intro node
  have hall := frame_doForAllZNodes (fun _ _ => @core_intersectRc _ _ rc) frame_intersectRc h hk ZT_ALL node
  have hdesktop := @frame_intersectDesktop (w.doForAllZNodes (intersectRc rc) ZT_ALL) _ rcScr rc hk.desktop node
  unfold startMenuLocked
  dsimp only at hdesktop ⊢
  rw [hall, hdesktop]
  rfl

theorem frame_updateAll (hcore : ∀ slot w, (body slot w).zi.core = w.zi.core) (hbody : FramedBody k body)
    : Frame k (fun w => ((w.setUpdateRgn rc).doForAllZNodes body ZT_ALL).updateDesktop rcScr) w := by
  intro node
  have hrgn : (w.setUpdateRgn rc).zi = w.zi := zi_setUpdateRgn
  rw [← hrgn] at h
  dsimp only
  rw [setUpdateRgn_poke, frame_doForAllZNodes hcore hbody h hk, frame_updateDesktop hk.desktop]

theorem frame_endMenuLocked : Frame k (endMenuLocked rcScr rc) w := by
  intro node
  have hall := @frame_updateAll _ _ _ _ rcScr rc h hk (fun _ _ => core_updateRc) frame_updateRc node
  unfold endMenuLocked
  dsimp only at hall ⊢
  rw [hall]
  rfl

theorem frame_closeMenusLocked (hcore : ∀ slot w, (body slot w).zi.core = w.zi.core) (hbody : FramedBody k body)
    : Frame k (closeMenusLocked rcScr body) w := by
  intro node
  have hall := @frame_updateAll _ _ _ _ rcScr w.zi.boundMenus h hk hcore hbody node
  have hmenus : (w.poke k node).zi.boundMenus = w.zi.boundMenus := rfl
  unfold closeMenusLocked
  rw [hmenus]
  dsimp only at hall ⊢
  rw [hall]
  rfl

omit h hk in
theorem addRects_poke (rcs : List Rect)
    : rcs.foldl (fun w rc => { w with updateRgn := (addClipRect w.updateRgn rc).2 }) (w.poke k node)
        = (rcs.foldl (fun w rc => { w with updateRgn := (addClipRect w.updateRgn rc).2 }) w).poke k node := by
  induction rcs generalizing w with
  | nil => rfl
  | cons rc' rcs ih =>
    rw [foldl_cons, foldl_cons, ← ih]
    rfl

omit h hk in
theorem zi_addRects (rcs : List Rect)
    : (rcs.foldl (fun w rc => { w with updateRgn := (addClipRect w.updateRgn rc).2 }) w).zi = w.zi := by
  induction rcs generalizing w with
  | nil => rfl
  | cons rc' rcs ih => rw [foldl_cons, ih]

theorem frame_moveInvalid {type : BitVec 32} {t : ZType} {rcOld rcWin : Rect} {erase : Bool} (hidx : idx ∈ c t)
    : Frame k (moveInvalid rcScr type t idx rcOld rcWin erase) w := by
  intro node
  have hne := hk.ne hidx
  have hcore : ∀ slot w, (addCovered rcOld slot w).zi.core = w.zi.core := by
    intro slot w
    rw [zi_addCovered]
  have hdirty : ∀ slot w, (updateZNode rcOld slot w).zi.core = w.zi.core := fun _ _ => core_updateZNode
  unfold moveInvalid
  extract_lets w1 add w2 w3 w4 w5 w6 w7 w8 w9 v1 v2 v3 v4 v5 v6 v7 v8 v9
  have h2 : w2 = v2.poke k node := addRects_poke (w := v1) _
  have hv2 : Walks v2.zi c := by
    unfold v2 add
    rw [zi_addRects]
    exact h
  have h3 : w3 = v3.poke k node := by
    unfold w3
    rw [h2]
    exact frame_firstIf hv2 hk hcore frame_addCovered .global
  have hv3 : Walks v3.zi c := hv2.of_core (core_firstIf hcore .global)
  have h4 : w4 = v4.poke k node := by
    unfold w4
    rw [h3]
    exact frame_firstIf hv3 hk hcore frame_addCovered .topmost
  have hv4 : Walks v4.zi c := hv3.of_core (core_firstIf hcore .topmost)
  have h5 : w5 = v5.poke k node := by
    unfold w5
    rw [h4]
    exact frame_upto hcore frame_addCovered hv4 hk hidx node
  have hv5 : Walks v5.zi c := hv4.of_core (core_forZNodes hcore)
  have h6 : w6 = v6.poke k node := by
    unfold w6
    rw [h5]
    exact frame_doForAllZNodes hdirty frame_updateZNode hv5 hk ZT_ALL node
  have h8 : w8 = v8.poke k node := by
    unfold w8 w7
    rw [h6, node_poke hk.desktop.symm]
    unfold v8 v7
    split
    . rw [← setNode_poke hk.desktop.symm]
      cases erase <;> rfl
    . rfl
  unfold w9
  rw [h8]
  exact frame_updateClientWindowRgn (w := v9) hne node

end Menus

end MiniGui.Work
