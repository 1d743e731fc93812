import MiniGui.Desktop.StoreSteps

namespace MiniGui.Work

open Chain

open Store ZOrderInfo

variable {w : Work} {c : ZType → List Int} {t : ZType} {slot idx : Int} {stop : Int → Bool} {body : Int → Work → Work}

section Folds

variable (hbody : ∀ slot w, (body slot w).zi.core = w.zi.core)

include hbody

variable {l : List Int} (hl : Linked (fun a => DList.link 0 (w.zi.nodes a).next) (DList.link 0 slot) l)
include hl

variable (hlast : stop 0 = true ∨ ∃ a ∈ l, stop a = true)
include hlast

theorem loop_eq {fuel : Nat} (hfuel : l.length < fuel)
    : loop stop body fuel slot w = (l.takeWhile (fun a => !stop a)).foldl (fun w a => body a w) w := by
  induction l generalizing slot fuel w with
  | nil =>
    rw [linked_nil, DList.link_eq_none] at hl
    cases fuel with
    | zero => simp at hfuel
    | succ fuel =>
      rcases hlast with hzero | ⟨a, hmem, _⟩
      . rw [loop, hl, if_pos hzero]
        rfl
      . simp at hmem
  | cons a l ih =>
    rw [linked_cons, DList.link_eq_some] at hl
    cases fuel with
    | zero => simp at hfuel
    | succ fuel =>
      rw [List.length_cons] at hfuel
      rw [loop, hl.1.1]
      by_cases ha : stop a = true
      . rw [if_pos ha, List.takeWhile_cons_of_neg (by simp [ha])]
        rfl
      rw [if_neg ha, List.takeWhile_cons_of_pos (by simp [ha]), List.foldl_cons]
      have hnext : ∀ b, ((body a w).zi.nodes b).next = (w.zi.nodes b).next := next_eq_of_core (hbody a w)
      apply ih
      . simp only [hnext]
        exact hl.2
      . rcases hlast with hzero | ⟨b, hmem, hb⟩
        . exact .inl hzero
        right
        rw [List.mem_cons] at hmem
        rcases hmem with heq | hmem
        . rw [heq] at hb
          exact absurd hb ha
        . exact ⟨b, hmem, hb⟩
      . omega

theorem forZNodes_eq (hlen : l.length ≤ w.zi.maxNrNodes)
    : forZNodes stop body slot w = (l.takeWhile (fun a => !stop a)).foldl (fun w a => body a w) w := by
  unfold forZNodes
  apply loop_eq hbody hl hlast
  omega

end Folds

structure StopsAtEnd (stop : Int → Bool) : Prop where
  zero : stop 0 = true
  pos : ∀ slot, 0 < slot → stop slot = false

theorem stopsAtEnd_atEnd : StopsAtEnd atEnd := by
  constructor
  . rfl
  . intro slot hslot
    simp [atEnd, hslot]

theorem stopsAtEnd_zero : StopsAtEnd (fun slot => slot = 0) := by
  constructor
  . rfl
  . intro slot hslot
    have hne : slot ≠ 0 := by omega
    simp [hne]

structure Walks (zi : ZOrderInfo) (c : ZType → List Int) : Prop where
  linked : ∀ t, Linked (fun a => DList.link 0 (zi.nodes a).next) (DList.link 0 (zi.first t)) (c t)
  pos : ∀ t, ∀ a ∈ c t, 0 < a
  length_le : ∀ t, (c t).length ≤ zi.maxNrNodes

theorem walks {zi : ZOrderInfo} (h : Chains zi.store c) : Walks zi c := by
  constructor
  . intro t
    exact (h.valid t).forward
  . intro t a ha
    exact h.pos ha
  . intro t
    exact h.length_le

section Walks

variable {zi zi' : ZOrderInfo}

theorem Walks.of_core (h : Walks zi c) (hcore : zi'.core = zi.core) : Walks zi' c := by
  constructor
  . intro t
    have hlinked := h.linked t
    simp only [next_eq_of_core hcore, first_eq_of_core hcore]
    exact hlinked
  . exact h.pos
  . rw [maxNrNodes_eq_of_core hcore]
    exact h.length_le

theorem Walks.setNode {f : ZOrderNode → ZOrderNode} (h : Walks zi c) (hf : ∀ node, (f node).next = node.next)
    : Walks (zi.setNode slot f) c := by
  constructor
  . intro t
    have hlinked := h.linked t
    simp only [field_setNode (p := ZOrderNode.next) hf]
    exact hlinked
  . exact h.pos
  . exact h.length_le

theorem Walks.first_mem (h : Walks zi c) : zi.first t = 0 ∨ zi.first t ∈ c t := by
  have hlinked := h.linked t
  cases hc : c t with
  | nil =>
    rw [hc, linked_nil, DList.link_eq_none] at hlinked
    exact .inl hlinked
  | cons a l =>
    rw [hc, linked_cons, DList.link_eq_some] at hlinked
    right
    rw [hlinked.1.1]
    exact List.mem_cons_self

theorem Walks.linked_rest {done rest : List Int} (h : Walks zi c) (hc : c t = done ++ idx :: rest)
    : Linked (fun a => DList.link 0 (zi.nodes a).next) (DList.link 0 (zi.nodes idx).next) rest := by
  have hforward := h.linked t
  rw [hc] at hforward
  rw [Linked, seg_append] at hforward
  rcases hforward with ⟨mid, _, hmid⟩
  exact hmid.2

theorem Walks.length_rest_le {done rest : List Int} (h : Walks zi c) (hc : c t = done ++ idx :: rest)
    : rest.length ≤ zi.maxNrNodes := by
  have hlen := h.length_le t
  rw [hc, List.length_append, List.length_cons] at hlen
  omega

end Walks

section Chains

variable (hbody : ∀ slot w, (body slot w).zi.core = w.zi.core) (h : Walks w.zi c)

include hbody h

end Chains

section Uncover

variable {rcScr : Rect} {type : BitVec 32}

def uncover (rcScr : Rect) (type : BitVec 32) (idx : Int) (w : Work) : Work :=
  let w := w.setUpdateRgn (w.zi.nodes idx).rc
  if (w.zi.nodes idx).visible then (w.updateBelow type idx updateRc).updateDesktop rcScr else w

theorem core_uncover : (uncover rcScr type idx w).zi.core = w.zi.core := by
  unfold uncover
  extract_lets w1
  split
  . rw [core_updateDesktop, core_updateBelow (fun _ _ => core_updateRc)]
    rfl
  . rfl

theorem freeLocked_eq
    : freeLocked rcScr type t idx w = (uncover rcScr type idx w).onZi (fun zi => zi.freeZNode t idx) := by
  rfl

theorem hideLocked_eq : hideLocked rcScr type idx w
        =
      let w := uncover rcScr type idx w
      let node := w.zi.nodes idx
      let w :=
        if idx ≠ 0 ∧ node.has ZOF_TF_MAINWIN ∧ node.visible then
          ((w.postMsg idx MSG_NCACTIVATE 0).postMsg idx MSG_ACTIVE 0).postMsg idx MSG_KILLFOCUS 0
        else
          w
      w.setNode idx (fun node => node.clearFlag ZOF_VISIBLE) := by
  rfl

end Uncover

end MiniGui.Work
