import MiniGui.Desktop.Clipping
import MiniGui.Desktop.Loops

namespace MiniGui

open Function List Chain Server

open Store Work

def ZOrderNode.activatable (node : ZOrderNode) : Bool :=
  node.has ZOF_TF_MAINWIN && node.visible && !node.has ZOF_DISABLED

theorem unlinked_activatable : ZOrderInfo.Unlinked ZOrderNode.activatable := by
  constructor <;> intros <;> rfl

namespace ZOrderInfo

def heir (zi : ZOrderInfo) (t : ZType) (idx : Int) : Int :=
  let below := (zi.slots t).dropWhile (fun slot => slot ≠ idx)
  (((below ++ zi.stack).filter (fun slot => slot ≠ idx)).find? (fun slot => (zi.nodes slot).activatable)).getD 0

variable {zi zi' : ZOrderInfo} {c : ZType → List Int} {t : ZType} {slot idx start : Int} {l rest : List Int}

theorem activatable_eq_of_core (h : zi'.core = zi.core) (slot : Int)
    : (zi'.nodes slot).activatable = (zi.nodes slot).activatable := by
  unfold ZOrderNode.activatable
  rw [has_eq_of_core h slot (by decide), has_eq_of_core h slot (by decide), visible_eq_of_core h slot]

def From (zi : ZOrderInfo) (slot : Int) (l : List Int) : Prop :=
  Linked (fun a => DList.link 0 (zi.nodes a).next) (DList.link 0 slot) l

theorem From.of_core (h : zi'.core = zi.core) : zi'.From slot l ↔ zi.From slot l := by
  unfold From
  simp only [next_eq_of_core h]

theorem nextMainWin_eq {fuel : Nat} (hl : zi.From slot l) (hfuel : l.length < fuel)
    : nextMainWin zi fuel slot = l.find? (fun a => (zi.nodes a).activatable) := by
  induction l generalizing slot fuel with
  | nil =>
    unfold From at hl
    rw [linked_nil, DList.link_eq_none] at hl
    cases fuel with
    | zero => simp at hfuel
    | succ fuel =>
      rw [nextMainWin, if_pos hl, find?_nil]
  | cons a l ih =>
    unfold From at hl
    rw [linked_cons, DList.link_eq_some] at hl
    cases fuel with
    | zero => simp at hfuel
    | succ fuel =>
      rw [length_cons] at hfuel
      have hrest := @ih _ fuel hl.2 (by omega)
      rw [nextMainWin, hl.1.1, if_neg hl.1.2, find?_cons]
      dsimp only
      rw [hrest]
      cases hmain : (zi.nodes a).has ZOF_TF_MAINWIN <;> cases hvisible : (zi.nodes a).visible
        <;> cases hdisabled : (zi.nodes a).has ZOF_DISABLED 
        <;> simp [ZOrderNode.activatable, hmain, hvisible, hdisabled]

theorem getNextVisibleMainwin_eq (h : Walks zi c) (hstart : start ≠ 0 → zi.From (zi.nodes start).next rest)
    (hlen : rest.length ≤ zi.maxNrNodes) (hzero : start = 0 → rest = [])
    : getNextVisibleMainwin zi start
        = ((rest ++ (c .global ++ c .topmost ++ c .normal)).find? (fun a => (zi.nodes a).activatable)).getD 0 := by
  have hfind : ∀ t, nextMainWin zi (zi.maxNrNodes + 1) (zi.first t)
      = (c t).find? (fun a => (zi.nodes a).activatable) := by
    intro t
    have hle := h.length_le t
    apply nextMainWin_eq (h.linked t)
    omega
  have hrest : (if start ≠ 0 then nextMainWin zi (zi.maxNrNodes + 1) (zi.nodes start).next else none)
      = rest.find? (fun a => (zi.nodes a).activatable) := by
    split
    . next hne =>
      apply nextMainWin_eq (hstart hne)
      omega
    . next hne =>
      rw [hzero (not_not.mp hne)]
      rfl
  unfold getNextVisibleMainwin
  extract_lets find rest'
  unfold rest' find
  rw [hrest, hfind, hfind, hfind, find?_append, find?_append, find?_append, Option.or_assoc]

theorem getNextVisibleMainwin_mem (h : Walks zi c) (hstart : start ≠ 0 → zi.From (zi.nodes start).next rest)
    (hlen : rest.length ≤ zi.maxNrNodes) (hzero : start = 0 → rest = []) (hrest : ∀ a ∈ rest, ∃ t, a ∈ c t)
    : getNextVisibleMainwin zi start = 0 ∨ ∃ t, getNextVisibleMainwin zi start ∈ c t := by
  rw [getNextVisibleMainwin_eq h hstart hlen hzero]
  cases hfind : (rest ++ (c .global ++ c .topmost ++ c .normal)).find? (fun a => (zi.nodes a).activatable) with
  | none =>
    left
    rfl
  | some a =>
    right
    have hmem := mem_of_find?_eq_some hfind
    rw [mem_append, mem_append, mem_append] at hmem
    rcases hmem with hmem | (hmem | hmem) | hmem
    . exact hrest a hmem
    . exact ⟨.global, hmem⟩
    . exact ⟨.topmost, hmem⟩
    . exact ⟨.normal, hmem⟩

theorem from_rest {done : List Int} (h : Walks zi c) (hc : c t = done ++ rest) (hhead : DList.link 0 slot = rest.head?)
    : zi.From slot rest := by
  have hlinked := h.linked t
  rw [hc, Linked, seg_append] at hlinked
  rcases hlinked with ⟨mid, _, hmid⟩
  have hmid : Linked (fun a => DList.link 0 (zi.nodes a).next) mid rest := hmid
  have heq : mid = rest.head? := by
    cases rest with
    | nil =>
      rw [linked_nil] at hmid
      exact hmid
    | cons a rest =>
      rw [linked_cons] at hmid
      exact hmid.1
  unfold From
  rw [hhead, ← heq]
  exact hmid

theorem activeWin_freeZNode (hactive : idx = zi.activeWin) : (zi.freeZNode t idx).activeWin = 0 := by
  have hkeep : (((zi.unchainZNode idx).setNode idx (fun node => { node with hwnd := 0 })).dropFirst t idx).activeWin
      = zi.activeWin := by
    unfold dropFirst unchainZNode unlinkZNode
    dsimp only
    split <;> split <;> split <;> rfl
  unfold freeZNode
  extract_lets zi1 zi2
  have h2 : zi2.activeWin = zi.activeWin := hkeep
  rw [h2, if_pos hactive]

section Freed

variable (h : Chains zi.store c) (hidx : idx ∈ c t)

include h hidx

theorem from_freeZNode {done : List Int} (hc : c t = done ++ idx :: rest)
    : (zi.freeZNode t idx).From ((zi.freeZNode t idx).nodes idx).next rest := by
  have hdrop : Chains (zi.freeZNode t idx).store (update c t ((c t).erase idx)) := by
    rw [store_freeZNode]
    exact h.drop hidx
  have herase : (c t).erase idx = done ++ rest := by
    have hnodup := (h.valid t).nodup
    rw [hc] at hnodup ⊢
    rw [nodup_append] at hnodup
    rw [erase_append_right, erase_cons_head]
    intro hmem
    exact hnodup.2.2 idx hmem idx mem_cons_self rfl
  have hnext : ((zi.freeZNode t idx).nodes idx).next = (zi.nodes idx).next := by
    have hstore := congrArg (fun st => st.next idx) (@store_freeZNode zi t idx)
    have hkeep : (zi.store.drop t idx).next idx = zi.store.next idx := by
      unfold Store.drop Store.unlink
      dsimp only
      split
      . rfl
      . rw [update_apply]
        split <;> rfl
    exact hstore.trans hkeep
  have hhead : DList.link 0 (zi.nodes idx).next = rest.head? := by
    have hvalid := h.valid t
    rw [hc] at hvalid
    exact hvalid.next_eq
  rw [hnext]
  apply @from_rest _ _ t _ _ done (walks hdrop) _ hhead
  rw [update_self, herase]

theorem getNextVisibleMainwin_freeZNode
    : getNextVisibleMainwin (zi.freeZNode t idx) idx = zi.heir t idx := by
  rcases append_of_mem hidx with ⟨done, rest, hc⟩
  have hdrop : Chains (zi.freeZNode t idx).store (update c t ((c t).erase idx)) := by
    rw [store_freeZNode]
    exact h.drop hidx
  have hlen : rest.length ≤ (zi.freeZNode t idx).maxNrNodes := by
    have hle : (c t).length ≤ zi.maxNrNodes := h.length_le
    have hmax : (zi.freeZNode t idx).maxNrNodes = zi.maxNrNodes := by
      have hst := congrArg Store.maxNrNodes (@store_freeZNode zi t idx)
      exact hst
    rw [hc, length_append, length_cons] at hle
    omega
  have hpos := h.pos hidx
  have hnodup := (h.valid t).nodup
  have hbelow : ((zi.slots t).dropWhile (fun slot => slot ≠ idx)).filter (fun slot => slot ≠ idx) = rest := by
    rw [hc, nodup_append, nodup_cons] at hnodup
    have hdone : ∀ a ∈ done, decide (a ≠ idx) = true := by
      intro a ha
      rw [decide_eq_true_eq]
      intro heq
      exact hnodup.2.2 a ha idx mem_cons_self heq
    have hrest : rest.filter (fun slot => slot ≠ idx) = rest := by
      rw [filter_eq_self]
      intro a ha
      rw [decide_eq_true_eq]
      intro heq
      rw [heq] at ha
      exact hnodup.2.1.1 ha
    rw [slots_eq h, hc, dropWhile_append_of_pos hdone, dropWhile_cons_of_neg (by simp),
      filter_cons_of_neg (by simp), hrest]
  have hchain : ∀ s, (c s).filter (fun slot => slot ≠ idx) = update c t ((c t).erase idx) s := by
    intro s
    by_cases hs : s = t
    . rw [hs, update_self, hnodup.erase_eq_filter]
      congr 1
      funext a
      rw [Bool.eq_iff_iff, decide_eq_true_eq, bne_iff_ne]
    rw [update_of_ne hs, filter_eq_self]
    intro a ha
    rw [decide_eq_true_eq]
    intro heq
    rw [heq] at ha
    exact hs (h.disjoint ha hidx)
  rw [getNextVisibleMainwin_eq (walks hdrop) (fun _ => from_freeZNode h hidx hc) hlen (fun hzero => by omega)]
  unfold heir
  dsimp only
  rw [filter_append, hbelow, stack_eq h, filter_append, filter_append, hchain, hchain, hchain]
  congr 1
  apply find?_congr
  intro a ha
  have hne : a ≠ idx := by
    intro heq
    rw [heq, ← hchain, ← hchain, ← hchain, ← hbelow, ← filter_append, ← filter_append,
      ← filter_append, mem_filter] at ha
    simp at ha
  rw [field_freeZNode unlinked_activatable (fun heq => absurd heq hne)]

theorem heir_mem : zi.heir t idx = 0 ∨ ∃ t', zi.heir t idx ∈ (update c t ((c t).erase idx)) t' := by
  rcases append_of_mem hidx with ⟨done, rest, hc⟩
  have hdrop : Chains (zi.freeZNode t idx).store (update c t ((c t).erase idx)) := by
    rw [store_freeZNode]
    exact h.drop hidx
  have hnodup := (h.valid t).nodup
  have herase : (c t).erase idx = done ++ rest := by
    rw [hc] at hnodup ⊢
    rw [nodup_append] at hnodup
    rw [erase_append_right, erase_cons_head]
    intro hmem
    exact hnodup.2.2 idx hmem idx mem_cons_self rfl
  have hlen : rest.length ≤ (zi.freeZNode t idx).maxNrNodes := by
    have hle := hdrop.length_le (t := t)
    rw [update_self, herase, length_append] at hle
    have hmax : (zi.freeZNode t idx).store.maxNrNodes = (zi.freeZNode t idx).maxNrNodes := rfl
    omega
  have hpos := h.pos hidx
  rw [← getNextVisibleMainwin_freeZNode h hidx]
  apply getNextVisibleMainwin_mem (walks hdrop) (fun _ => from_freeZNode h hidx hc) hlen (fun hzero => by omega)
  intro a ha
  refine ⟨t, ?_⟩
  rw [update_self, herase]
  exact mem_append_right done ha

end Freed

theorem follow_congr (hnext : ∀ a, (zi'.nodes a).next = (zi.nodes a).next) (fuel : Nat) (slot : Int)
    : zi'.follow fuel slot = zi.follow fuel slot := by
  induction fuel generalizing slot with
  | zero => rfl
  | succ fuel ih => rw [follow, follow, hnext, ih]

theorem heir_congr (hnext : ∀ a, (zi'.nodes a).next = (zi.nodes a).next) (hfirst : zi'.first = zi.first)
    (hmax : zi'.maxNrNodes = zi.maxNrNodes) (hactivatable : ∀ a, (zi'.nodes a).activatable = (zi.nodes a).activatable)
    : zi'.heir t idx = zi.heir t idx := by
  have hslots : zi'.slots = zi.slots := by
    funext t
    unfold slots
    rw [follow_congr hnext, hfirst, hmax]
  unfold heir stack
  simp only [hslots, hactivatable]

theorem nextMainWin_eq_of_core (h : zi'.core = zi.core) (fuel : Nat) (slot : Int)
    : nextMainWin zi' fuel slot = nextMainWin zi fuel slot := by
  induction fuel generalizing slot with
  | zero => rfl
  | succ fuel ih =>
    have hmain : (zi'.nodes slot).has ZOF_TF_MAINWIN = (zi.nodes slot).has ZOF_TF_MAINWIN :=
      has_eq_of_core h slot (by decide)
    have hdisabled : (zi'.nodes slot).has ZOF_DISABLED = (zi.nodes slot).has ZOF_DISABLED :=
      has_eq_of_core h slot (by decide)
    rw [nextMainWin, nextMainWin]
    dsimp only
    rw [hmain, hdisabled, visible_eq_of_core h slot, next_eq_of_core h slot, ih]

theorem getNextVisibleMainwin_eq_of_core (h : zi'.core = zi.core) (start : Int)
    : getNextVisibleMainwin zi' start = getNextVisibleMainwin zi start := by
  unfold getNextVisibleMainwin
  simp only [nextMainWin_eq_of_core h, first_eq_of_core h, maxNrNodes_eq_of_core h, next_eq_of_core h]

end ZOrderInfo

end MiniGui
