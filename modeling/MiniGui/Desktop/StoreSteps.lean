import MiniGui.Desktop.Store

namespace MiniGui.ZOrderInfo

open Function List Option

def store (zi : ZOrderInfo) : Store :=
  {
    next := fun slot => (zi.nodes slot).next
    prev := fun slot => (zi.nodes slot).prev
    type := fun slot => (zi.nodes slot).type
    first := zi.first
    nr := zi.nr
    maxNr := zi.maxNr
    sizeUsageBmp := zi.sizeUsageBmp
    usageBmp := zi.usageBmp
  }

theorem store_of_core {zi zi' : ZOrderInfo} (h : zi'.core = zi.core) : zi'.store = zi.store := by
  have hnr := congrArg ZOrderInfo.nr h
  have hsize := congrArg ZOrderInfo.sizeUsageBmp h
  have hbmp := congrArg ZOrderInfo.usageBmp h
  unfold store
  rw [first_eq_of_core h, maxNr_eq_of_core h]
  simp only [next_eq_of_core h, prev_eq_of_core h, type_eq_of_core h]
  congr 1

variable {zi : ZOrderInfo} {t : ZType} {slot idx : Int}

theorem store_setNode (f : ZOrderNode → ZOrderNode) : (zi.setNode slot f).store
        =
      {
        zi.store with
        next := update zi.store.next slot (f (zi.nodes slot)).next
        prev := update zi.store.prev slot (f (zi.nodes slot)).prev
        type := update zi.store.type slot (f (zi.nodes slot)).type
      } := by
  unfold store setNode
  dsimp only
  congr 1
  all_goals
    funext i
    by_cases hi : i = slot
    . rw [hi, update_self, update_self]
    . rw [update_of_ne hi, update_of_ne hi]

theorem store_setNode_same {f : ZOrderNode → ZOrderNode}
    (hnext : (f (zi.nodes slot)).next = (zi.nodes slot).next)
    (hprev : (f (zi.nodes slot)).prev = (zi.nodes slot).prev)
    (htype : (f (zi.nodes slot)).type = (zi.nodes slot).type)
    : (zi.setNode slot f).store = zi.store := by
  rw [store_setNode, hnext, hprev, htype]
  unfold store
  simp

theorem store_setNext (next : Int)
    : (zi.setNode slot (fun node => { node with next })).store = zi.store.setNext slot next := by
  rw [store_setNode]
  unfold store ZOrderNode.type Store.setNext
  simp

theorem store_setPrev (prev : Int)
    : (zi.setNode slot (fun node => { node with prev })).store = zi.store.setPrev slot prev := by
  rw [store_setNode]
  unfold store ZOrderNode.type Store.setPrev
  simp

theorem store_setLinks (prev next : Int)
    : (zi.setNode slot (fun node => { node with prev, next })).store
        = (zi.store.setNext slot next).setPrev slot prev := by
  rw [store_setNode]
  unfold store ZOrderNode.type Store.setNext Store.setPrev
  simp

theorem store_clearFlags
    : (zi.setNode slot (fun node => { node with flags := 0 })).store = zi.store.setType slot 0 := by
  rw [store_setNode]
  unfold store ZOrderNode.type Store.setType
  simp

theorem store_unlinkNext : (if (zi.nodes idx).prev ≠ 0 then
          zi.setNode (zi.nodes idx).prev (fun node => { node with next := (zi.nodes idx).next })
        else
          zi).store
        =
      if zi.store.prev idx ≠ 0 then
        zi.store.setNext (zi.store.prev idx) (zi.store.next idx)
      else
        zi.store := by
  unfold store
  split
  . apply store_setNext
  . rfl

theorem store_unlinkPrev : (if (zi.nodes idx).next ≠ 0 then
          zi.setNode (zi.nodes idx).next (fun node => { node with prev := (zi.nodes idx).prev })
        else
          zi).store
        =
      if zi.store.next idx ≠ 0 then
        zi.store.setPrev (zi.store.next idx) (zi.store.prev idx)
      else
        zi.store := by
  unfold store
  split
  . apply store_setPrev
  . rfl

theorem store_unlinkZNode (zi : ZOrderInfo) (idx : Int)
    : (zi.unlinkZNode idx).store = zi.store.unlink idx := by
  rw [unlinkZNode, store_unlinkPrev, store_unlinkNext]
  apply Store.unlink_eq

theorem store_unchainZNode (zi : ZOrderInfo) (idx : Int) : (zi.unchainZNode idx).store
        =
      {
        zi.store.unlink idx with
        type := update zi.store.type idx 0
        usageBmp := slotClearUse zi.store.usageBmp idx.toNat
      } := by
  unfold unchainZNode
  extract_lets zi1 zi2
  have h2 : zi2.store = { zi1.store with usageBmp := slotClearUse zi1.store.usageBmp idx.toNat } := by
    rfl
  rw [store_clearFlags, h2]
  unfold zi1
  rw [store_unlinkZNode]
  rfl

theorem store_dropFirst (zi : ZOrderInfo) (t : ZType) (idx : Int) : (zi.dropFirst t idx).store
        =
      {
        zi.store with
        first :=
          if zi.store.first t = idx then
            update zi.store.first t (zi.store.next idx)
          else
            zi.store.first
        nr := update zi.store.nr t (zi.store.nr t - 1)
      } := by
  unfold dropFirst store
  split <;> rfl

theorem store_drop (zi : ZOrderInfo) (t : ZType) (idx : Int)
    : ((zi.unchainZNode idx).dropFirst t idx).store = zi.store.drop t idx := by
  have hself : (zi.store.unlink idx).next idx = zi.store.next idx := by
    unfold Store.unlink
    dsimp only
    split
    . rfl
    rw [update_apply]
    split
    . rfl
    . rfl
  rw [store_dropFirst, store_unchainZNode, Store.drop]
  rw [hself]
  rfl

theorem store_freeZNode : (zi.freeZNode t idx).store = zi.store.drop t idx := by
  unfold freeZNode
  extract_lets zi1 zi2
  have h2 : zi2.store = zi.store.drop t idx := by
    rw [← store_drop]
    unfold zi2 zi1
    rw [store_dropFirst, store_dropFirst, store_setNode_same rfl rfl rfl]
  rw [← h2]
  split <;> rfl

theorem store_raiseZNode (hfirst : zi.first t ≠ idx)
    : (zi.raiseZNode t idx).store = zi.store.raise t idx := by
  unfold raiseZNode
  extract_lets zi1 first zi2 zi3
  have h1 : zi1.store = zi.store.unlink idx := store_unlinkZNode zi idx
  have hfirst1 : first = zi.store.first t := congrFun (congrArg Store.first h1) t
  have h3 : zi3.store
      = (((zi.store.unlink idx).setNext idx first).setPrev idx 0).setPrev first idx := by
    rw [← h1, ← store_setLinks]
    apply store_setPrev
  have hset : (zi3.setFirst t idx).store
      = { zi3.store with first := update zi3.store.first t idx } := by
    rfl
  have hne : idx ≠ zi.store.first t := hfirst.symm
  rw [hset, h3, hfirst1]
  unfold Store.raise Store.link Store.setPrev Store.setNext
  rw [update_comm hne]
  rfl

theorem store_insertZNode {st : Store} {type : BitVec 32} (hst : zi.store
      = { st.setType slot type with usageBmp := slotSetUse st.usageBmp slot.toNat })
    : (zi.insertZNode t slot).store = st.push t slot type := by
  unfold insertZNode
  extract_lets oldFirst zi1 zi2
  have hfirst : oldFirst = st.first t := by
    have h := congrFun (congrArg Store.first hst) t
    exact h
  have h2 : zi2.store = ((zi.store.setPrev oldFirst slot).setNext slot oldFirst).setPrev slot 0 := by
    rw [← store_setPrev, ← store_setLinks]
  have hset : ((zi2.setFirst t slot).setNr t (zi2.nr t + 1)).store
      = {
          zi2.store with
          first := update zi2.store.first t slot
          nr := update zi2.store.nr t (zi2.store.nr t + 1)
        } := by
    rfl
  rw [hset, h2, hfirst, hst]
  rfl

section Alloc

open Store

variable {c : ZType → List Int} {bmp : Nat → BitVec 8}

theorem exists_not_mem (a n : Nat) (l : List Int) (h : l.length < n)
    : ∃ k, a ≤ k ∧ k < a + n ∧ (k : Int) ∉ l := by
  by_contra hall
  push Not at hall
  have hsubset : (range' a n).map Int.ofNat ⊆ l := by
    intro x hx
    rw [List.mem_map] at hx
    rcases hx with ⟨k, hk, hkx⟩
    rw [mem_range'_1] at hk
    rw [← hkx]
    exact hall k hk.1 hk.2
  have hnodup : ((range' a n).map Int.ofNat).Nodup := by
    apply Nodup.map
    . intro i j hij
      exact Int.ofNat.inj hij
    . exact nodup_range'
  have hle := (subperm_of_subset hnodup hsubset).length_le
  rw [length_map, length_range'] at hle
  omega

theorem allocSlot_free (h : Chains zi.store c) (halloc : zi.allocSlot t = some (slot, bmp))
    : 0 < slot ∧ (∀ s, slot ∉ c s) ∧ bmp = slotSetUse zi.usageBmp slot.toNat := by
  have hunused : ∀ k : Nat, unused zi.usageBmp k = true → 0 < (k : Int) ∧ ∀ s, (k : Int) ∉ c s := by
    intro k hk
    have hfree := (h.unused k).mp hk
    exact ⟨by omega, hfree.2⟩
  have hbytes : zi.maxNr .global % 8 = 0 := h.bytes
  have hother : ∀ r : Nat × (Nat → BitVec 8),
      lookforUnusedSlot (fun i => zi.usageBmp (zi.maxNr .global / 8 + i))
        (zi.sizeUsageBmp - zi.maxNr .global / 8) = some r →
      (r.1 : Int) + zi.maxNr .global = slot →
      (fun i => if i < zi.maxNr .global / 8 then zi.usageBmp i else r.2 (i - zi.maxNr .global / 8)) = bmp →
      0 < slot ∧ (∀ s, slot ∉ c s) ∧ bmp = slotSetUse zi.usageBmp slot.toNat := by
    intro r hr hslot hbmp
    have hfound := @lookforUnusedSlot_eq_some _ r.2 r.1 _ hr
    rw [unused_offset] at hfound
    have heq : slot = (8 * (zi.maxNr .global / 8) + r.1 : Nat) := by omega
    have hfree := hunused _ hfound.2.1
    rw [heq]
    refine ⟨hfree.1, hfree.2, ?_⟩
    rw [← hbmp, hfound.2.2.2, Int.toNat_natCast]
    apply slotSetUse_offset
  unfold allocSlot at halloc
  cases t with
  | global =>
    rw [map_eq_some_iff] at halloc
    rcases halloc with ⟨r, hr, heq⟩
    rw [Prod.mk.injEq] at heq
    have hfound := @lookforUnusedSlot_eq_some _ r.2 r.1 _ hr
    have hfree := hunused _ hfound.2.1
    rw [← heq.1]
    refine ⟨hfree.1, hfree.2, ?_⟩
    rw [← heq.2, Int.toNat_natCast]
    exact hfound.2.2.2
  | topmost | normal =>
    rw [map_eq_some_iff] at halloc
    rcases halloc with ⟨r, hr, heq⟩
    rw [Prod.mk.injEq] at heq
    exact hother r hr heq.1 heq.2

theorem allocSlot_found (h : Chains zi.store c) (hnr : zi.nr t < zi.maxNr t)
    : ∃ slot bmp, zi.allocSlot t = some (slot, bmp) ∧ zi.store.InRange t slot := by
  have hbytes : zi.maxNr .global % 8 = 0 := h.bytes
  have hsize : zi.sizeUsageBmp = (7 + zi.maxNrNodes) / 8 := h.size
  have hcount : ∀ s, zi.nr s = (c s).length + if s = .global then 1 else 0 := h.nr
  have hle : ∀ s, zi.nr s ≤ zi.maxNr s := h.nr_le
  have hother : t ≠ .global → ∃ r, lookforUnusedSlot (fun i => zi.usageBmp (zi.maxNr .global / 8 + i))
        (zi.sizeUsageBmp - zi.maxNr .global / 8) = some r
      ∧ zi.maxNr .global + r.1 < zi.maxNrNodes := by
    intro ht
    have hlen : (c .topmost ++ c .normal).length < zi.maxNr .topmost + zi.maxNr .normal := by
      have htop := hcount .topmost
      have hnormal := hcount .normal
      have hletop := hle .topmost
      have hlenormal := hle .normal
      rw [length_append]
      cases t with
      | global => exact absurd rfl ht
      | topmost | normal =>
        simp only [reduceCtorEq, if_false] at htop hnormal
        omega
    rcases exists_not_mem (zi.maxNr .global) _ _ hlen with ⟨k, hge, hlt, hfree⟩
    rw [mem_append, not_or] at hfree
    have hpos := h.global_pos
    have hk : unused zi.usageBmp k = true := by
      apply (h.unused k).mpr
      refine ⟨by simp only [store] at hpos; omega, ?_⟩
      intro s
      cases s with
      | global =>
        intro hmem
        have hlt := (h.range .global k hmem).2
        simp only [store] at hlt
        omega
      | topmost => exact hfree.1
      | normal => exact hfree.2
    have hk' : unused (fun i => zi.usageBmp (zi.maxNr .global / 8 + i)) (k - zi.maxNr .global) = true := by
      rw [unused_offset, show 8 * (zi.maxNr .global / 8) + (k - zi.maxNr .global) = k by omega]
      exact hk
    have hrange : k < zi.maxNrNodes := by
      unfold maxNrNodes
      omega
    have hfound := @lookforUnusedSlot_isSome _ _ (zi.sizeUsageBmp - zi.maxNr .global / 8) hk'
      (by omega)
    rw [isSome_iff_exists] at hfound
    rcases hfound with ⟨r, hr⟩
    have hspec := @lookforUnusedSlot_eq_some _ r.2 r.1 _ hr
    refine ⟨r, hr, ?_⟩
    -- The slot that is found is not behind the free one.
    by_contra hbehind
    have hused := hspec.2.2.1 (k - zi.maxNr .global) (by omega)
    rw [hk'] at hused
    simp at hused
  unfold allocSlot
  cases t with
  | global =>
    have hcountg := hcount .global
    rw [if_pos rfl] at hcountg
    have hlen : (c .global).length < zi.maxNr .global - 1 := by omega
    rcases exists_not_mem 1 _ _ hlen with ⟨k, hge, hlt, hfree⟩
    have hk : unused zi.usageBmp k = true := by
      apply (h.unused k).mpr
      refine ⟨by omega, ?_⟩
      intro s
      cases s with
      | global => exact hfree
      | topmost | normal =>
        intro hmem
        have hge := (h.range _ k hmem).1
        simp only [store] at hge
        omega
    have hfound := @lookforUnusedSlot_isSome _ _ (zi.maxNr .global) hk (by omega)
    rw [isSome_iff_exists] at hfound
    rcases hfound with ⟨r, hr⟩
    have hspec := @lookforUnusedSlot_eq_some _ r.2 r.1 _ hr
    refine ⟨r.1, r.2, by dsimp only; rw [hr]; rfl, ?_⟩
    have hpos := (h.unused r.1).mp hspec.2.1
    have hlt' : r.1 < zi.maxNr .global := by
      by_contra hbehind
      have hused := hspec.2.2.1 k (by omega)
      rw [hk] at hused
      simp at hused
    refine ⟨by omega, ?_⟩
    simp only [store]
    omega
  | topmost | normal =>
    rcases hother (by simp) with ⟨r, hr, hlt⟩
    refine ⟨_, _, by dsimp only; rw [hr]; rfl, ?_⟩
    refine ⟨?_, ?_⟩
    . simp only [store]
      omega
    . rw [show zi.store.maxNrNodes = zi.maxNrNodes from rfl]
      omega

end Alloc

section Remove

open Store

variable {c : ZType → List Int} {cli : Int}

theorem field_setNode {α : Type} {p : ZOrderNode → α} {f : ZOrderNode → ZOrderNode}
    (h : ∀ node, p (f node) = p node) (i : Int)
    : p ((zi.setNode slot f).nodes i) = p (zi.nodes i) := by
  unfold setNode
  dsimp only
  by_cases hi : i = slot
  . rw [hi, update_self, h]
  . rw [update_of_ne hi]

structure Unlinked {α : Type} (p : ZOrderNode → α) : Prop where
  next : ∀ node next, p { node with next } = p node
  prev : ∀ node prev, p { node with prev } = p node

structure Lasting {α : Type} (p : ZOrderNode → α) : Prop extends Unlinked p where
  flags : ∀ node flags, p { node with flags } = p node
  hwnd : ∀ node hwnd, p { node with hwnd } = p node

section Field

variable {α : Type} {p : ZOrderNode → α} {i : Int} (hp : Unlinked p)

include hp

theorem field_unlinkZNode (i : Int) : p ((zi.unlinkZNode idx).nodes i) = p (zi.nodes i) := by
  unfold unlinkZNode
  extract_lets prev zi1 next
  have h1 : p (zi1.nodes i) = p (zi.nodes i) := by
    unfold zi1
    split
    . apply field_setNode
      intro node
      apply hp.next
    . rfl
  rw [← h1]
  split
  . apply field_setNode
    intro node
    apply hp.prev
  . rfl

theorem field_unchainZNode (hi : i = idx → Lasting p) : p ((zi.unchainZNode idx).nodes i) = p (zi.nodes i) := by
  rw [← @field_unlinkZNode zi idx _ _ hp]
  unfold unchainZNode setNode
  dsimp only
  by_cases heq : i = idx
  . rw [← heq, update_self]
    apply (hi heq).flags
  . rw [update_of_ne heq]

omit hp in
theorem nodes_dropFirst : (zi.dropFirst t idx).nodes = zi.nodes := by
  unfold dropFirst
  split <;> rfl

theorem field_drop (hi : i = idx → Lasting p)
    : p (((zi.unchainZNode idx).dropFirst t idx).nodes i) = p (zi.nodes i) := by
  rw [nodes_dropFirst, field_unchainZNode hp hi]

theorem field_freeZNode (hi : i = idx → Lasting p) : p ((zi.freeZNode t idx).nodes i) = p (zi.nodes i) := by
  rw [← @field_unchainZNode zi _ _ _ _ hp hi]
  unfold freeZNode
  extract_lets zi1 zi2
  have h1 : p (zi1.nodes i) = p ((zi.unchainZNode idx).nodes i) := by
    unfold zi1 setNode
    dsimp only
    by_cases heq : i = idx
    . rw [← heq, update_self]
      apply (hi heq).hwnd
    . rw [update_of_ne heq]
  have h2 : zi2.nodes = zi1.nodes := nodes_dropFirst
  rw [← h1, ← h2]
  split <;> rfl

theorem field_insertZNode {slot : Int} (i : Int) : p ((zi.insertZNode t slot).nodes i) = p (zi.nodes i) := by
  unfold insertZNode
  extract_lets oldFirst zi1 zi2
  have h1 : p (zi1.nodes i) = p (zi.nodes i) :=
    field_setNode (f := fun node => { node with prev := slot }) (fun node => hp.prev node slot) i
  rw [← h1]
  apply @field_setNode zi1 _ _ _ (fun node => { node with prev := 0, next := oldFirst })
  intro node
  rw [← hp.prev node 0]
  exact hp.next { node with prev := 0 } oldFirst

theorem field_raiseZNode (i : Int) : p ((zi.raiseZNode t idx).nodes i) = p (zi.nodes i) := by
  unfold raiseZNode
  extract_lets zi1 first zi2 zi3
  have h1 : p (zi1.nodes i) = p (zi.nodes i) := field_unlinkZNode hp i
  have h2 : p (zi2.nodes i) = p (zi1.nodes i) := by
    apply @field_setNode zi1 _ _ _ (fun node => { node with prev := 0, next := first })
    intro node
    rw [← hp.prev node 0]
    exact hp.next { node with prev := 0 } first
  rw [← h1, ← h2]
  exact field_setNode (f := fun node => { node with prev := idx }) (fun node => hp.prev node idx) i

theorem field_removeZNode {slot : Int} (hi : i = slot → Lasting p)
    : p ((zi.removeZNode cli t slot).nodes i) = p (zi.nodes i) := by
  unfold removeZNode
  split
  . exact field_drop hp hi
  . rfl

theorem field_removeLoop {fuel : Nat} {slot : Int} (hi : 0 < i → Lasting p)
    : p ((zi.removeLoop cli t fuel slot).nodes i) = p (zi.nodes i) := by
  induction fuel generalizing zi slot with
  | zero => rfl
  | succ fuel ih =>
    rw [removeLoop]
    split
    . rfl
    rename_i hslot
    rw [ih, field_removeZNode hp]
    intro heq
    rw [Work.atEnd, decide_eq_true_eq] at hslot
    apply hi
    omega

theorem field_removeClient (hi : 0 < i → Lasting p) : p ((zi.removeClient cli).nodes i) = p (zi.nodes i) := by
  unfold removeClient
  extract_lets fuel zi1 zi2
  have h2 : p (zi2.nodes i) = p (zi.nodes i) := by
    unfold zi2 zi1
    rw [field_removeLoop hp hi, field_removeLoop hp hi]
  rw [← h2]
  split <;> rfl

end Field

theorem lasting_cli : Lasting ZOrderNode.cli := by
  refine ⟨?_, ?_, ?_⟩
  . constructor <;> intros <;> rfl
  . intros
    rfl
  . intros
    rfl

theorem cli_removeZNode (i : Int) : ((zi.removeZNode cli t slot).nodes i).cli = (zi.nodes i).cli :=
  field_removeZNode lasting_cli.toUnlinked (fun _ => lasting_cli)

theorem next_removeZNode : ((zi.removeZNode cli t slot).nodes slot).next = (zi.nodes slot).next := by
  have hdrop : (zi.store.drop t slot).next slot = zi.store.next slot := by
    unfold Store.drop Store.unlink
    dsimp only
    split
    . rfl
    . rw [update_apply]
      split <;> rfl
  unfold removeZNode
  split
  . rw [← store_drop] at hdrop
    exact hdrop
  . rfl

theorem chains_removeLoop (h : Chains zi.store c) {done rest : List Int} (hc : c t = done ++ rest)
    (hslot : DList.link 0 slot = rest.head?) {fuel : Nat} (hfuel : rest.length < fuel)
    : Chains (zi.removeLoop cli t fuel slot).store
        (update c t (done ++ rest.filter (fun x => (zi.nodes x).cli ≠ cli))) := by
  induction rest generalizing zi c done slot fuel with
  | nil =>
    rw [head?_nil, DList.link_eq_none] at hslot
    cases fuel with
    | zero => simp at hfuel
    | succ fuel =>
      rw [removeLoop, hslot, if_pos (by decide), filter_nil, ← hc, update_eq_self]
      exact h
  | cons x rest ih =>
    have hx : x ∈ c t := by
      rw [hc]
      simp
    rw [head?_cons, DList.link_eq_some] at hslot
    have hpos := h.pos hx
    cases fuel with
    | zero => simp at hfuel
    | succ fuel =>
      rw [length_cons, Nat.add_lt_add_iff_right] at hfuel
      have hvalid := h.valid t
      rw [hc] at hvalid
      have hnext : DList.link 0 (zi.nodes x).next = rest.head? := hvalid.next_eq
      rw [removeLoop, hslot.1, if_neg (by rw [Work.atEnd, decide_eq_true_eq]; omega)]
      rw [← @next_removeZNode _ t _ cli] at hnext
      by_cases hcli : (zi.nodes x).cli = cli
      . have hdrop : Chains (zi.removeZNode cli t x).store (update c t (done ++ rest)) := by
          have herase : (c t).erase x = done ++ rest := by
            have hnodup := hvalid.nodup
            rw [nodup_append] at hnodup
            rw [hc, erase_append_right, erase_cons_head]
            intro hmem
            exact hnodup.2.2 x hmem x mem_cons_self rfl
          unfold removeZNode
          rw [if_pos hcli, store_drop, ← herase]
          apply h.drop hx
        have hrest := ih hdrop (update_self ..) hnext hfuel
        rw [update_idem] at hrest
        simp only [cli_removeZNode] at hrest
        rw [filter_cons_of_neg (by simp [hcli])]
        exact hrest
      have hkeep : zi.removeZNode cli t x = zi := by
        unfold removeZNode
        rw [if_neg hcli]
      rw [hkeep] at hnext ⊢
      have hc' : c t = (done ++ [x]) ++ rest := by
        rw [hc, append_assoc, singleton_append]
      have hrest := ih h hc' hnext hfuel
      rw [filter_cons_of_pos (by simp [hcli])]
      rw [append_assoc, singleton_append] at hrest
      exact hrest

def withoutClient (zi : ZOrderInfo) (cli : Int) (c : ZType → List Int) : ZType → List Int
  | .global => c .global
  | .topmost => (c .topmost).filter (fun x => (zi.nodes x).cli ≠ cli)
  | .normal => (c .normal).filter (fun x => (zi.nodes x).cli ≠ cli)

theorem first_eq_head (h : Chains zi.store c) (t : ZType) : DList.link 0 (zi.first t) = (c t).head? := by
  have hvalid := (h.valid t).forward
  cases hct : c t with
  | nil =>
    rw [hct] at hvalid
    exact hvalid
  | cons x l =>
    rw [hct] at hvalid
    exact hvalid.1

theorem chains_removeClient (h : Chains zi.store c)
    : Chains (zi.removeClient cli).store (zi.withoutClient cli c) := by
  unfold removeClient
  extract_lets fuel zi1 zi2
  have hfuel : ∀ t, (c t).length < fuel := by
    intro t
    have hle : (c t).length ≤ zi.maxNrNodes := h.length_le
    omega
  have h1 : Chains zi1.store
      (update c .topmost ((c .topmost).filter (fun x => (zi.nodes x).cli ≠ cli))) :=
    @chains_removeLoop _ _ _ _ _ h [] _ rfl (first_eq_head h .topmost) _ (hfuel .topmost)
  have hrest : update c .topmost ((c .topmost).filter (fun x => (zi.nodes x).cli ≠ cli)) .normal
      = [] ++ c .normal := by
    rfl
  have h2 := @chains_removeLoop _ _ _ _ cli h1 _ _ hrest (first_eq_head h1 .normal) _ (hfuel .normal)
  have hlists : zi.withoutClient cli c
      = update
          (update c .topmost ((c .topmost).filter (fun x => (zi.nodes x).cli ≠ cli))) .normal
          ([] ++ (c .normal).filter (fun x => (zi1.nodes x).cli ≠ cli)) := by
    have hcli : ∀ i, (zi1.nodes i).cli = (zi.nodes i).cli := fun _ => field_removeLoop lasting_cli.toUnlinked (fun _ => lasting_cli)
    funext t
    cases t <;> simp [withoutClient, hcli]
  rw [hlists]
  split
  . exact h2
  . exact h2

end Remove

end MiniGui.ZOrderInfo
