import MiniGui.Ext.TreeInv

namespace MiniGui.TreeView

open Nodes

variable {α : Type} {count : Int} {p : PItem}

section Keys

variable {strCmp : α → α → Int} {tv : TVData α} {c : Int}

section

variable (h : Inv strCmp tv)
include h

theorem inv_moveTo (hc : 1 ≤ c ∧ c ≤ tv.nVisItemCount) : Inv strCmp (moveTo tv c) := by
  have htop := h.top
  rw [moveTo]
  split
  . exact h
  refine inv_scrollTo h ?_
  rw [Fits]
  split
  . omega
  . split
    . omega
    . omega

theorem inv_selectCount (hc : 1 ≤ c ∧ c ≤ tv.nVisItemCount) {top : Int}
    (hfits : Fits top tv.nVisItemCount tv.nVisCount) : Inv strCmp
        (tvSetVScrollInfo
          (changeSelected { tv with nItemTop := top } (getItemFromCount { tv with nItemTop := top } c))) := by
  rw [h.vis] at hc
  rcases count_item (visOf_nodup h.core) hc with ⟨x, hx, hitem, _⟩
  have hitem' : getItemFromCount { tv with nItemTop := top } c = some x := hitem
  rw [hitem']
  exact inv_selectAt h (visOf_subset tv x hx) hfits

theorem vis_pos : 1 ≤ tv.nVisItemCount := by
  have hpos := visOf_pos h.core
  have hvis := h.vis
  omega

theorem getCount_range (p : Option PItem)
    : 0 ≤ getCountFromItem tv p ∧ getCountFromItem tv p ≤ tv.nVisItemCount := by
  rw [h.vis]
  exact getCountFromItem_range tv p

theorem inv_keyStep (hc : 1 ≤ c ∧ c ≤ tv.nVisItemCount) : Inv strCmp (tvKeyStep tv c) := by
  have hrange := hc
  rw [h.vis] at hrange
  rcases count_item (visOf_nodup h.core) hrange with ⟨x, hx, hitem, _⟩
  rw [tvKeyStep, hitem]
  refine inv_moveTo (inv_select h (visOf_subset tv x hx)) ?_
  rw [(changeSelected_frame tv x).2.2.2.1]
  exact hc

theorem inv_keyPageDown (hcount : 0 ≤ count) : Inv strCmp (tvKeyPageDown tv count) := by
  have htop := h.top
  have hpage := h.core.page
  have hpos := vis_pos h
  rw [tvKeyPageDown]
  refine inv_selectCount h ?_ ?_
  . split
    . omega
    . omega
  . rw [Fits]
    dsimp only
    split_ifs <;> omega

theorem inv_keyPageUp (hcount : count ≤ tv.nVisItemCount) : Inv strCmp (tvKeyPageUp tv count) := by
  have htop := h.top
  have hpage := h.core.page
  have hpos := vis_pos h
  rw [tvKeyPageUp]
  refine inv_selectCount h ?_ ?_
  . split
    . omega
    . omega
  . rw [Fits]
    split_ifs <;> omega

end

theorem kidsOf_subset (x : PItem) (n : Nodes) : ∀ p ∈ preorder (kidsOf x n), p ∈ preorder n := by
  induction n with
  | nil => exact fun p hp => hp
  | node q kids rest ihk ihr =>
    intro p hp
    rw [kidsOf] at hp
    rw [preorder_node]
    split at hp
    . exact List.mem_cons_of_mem q (List.mem_append_left _ hp)
    . split at hp
      . exact List.mem_cons_of_mem q (List.mem_append_left _ (ihk p hp))
      . exact List.mem_cons_of_mem q (List.mem_append_right _ (ihr p hp))

theorem firstChild_mem {t : PItem} (ht : firstChild tv p = some t) : t ∈ tv.root.preorder := by
  have hsib : t ∈ (tv.root.kidsOf p).siblings := List.mem_of_head? ht
  exact kidsOf_subset p tv.root t (siblings_subset _ t hsib)

theorem inv_unfold (h : Inv strCmp tv) (p : PItem) : Inv strCmp (toggle tv p false) := by
  have hmono : visItemCount tv.fold tv.root ≤ visItemCount (setFold tv p false).fold tv.root := by
    refine visItemCount_mono ?_ _
    intro x hx
    rw [fold_setFold] at hx
    by_cases hxp : x = p
    . rw [hxp, Function.update_self] at hx
      cases hx
    . rw [Function.update_of_ne hxp] at hx
      exact hx
  have hvis := h.vis
  rw [visItemCount_eq] at hmono
  refine inv_recalc (h.core.folded p false) ?_
  show Fits tv.nItemTop (visItemCount (setFold tv p false).fold tv.root) tv.nVisCount
  rw [visOf] at hvis
  have htop := h.top
  rw [Fits]
  omega

def FoldFits (tv : TVData α) (p : PItem) : Prop :=
  Fits tv.nItemTop (visItemCount (Function.update tv.fold p true) tv.root) tv.nVisCount

theorem inv_fold (h : Inv strCmp tv) (hfits : FoldFits tv p) : Inv strCmp (toggle tv p true) := by
  refine inv_recalc (h.core.folded p true) ?_
  show Fits tv.nItemTop (visItemCount (setFold tv p true).fold tv.root) tv.nVisCount
  rw [fold_setFold]
  exact hfits

theorem inv_toggle (h : Inv strCmp tv) (hfits : tv.fold p = false → FoldFits tv p)
    : Inv strCmp (toggle tv p (!tv.fold p)) := by
  cases hp : tv.fold p with
  | true => exact inv_unfold h p
  | false => exact inv_fold h (hfits hp)

theorem inv_keyRight (h : Inv strCmp tv) (p : PItem) : Inv strCmp (tvKeyRight tv p) := by
  rw [tvKeyRight]
  cases ht : firstChild tv p with
  | none => exact h
  | some t =>
    dsimp only
    split
    . exact inv_unfold h p
    have hsel := inv_select h (firstChild_mem ht)
    have hrange := getCount_range hsel (some t)
    have htop := hsel.top
    split
    . refine inv_scrollTo hsel ?_
      rw [Fits]
      omega
    . exact hsel

def LeftFits (tv : TVData α) (p : PItem) : Prop :=
  if (firstChild tv p).isSome ∧ tv.fold p = false then
    FoldFits tv p
  else
    ∀ t, tv.root.parentOf none p = some t → (∀ a ∈ tv.root.ancestors t, tv.fold a = false)
      ∨ tv.nVisItemCount ≤ tv.nVisCount

theorem parentOf_mem_root (h : Core strCmp tv) {t : PItem} (hp : p ∈ tv.root.preorder)
    (ht : tv.root.parentOf none p = some t) : t ∈ tv.root.preorder := by
  by_cases hne : p = tvRoot
  . rcases h.rooted with ⟨kids, hroot⟩
    rw [hroot, parentOf, if_pos hne.symm] at ht
    cases ht
  rcases parentOf_item h hp hne with ⟨q, hq, hparent⟩
  rw [ht, Option.some.injEq] at hparent
  rw [hparent]
  exact (remove_sublist p tv.root).subset hq

theorem inv_keyLeft (h : Inv strCmp tv) (hp : p ∈ tv.root.preorder) (hfits : LeftFits tv p)
    : Inv strCmp (tvKeyLeft tv p) := by
  rw [tvKeyLeft]
  rw [LeftFits] at hfits
  split
  . next hfold =>
    rw [if_pos hfold] at hfits
    exact inv_fold h hfits
  rename_i hfold
  rw [if_neg hfold] at hfits
  cases ht : tv.root.parentOf none p with
  | none => exact h
  | some t =>
    have hmem := parentOf_mem_root h.core hp ht
    have hsel := inv_select h hmem
    have htop := hsel.top
    dsimp only
    split
    . next hc =>
      refine inv_scrollTo hsel ?_
      rw [Fits]
      rcases hfits t ht with hvis | hsmall
      . have hshown : t ∈ visOf (changeSelected tv (some t)) := by
          rw [visOf_changeSelected]
          exact (mem_vis h.core.nodup hmem).mpr hvis
        have hcount := (item_count hshown).1
        omega
      . rw [← (changeSelected_frame tv t).2.2.2.1, ← (changeSelected_frame tv t).2.2.2.2] at hsmall
        exact .inr hsmall
    . exact hsel

def KeyFits (tv : TVData α) : Key → Prop
  | .left => ∀ p, tv.pItemSelected = some p → LeftFits tv p
  | _ => True

theorem inv_key (h : Inv strCmp tv) {key : Key} (hfits : KeyFits tv key) : Inv strCmp (tvKey tv key) := by
  have hcount := getCount_range h tv.pItemSelected
  have hpos := vis_pos h
  rcases h.core.selected with ⟨s, hmem, hs, _⟩
  cases key with
  | right =>
    simp only [tvKey, hs]
    exact inv_keyRight h s
  | left =>
    simp only [tvKey, hs]
    exact inv_keyLeft h hmem (hfits s hs)
  | up | down =>
    rw [tvKey]
    split
    . exact h
    . exact inv_keyStep h ⟨by omega, by omega⟩
  | pageDown => exact inv_keyPageDown h hcount.1
  | pageUp => exact inv_keyPageUp h hcount.2
  | home =>
    refine inv_selectAt h (root_mem h.core) ?_
    rw [Fits]
    omega
  | endKey =>
    refine inv_selectCount h ⟨hpos, le_refl _⟩ ?_
    rw [Fits]
    omega

end Keys

section Messages

variable {strCmp : α → α → Int} {tv : TVData α}

theorem inv_addItem (h : Inv strCmp tv) {parent : PItem} (hparent : parent ∈ tv.root.preorder)
    (hfits : tv.fold parent = true ∨ ∀ a ∈ tv.root.ancestors parent, tv.fold a = false) (text : α) (fold : Bool)
    : Inv strCmp (tvAddItem strCmp tv parent text fold) := by
  rcases insertChild_spec h.core hparent text fold with ⟨hcore, hlen⟩
  have hvis := h.vis
  have htop := h.top
  have hne : parent ≠ tv.fresh := Nat.ne_of_lt (h.core.below parent hparent)
  have hfold : (setItem tv tv.fresh ⟨text, fold, false⟩).fold parent = tv.fold parent := by
    rw [TVData.fold, setItem_of_ne tv _ hne, TVData.fold]
  have hcount : (insertChild strCmp tv parent text fold).nVisItemCount
      = if tv.fold parent then tv.nVisItemCount else tv.nVisItemCount + 1 := by
    rw [← hfold]
    rfl
  have hnew : (insertChild strCmp tv parent text fold).nVisItemCount
      = (visOf (insertChild strCmp tv parent text fold)).length := by
    rw [hcount, hlen, hvis]
    cases hf : tv.fold parent with
    | true => simp
    | false =>
      have hshown : parent ∈ visOf tv := by
        refine (mem_vis h.core.nodup hparent).mpr (hfits.resolve_left ?_)
        rw [hf]
        exact Bool.false_ne_true
      simp [hshown]
  refine inv_setVScrollInfo hcore hnew ?_
  show Fits tv.nItemTop _ tv.nVisCount
  rw [hcount, Fits]
  split
  . omega
  . omega

theorem inv_delItem (h : Inv strCmp tv) {item : PItem} (hitem : item ∈ tv.root.preorder) (hne : item ≠ tvRoot)
    (hsel : tv.pItemSelected = some item ∨ tv.pItemSelected = tv.root.parentOf none item)
    (hfits : Fits tv.nItemTop (visItemCount tv.fold (tv.root.remove item)) tv.nVisCount)
    : Inv strCmp (tvDelTree tv item) := by
  rcases parentOf_item h.core hitem hne with ⟨q, hq, hparent⟩
  have hmem := (remove_sublist item tv.root).subset hq
  rw [tvDelTree, if_neg hne]
  split
  . rcases changeSelected_spec tv q with ⟨items, heq, hitems⟩
    have hcore := h.core.select hmem
    have hfold : (changeSelected tv (some q)).fold = tv.fold := (changeSelected_frame tv q).2.1
    rw [hparent]
    rw [heq] at hcore hfold ⊢
    refine inv_recalc (removeTree_spec hcore hitem hne hparent.symm) ?_
    show Fits tv.nItemTop (visItemCount (TVData.fold { tv with items := items, pItemSelected := some q })
      (tv.root.remove item)) tv.nVisCount
    rw [hfold]
    exact hfits
  . next hother => exact inv_recalc (removeTree_spec h.core hitem hne (hsel.resolve_left hother)) hfits

theorem inv_delRoot (h : Inv strCmp tv) (hsel : tv.pItemSelected = some tvRoot)
    : Inv strCmp (tvDelTree tv tvRoot) := by
  rcases h.core.rooted with ⟨kids, hroot⟩
  have hkids : tv.root.kidsOf tvRoot = kids := by
    rw [hroot, kidsOf, if_pos rfl]
  rcases removeKids_spec h.core hroot hsel with ⟨hcore, hselected⟩
  rw [tvDelTree, if_pos rfl, hkids]
  dsimp only
  rw [changeSelected, if_pos hselected.symm]
  refine inv_recalc (hcore.scrolled 0 1) ?_
  rw [Fits]
  dsimp only
  omega

theorem inv_setSelItem (h : Inv strCmp tv) {new : PItem} (hnew : new ∈ tv.root.preorder)
    : Inv strCmp (tvSetSelItem tv new) := by
  rcases unfoldAncestor_spec h.core new with ⟨hcore, hroot, hfold, htop, hpage⟩
  have hmono := visItemCount_mono hfold tv.root
  rw [← hroot] at hnew
  have hsel := hcore.select hnew
  rcases changeSelected_frame (unfoldAncestor tv new) new with ⟨hrootSel, hfoldSel, htopSel, _, hpageSel⟩
  have hrange := getCountFromItem_range (changeSelected (unfoldAncestor tv new) (some new)) (some new)
  rw [visOf_changeSelected, visOf, hroot, ← visItemCount_eq] at hrange
  have hcounted : getVisItemCount (changeSelected (unfoldAncestor tv new) (some new))
      = visItemCount (unfoldAncestor tv new).fold tv.root := by
    rw [getVisItemCount, hrootSel, hfoldSel, hroot]
  have hvis := h.vis
  have hpos := h.top
  rw [visOf, ← visItemCount_eq] at hvis
  rw [tvSetSelItem]
  refine inv_recalc (hsel.scrolled _ _) ?_
  show Fits _ (getVisItemCount (changeSelected (unfoldAncestor tv new) (some new))) _
  dsimp only
  rw [hcounted, htopSel, hpageSel, htop, hpage, Fits]
  split_ifs <;> omega

theorem item_mem (hitem : getItemFromCount tv count = some p) : p ∈ tv.root.preorder := by
  rw [getItemFromCount_eq] at hitem
  split at hitem
  . exact visOf_subset tv p (List.mem_of_getElem? hitem)
  . cases hitem

def RowFits (tv : TVData α) (row : Int) : Prop :=
  ∀ p, getItemFromCount tv (row + 1 + tv.nItemTop) = some p → tv.fold p = false → FoldFits tv p

variable (h : Inv strCmp tv)
include h

theorem inv_buttonDown (row : Int) {box : Bool} (hfits : box = true → RowFits tv row)
    : Inv strCmp (tvButtonDown tv row box) := by
  rw [tvButtonDown]
  split
  . exact h
  cases hitem : getItemFromCount tv (row + 1 + tv.nItemTop) with
  | none => exact h
  | some p =>
    have hsel := inv_select h (item_mem hitem)
    dsimp only
    split
    . next hbox =>
      refine inv_toggle hsel ?_
      rcases changeSelected_frame tv p with ⟨hroot, hfold, htop, _, hpage⟩
      rw [FoldFits, hroot, hfold, htop, hpage]
      exact hfits hbox.1 p hitem
    . exact hsel

theorem inv_doubleClick {row : Int} (hfits : RowFits tv row)
    : Inv strCmp (tvDoubleClick tv row) := by
  rw [tvDoubleClick]
  split
  . exact h
  cases hitem : getItemFromCount tv (row + 1 + tv.nItemTop) with
  | none => exact h
  | some p =>
    dsimp only
    split
    . exact inv_toggle h (hfits p hitem)
    . exact h

def ScrollFits (tv : TVData α) : Scroll → Prop
  | .pageDown =>
    tv.nItemTop + tv.nVisCount * 2 ≤ tv.nItemCount
      → Fits (tv.nItemTop + tv.nVisCount) tv.nVisItemCount tv.nVisCount
  | .thumbTrack pos => 0 ≤ pos ∨ tv.nVisItemCount ≤ tv.nVisCount
  | _ => True

theorem inv_scroll {scroll : Scroll} (hfits : ScrollFits tv scroll)
    : Inv strCmp (tvScroll tv scroll) := by
  have htop := h.top
  have hpage := h.core.page
  rw [tvScroll]
  split
  . exact h
  refine inv_scrollTo h ?_
  cases scroll with
  | lineDown | lineUp | pageUp =>
    rw [newTop, Fits]
    split_ifs <;> omega
  | pageDown =>
    rw [ScrollFits, Fits] at hfits
    rw [newTop, Fits]
    split_ifs <;> omega
  | thumbTrack pos =>
    rw [ScrollFits] at hfits
    rw [newTop, Fits]
    omega

end Messages

section Runs

def MsgLive (tv : TVData α) : TVMsg α → Prop
  | .addItem parent _ _ => parent ∈ tv.root.preorder
  | .delTree item => item ∈ tv.root.preorder
  | .setSelItem item => item ∈ tv.root.preorder
  | _ => True

def MsgFits (tv : TVData α) : TVMsg α → Prop
  | .addItem parent _ _ => tv.fold parent = true ∨ ∀ a ∈ tv.root.ancestors parent, tv.fold a = false
  | .delTree item =>
    if item = tvRoot then
      tv.pItemSelected = some tvRoot
    else
      (tv.pItemSelected = some item ∨ tv.pItemSelected = tv.root.parentOf none item)
        ∧ Fits tv.nItemTop (visItemCount tv.fold (tv.root.remove item)) tv.nVisCount
  | .setSelItem _ => True
  | .key key => KeyFits tv key
  | .buttonDown row box => box = true → RowFits tv row
  | .doubleClick row => RowFits tv row
  | .vScroll scroll => ScrollFits tv scroll

variable {strCmp : α → α → Int} {tv : TVData α}

theorem inv_msg (h : Inv strCmp tv) {msg : TVMsg α} (hlive : MsgLive tv msg) (hfits : MsgFits tv msg)
    : Inv strCmp (tvMsg strCmp tv msg) := by
  cases msg with
  | addItem parent text fold => exact inv_addItem h hlive hfits text fold
  | delTree item =>
    rw [MsgFits] at hfits
    split at hfits
    . next hroot =>
      rw [hroot]
      exact inv_delRoot h hfits
    . next hne => exact inv_delItem h hlive hne hfits.1 hfits.2
  | setSelItem item => exact inv_setSelItem h hlive
  | key key => exact inv_key h hfits
  | buttonDown row box => exact inv_buttonDown h row hfits
  | doubleClick row => exact inv_doubleClick h hfits
  | vScroll scroll => exact inv_scroll h hfits

def tvRun (strCmp : α → α → Int) (tv : TVData α) (msgs : List (TVMsg α)) : TVData α :=
  msgs.foldl (tvMsg strCmp) tv

def AllMsgs (strCmp : α → α → Int) (property : TVData α → TVMsg α → Prop) (tv : TVData α)
    : List (TVMsg α) → Prop
  | [] => True
  | msg :: msgs => property tv msg ∧ AllMsgs strCmp property (tvMsg strCmp tv msg) msgs

theorem inv_run {msgs : List (TVMsg α)} (h : Inv strCmp tv) (hlive : AllMsgs strCmp MsgLive tv msgs)
    (hfits : AllMsgs strCmp MsgFits tv msgs) : Inv strCmp (tvRun strCmp tv msgs) := by
  induction msgs generalizing tv with
  | nil => exact h
  | cons msg msgs ih => exact ih (inv_msg h hlive.1 hfits.1) hlive.2 hfits.2

theorem inv_start (strCmp : α → α → Int) (text : α) (fold : Bool) {nVisCount : Int} (hpage : 0 < nVisCount)
    (sort : Bool) : Inv strCmp (tvStart text fold nVisCount sort) := by
  have hvis : visOf (tvStart text fold nVisCount sort) = [tvRoot] := by
    simp [visOf, tvStart, vis]
  have hmem : ∀ p ∈ (tvStart text fold nVisCount sort).root.preorder, p = tvRoot :=
    fun p hp => List.mem_singleton.mp hp
  refine ⟨⟨⟨.nil, rfl⟩, List.nodup_singleton _, ?_, rfl, ?_, ?_, hpage⟩, ?_, ?_⟩
  . intro p hp
    rw [hmem p hp]
    exact Nat.one_pos
  . refine ⟨tvRoot, List.mem_singleton_self _, rfl, ?_⟩
    intro p hp
    simp [tvStart, hmem p hp]
  . intro _ _
    exact ⟨List.Pairwise.nil, trivial, trivial⟩
  . rw [hvis]
    rfl
  . simp [tvStart]

def shown (tv : TVData α) : List PItem :=
  tv.root.preorder.filter fun x => (tv.root.ancestors x).all fun a => !tv.fold a

theorem filter_sublist {l l' : List PItem} (h : l.Sublist l') (hnodup : l'.Nodup) : l'.filter (· ∈ l) = l := by
  have hself : l.filter (· ∈ l) = l := by simp
  have hsub := h.filter (· ∈ l)
  rw [hself] at hsub
  have hmem : ∀ a, a ∈ l'.filter (· ∈ l) ↔ a ∈ l := by
    intro a
    rw [List.mem_filter, decide_eq_true_eq]
    exact ⟨fun ha => ha.2, fun ha => ⟨h.subset ha, ha⟩⟩
  have hperm := (List.perm_ext_iff_of_nodup (hnodup.filter _) (hnodup.sublist h)).mpr hmem
  exact (hsub.eq_of_length hperm.length_eq.symm).symm

theorem shown_eq (h : Core strCmp tv) : shown tv = visOf tv := by
  refine Eq.trans ?_ (filter_sublist (vis_sublist tv.fold tv.root) h.nodup)
  refine List.filter_congr ?_
  intro x hx
  rw [Bool.eq_iff_iff, List.all_eq_true, decide_eq_true_eq, visOf, mem_vis h.nodup hx]
  simp

theorem kidsOf_sorted {le : PItem → PItem → Prop} (x : PItem) {n : Nodes} (hsorted : KidsSorted le n)
    : (n.kidsOf x).siblings.Pairwise le := by
  induction n with
  | nil => exact List.Pairwise.nil
  | node p kids rest ihk ihr =>
    rw [Nodes.kidsOf]
    split
    . exact hsorted.1
    . split
      . exact ihk hsorted.2.1
      . exact ihr hsorted.2.2

structure Consistent (strCmp : α → α → Int) (tv : TVData α) : Prop where
  nItemCount : tv.nItemCount = tv.root.preorder.length
  nVisItemCount : tv.nVisItemCount = (shown tv).length
  fromCount : ∀ count, 1 ≤ count → count ≤ tv.nVisItemCount
    → ∃ x ∈ shown tv, getItemFromCount tv count = some x
      ∧ getItemFromCount tv count = (shown tv)[(count - 1).toNat]? ∧ getCountFromItem tv (some x) = count
  fromItem : ∀ x ∈ shown tv,
    (1 ≤ getCountFromItem tv (some x) ∧ getCountFromItem tv (some x) ≤ tv.nVisItemCount)
    ∧ getItemFromCount tv (getCountFromItem tv (some x)) = some x
  pItemSelected : ∃ s ∈ tv.root.preorder, tv.pItemSelected = some s
    ∧ ∀ p ∈ tv.root.preorder, (tv.items p).selected = true ↔ p = s
  nItemTop : 0 ≤ tv.nItemTop ∧ tv.nItemTop ≤ max 0 (tv.nVisItemCount - tv.nVisCount)
  sorted : tv.sort = true → TotalPreorder strCmp → ∀ p ∈ tv.root.preorder,
    (tv.root.kidsOf p).siblings.Pairwise fun q r => strCmp (tv.items q).text (tv.items r).text ≤ 0

theorem Inv.consistent (h : Inv strCmp tv) : Consistent strCmp tv := by
  have hshown := shown_eq h.core
  refine ⟨?_, ?_, ?_, ?_, h.core.selected, h.top, ?_⟩
  . rw [length_preorder]
    exact h.core.count
  . rw [hshown]
    exact h.vis
  . intro count hpos hle
    rw [h.vis] at hle
    rcases count_item (visOf_nodup h.core) ⟨hpos, hle⟩ with ⟨x, hx, hitem, hcount⟩
    rw [hshown]
    refine ⟨x, hx, hitem, ?_, hcount⟩
    rw [getItemFromCount_eq, if_pos ⟨by omega, hle⟩]
  . intro x hx
    rw [hshown] at hx
    have hrange := item_count hx
    rw [h.vis]
    exact hrange
  . intro hsort hle p _
    exact kidsOf_sorted p (h.core.sorted hsort hle)

end Runs

end MiniGui.TreeView
