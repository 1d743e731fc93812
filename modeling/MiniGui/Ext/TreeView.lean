import Mathlib

namespace MiniGui

open List

namespace TreeView

abbrev PItem := Nat

def tvRoot : PItem := 0

inductive Nodes where
  | nil
  | node (p : PItem) (kids rest : Nodes)

/--
`TVITEM`, without the links, which are those of the tree, and what is drawn. `fold` and `selected` are flags of
`dwFlags`.
-/
structure TVItem (α : Type) where
  text : α
  fold : Bool
  selected : Bool

structure TVData (α : Type) where
  root : Nodes
  items : PItem → TVItem α
  pItemSelected : Option PItem
  nItemCount : Int
  nVisItemCount : Int
  nItemTop : Int
  nVisCount : Int
  sort : Bool
  fresh : PItem

variable {α : Type}

def TVData.fold (tv : TVData α) (p : PItem) : Bool :=
  (tv.items p).fold

namespace Nodes

def preorder : Nodes → List PItem
  | nil => []
  | node p kids rest => p :: (preorder kids ++ preorder rest)

def size : Nodes → Nat
  | nil => 0
  | node _ kids rest => size kids + 1 + size rest

def siblings : Nodes → List PItem
  | nil => []
  | node p _ rest => p :: siblings rest

def kidsOf (x : PItem) : Nodes → Nodes
  | nil => nil
  | node p kids rest => if p = x then kids else if x ∈ preorder kids then kidsOf x kids else kidsOf x rest

def ancestors (x : PItem) : Nodes → List PItem
  | nil => []
  | node p kids rest =>
    if p = x then [] else if x ∈ preorder kids then p :: ancestors x kids else ancestors x rest

def parentOf (parent : Option PItem) (x : PItem) : Nodes → Option PItem
  | nil => none
  | node p kids rest =>
    if p = x then parent else if x ∈ preorder kids then parentOf (some p) x kids else parentOf parent x rest

def alter (x : PItem) (f : Nodes → Nodes) : Nodes → Nodes
  | nil => nil
  | node p kids rest => if p = x then node p (f kids) rest else node p (alter x f kids) (alter x f rest)

def remove (x : PItem) : Nodes → Nodes
  | nil => nil
  | node p kids rest => if p = x then rest else node p (remove x kids) (remove x rest)

end Nodes

def visItemCount (fold : PItem → Bool) : Nodes → Int
  | .nil => 0
  | .node p kids rest => 1 + (if fold p then 0 else visItemCount fold kids) + visItemCount fold rest

def itemFromCount (fold : PItem → Bool) (count : Int) : Nodes → Int → Option PItem × Int
  | .nil, cnt => (none, cnt)
  | .node p kids rest, cnt =>
    if cnt + 1 = count then
      (some p, cnt + 1)
    else
      match if fold p then (none, cnt + 1) else itemFromCount fold count kids (cnt + 1) with
      | (some t, cnt) => (some t, cnt)
      | (none, cnt) => itemFromCount fold count rest cnt

def countFromItem (fold : PItem → Bool) (pTgt : PItem) : Nodes → Int → Int × Int
  | .nil, count => (0, count)
  | .node p kids rest, count =>
    if p = pTgt then
      (count + 1, count + 1)
    else
      let (t, count) := if fold p then (0, count + 1) else countFromItem fold pTgt kids (count + 1)
      if t ≠ 0 then (t, count) else countFromItem fold pTgt rest count

def getVisItemCount (tv : TVData α) : Int :=
  visItemCount tv.fold tv.root

def getItemFromCount (tv : TVData α) (count : Int) : Option PItem :=
  (itemFromCount tv.fold count tv.root 0).1

def getCountFromItem (tv : TVData α) (pTgt : Option PItem) : Int :=
  match pTgt with
  | none => 0
  | some pTgt => (countFromItem tv.fold pTgt tv.root 0).1

def setItem (tv : TVData α) (p : PItem) (item : TVItem α) : TVData α :=
  { tv with items := Function.update tv.items p item }

def setSelected (tv : TVData α) (p : Option PItem) (selected : Bool) : TVData α :=
  match p with
  | none => tv
  | some p => setItem tv p { tv.items p with selected }

def changeSelected (tv : TVData α) (newSel : Option PItem) : TVData α :=
  if newSel = tv.pItemSelected then
    tv
  else
    { setSelected (setSelected tv tv.pItemSelected false) newSel true with pItemSelected := newSel }

def setFold (tv : TVData α) (p : PItem) (fold : Bool) : TVData α :=
  setItem tv p { tv.items p with fold }

def unfoldAncestor (tv : TVData α) (item : PItem) : TVData α :=
  (tv.root.ancestors item).foldr (fun p tv => setFold tv p false) tv

def tvSetVScrollInfo (tv : TVData α) : TVData α :=
  if tv.nVisCount ≥ tv.nVisItemCount then { tv with nItemTop := 0 } else tv

def recalc (tv : TVData α) : TVData α :=
  tvSetVScrollInfo { tv with nVisItemCount := getVisItemCount tv }

def appendChild (pChild : PItem) : Nodes → Nodes
  | .nil => .node pChild .nil .nil
  | .node p kids rest => .node p kids (appendChild pChild rest)

def insertSorted (strCmp : PItem → Int) (pChild : PItem) : Nodes → Nodes
  | .nil => .node pChild .nil .nil
  | .node p kids rest =>
    if strCmp p > 0 then .node p kids (insertSorted strCmp pChild rest) else .node pChild .nil (.node p kids rest)

def linkChild (strCmp : α → α → Int) (tv : TVData α) (pChild : PItem) : Nodes → Nodes :=
  if tv.sort then
    insertSorted (fun p => strCmp (tv.items pChild).text (tv.items p).text) pChild
  else
    appendChild pChild

def insertChild (strCmp : α → α → Int) (tv : TVData α) (pParent : PItem) (text : α) (fold : Bool) : TVData α :=
  let pChild := tv.fresh
  let tv := setItem tv pChild ⟨text, fold, false⟩
  { tv with
    root := tv.root.alter pParent (linkChild strCmp tv pChild)
    nItemCount := tv.nItemCount + 1
    nVisItemCount := if tv.fold pParent then tv.nVisItemCount else tv.nVisItemCount + 1
    fresh := tv.fresh + 1 }

def removeTree (tv : TVData α) (pChild : PItem) : TVData α :=
  let tv := { tv with
    pItemSelected := tv.root.parentOf none pChild
    root := tv.root.remove pChild
    nItemCount := tv.nItemCount - ((tv.root.kidsOf pChild).size + 1) }
  { tv with nVisItemCount := getVisItemCount tv }

def tvAddItem (strCmp : α → α → Int) (tv : TVData α) (parent : PItem) (text : α) (fold : Bool) : TVData α :=
  tvSetVScrollInfo (insertChild strCmp tv parent text fold)

def tvDelTree (tv : TVData α) (item : PItem) : TVData α :=
  if item = tvRoot then
    let tv := (tv.root.kidsOf tvRoot).siblings.foldl removeTree tv
    recalc (changeSelected { tv with nItemTop := 0, nVisItemCount := 1 } (some item))
  else
    let tv := if tv.pItemSelected = some item then changeSelected tv (tv.root.parentOf none item) else tv
    recalc (removeTree tv item)

def tvSetSelItem (tv : TVData α) (newSel : PItem) : TVData α :=
  let tv := changeSelected (unfoldAncestor tv newSel) (some newSel)
  let count := getCountFromItem tv (some newSel)
  recalc
    { tv with
      nItemTop :=
        if count ≤ tv.nItemTop then count
        else if count ≥ tv.nItemTop + tv.nVisCount then count - tv.nVisCount
        else tv.nItemTop }

def toggle (tv : TVData α) (p : PItem) (fold : Bool) : TVData α :=
  recalc (setFold tv p fold)

def moveTo (tv : TVData α) (c : Int) : TVData α :=
  if c > tv.nItemTop ∧ c ≤ tv.nItemTop + tv.nVisCount then
    tv
  else
    tvSetVScrollInfo
      { tv with
        nItemTop :=
          if c ≤ tv.nItemTop then c - 1
          else if c ≥ tv.nItemTop + tv.nVisCount then c - tv.nVisCount
          else tv.nItemTop }

inductive Key where
  | right
  | left
  | up
  | down
  | pageDown
  | pageUp
  | home
  | endKey

def firstChild (tv : TVData α) (p : PItem) : Option PItem :=
  (tv.root.kidsOf p).siblings.head?

def tvKeyRight (tv : TVData α) (p : PItem) : TVData α :=
  match firstChild tv p with
  | none => tv
  | some t =>
    if tv.fold p then
      toggle tv p false
    else
      let tv := changeSelected tv (some t)
      let c := getCountFromItem tv (some t)
      if c > tv.nItemTop + tv.nVisCount then
        tvSetVScrollInfo { tv with nItemTop := c - tv.nVisCount }
      else
        tv

def tvKeyLeft (tv : TVData α) (p : PItem) : TVData α :=
  if (firstChild tv p).isSome ∧ tv.fold p = false then
    toggle tv p true
  else
    match tv.root.parentOf none p with
    | none => tv
    | some t =>
      let tv := changeSelected tv (some t)
      let c := getCountFromItem tv (some t)
      if c ≤ tv.nItemTop then tvSetVScrollInfo { tv with nItemTop := c - 1 } else tv

def tvKeyStep (tv : TVData α) (c : Int) : TVData α :=
  match getItemFromCount tv c with
  | none => tv
  | some t => moveTo (changeSelected tv (some t)) c

def tvKeyPageDown (tv : TVData α) (count : Int) : TVData α :=
  let c := if count + tv.nVisCount > tv.nVisItemCount then tv.nVisItemCount else count + tv.nVisCount
  let top :=
    if c ≤ tv.nItemTop then
      c - 1
    else if c > tv.nItemTop + tv.nVisCount * 2 then
      c - tv.nVisCount
    else if c > tv.nItemTop + tv.nVisCount then
      let top := tv.nItemTop + tv.nVisCount
      if top > tv.nVisItemCount - tv.nVisCount then tv.nVisItemCount - tv.nVisCount else top
    else
      tv.nItemTop
  let tv := { tv with nItemTop := top }
  tvSetVScrollInfo (changeSelected tv (getItemFromCount tv c))

def tvKeyPageUp (tv : TVData α) (count : Int) : TVData α :=
  let c := if count - tv.nVisCount < 1 then 1 else count - tv.nVisCount
  let top :=
    if c ≤ tv.nItemTop - tv.nVisCount then
      c - 1
    else if c ≤ tv.nItemTop then
      if tv.nItemTop ≤ tv.nVisCount then 0 else tv.nItemTop - tv.nVisCount
    else if c > tv.nItemTop + tv.nVisCount then
      c - tv.nVisCount
    else
      tv.nItemTop
  let tv := { tv with nItemTop := top }
  tvSetVScrollInfo (changeSelected tv (getItemFromCount tv c))

def tvKey (tv : TVData α) (key : Key) : TVData α :=
  let count := getCountFromItem tv tv.pItemSelected
  match key with
  | .right =>
    match tv.pItemSelected with
    | none => tv
    | some p => tvKeyRight tv p
  | .left =>
    match tv.pItemSelected with
    | none => tv
    | some p => tvKeyLeft tv p
  | .up => if count ≤ 1 then tv else tvKeyStep tv (count - 1)
  | .down => if count ≥ tv.nVisItemCount then tv else tvKeyStep tv (count + 1)
  | .pageDown => tvKeyPageDown tv count
  | .pageUp => tvKeyPageUp tv count
  | .home => tvSetVScrollInfo (changeSelected { tv with nItemTop := 0 } (some tvRoot))
  | .endKey =>
    let tv := { tv with nItemTop := tv.nVisItemCount - tv.nVisCount }
    tvSetVScrollInfo (changeSelected tv (getItemFromCount tv tv.nVisItemCount))

def tvButtonDown (tv : TVData α) (row : Int) (box : Bool) : TVData α :=
  let count := row + 1 + tv.nItemTop
  if count > tv.nVisItemCount then
    tv
  else
    match getItemFromCount tv count with
    | none => tv
    | some p =>
      let tv := changeSelected tv (some p)
      if box ∧ (firstChild tv p).isSome then toggle tv p (!tv.fold p) else tv

def tvDoubleClick (tv : TVData α) (row : Int) : TVData α :=
  let count := row + 1 + tv.nItemTop
  if count > tv.nVisItemCount then
    tv
  else
    match getItemFromCount tv count with
    | none => tv
    | some p => if (firstChild tv p).isSome then toggle tv p (!tv.fold p) else tv

inductive Scroll where
  | lineDown
  | lineUp
  | pageDown
  | pageUp
  | thumbTrack (pos : Int)

def newTop (tv : TVData α) : Scroll → Int
  | .lineDown => if tv.nItemTop + tv.nVisCount < tv.nVisItemCount then tv.nItemTop + 1 else tv.nItemTop
  | .lineUp => if tv.nItemTop > 0 then tv.nItemTop - 1 else tv.nItemTop
  | .pageDown =>
    let top :=
      if tv.nItemTop + tv.nVisCount * 2 ≤ tv.nItemCount then tv.nItemTop + tv.nVisCount
      else tv.nVisItemCount - tv.nVisCount
    if top < 0 then tv.nItemTop else top
  | .pageUp => if tv.nItemTop ≥ tv.nVisCount then tv.nItemTop - tv.nVisCount else 0
  | .thumbTrack pos => min pos (tv.nVisItemCount - tv.nVisCount)

def tvScroll (tv : TVData α) (scroll : Scroll) : TVData α :=
  if newTop tv scroll = tv.nItemTop then tv else tvSetVScrollInfo { tv with nItemTop := newTop tv scroll }

inductive TVMsg (α : Type) where
  | addItem (parent : PItem) (text : α) (fold : Bool)
  | delTree (item : PItem)
  | setSelItem (item : PItem)
  | key (key : Key)
  | buttonDown (row : Int) (box : Bool)
  | doubleClick (row : Int)
  | vScroll (scroll : Scroll)

def tvMsg (strCmp : α → α → Int) (tv : TVData α) : TVMsg α → TVData α
  | .addItem parent text fold => tvAddItem strCmp tv parent text fold
  | .delTree item => tvDelTree tv item
  | .setSelItem item => tvSetSelItem tv item
  | .key key => tvKey tv key
  | .buttonDown row box => tvButtonDown tv row box
  | .doubleClick row => tvDoubleClick tv row
  | .vScroll scroll => tvScroll tv scroll

def tvStart (text : α) (fold : Bool) (nVisCount : Int) (sort : Bool) : TVData α where
  root := .node tvRoot .nil .nil
  items := fun _ => ⟨text, fold, true⟩
  pItemSelected := some tvRoot
  nItemCount := 1
  nVisItemCount := 1
  nItemTop := 0
  nVisCount := nVisCount
  sort := sort
  fresh := 1

namespace Nodes

def vis (fold : PItem → Bool) : Nodes → List PItem
  | nil => []
  | node p kids rest => p :: ((if fold p then [] else vis fold kids) ++ vis fold rest)

@[simp]
theorem preorder_node (p : PItem) (kids rest : Nodes)
    : preorder (node p kids rest) = p :: (preorder kids ++ preorder rest) := rfl

theorem length_preorder (n : Nodes) : (preorder n).length = size n := by
  induction n with
  | nil => rfl
  | node p kids rest ihk ihr =>
    rw [preorder_node, length_cons, length_append, ihk, ihr, size]
    omega

theorem vis_sublist (fold : PItem → Bool) (n : Nodes) : (vis fold n).Sublist (preorder n) := by
  induction n with
  | nil => exact Sublist.refl _
  | node p kids rest ihk ihr =>
    rw [vis, preorder_node]
    apply Sublist.cons_cons
    split
    . exact (nil_sublist _).append ihr
    . exact ihk.append ihr

theorem nodup_node {p : PItem} {kids rest : Nodes} (h : (preorder (node p kids rest)).Nodup)
    : (p ∉ preorder kids ∧ p ∉ preorder rest) ∧ (preorder kids).Nodup ∧ (preorder rest).Nodup
      ∧ ∀ x ∈ preorder kids, x ∉ preorder rest := by
  rw [preorder_node, nodup_cons, mem_append, not_or, nodup_append] at h
  refine ⟨h.1, h.2.1, h.2.2.1, ?_⟩
  intro x hx hx'
  exact h.2.2.2 x hx x hx' rfl

theorem mem_rest {p x : PItem} {kids rest : Nodes} (hx : x ∈ preorder (node p kids rest)) (hne : p ≠ x)
    (hk : x ∉ preorder kids) : x ∈ preorder rest := by
  rw [preorder_node, mem_cons, mem_append] at hx
  rcases hx with hx | hx | hx
  . exact absurd hx.symm hne
  . exact absurd hx hk
  . exact hx

theorem mem_vis {fold : PItem → Bool} {n : Nodes} (hnodup : (preorder n).Nodup) {x : PItem} (hx : x ∈ preorder n)
    : x ∈ vis fold n ↔ ∀ a ∈ ancestors x n, fold a = false := by
  induction n with
  | nil => cases hx
  | node p kids rest ihk ihr =>
    rcases nodup_node hnodup with ⟨⟨hnotk, hnotr⟩, hnodupk, hnodupr, hdisj⟩
    rw [vis, ancestors, mem_cons, mem_append]
    by_cases hp : p = x
    . rw [if_pos hp]
      simp [hp]
    rw [if_neg hp]
    by_cases hk : x ∈ preorder kids
    . have hr : x ∉ vis fold rest := fun hr => hdisj x hk ((vis_sublist fold rest).subset hr)
      rw [if_pos hk, forall_mem_cons, ← ihk hnodupk hk]
      cases hf : fold p with
      | true | false => simp [hr, Ne.symm hp]
    have hkv : x ∉ vis fold kids := fun hkv => hk ((vis_sublist fold kids).subset hkv)
    rw [if_neg hk, ← ihr hnodupr (mem_rest hx hp hk)]
    cases hf : fold p with
    | true => simp [Ne.symm hp]
    | false => simp [hkv, Ne.symm hp]

end Nodes

section Counts

theorem visItemCount_eq (fold : PItem → Bool) (n : Nodes) : visItemCount fold n = (n.vis fold).length := by
  induction n with
  | nil => rfl
  | node p kids rest ihk ihr =>
    rw [visItemCount, Nodes.vis, length_cons, length_append, ihr]
    cases hf : fold p with
    | true =>
      simp
      omega
    | false =>
      rw [if_neg Bool.false_ne_true, if_neg Bool.false_ne_true, ihk]
      push_cast
      omega

theorem itemFromCount_eq (fold : PItem → Bool) (count : Int) (n : Nodes) (cnt : Int)
    : itemFromCount fold count n cnt
      = if cnt < count ∧ count ≤ cnt + (n.vis fold).length then
          ((n.vis fold)[(count - cnt - 1).toNat]?, count)
        else
          (none, cnt + (n.vis fold).length) := by
  induction n generalizing cnt with
  | nil =>
    rw [itemFromCount, Nodes.vis, List.length_nil, if_neg (by omega)]
    simp
  | node p kids rest ihk ihr =>
    rw [itemFromCount, Nodes.vis]
    generalize hkids : (if fold p = true then [] else kids.vis fold) = shown
    have hinner : (if fold p = true then (none, cnt + 1) else itemFromCount fold count kids (cnt + 1))
        = if cnt + 1 < count ∧ count ≤ cnt + 1 + shown.length then
            (shown[(count - (cnt + 1) - 1).toNat]?, count)
          else
            (none, cnt + 1 + shown.length) := by
      rw [← hkids]
      cases hf : fold p with
      | true =>
        rw [if_pos rfl, if_pos rfl, List.length_nil, if_neg (by omega)]
        simp
      | false => rw [if_neg Bool.false_ne_true, if_neg Bool.false_ne_true, ihk]
    rw [length_cons, length_append]
    by_cases hfirst : cnt + 1 = count
    . have hzero : (count - cnt - 1).toNat = 0 := by omega
      rw [if_pos hfirst, if_pos ⟨by omega, by push_cast; omega⟩, hzero, ← hfirst]
      rfl
    rw [if_neg hfirst, hinner]
    by_cases hshown : cnt + 1 < count ∧ count ≤ cnt + 1 + shown.length
    . have hlt : (count - (cnt + 1) - 1).toNat < shown.length := by omega
      have hsucc : (count - cnt - 1).toNat = (count - (cnt + 1) - 1).toNat + 1 := by omega
      rw [if_pos hshown, if_pos ⟨by omega, by push_cast; omega⟩, hsucc, getElem?_cons_succ,
        getElem?_append_left hlt, getElem?_eq_getElem hlt]
    rw [if_neg hshown]
    dsimp only
    rw [ihr]
    by_cases hrest : cnt + 1 + shown.length < count ∧ count ≤ cnt + 1 + shown.length + (rest.vis fold).length
    . have hsucc : (count - cnt - 1).toNat = (count - (cnt + 1) - 1).toNat + 1 := by omega
      have hle : shown.length ≤ (count - (cnt + 1) - 1).toNat := by omega
      have hsub : (count - (cnt + 1 + shown.length) - 1).toNat
          = (count - (cnt + 1) - 1).toNat - shown.length := by omega
      rw [if_pos hrest, if_pos ⟨by omega, by push_cast; omega⟩, hsucc, getElem?_cons_succ,
        getElem?_append_right hle, hsub]
    rw [if_neg hrest, if_neg (by push_cast; omega)]
    push_cast
    rw [Prod.mk.injEq]
    exact ⟨rfl, by omega⟩

theorem countFromItem_eq (fold : PItem → Bool) (pTgt : PItem) (n : Nodes) {count : Int} (hcount : 0 ≤ count)
    : countFromItem fold pTgt n count
      = if pTgt ∈ n.vis fold then
          (count + 1 + (n.vis fold).idxOf pTgt, count + 1 + (n.vis fold).idxOf pTgt)
        else
          (0, count + (n.vis fold).length) := by
  induction n generalizing count with
  | nil =>
    rw [countFromItem, Nodes.vis, if_neg not_mem_nil, List.length_nil]
    simp
  | node p kids rest ihk ihr =>
    rw [countFromItem, Nodes.vis]
    generalize hkids : (if fold p = true then [] else kids.vis fold) = shown
    have hinner : (if fold p = true then (0, count + 1) else countFromItem fold pTgt kids (count + 1))
        = if pTgt ∈ shown then (count + 1 + 1 + shown.idxOf pTgt, count + 1 + 1 + shown.idxOf pTgt)
          else (0, count + 1 + shown.length) := by
      rw [← hkids]
      cases hf : fold p with
      | true =>
        rw [if_pos rfl, if_pos rfl, if_neg not_mem_nil]
        simp
      | false => rw [if_neg Bool.false_ne_true, if_neg Bool.false_ne_true, ihk (by omega)]
    by_cases hp : p = pTgt
    . rw [if_pos hp, if_pos (by rw [hp]; exact mem_cons_self), hp, idxOf_cons_self]
      simp
    rw [if_neg hp, hinner]
    have hidx : (p :: (shown ++ rest.vis fold)).idxOf pTgt = (shown ++ rest.vis fold).idxOf pTgt + 1 :=
      idxOf_cons_ne _ hp
    by_cases hshown : pTgt ∈ shown
    . have hmem : pTgt ∈ p :: (shown ++ rest.vis fold) :=
        mem_cons_of_mem p (mem_append_left _ hshown)
      have hne : count + 1 + 1 + (shown.idxOf pTgt : Int) ≠ 0 := by omega
      rw [if_pos hshown, if_pos hmem, hidx, idxOf_append, if_pos hshown]
      dsimp only
      rw [if_pos hne]
      push_cast
      rw [Prod.mk.injEq]
      exact ⟨by omega, by omega⟩
    rw [if_neg hshown]
    dsimp only
    rw [if_neg (not_not.mpr rfl), ihr (by omega)]
    by_cases hrest : pTgt ∈ rest.vis fold
    . have hmem : pTgt ∈ p :: (shown ++ rest.vis fold) :=
        mem_cons_of_mem p (mem_append_right _ hrest)
      rw [if_pos hrest, if_pos hmem, hidx, idxOf_append, if_neg hshown]
      push_cast
      rw [Prod.mk.injEq]
      exact ⟨by omega, by omega⟩
    have hmem : pTgt ∉ p :: (shown ++ rest.vis fold) := by
      rw [mem_cons, mem_append, not_or, not_or]
      exact ⟨Ne.symm hp, hshown, hrest⟩
    rw [if_neg hrest, if_neg hmem, length_cons, length_append]
    push_cast
    rw [Prod.mk.injEq]
    exact ⟨rfl, by omega⟩

variable {α : Type}

def visOf (tv : TVData α) : List PItem :=
  tv.root.vis tv.fold

theorem getItemFromCount_eq (tv : TVData α) (count : Int) : getItemFromCount tv count
      = if 0 < count ∧ count ≤ (visOf tv).length then (visOf tv)[(count - 1).toNat]? else none := by
  rw [getItemFromCount, itemFromCount_eq, visOf]
  simp only [zero_add, sub_zero]
  split <;> rfl

theorem getCountFromItem_eq (tv : TVData α) (x : PItem)
    : getCountFromItem tv (some x) = if x ∈ visOf tv then ((visOf tv).idxOf x : Int) + 1 else 0 := by
  rw [getCountFromItem, countFromItem_eq _ _ _ (le_refl 0), visOf]
  split
  . dsimp only
    omega
  . rfl

theorem getCountFromItem_range (tv : TVData α) (p : Option PItem)
    : 0 ≤ getCountFromItem tv p ∧ getCountFromItem tv p ≤ (visOf tv).length := by
  cases p with
  | none => exact ⟨le_refl _, Int.natCast_nonneg _⟩
  | some x =>
    rw [getCountFromItem_eq]
    split
    . next hx =>
      have hlt := idxOf_lt_length_of_mem hx
      omega
    . omega

theorem count_item {tv : TVData α} (hnodup : (visOf tv).Nodup) {count : Int}
    (hcount : 1 ≤ count ∧ count ≤ (visOf tv).length)
    : ∃ x ∈ visOf tv, getItemFromCount tv count = some x ∧ getCountFromItem tv (some x) = count := by
  have hlt : (count - 1).toNat < (visOf tv).length := by omega
  refine ⟨(visOf tv)[(count - 1).toNat], getElem_mem hlt, ?_, ?_⟩
  . rw [getItemFromCount_eq, if_pos ⟨by omega, hcount.2⟩, getElem?_eq_getElem hlt]
  . rw [getCountFromItem_eq, if_pos (getElem_mem hlt), Nodup.idxOf_getElem hnodup]
    omega

theorem item_count {tv : TVData α} {x : PItem} (hx : x ∈ visOf tv)
    : (1 ≤ getCountFromItem tv (some x) ∧ getCountFromItem tv (some x) ≤ (visOf tv).length)
      ∧ getItemFromCount tv (getCountFromItem tv (some x)) = some x := by
  have hlt := idxOf_lt_length_of_mem hx
  rw [getCountFromItem_eq, if_pos hx]
  refine ⟨⟨by omega, by omega⟩, ?_⟩
  have hidx : ((((visOf tv).idxOf x : Int) + 1) - 1).toNat = (visOf tv).idxOf x := by omega
  rw [getItemFromCount_eq, if_pos ⟨by omega, by omega⟩, hidx, getElem?_eq_getElem hlt, getElem_idxOf]

theorem visItemCount_mono {fold fold' : PItem → Bool} (h : ∀ x, fold' x = true → fold x = true) (n : Nodes)
    : visItemCount fold n ≤ visItemCount fold' n := by
  induction n with
  | nil => exact le_refl _
  | node p kids rest ihk ihr =>
    rw [visItemCount, visItemCount]
    have hnonneg : 0 ≤ visItemCount fold' kids := by
      rw [visItemCount_eq]
      exact Int.natCast_nonneg _
    cases hf : fold' p with
    | true =>
      rw [h p hf, if_pos rfl, if_pos rfl]
      omega
    | false =>
      rw [if_neg Bool.false_ne_true]
      split
      . omega
      . omega

end Counts

end TreeView

end MiniGui
