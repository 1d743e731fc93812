import Mathlib.Data.List.Basic
import Mathlib.Tactic.Common

/-!
The items of a list box of `control/listbox.c`, the nodes they are kept in, and the part of them that is in view. A `NULL`
string is the empty one: what takes a string refuses both alike.
-/

namespace MiniGui

structure LstStyle where
  sort : Bool
  multiplesel : Bool
  checkbox : Bool
  useicon : Bool
  autocheck : Bool
  mousefollow : Bool

structure LstItem where
  node : Nat
  key : Option (List UInt8)
  selected : Bool
  disable : Bool
  checked : Bool
  partChecked : Bool
  useBitmap : Bool
  image : Nat
deriving DecidableEq, Repr

structure ListBoxItemInfo where
  string : List UInt8
  checked : Bool
  partChecked : Bool
  bitmap : Bool
  hIcon : Nat

/--
What `malloc` gives for a node, where the free list has none, and whether `strdup` gives anything.
-/
structure LstMemory where
  node : Option Nat
  copied : Bool

structure ListBox where
  items : List LstItem
  freeList : List Nat
  heap : List Nat
  buffStart : Nat
  buffLen : Nat
  itemCount : Int
  itemTop : Int
  itemVisibles : Int
  itemHilighted : Int
  itemHeight : Int
deriving DecidableEq, Repr

abbrev StrCmp := Option (List UInt8) → Option (List UInt8) → BitVec 32 → Int

def lbOkay : Int := 0
def lbErr : Int := -3
def lbErrSpace : Int := -2

def sizeofListBoxItem : Nat := 20

inductive LbContent where
  | addString (lParam : Option ListBoxItemInfo) (mem : LstMemory)
  | insertString (pos : Int) (lParam : Option ListBoxItemInfo) (mem : LstMemory)
  | deleteString (delete : Int)
  | resetContent
  | setText (pos : Int) (str : List UInt8) (copied : Bool)
  | setItemData (pos : Int) (lParam : Option ListBoxItemInfo) (copied : Bool)
  | multiAddItem (lParam : Option (List (ListBoxItemInfo × LstMemory)))

theorem forall_mem_modify {α : Type} {p : α → Prop} {f : α → α} {l : List α} (h : ∀ a ∈ l, p a)
    (hf : ∀ a, p a → p (f a)) (i : Nat) : ∀ a ∈ l.modify i f, p a := by
  intro a ha
  obtain ⟨j, hj⟩ := List.mem_iff_getElem?.mp ha
  rw [List.getElem?_modify] at hj
  obtain ⟨old, hold, rfl⟩ := Option.map_eq_some_iff.mp hj
  have hp := h old (List.mem_of_getElem? hold)
  split
  · exact hf old hp
  · exact hp

namespace ListBox

section Nodes

variable (pData : ListBox)

def buffEnd : Nat :=
  pData.buffStart + pData.buffLen * sizeofListBoxItem

def buffer : List Nat :=
  (List.range pData.buffLen).map fun i => pData.buffStart + i * sizeofListBoxItem

def lstAllocItem (node : Option Nat) : Option (Nat × ListBox) :=
  match pData.freeList with
  | plbi :: rest => some (plbi, { pData with freeList := rest })
  | [] => node.map fun plbi => (plbi, { pData with heap := plbi :: pData.heap })

def lstFreeItem (plbi : Nat) : ListBox :=
  if plbi < pData.buffStart ∨ plbi > pData.buffEnd then
    { pData with heap := pData.heap.erase plbi }
  else
    { pData with freeList := plbi :: pData.freeList }

def lstGetItem (pos : Int) : Option LstItem :=
  pData.items[pos.toNat]?

def setItem (pos : Int) (f : LstItem → LstItem) : ListBox :=
  { pData with items := pData.items.modify pos.toNat f }

def lstResetListBoxContent : ListBox :=
  { pData with
    items := []
    freeList := pData.buffer
    heap := pData.items.foldl (fun heap plbi =>
      if plbi.node < pData.buffStart ∨ plbi.node > pData.buffEnd then heap.erase plbi.node else heap) pData.heap
    itemCount := 0
    itemTop := 0
    itemHilighted := -1 }

end Nodes

section Insertion

variable (style : LstStyle) (strCmp : StrCmp)

def sortedPos (key : Option (List UInt8)) : List LstItem → Nat
  | [] => 0
  | next :: rest => if strCmp key next.key (-1) ≤ 0 then 0 else sortedPos key rest + 1

def seekPos (pos index : Int) : List LstItem → Option Nat × Nat
  | [] => (none, 0)
  | _ :: rest =>
    if pos = index then
      (some 0, 0)
    else
      let seek := seekPos pos (index + 1) rest
      (seek.1.map (· + 1), seek.2 + 1)

def insPosItem (newItem : LstItem) (pos : Int) : List LstItem → Option Nat × Nat
  | [] => (none, 0)
  | head :: rest =>
    if style.sort then
      if strCmp newItem.key head.key (-1) < 0 then
        (none, 0)
      else
        let walked := sortedPos strCmp newItem.key rest
        (some walked, walked)
    else if pos < 0 then
      (some rest.length, rest.length)
    else if pos = 0 then
      (none, 0)
    else
      seekPos pos 1 (head :: rest)

def lstAddNewItem (pData : ListBox) (newItem : LstItem) (pos : Int) : ListBox × Int :=
  match insPosItem style strCmp newItem pos pData.items with
  | (some plbi, insPos) =>
    ({ pData with
        items := pData.items.insertIdx (plbi + 1) newItem
        itemCount := pData.itemCount + 1 },
      insPos + 1)
  | (none, insPos) =>
    ({ pData with
        items := newItem :: pData.items
        itemCount := pData.itemCount + 1 },
      insPos)

def newItem (node : Nat) (info : ListBoxItemInfo) : LstItem :=
  let plbii := style.checkbox || style.useicon
  { node
    key := some info.string
    selected := false
    disable := false
    checked := plbii && info.checked
    partChecked := plbii && !info.checked && info.partChecked
    useBitmap := plbii && info.bitmap
    image := if style.useicon then info.hIcon else 0 }

def addItem (pData : ListBox) (pos : Int) (info : ListBoxItemInfo) (mem : LstMemory) : ListBox × Int :=
  match pData.lstAllocItem mem.node with
  | none => (pData, lbErrSpace)
  | some (node, pData) =>
    if mem.copied then
      lstAddNewItem style strCmp pData (newItem style node info) pos
    else
      (pData.lstFreeItem node, lbErrSpace)

def addString (pData : ListBox) (pos : Int) (lParam : Option ListBoxItemInfo) (mem : LstMemory) : ListBox × Int :=
  match lParam with
  | none => (pData, lbErr)
  | some info =>
    if (style.checkbox || style.useicon) = false ∧ info.string = [] then
      (pData, lbErr)
    else
      addItem style strCmp pData pos info mem

def multiAddItem (pData : ListBox) (pos : Int) : List (ListBoxItemInfo × LstMemory) → ListBox × Int
  | [] => (pData, pos)
  | (info, mem) :: rest =>
    if info.string = [] then
      (pData, pos)
    else
      let added := addItem style strCmp pData (-1) info mem
      if added.2 = lbErrSpace then
        added
      else
        multiAddItem added.1 added.2 rest

end Insertion

section Deletion

variable (pData : ListBox)

def seekRemoved (pos index : Int) : List LstItem → Nat
  | [] => 0
  | [_] => 0
  | _ :: next :: rest => if pos = index then 0 else seekRemoved pos (index + 1) (next :: rest) + 1

def lstRemoveItem (pos : Int) : Option (LstItem × Int × ListBox) :=
  if pos < 0 ∨ pos ≥ pData.itemCount then
    none
  else
    let index := if pos = 0 then 0 else seekRemoved pos 0 pData.items
    pData.items[index]?.map fun plbi => (plbi, index, { pData with items := pData.items.eraseIdx index })

def itemBottom : Int :=
  pData.itemTop + pData.itemVisibles - 1

def hilightInView : ListBox :=
  let pData := if pData.itemHilighted < pData.itemTop then { pData with itemHilighted := pData.itemTop } else pData
  if pData.itemHilighted > pData.itemBottom then { pData with itemHilighted := pData.itemBottom } else pData

def topAfterRemoval (delete : Int) : ListBox :=
  if pData.itemTop ≠ 0 ∧ pData.itemCount ≤ pData.itemVisibles then
    { pData with itemTop := 0 }
  else if delete ≤ pData.itemTop then
    { pData with itemTop := if pData.itemTop - 1 < 0 then 0 else pData.itemTop - 1 }
  else
    pData

def hilightAfterRemoval : ListBox :=
  if pData.itemHilighted ≥ pData.itemCount then
    { pData with itemHilighted := if pData.itemCount - 1 < 0 then 0 else pData.itemCount - 1 }
  else
    pData

def deleteString (delete : Int) : ListBox × Int :=
  match pData.lstRemoveItem delete with
  | none => (pData, lbErr)
  | some (removed, delete, pData) =>
    let pData := pData.lstFreeItem removed.node
    let pData := { pData with itemCount := pData.itemCount - 1 }
    ((pData.topAfterRemoval delete).hilightAfterRemoval.hilightInView, lbOkay)

end Deletion

section Items

variable (style : LstStyle) (pData : ListBox)

def setText (pos : Int) (str : List UInt8) (copied : Bool) : ListBox × Int :=
  match pData.lstGetItem pos with
  | none => (pData, lbErr)
  | some _ => if copied then (pData.setItem pos fun plbi => { plbi with key := some str }, lbErr) else (pData, lbErr)

def setItemMarks (info : ListBoxItemInfo) (plbi : LstItem) : LstItem :=
  { plbi with
    checked := info.checked
    partChecked := info.partChecked
    useBitmap := plbi.useBitmap || info.bitmap
    image := if style.useicon then info.hIcon else 0 }

/--
None is `strlen` of a `NULL` key.
-/
def setItemData (pos : Int) (lParam : Option ListBoxItemInfo) (copied : Bool) : Option (ListBox × Int) :=
  if (style.checkbox || style.useicon) = false then
    some (pData, lbErr)
  else
    match pData.lstGetItem pos, lParam with
    | some plbi, some info =>
      let pData := pData.setItem pos (setItemMarks style info)
      if info.string = [] then
        some (pData, lbOkay)
      else
        plbi.key.map fun key =>
          if key.length ≥ info.string.length ∨ copied then
            (pData.setItem pos fun plbi => { plbi with key := some info.string }, lbOkay)
          else
            ((pData.setItem pos fun plbi => { plbi with key := none }).lstFreeItem plbi.node, lbErrSpace)
    | _, _ => some (pData, lbErr)

def ItemDataOk (pos : Int) (lParam : Option ListBoxItemInfo) (copied : Bool) : Prop :=
  (style.checkbox || style.useicon) = true →
    ∀ plbi ∈ pData.lstGetItem pos, ∀ key ∈ plbi.key, ∀ info ∈ lParam, key.length < info.string.length → copied = true

end Items

def onContent (style : LstStyle) (strCmp : StrCmp) (pData : ListBox) : LbContent → Option (ListBox × Int)
  | .addString lParam mem => some (addString style strCmp pData (-1) lParam mem)
  | .insertString pos lParam mem => some (addString style strCmp pData pos lParam mem)
  | .deleteString delete => some (pData.deleteString delete)
  | .resetContent => some (pData.lstResetListBoxContent, 0)
  | .setText pos str copied => some (pData.setText pos str copied)
  | .setItemData pos lParam copied => pData.setItemData style pos lParam copied
  | .multiAddItem lParam => some (match lParam with
    | none => (pData, lbErr)
    | some infos => multiAddItem style strCmp pData (-1) infos)

def create (buffStart buffLen : Nat) (itemVisibles itemHeight : Int) : ListBox :=
  { items := []
    freeList := (List.range buffLen).map fun i => buffStart + i * sizeofListBoxItem
    heap := []
    buffStart
    buffLen
    itemCount := 0
    itemTop := 0
    itemVisibles
    itemHilighted := -1
    itemHeight }

section Positions

variable {style : LstStyle} {strCmp : StrCmp} {pData : ListBox}

theorem sortedPos_le (strCmp : StrCmp) (key : Option (List UInt8)) (items : List LstItem)
    : sortedPos strCmp key items ≤ items.length := by
  induction items with
  | nil => simp [sortedPos]
  | cons next rest ih =>
    rw [sortedPos, List.length_cons]
    split <;> omega

theorem seekPos_eq (pos index : Int) (items : List LstItem) : seekPos pos index items =
        if index ≤ pos ∧ pos < index + items.length then
          (some (pos - index).toNat, (pos - index).toNat)
        else
          (none, items.length) := by
  induction items generalizing index with
  | nil =>
    rw [seekPos, if_neg (by simp only [List.length_nil]; omega)]
    rfl
  | cons item rest ih =>
    rw [seekPos]
    by_cases hhere : pos = index
    · subst hhere
      rw [if_pos rfl, if_pos (by simp only [List.length_cons]; omega)]
      simp
    · rw [if_neg hhere]
      simp only [ih (index + 1), List.length_cons]
      by_cases hrest : index + 1 ≤ pos ∧ pos < index + 1 + rest.length
      · rw [if_pos hrest, if_pos (by omega)]
        have hsucc : (pos - (index + 1)).toNat + 1 = (pos - index).toNat := by omega
        simp [hsucc]
      · rw [if_neg hrest, if_neg (by omega)]
        simp

theorem insPosItem_spec (style : LstStyle) (strCmp : StrCmp) (newItem : LstItem) (pos : Int) (items : List LstItem)
    : (∃ plbi < items.length, insPosItem style strCmp newItem pos items = (some plbi, plbi))
      ∨ insPosItem style strCmp newItem pos items = (none, 0)
      ∨ style.sort = false ∧ items ≠ [] ∧ (items.length : Int) < pos
        ∧ insPosItem style strCmp newItem pos items = (none, items.length) := by
  cases items with
  | nil => exact .inr (.inl rfl)
  | cons head rest =>
    simp only [insPosItem, List.length_cons]
    by_cases hsort : style.sort = true
    · rw [if_pos hsort]
      by_cases hfront : strCmp newItem.key head.key (-1) < 0
      · rw [if_pos hfront]
        exact .inr (.inl rfl)
      · rw [if_neg hfront]
        have := sortedPos_le strCmp newItem.key rest
        exact .inl ⟨_, by omega, rfl⟩
    rw [if_neg hsort]
    by_cases hneg : pos < 0
    · rw [if_pos hneg]
      exact .inl ⟨_, by omega, rfl⟩
    rw [if_neg hneg]
    by_cases hzero : pos = 0
    · rw [if_pos hzero]
      exact .inr (.inl rfl)
    rw [if_neg hzero, seekPos_eq]
    by_cases hin : 1 ≤ pos ∧ pos < 1 + ((head :: rest).length : Int)
    · rw [if_pos hin]
      rw [List.length_cons] at hin
      exact .inl ⟨_, by omega, rfl⟩
    · rw [if_neg hin]
      rw [List.length_cons] at hin
      exact .inr (.inr ⟨by simpa using hsort, by simp, by omega, rfl⟩)

theorem seekRemoved_eq (pos index : Int) (items : List LstItem) (hpos : index ≤ pos)
    (hlt : pos < index + items.length) : seekRemoved pos index items = (pos - index).toNat := by
  fun_induction seekRemoved pos index items with
  | case1 => simp at hlt; omega
  | case2 =>
    simp only [List.length_cons, List.length_nil] at hlt
    omega
  | case3 => simp
  | case4 index head next rest hne ih =>
    simp only [List.length_cons] at hlt ih
    rw [ih (by omega) (by omega)]
    omega

theorem lstRemoveItem_eq {pos : Int} (hcount : pData.itemCount = pData.items.length) (hpos : 0 ≤ pos)
    (hlt : pos < pData.itemCount) : ∃ plbi, pData.items[pos.toNat]? = some plbi ∧
        pData.lstRemoveItem pos =
          some (plbi, pos, { pData with items := pData.items.eraseIdx pos.toNat }) := by
  have hin : pos.toNat < pData.items.length := by omega
  have hindex : (if pos = 0 then 0 else seekRemoved pos 0 pData.items) = pos.toNat := by
    split
    · omega
    · rw [seekRemoved_eq pos 0 pData.items hpos (by omega)]
      omega
  refine ⟨pData.items[pos.toNat], List.getElem?_eq_getElem hin, ?_⟩
  rw [lstRemoveItem, if_neg (by omega)]
  simp only [hindex, List.getElem?_eq_getElem hin, Option.map_some, Int.toNat_of_nonneg hpos]

theorem lstAllocItem_eq {node : Option Nat} {plbi : Nat} {s : ListBox}
    (halloc : pData.lstAllocItem node = some (plbi, s)) : ∃ freeList heap, s = { pData with freeList, heap } := by
  unfold lstAllocItem at halloc
  split at halloc
  · cases halloc
    exact ⟨_, _, rfl⟩
  · obtain ⟨_, _, heq⟩ := Option.map_eq_some_iff.mp halloc
    cases heq
    exact ⟨_, _, rfl⟩

theorem lstFreeItem_eq (pData : ListBox) (plbi : Nat)
    : ∃ freeList heap, pData.lstFreeItem plbi = { pData with freeList, heap } := by
  unfold lstFreeItem
  split
  · exact ⟨_, _, rfl⟩
  · exact ⟨_, _, rfl⟩

end Positions

end ListBox

end MiniGui
