import Mathlib.Data.List.InsertIdx
import MiniGui.Control.ListView

namespace MiniGui

open List Option

variable {i : Nat} {newItem : LstItem}

section CountP

variable {α : Type} {p : α → Bool} {f : α → α}

theorem countP_modify_same (hsame : ∀ a, p (f a) = p a) (l : List α) (i : Nat)
    : (l.modify i f).countP p = l.countP p := by
  induction l generalizing i with
  | nil => simp
  | cons a l ih =>
    cases i with
    | zero => simp [countP_cons, hsame]
    | succ i => simp [countP_cons, ih]

theorem countP_modify_le (l : List α) (i : Nat) : (l.modify i f).countP p ≤ l.countP p + 1 := by
  induction l generalizing i with
  | nil => simp
  | cons a l ih =>
    cases i with
    | zero =>
      simp only [modify_zero_cons, countP_cons]
      split <;> omega
    | succ i =>
      have := ih i
      simp only [modify_succ_cons, countP_cons]
      omega

variable {l : List α}

theorem countP_modify_findIdx? (hclear : ∀ a, p (f a) = false) (hi : l.findIdx? p = some i)
    : (l.modify i f).countP p + 1 = l.countP p := by
  induction l generalizing i with
  | nil => simp at hi
  | cons a l ih =>
    rw [findIdx?_cons] at hi
    by_cases ha : p a = true
    · rw [if_pos ha] at hi
      cases hi
      simp [ha, hclear]
    · rw [if_neg ha] at hi
      obtain ⟨j, hj, rfl⟩ := map_eq_some_iff.mp hi
      have := ih hj
      simp only [modify_succ_cons, countP_cons, if_neg ha]
      omega

theorem countP_of_findIdx?_none (hnone : l.findIdx? p = none) : l.countP p = 0 := by
  rw [countP_eq_zero]
  intro a ha
  have := findIdx?_eq_none_iff.mp hnone a ha
  simp [this]

theorem countP_modify_of_findIdx? (hi : l.findIdx? p = some i) (hone : l.countP p ≤ 1)
    : (l.modify i f).countP p ≤ 1 := by
  induction l generalizing i with
  | nil => simp at hi
  | cons a l ih =>
    rw [findIdx?_cons] at hi
    by_cases ha : p a = true
    · rw [if_pos ha] at hi
      cases hi
      simp only [countP_cons, if_pos ha] at hone
      simp only [modify_zero_cons, countP_cons]
      split <;> omega
    · rw [if_neg ha] at hi
      obtain ⟨j, hj, rfl⟩ := map_eq_some_iff.mp hi
      simp only [countP_cons, if_neg ha] at hone
      have := ih hj hone
      simp only [modify_succ_cons, countP_cons, if_neg ha]
      omega

end CountP

structure ItemsOk (style : LstStyle) (count : Int) (items : List LstItem) : Prop where
  length : (items.length : Int) = count
  single : style.multiplesel = false → items.countP (·.selected) ≤ 1
  keys : ∀ plbi ∈ items, plbi.key.isSome = true

namespace ItemsOk

variable {style : LstStyle} {count : Int} {items : List LstItem} (h : ItemsOk style count items)
include h

theorem modify {f : LstItem → LstItem} (i : Nat)
    (hkey : ∀ plbi, plbi.key.isSome = true → (f plbi).key.isSome = true)
    (hsingle : style.multiplesel = false → (items.modify i f).countP (·.selected) ≤ 1)
    : ItemsOk style count (items.modify i f) := by
  refine ⟨?_, hsingle, forall_mem_modify h.keys hkey i⟩
  rw [length_modify]
  exact h.length

theorem modify_unselected {f : LstItem → LstItem} (i : Nat)
    (hkey : ∀ plbi, plbi.key.isSome = true → (f plbi).key.isSome = true)
    (hsame : ∀ plbi, (f plbi).selected = plbi.selected) : ItemsOk style count (items.modify i f) :=
  h.modify i hkey fun hmulti => by
    rw [countP_modify_same hsame]
    exact h.single hmulti

theorem insertIdx (hi : i ≤ items.length)
    (hkey : newItem.key.isSome = true) (hselected : newItem.selected = false)
    : ItemsOk style (count + 1) (items.insertIdx i newItem) := by
  have hlen := h.length
  refine ⟨by rw [length_insertIdx_of_le_length hi]; omega, ?_, ?_⟩
  · intro hmulti
    rw [(perm_insertIdx newItem items hi).countP_eq, countP_cons, hselected]
    simpa using h.single hmulti
  · intro plbi hplbi
    rcases (mem_insertIdx hi).mp hplbi with rfl | hmem
    · exact hkey
    · exact h.keys plbi hmem

theorem eraseIdx (hi : i < items.length) : ItemsOk style (count - 1) (items.eraseIdx i) := by
  have hlen := h.length
  refine ⟨by rw [length_eraseIdx_of_lt hi]; omega, ?_, ?_⟩
  · intro hmulti
    exact Nat.le_trans (eraseIdx_sublist items i).countP_le (h.single hmulti)
  · intro plbi hplbi
    exact h.keys plbi (mem_of_mem_eraseIdx hplbi)

end ItemsOk

namespace ListBox

variable {index newSel pos : Int}

section Selection

variable {style : LstStyle} {strCmp : StrCmp} {pData : ListBox} (h : ItemsOk style pData.itemCount pData.items)
include h

theorem lstGetItem_some (hcount : pData.itemCount ≠ 0)
    (hpos : pos < pData.itemCount) : ∃ plbi, pData.lstGetItem pos = some plbi := by
  have hlen := h.length
  have hlt : pos.toNat < pData.items.length := by omega
  exact ⟨pData.items[pos.toNat], getElem?_eq_getElem hlt⟩

theorem lstCancelSelected_eq
    : ∃ items, pData.lstCancelSelected = { pData with items } ∧ ItemsOk style pData.itemCount items := by
  unfold lstCancelSelected
  cases hfind : pData.items.findIdx? (·.selected) with
  | none => exact ⟨pData.items, rfl, h⟩
  | some index =>
    refine ⟨_, rfl, h.modify index (fun _ hkey => hkey) fun hmulti => ?_⟩
    have := countP_modify_findIdx? (p := fun plbi : LstItem => plbi.selected)
      (f := fun plbi : LstItem => { plbi with selected := false }) (fun _ => rfl) hfind
    have := h.single hmulti
    omega

theorem lstSelectItem_eq (hcount : pData.itemCount ≠ 0) (hpos : newSel < pData.itemCount)
    : ∃ items, pData.lstSelectItem style newSel = some { pData with items }
        ∧ ItemsOk style pData.itemCount items := by
  obtain ⟨newItem, hget⟩ := lstGetItem_some h hcount hpos
  unfold lstSelectItem
  rw [hget]
  simp only [map_some, Option.some.injEq]
  by_cases hdisable : newItem.disable = true
  · rw [if_pos hdisable]
    exact ⟨pData.items, rfl, h⟩
  rw [if_neg hdisable]
  by_cases hmulti : style.multiplesel = true
  · rw [if_pos hmulti]
    refine ⟨_, rfl, h.modify _ (fun _ hkey => hkey) fun hsingle => ?_⟩
    rw [hmulti] at hsingle
    cases hsingle
  rw [if_neg hmulti]
  have hone := h.single (by simpa using hmulti)
  cases hfind : pData.items.findIdx? (·.selected) with
  | none =>
    refine ⟨_, rfl, h.modify _ (fun _ hkey => hkey) fun _ => ?_⟩
    have hzero := countP_of_findIdx?_none hfind
    have := countP_modify_le (p := fun plbi : LstItem => plbi.selected)
      (f := fun plbi : LstItem => { plbi with selected := true }) pData.items newSel.toNat
    omega
  | some index =>
    by_cases hindex : (index : Int) ≠ newSel
    · simp only [if_pos hindex]
      -- one selection is taken away before the other is made
      have hclear := countP_modify_findIdx? (p := fun plbi : LstItem => plbi.selected)
        (f := fun plbi : LstItem => { plbi with selected := false }) (fun _ => rfl) hfind
      have hcleared : ItemsOk style pData.itemCount
          (pData.items.modify index fun plbi => { plbi with selected := false }) :=
        h.modify index (fun _ hkey => hkey) fun _ => by omega
      refine ⟨_, rfl, hcleared.modify _ (fun _ hkey => hkey) fun _ => ?_⟩
      have := countP_modify_le (p := fun plbi : LstItem => plbi.selected)
        (f := fun plbi : LstItem => { plbi with selected := true })
        (pData.items.modify index fun plbi => { plbi with selected := false }) newSel.toNat
      omega
    · simp only [if_neg hindex]
      have hsame : newSel.toNat = index := by omega
      refine ⟨_, rfl, h.modify _ (fun _ hkey => hkey) fun _ => ?_⟩
      rw [hsame]
      exact countP_modify_of_findIdx? hfind hone

theorem selectEnabled_eq (hcount : pData.itemCount ≠ 0) (hpos : newSel < pData.itemCount)
    : ∃ items, pData.selectEnabled style newSel = some { pData with items }
        ∧ ItemsOk style pData.itemCount items := by
  obtain ⟨newItem, hget⟩ := lstGetItem_some h hcount hpos
  unfold selectEnabled
  rw [hget]
  simp only [bind_some]
  split
  · obtain ⟨items, heq, hitems⟩ := lstCancelSelected_eq h
    exact ⟨items, by rw [heq], hitems⟩
  · exact lstSelectItem_eq h hcount hpos

theorem lstFindItem_lt {start : Int} {key : List UInt8}
    (hfind : pData.lstFindItem strCmp start key = some index) : 0 ≤ index ∧ index < pData.itemCount := by
  have hlen := h.length
  unfold lstFindItem at hfind
  obtain ⟨found, hfound, rfl⟩ := map_eq_some_iff.mp hfind
  have hlt := (findIdx?_eq_some_iff_getElem.mp hfound).1
  rw [length_drop] at hlt
  split_ifs at hlt ⊢ <;> omega

end Selection

structure ViewInv (style : LstStyle) (s : ListBox) : Prop where
  items : ItemsOk style s.itemCount s.items
  height_pos : 0 < s.itemHeight
  visibles_nonneg : 0 ≤ s.itemVisibles
  top_nonneg : 0 ≤ s.itemTop
  top_le : s.itemTop ≤ max 0 (s.itemCount - s.itemVisibles)
  hilighted_ge : -1 ≤ s.itemHilighted
  hilighted_lt : s.itemHilighted < max 1 s.itemCount

namespace ViewInv

variable {style : LstStyle} {strCmp : StrCmp} {s : ListBox}

section

variable (h : ViewInv style s)
include h

theorem count_nonneg : 0 ≤ s.itemCount := by
  have := h.items.length
  omega

theorem withTop {itemTop : Int} (hnonneg : 0 ≤ itemTop)
    (hle : itemTop ≤ max 0 (s.itemCount - s.itemVisibles)) : ViewInv style { s with itemTop } :=
  ⟨h.items, h.height_pos, h.visibles_nonneg, hnonneg, hle, h.hilighted_ge, h.hilighted_lt⟩

theorem withHilighted {itemHilighted : Int} (hge : -1 ≤ itemHilighted)
    (hlt : itemHilighted < max 1 s.itemCount) : ViewInv style { s with itemHilighted } :=
  ⟨h.items, h.height_pos, h.visibles_nonneg, h.top_nonneg, h.top_le, hge, hlt⟩

theorem withItems {items : List LstItem} (hitems : ItemsOk style s.itemCount items)
    : ViewInv style { s with items } :=
  ⟨hitems, h.height_pos, h.visibles_nonneg, h.top_nonneg, h.top_le, h.hilighted_ge, h.hilighted_lt⟩

theorem withNodes (freeList heap : List Nat) : ViewInv style { s with freeList, heap } :=
  ⟨h.items, h.height_pos, h.visibles_nonneg, h.top_nonneg, h.top_le, h.hilighted_ge, h.hilighted_lt⟩

theorem lstFreeItem (plbi : Nat) : ViewInv style (s.lstFreeItem plbi) := by
  obtain ⟨freeList, heap, heq⟩ := lstFreeItem_eq s plbi
  rw [heq]
  exact h.withNodes freeList heap

theorem lstCancelSelected : ViewInv style s.lstCancelSelected := by
  obtain ⟨items, heq, hitems⟩ := lstCancelSelected_eq h.items
  rw [heq]
  exact h.withItems hitems

theorem selectEnabled (hcount : s.itemCount ≠ 0) (hlt : newSel < s.itemCount)
    : ∃ s', s.selectEnabled style newSel = some s' ∧ s'.itemCount = s.itemCount ∧ ViewInv style s' := by
  obtain ⟨items, heq, hitems⟩ := selectEnabled_eq h.items hcount hlt
  exact ⟨_, heq, rfl, h.withItems hitems⟩

theorem lstSelectItem (hcount : s.itemCount ≠ 0) (hlt : newSel < s.itemCount)
    : ∃ s', s.lstSelectItem style newSel = some s' ∧ s'.itemCount = s.itemCount ∧ ViewInv style s' := by
  obtain ⟨items, heq, hitems⟩ := lstSelectItem_eq h.items hcount hlt
  exact ⟨_, heq, rfl, h.withItems hitems⟩

theorem toggleCheck (pos : Int) : ViewInv style (s.setItem pos LstItem.toggleCheck) := by
  refine h.withItems (h.items.modify_unselected _ ?_ ?_)
  · intro plbi hkey
    unfold LstItem.toggleCheck
    split <;> exact hkey
  · intro plbi
    unfold LstItem.toggleCheck
    split <;> rfl

end

theorem topFor_bounds (s : ListBox) (hnonneg : 0 ≤ index)
    : 0 ≤ s.topFor index ∧ s.topFor index ≤ max 0 (s.itemCount - s.itemVisibles) := by
  unfold topFor
  split <;> omega

variable (h : ViewInv style s)
include h

theorem hilightInView : ViewInv style s.hilightInView := by
  have hlt := h.hilighted_lt
  have htop := h.top_nonneg
  have hle := h.top_le
  have hvis := h.visibles_nonneg
  unfold ListBox.hilightInView itemBottom
  by_cases hbelow : s.itemHilighted < s.itemTop
  · simp only [if_pos hbelow]
    by_cases habove : s.itemTop > s.itemTop + s.itemVisibles - 1
    · rw [if_pos habove]
      exact h.withHilighted (by omega) (by omega)
    · rw [if_neg habove]
      exact h.withHilighted (by omega) (by omega)
  · simp only [if_neg hbelow]
    by_cases habove : s.itemHilighted > s.itemTop + s.itemVisibles - 1
    · rw [if_pos habove]
      exact h.withHilighted (by omega) (by omega)
    · rw [if_neg habove]
      exact h

theorem insert (hi : i ≤ s.items.length)
    (hkey : newItem.key.isSome = true) (hselected : newItem.selected = false)
    : ViewInv style { s with items := s.items.insertIdx i newItem, itemCount := s.itemCount + 1 } := by
  have htop := h.top_le
  have hlt := h.hilighted_lt
  exact ⟨h.items.insertIdx hi hkey hselected, h.height_pos, h.visibles_nonneg, h.top_nonneg,
    show s.itemTop ≤ max 0 (s.itemCount + 1 - s.itemVisibles) by omega, h.hilighted_ge,
    show s.itemHilighted < max 1 (s.itemCount + 1) by omega⟩

theorem lstAddNewItem (pos : Int)
    (hkey : newItem.key.isSome = true) (hselected : newItem.selected = false)
    : ViewInv style (lstAddNewItem style strCmp s newItem pos).1 := by
  have hfront : ViewInv style { s with items := newItem :: s.items, itemCount := s.itemCount + 1 } := by
    simpa using h.insert (Nat.zero_le _) hkey hselected
  unfold ListBox.lstAddNewItem
  rcases insPosItem_spec style strCmp newItem pos s.items with
    ⟨plbi, hlt, heq⟩ | heq | ⟨_, _, _, heq⟩
  · rw [heq]
    exact h.insert hlt hkey hselected
  · rw [heq]
    exact hfront
  · rw [heq]
    exact hfront

theorem addItem (pos : Int) (info : ListBoxItemInfo) (mem : LstMemory)
    : ViewInv style (addItem style strCmp s pos info mem).1 := by
  unfold ListBox.addItem
  cases halloc : s.lstAllocItem mem.node with
  | none => exact h
  | some alloc =>
    obtain ⟨node, s'⟩ := alloc
    obtain ⟨freeList, heap, rfl⟩ := lstAllocItem_eq halloc
    by_cases hcopied : mem.copied = true
    · simp only [if_pos hcopied]
      exact (h.withNodes freeList heap).lstAddNewItem pos rfl rfl
    · simp only [if_neg hcopied]
      exact (h.withNodes freeList heap).lstFreeItem node

theorem addString (pos : Int) (lParam : Option ListBoxItemInfo) (mem : LstMemory)
    : ViewInv style (addString style strCmp s pos lParam mem).1 := by
  unfold ListBox.addString
  cases lParam with
  | none => exact h
  | some info =>
    by_cases hempty : (style.checkbox || style.useicon) = false ∧ info.string = []
    · simp only [if_pos hempty]
      exact h
    · simp only [if_neg hempty]
      exact h.addItem pos info mem

theorem multiAddItem (pos : Int) (infos : List (ListBoxItemInfo × LstMemory))
    : ViewInv style (multiAddItem style strCmp s pos infos).1 := by
  induction infos generalizing s pos with
  | nil => exact h
  | cons first rest ih =>
    obtain ⟨info, mem⟩ := first
    have hadded : ViewInv style (ListBox.addItem style strCmp s (-1) info mem).1 := h.addItem (-1) info mem
    rw [ListBox.multiAddItem]
    by_cases hempty : info.string = []
    · rw [if_pos hempty]
      exact h
    rw [if_neg hempty]
    by_cases hfail : (ListBox.addItem style strCmp s (-1) info mem).2 = lbErrSpace
    · simp only [if_pos hfail]
      exact hadded
    · simp only [if_neg hfail]
      exact ih hadded _

theorem remove {delete : Int} (hnonneg : 0 ≤ delete) (hlt : delete < s.itemCount)
    (hok : s.itemTop ≠ 0 → s.itemVisibles < s.itemCount - 1 → s.itemTop < delete →
      s.itemTop ≤ s.itemCount - 1 - s.itemVisibles)
    : ViewInv style
        (({ s with items := s.items.eraseIdx delete.toNat, itemCount := s.itemCount - 1 } :
          ListBox).topAfterRemoval delete).hilightAfterRemoval.hilightInView := by
  have hlen := h.items.length
  have hge := h.hilighted_ge
  have htop := h.top_nonneg
  have hle := h.top_le
  have hvis := h.visibles_nonneg
  have hitems := h.items.eraseIdx (i := delete.toNat) (by omega)
  -- the fields of the list after the removal, but for the highlighted item, which can be one too many
  have hmoved : ∃ itemTop, 0 ≤ itemTop ∧ itemTop ≤ max 0 (s.itemCount - 1 - s.itemVisibles) ∧
      ({ s with items := s.items.eraseIdx delete.toNat, itemCount := s.itemCount - 1 } :
        ListBox).topAfterRemoval delete =
        { s with items := s.items.eraseIdx delete.toNat, itemCount := s.itemCount - 1, itemTop } := by
    unfold topAfterRemoval
    by_cases hall : s.itemTop ≠ 0 ∧ s.itemCount - 1 ≤ s.itemVisibles
    · rw [if_pos hall]
      exact ⟨0, by omega, by omega, rfl⟩
    rw [if_neg hall]
    by_cases habove : delete ≤ s.itemTop
    · rw [if_pos habove]
      exact ⟨if s.itemTop - 1 < 0 then 0 else s.itemTop - 1, by split <;> omega, by split <;> omega, rfl⟩
    · rw [if_neg habove]
      exact ⟨s.itemTop, htop, by omega, rfl⟩
  obtain ⟨itemTop, htop', hle', heq⟩ := hmoved
  rw [heq]
  refine ViewInv.hilightInView ?_
  unfold hilightAfterRemoval
  by_cases hlast : s.itemHilighted ≥ s.itemCount - 1
  · rw [if_pos hlast]
    have hnew : -1 ≤ (if s.itemCount - 1 - 1 < 0 then 0 else s.itemCount - 1 - 1)
        ∧ (if s.itemCount - 1 - 1 < 0 then 0 else s.itemCount - 1 - 1) < max 1 (s.itemCount - 1) := by
      split <;> omega
    exact ⟨hitems, h.height_pos, hvis, htop', hle', hnew.1, hnew.2⟩
  · rw [if_neg hlast]
    exact ⟨hitems, h.height_pos, hvis, htop', hle', hge, show s.itemHilighted < max 1 (s.itemCount - 1) by omega⟩

theorem deleteString (delete : Int)
    (hok : 0 ≤ delete → delete < s.itemCount → s.itemTop ≠ 0 → s.itemVisibles < s.itemCount - 1 →
      s.itemTop < delete → s.itemTop ≤ s.itemCount - 1 - s.itemVisibles)
    : ViewInv style (s.deleteString delete).1 := by
  have hlen := h.items.length
  unfold ListBox.deleteString
  by_cases hin : 0 ≤ delete ∧ delete < s.itemCount
  · obtain ⟨removed, -, heq⟩ := lstRemoveItem_eq hlen.symm hin.1 hin.2
    rw [heq]
    obtain ⟨freeList, heap, hfree⟩ := lstFreeItem_eq
      ({ s with items := s.items.eraseIdx delete.toNat } : ListBox) removed.node
    simp only [hfree]
    exact (h.withNodes freeList heap).remove hin.1 hin.2 (hok hin.1 hin.2)
  · have heq : s.lstRemoveItem delete = none := by rw [lstRemoveItem, if_pos (by omega)]
    rw [heq]
    exact h

theorem setTopIndex (newTop : Int) (hok : 0 ≤ newTop → s.itemVisibles ≤ s.itemCount)
    : ViewInv style (s.setTopIndex newTop) := by
  unfold ListBox.setTopIndex
  have hbounds : ∀ top, top = (if newTop < 0 then 0 else if newTop > s.itemCount - s.itemVisibles then
      s.itemCount - s.itemVisibles else newTop) → 0 ≤ top ∧ top ≤ max 0 (s.itemCount - s.itemVisibles) := by
    intro top htop
    split_ifs at htop <;> omega
  obtain ⟨hnonneg, hle⟩ := hbounds _ rfl
  simp only
  by_cases hmoved : s.itemTop ≠ (if newTop < 0 then 0 else if newTop > s.itemCount - s.itemVisibles then
      s.itemCount - s.itemVisibles else newTop)
  · rw [if_pos hmoved]
    exact (h.withTop hnonneg hle).hilightInView
  · rw [if_neg hmoved]
    exact h

theorem hilight {newTop : Int} (hnonneg : 0 ≤ newSel) (hlt : newSel < s.itemCount)
    (htop : 0 ≤ newTop) (hle : newTop ≤ max 0 (s.itemCount - s.itemVisibles))
    : ∃ s', (if style.multiplesel then
          some { s with itemTop := newTop, itemHilighted := newSel }
        else
          ({ s with itemTop := newTop, itemHilighted := newSel } : ListBox).selectEnabled style newSel) = some s'
        ∧ ViewInv style s' := by
  have hmoved : ViewInv style { s with itemTop := newTop, itemHilighted := newSel } :=
    (h.withTop htop hle).withHilighted (by omega) (show newSel < max 1 s.itemCount by omega)
  split
  · exact ⟨_, rfl, hmoved⟩
  · obtain ⟨s', heq, -, hs'⟩ := hmoved.selectEnabled (show s.itemCount ≠ 0 by omega) hlt
    exact ⟨s', heq, hs'⟩

theorem setCurSel (new : Int) : ∃ s', s.setCurSel style new = some s' ∧ ViewInv style s' := by
  unfold ListBox.setCurSel
  by_cases hout : new < 0 ∨ new > s.itemCount - 1
  · rw [if_pos hout]
    refine ⟨_, rfl, ?_⟩
    split
    · exact h
    · exact h.lstCancelSelected
  rw [if_neg hout]
  have htop := topFor_bounds s (show 0 ≤ new by omega)
  by_cases hmoved : new ≥ 0 ∧ new ≠ s.itemHilighted
  · simp only [if_pos hmoved]
    exact h.hilight (by omega) (by omega) htop.1 htop.2
  · simp only [if_neg hmoved]
    split
    · exact ⟨s, rfl, h⟩
    · obtain ⟨s', heq, -, hs'⟩ := h.selectEnabled (show s.itemCount ≠ 0 by omega) (show new < s.itemCount by omega)
      exact ⟨s', heq, hs'⟩

theorem keyTarget_bounds (hcount : s.itemCount ≠ 0) {key : LstKey} {newTop : Int}
    (htarget : s.keyTarget key = some (newSel, newTop)) (hmoved : s.itemHilighted ≠ newSel)
    : 0 ≤ newSel ∧ newSel < s.itemCount ∧ 0 ≤ newTop ∧ newTop ≤ max 0 (s.itemCount - s.itemVisibles) := by
  have hcount' := h.count_nonneg
  have hge := h.hilighted_ge
  have hlt := h.hilighted_lt
  have htop := h.top_nonneg
  have hle := h.top_le
  have hvis := h.visibles_nonneg
  cases key with
  | home =>
    simp only [keyTarget, Option.some.injEq, Prod.mk.injEq] at htarget
    omega
  | «end» =>
    simp only [keyTarget, Option.some.injEq, Prod.mk.injEq] at htarget
    split at htarget <;> omega
  | cursorBlockDown =>
    simp only [keyTarget, itemBottom] at htarget
    split_ifs at htarget <;> simp only [Option.some.injEq, Prod.mk.injEq] at htarget <;> omega
  | cursorBlockUp =>
    simp only [keyTarget] at htarget
    split_ifs at htarget <;> simp only [Option.some.injEq, Prod.mk.injEq] at htarget <;> omega
  | pageDown =>
    simp only [keyTarget, Option.some.injEq, Prod.mk.injEq] at htarget
    obtain ⟨hsel, rfl⟩ := htarget
    have hin : 0 ≤ newSel ∧ newSel < s.itemCount := by split at hsel <;> omega
    rw [hsel]
    have := topFor_bounds s hin.1
    exact ⟨hin.1, hin.2, this.1, this.2⟩
  | pageUp =>
    simp only [keyTarget, Option.some.injEq, Prod.mk.injEq] at htarget
    split_ifs at htarget <;> omega
  | other => cases htarget

theorem keyDown (key : LstKey) : ∃ s', s.keyDown style key = some s' ∧ ViewInv style s' := by
  unfold ListBox.keyDown
  by_cases hcount : s.itemCount = 0
  · rw [if_pos hcount]
    exact ⟨s, rfl, h⟩
  rw [if_neg hcount]
  cases htarget : s.keyTarget key with
  | none => exact ⟨s, rfl, h⟩
  | some target =>
    obtain ⟨newSel, newTop⟩ := target
    by_cases hmoved : s.itemHilighted ≠ newSel
    · obtain ⟨hnonneg, hlt, htop, hle⟩ := h.keyTarget_bounds hcount htarget hmoved
      simp only [if_pos hmoved]
      by_cases hscroll : s.itemTop ≠ newTop
      · simp only [if_pos hscroll]
        exact h.hilight hnonneg hlt htop hle
      simp only [if_neg hscroll]
      by_cases hmulti : style.multiplesel = false
      · rw [if_pos hmulti]
        obtain ⟨s', heq, hcount', hs'⟩ := h.selectEnabled hcount hlt
        rw [heq]
        exact ⟨_, rfl, hs'.withHilighted (by omega) (by omega)⟩
      · rw [if_neg hmulti]
        obtain ⟨pnewItem, hget⟩ := lstGetItem_some h.items hcount hlt
        rw [hget]
        refine ⟨_, rfl, ?_⟩
        dsimp only
        split
        · exact h
        · exact h.withHilighted (by omega) (by omega)
    · simp only [if_neg hmoved]
      exact ⟨s, rfl, h⟩

theorem onSpace (hcount : s.itemCount ≠ 0) : ∃ s', s.onSpace style = some s' ∧ ViewInv style s' := by
  have hcount' := h.count_nonneg
  have hlt : s.itemHilighted < s.itemCount := by
    have := h.hilighted_lt
    omega
  obtain ⟨plbi, hget⟩ := lstGetItem_some h.items hcount hlt
  unfold ListBox.onSpace
  rw [hget]
  simp only [bind_some]
  split
  · exact ⟨s, rfl, h⟩
  split
  · obtain ⟨s', heq, -, hs'⟩ := h.lstSelectItem hcount hlt
    exact ⟨s', heq, hs'⟩
  split
  · exact ⟨_, rfl, h.toggleCheck _⟩
  · exact ⟨s, rfl, h⟩

theorem onChar (wParam : BitVec 16) (hok : wParam.toNat = 32 → s.itemCount ≠ 0)
    : ∃ s', s.onChar style strCmp wParam = some s' ∧ ViewInv style s' := by
  unfold ListBox.onChar
  by_cases hhigh : wParam.toNat / 256 ≠ 0
  · rw [if_pos hhigh]
    exact ⟨s, rfl, h⟩
  rw [if_neg hhigh]
  by_cases hspace : wParam.toNat % 256 = 32
  · rw [if_pos hspace]
    exact h.onSpace (hok (by omega))
  rw [if_neg hspace]
  simp only
  split
  · exact ⟨s, rfl, h⟩
  · rename_i index hfind
    have hin : 0 ≤ index ∧ index < s.itemCount := by
      rcases or_eq_some_iff.mp hfind with hfound | ⟨-, hfound⟩
      · exact lstFindItem_lt h.items hfound
      · exact lstFindItem_lt h.items hfound
    have htop := topFor_bounds s hin.1
    exact h.hilight hin.1 hin.2 htop.1 htop.2

theorem onMouse (up : Bool) (mouseX mouseY : Int)
    (hok : up = true ∨ style.multiplesel = false ∧ style.mousefollow = true →
      ∀ head ∈ s.items.head?, head.disable = false → -1 ≤ s.hit mouseY)
    : ∃ s', s.onMouse style up mouseX mouseY = some s' ∧ ViewInv style s' := by
  unfold ListBox.onMouse
  by_cases hignored : up = false ∧ (style.multiplesel = true ∨ style.mousefollow = false)
  · rw [if_pos hignored]
    exact ⟨s, rfl, h⟩
  rw [if_neg hignored]
  by_cases hcount : s.itemCount = 0
  · rw [if_pos hcount]
    exact ⟨s, rfl, h⟩
  rw [if_neg hcount]
  by_cases hbelow : s.hit mouseY ≥ s.itemCount
  · rw [if_pos hbelow]
    exact ⟨s, rfl, h⟩
  rw [if_neg hbelow]
  have hlt : s.hit mouseY < s.itemCount := by omega
  obtain ⟨hitItem, hget⟩ := lstGetItem_some h.items hcount hlt
  simp only [hget, bind_some]
  by_cases hdisable : hitItem.disable = true
  · rw [if_pos hdisable]
    exact ⟨s, rfl, h⟩
  rw [if_neg hdisable]
  have hge : -1 ≤ s.hit mouseY := by
    by_contra hout
    -- above the first item the first one is hit
    have hzero : (s.hit mouseY).toNat = 0 := by omega
    have hhead : s.items.head? = some hitItem := by
      rw [head?_eq_getElem?, ← hzero]
      exact hget
    refine hout (hok ?_ hitItem hhead (by simpa using hdisable))
    cases up <;> cases hm : style.multiplesel <;> cases hf : style.mousefollow <;> simp_all
  obtain ⟨s', heq, hcount', hs'⟩ := h.lstSelectItem hcount hlt
  rw [heq]
  refine ⟨_, rfl, ?_⟩
  split
  · exact (hs'.toggleCheck _).withHilighted hge (show _ < max 1 s'.itemCount by omega)
  · exact hs'.withHilighted hge (by omega)

theorem vScroll (wParam : LstScroll)
    (hok : ∀ lParam, wParam = .thumbTrack lParam → 0 ≤ min lParam (s.itemCount - s.itemVisibles))
    : ViewInv style (s.vScroll wParam) := by
  have htop := h.top_nonneg
  have hle := h.top_le
  have hvis := h.visibles_nonneg
  have htarget : ∀ newTop scrollHeight, s.scrollTarget wParam = some (newTop, scrollHeight) →
      0 ≤ newTop ∧ newTop ≤ max 0 (s.itemCount - s.itemVisibles) := by
    intro newTop scrollHeight heq
    cases wParam with
    | lineDown =>
      by_cases hbelow : s.itemBottom < s.itemCount - 1
      · simp only [scrollTarget, if_pos hbelow, Option.some.injEq, Prod.mk.injEq] at heq
        unfold itemBottom at hbelow
        omega
      · simp only [scrollTarget, if_neg hbelow, Option.some.injEq, Prod.mk.injEq] at heq
        omega
    | lineUp =>
      simp only [scrollTarget, Option.some.injEq] at heq
      split_ifs at heq <;> cases heq <;> omega
    | pageDown =>
      simp only [scrollTarget] at heq
      split_ifs at heq <;> cases heq <;> omega
    | pageUp =>
      simp only [scrollTarget, Option.some.injEq, Prod.mk.injEq] at heq
      split at heq <;> omega
    | thumbTrack lParam =>
      have := hok lParam rfl
      simp only [scrollTarget, Option.some.injEq, Prod.mk.injEq] at heq
      omega
    | other =>
      simp only [scrollTarget, Option.some.injEq, Prod.mk.injEq] at heq
      omega
  unfold ListBox.vScroll
  cases heq : s.scrollTarget wParam with
  | none => exact h
  | some target =>
    obtain ⟨newTop, scrollHeight⟩ := target
    dsimp only
    split
    · exact h.withTop (htarget _ _ heq).1 (htarget _ _ heq).2
    · exact h

end ViewInv

section Runs

variable (style : LstStyle) (strCmp : StrCmp)

def ViewOk (s : ListBox) : LbContent ⊕ LbView → Prop
  | .inl (.deleteString delete) =>
    0 ≤ delete → delete < s.itemCount → s.itemTop ≠ 0 → s.itemVisibles < s.itemCount - 1 → s.itemTop < delete →
      s.itemTop ≤ s.itemCount - 1 - s.itemVisibles
  | .inl (.setItemData pos lParam copied) => s.ItemDataOk style pos lParam copied
  | .inl _ => True
  | .inr (.setTopIndex newTop) => 0 ≤ newTop → s.itemVisibles ≤ s.itemCount
  | .inr (.char wParam) => wParam.toNat = 32 → s.itemCount ≠ 0
  | .inr (.mouse up _ mouseY) =>
    up = true ∨ style.multiplesel = false ∧ style.mousefollow = true →
      ∀ head ∈ s.items.head?, head.disable = false → -1 ≤ s.hit mouseY
  | .inr (.vScroll (.thumbTrack lParam)) => 0 ≤ min lParam (s.itemCount - s.itemVisibles)
  | .inr _ => True

def run (s : ListBox) (messages : List (LbContent ⊕ LbView)) : Option ListBox :=
  messages.foldlM (onMessage style strCmp) s

def ViewRunOk : ListBox → List (LbContent ⊕ LbView) → Prop
  | _, [] => True
  | s, message :: messages =>
    s.ViewOk style message ∧ ∀ s' ∈ s.onMessage style strCmp message, ViewRunOk s' messages

variable {style strCmp} {s : ListBox}

theorem ViewInv.setItemData (h : ViewInv style s) {lParam : Option ListBoxItemInfo} {copied : Bool}
    (hok : s.ItemDataOk style pos lParam copied)
    : ∃ result, s.setItemData style pos lParam copied = some result ∧ ViewInv style result.1 := by
  unfold ListBox.setItemData
  by_cases hplain : (style.checkbox || style.useicon) = false
  · rw [if_pos hplain]
    exact ⟨_, rfl, h⟩
  rw [if_neg hplain]
  cases hget : s.lstGetItem pos with
  | none => exact ⟨_, rfl, h⟩
  | some plbi =>
    cases lParam with
    | none => exact ⟨_, rfl, h⟩
    | some info =>
      have hmarks : ViewInv style (s.setItem pos (setItemMarks style info)) :=
        h.withItems (h.items.modify_unselected _ (fun _ hkey => hkey) fun _ => rfl)
      dsimp only
      by_cases hempty : info.string = []
      · rw [if_pos hempty]
        exact ⟨_, rfl, hmarks⟩
      rw [if_neg hempty]
      obtain ⟨key, hkey⟩ := isSome_iff_exists.mp (h.items.keys plbi (mem_of_getElem? hget))
      have hroom : key.length ≥ info.string.length ∨ copied = true := by
        by_cases hlonger : key.length < info.string.length
        · exact .inr (hok (eq_true_of_ne_false hplain) plbi hget key hkey info rfl hlonger)
        · exact .inl (by omega)
      rw [hkey, map_some, if_pos hroom]
      exact ⟨_, rfl, hmarks.withItems (hmarks.items.modify_unselected _ (fun _ _ => rfl) fun _ => rfl)⟩

theorem ViewInv.onContent (h : ViewInv style s) {message : LbContent} (hok : s.ViewOk style (.inl message))
    : ∃ result, s.onContent style strCmp message = some result ∧ ViewInv style result.1 := by
  cases message with
  | addString lParam mem => exact ⟨_, rfl, h.addString (-1) lParam mem⟩
  | insertString pos lParam mem => exact ⟨_, rfl, h.addString pos lParam mem⟩
  | deleteString delete => exact ⟨_, rfl, h.deleteString delete hok⟩
  | resetContent =>
    refine ⟨_, rfl, ⟨⟨rfl, fun _ => Nat.zero_le 1, fun plbi hplbi => ?_⟩, h.height_pos, h.visibles_nonneg,
      Int.le_refl 0, Int.le_max_left 0 _, Int.le_refl (-1), ?_⟩⟩
    · cases hplbi
    · change (-1 : Int) < max 1 0
      decide
  | setText pos str copied =>
    refine ⟨_, rfl, ?_⟩
    unfold ListBox.setText
    cases s.lstGetItem pos with
    | none => exact h
    | some plbi =>
      dsimp only
      split
      · exact h.withItems (h.items.modify_unselected _ (fun _ _ => rfl) fun _ => rfl)
      · exact h
  | setItemData pos lParam copied => exact h.setItemData hok
  | multiAddItem lParam =>
    cases lParam with
    | none => exact ⟨_, rfl, h⟩
    | some infos => exact ⟨_, rfl, h.multiAddItem (-1) infos⟩

theorem ViewInv.onMessage (h : ViewInv style s) {message : LbContent ⊕ LbView} (hok : s.ViewOk style message)
    : ∃ s', s.onMessage style strCmp message = some s' ∧ ViewInv style s' := by
  match message with
  | .inl message =>
    obtain ⟨result, heq, hresult⟩ : ∃ result, s.onContent style strCmp message = some result
        ∧ ViewInv style result.1 := h.onContent hok
    exact ⟨result.1, by rw [ListBox.onMessage, heq]; rfl, hresult⟩
  | .inr (.setTopIndex newTop) => exact ⟨_, rfl, h.setTopIndex newTop hok⟩
  | .inr (.setCurSel new) => exact h.setCurSel new
  | .inr (.keyDown key) => exact h.keyDown key
  | .inr (.char wParam) => exact h.onChar wParam hok
  | .inr (.mouse up mouseX mouseY) => exact h.onMouse up mouseX mouseY hok
  | .inr (.vScroll wParam) =>
    refine ⟨_, rfl, h.vScroll wParam fun lParam heq => ?_⟩
    subst heq
    exact hok

theorem create_viewInv (buffStart buffLen : Nat) {itemVisibles itemHeight : Int} (hvis : 0 ≤ itemVisibles)
    (hheight : 0 < itemHeight) : ViewInv style (create buffStart buffLen itemVisibles itemHeight) := by
  refine ⟨⟨rfl, fun _ => Nat.zero_le 1, fun plbi hplbi => ?_⟩, hheight, hvis, Int.le_refl 0, Int.le_max_left 0 _,
    Int.le_refl (-1), ?_⟩
  · cases hplbi
  · change (-1 : Int) < max 1 0
    decide

theorem ViewInv.run (h : ViewInv style s) (messages : List (LbContent ⊕ LbView))
    (hok : ViewRunOk style strCmp s messages) : ∃ s', s.run style strCmp messages = some s' ∧ ViewInv style s' := by
  induction messages generalizing s with
  | nil => exact ⟨s, rfl, h⟩
  | cons message messages ih =>
    obtain ⟨hmessage, hrest⟩ := hok
    obtain ⟨s', heq, hs'⟩ : ∃ s', s.onMessage style strCmp message = some s' ∧ ViewInv style s' :=
      h.onMessage hmessage
    obtain ⟨s'', heq', hs''⟩ := ih hs' (hrest s' heq)
    refine ⟨s'', ?_, hs''⟩
    rw [ListBox.run, foldlM_cons, heq]
    exact heq'

/--
Messages that each find what they must leave a part of the list in view, an item highlighted, and at most one selected
unless more can be. None of them reads a missing item.
-/
theorem listBox_view_run {buffStart buffLen : Nat} {itemVisibles itemHeight : Int} (hvis : 0 ≤ itemVisibles)
    (hheight : 0 < itemHeight) (messages : List (LbContent ⊕ LbView))
    (hok : ViewRunOk style strCmp (create buffStart buffLen itemVisibles itemHeight) messages)
    : ∃ s, (create buffStart buffLen itemVisibles itemHeight).run style strCmp messages = some s
        ∧ 0 ≤ s.itemTop ∧ s.itemTop ≤ max 0 (s.itemCount - s.itemVisibles)
        ∧ (s.items ≠ [] → -1 ≤ s.itemHilighted ∧ s.itemHilighted < s.items.length)
        ∧ (style.multiplesel = false → s.items.countP (·.selected) ≤ 1) := by
  obtain ⟨s, heq, h⟩ := (create_viewInv buffStart buffLen hvis hheight).run messages hok
  have hlen := h.items.length
  have hlt := h.hilighted_lt
  refine ⟨s, heq, h.top_nonneg, h.top_le, fun hne => ⟨h.hilighted_ge, ?_⟩, h.items.single⟩
  have := length_pos_iff.mpr hne
  omega

theorem listBox_view_run_add :
    ∃ s, (create 1000 16 1 12).run ⟨false, false, false, false, false, false⟩ (fun _ _ _ => 0)
          [.inl (.addString (some ⟨[65], false, false, false, 0⟩) ⟨none, true⟩), .inr (.char 32), .inr (.setTopIndex 3)] =
          some s
        ∧ 0 ≤ s.itemTop ∧ s.itemTop ≤ max 0 (s.itemCount - s.itemVisibles)
        ∧ (s.items ≠ [] → -1 ≤ s.itemHilighted ∧ s.itemHilighted < s.items.length)
        ∧ ((⟨false, false, false, false, false, false⟩ : LstStyle).multiplesel = false →
          s.items.countP (·.selected) ≤ 1) := by
  refine listBox_view_run (by decide) (by decide) _ ⟨trivial, ?_⟩
  intro s hs
  cases hs
  refine ⟨fun _ => show (1 : Int) ≠ 0 by decide, ?_⟩
  intro s hs
  cases hs
  exact ⟨fun _ => show (1 : Int) ≤ 1 by decide, fun _ _ => trivial⟩

theorem not_listBox_view_run : ¬∀ (style : LstStyle) (messages : List (LbContent ⊕ LbView)),
      ∃ s, (create 1000 16 2 12).run style (fun _ _ _ => 0) messages = some s
        ∧ 0 ≤ s.itemTop ∧ s.itemTop ≤ max 0 (s.itemCount - s.itemVisibles)
        ∧ (s.items ≠ [] → -1 ≤ s.itemHilighted ∧ s.itemHilighted < s.items.length)
        ∧ (style.multiplesel = false → s.items.countP (·.selected) ≤ 1) := by
  intro h
  obtain ⟨s, heq, hnonneg, -⟩ := h ⟨false, false, false, false, false, false⟩ [.inr (.setTopIndex 0)]
  cases heq
  revert hnonneg
  decide

end Runs

end ListBox

end MiniGui
