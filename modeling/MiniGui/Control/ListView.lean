import MiniGui.Control.ListBox

namespace MiniGui

inductive LstKey where
  | home
  | «end»
  | cursorBlockDown
  | cursorBlockUp
  | pageDown
  | pageUp
  | other
deriving DecidableEq, Repr

inductive LstScroll where
  | lineDown
  | lineUp
  | pageDown
  | pageUp
  | thumbTrack (lParam : Int)
  | other

inductive LbView where
  | setTopIndex (newTop : Int)
  | setCurSel (new : Int)
  | keyDown (key : LstKey)
  | char (wParam : BitVec 16)
  | mouse (up : Bool) (mouseX mouseY : Int)
  | vScroll (wParam : LstScroll)

def lstWidthCheckmark : Int := 11

def LstItem.toggleCheck (plbi : LstItem) : LstItem :=
  if plbi.checked = true ∧ plbi.partChecked = false then
    { plbi with checked := false, partChecked := false }
  else
    { plbi with checked := true, partChecked := false }

namespace ListBox

section Handlers

variable (style : LstStyle) (strCmp : StrCmp) (pData : ListBox)

def lstSelectItem (newSel : Int) : Option ListBox :=
  (pData.lstGetItem newSel).map fun newItem =>
    if newItem.disable then
      pData
    else if style.multiplesel then
      pData.setItem newSel fun newItem => { newItem with selected := !newItem.selected }
    else
      let pData := match pData.items.findIdx? (·.selected) with
        | some index =>
          if (index : Int) ≠ newSel then
            { pData with items := pData.items.modify index fun plbi => { plbi with selected := false } }
          else
            pData
        | none => pData
      pData.setItem newSel fun newItem => { newItem with selected := true }

def lstCancelSelected : ListBox :=
  match pData.items.findIdx? (·.selected) with
  | some index => { pData with items := pData.items.modify index fun plbi => { plbi with selected := false } }
  | none => pData

def selectEnabled (newSel : Int) : Option ListBox :=
  (pData.lstGetItem newSel).bind fun newItem =>
    if newItem.disable then some pData.lstCancelSelected else pData.lstSelectItem style newSel

def lstFindItem (start : Int) (key : List UInt8) : Option Int :=
  let start := if start ≥ pData.itemCount then 0 else if start < 0 then 0 else start
  ((pData.items.drop start.toNat).findIdx? fun plbi =>
    strCmp (some key) plbi.key (BitVec.ofNat 32 key.length) = 0).map fun (found : Nat) => start + found

def topFor (index : Int) : Int :=
  if pData.itemCount - index ≥ pData.itemVisibles then index else max (pData.itemCount - pData.itemVisibles) 0

def setTopIndex (newTop : Int) : ListBox :=
  let newTop :=
    if newTop < 0 then
      0
    else if newTop > pData.itemCount - pData.itemVisibles then
      pData.itemCount - pData.itemVisibles
    else
      newTop
  if pData.itemTop ≠ newTop then ({ pData with itemTop := newTop }).hilightInView else pData

def setCurSel (new : Int) : Option ListBox :=
  if new < 0 ∨ new > pData.itemCount - 1 then
    some (if style.multiplesel then pData else pData.lstCancelSelected)
  else
    let pData :=
      if new ≥ 0 ∧ new ≠ pData.itemHilighted then
        { pData with itemTop := pData.topFor new, itemHilighted := new }
      else
        pData
    if style.multiplesel then some pData else pData.selectEnabled style new

def keyTarget : LstKey → Option (Int × Int)
  | .home => some (0, 0)
  | .«end» =>
    some (pData.itemCount - 1,
      if pData.itemCount > pData.itemVisibles then pData.itemCount - pData.itemVisibles else 0)
  | .cursorBlockDown =>
    let newSel := pData.itemHilighted + 1
    if newSel ≥ pData.itemCount then
      none
    else
      some (newSel, if newSel > pData.itemBottom then pData.itemTop + 1 else pData.itemTop)
  | .cursorBlockUp =>
    let newSel := pData.itemHilighted - 1
    if newSel < 0 then
      none
    else
      some (newSel, if newSel < pData.itemTop then pData.itemTop - 1 else pData.itemTop)
  | .pageDown =>
    let newSel := pData.itemHilighted + pData.itemVisibles
    let newSel := if newSel ≥ pData.itemCount then pData.itemCount - 1 else newSel
    some (newSel, pData.topFor newSel)
  | .pageUp =>
    let newSel := pData.itemHilighted - pData.itemVisibles
    let newTop := pData.itemTop - pData.itemVisibles
    some (if newSel < 0 then 0 else newSel, if newTop < 0 then 0 else newTop)
  | .other => none

def keyDown (key : LstKey) : Option ListBox :=
  if pData.itemCount = 0 then
    some pData
  else
    match pData.keyTarget key with
    | none => some pData
    | some (newSel, newTop) =>
      if pData.itemHilighted ≠ newSel then
        if pData.itemTop ≠ newTop then
          let pData := { pData with itemTop := newTop, itemHilighted := newSel }
          if style.multiplesel then some pData else pData.selectEnabled style newSel
        else if style.multiplesel = false then
          (pData.selectEnabled style newSel).map fun pData => { pData with itemHilighted := newSel }
        else
          (pData.lstGetItem newSel).map fun pnewItem =>
            if pnewItem.disable then pData else { pData with itemHilighted := newSel }
      else
        some pData

def onSpace : Option ListBox :=
  (pData.lstGetItem pData.itemHilighted).bind fun plbi =>
    if plbi.disable then
      some pData
    else if style.multiplesel then
      pData.lstSelectItem style pData.itemHilighted
    else if style.checkbox ∧ style.autocheck then
      some (pData.setItem pData.itemHilighted LstItem.toggleCheck)
    else
      some pData

def onChar (wParam : BitVec 16) : Option ListBox :=
  if wParam.toNat / 256 ≠ 0 then
    some pData
  else if wParam.toNat % 256 = 32 then
    pData.onSpace style
  else
    -- `head` is an empty string where the character is zero
    let head := if wParam.toNat % 256 = 0 then [] else [UInt8.ofNat (wParam.toNat % 256)]
    match (pData.lstFindItem strCmp (pData.itemHilighted + 1) head).or (pData.lstFindItem strCmp 0 head) with
    | none => some pData
    | some index =>
      let pData := { pData with itemTop := pData.topFor index, itemHilighted := index }
      if style.multiplesel then some pData else pData.selectEnabled style index

def hit (mouseY : Int) : Int :=
  mouseY.tdiv pData.itemHeight + pData.itemTop

def onMouse (up : Bool) (mouseX mouseY : Int) : Option ListBox :=
  if up = false ∧ (style.multiplesel = true ∨ style.mousefollow = false) then
    some pData
  else if pData.itemCount = 0 then
    some pData
  else if pData.hit mouseY ≥ pData.itemCount then
    some pData
  else
    let hit := pData.hit mouseY
    (pData.lstGetItem hit).bind fun hitItem =>
      if hitItem.disable then
        some pData
      else
        (pData.lstSelectItem style hit).map fun pData =>
          let pData :=
            if style.checkbox ∧ mouseX > 0 ∧ mouseX < lstWidthCheckmark ∧ style.autocheck ∧ up then
              pData.setItem hit LstItem.toggleCheck
            else
              pData
          { pData with itemHilighted := hit }

def scrollTarget : LstScroll → Option (Int × Int)
  | .lineDown =>
    some (if pData.itemBottom < pData.itemCount - 1 then
      (pData.itemTop + 1, -pData.itemHeight)
    else
      (pData.itemTop, 0))
  | .lineUp => some (if pData.itemTop > 0 then (pData.itemTop - 1, pData.itemHeight) else (pData.itemTop, 0))
  | .pageDown =>
    let newTop :=
      if pData.itemTop + pData.itemVisibles * 2 ≤ pData.itemCount then
        pData.itemTop + pData.itemVisibles
      else
        pData.itemCount - pData.itemVisibles
    if newTop < 0 then none else some (newTop, -(newTop - pData.itemTop) * pData.itemHeight)
  | .pageUp =>
    let newTop := if pData.itemTop ≥ pData.itemVisibles then pData.itemTop - pData.itemVisibles else 0
    some (newTop, (pData.itemTop - newTop) * pData.itemHeight)
  | .thumbTrack lParam =>
    let newTop := min lParam (pData.itemCount - pData.itemVisibles)
    some (newTop, (pData.itemTop - newTop) * pData.itemHeight)
  | .other => some (pData.itemTop, 0)

def vScroll (wParam : LstScroll) : ListBox :=
  match pData.scrollTarget wParam with
  | none => pData
  | some (newTop, scrollHeight) => if scrollHeight ≠ 0 then { pData with itemTop := newTop } else pData

end Handlers

def onView (style : LstStyle) (strCmp : StrCmp) (pData : ListBox) : LbView → Option ListBox
  | .setTopIndex newTop => some (pData.setTopIndex newTop)
  | .setCurSel new => pData.setCurSel style new
  | .keyDown key => pData.keyDown style key
  | .char wParam => pData.onChar style strCmp wParam
  | .mouse up mouseX mouseY => pData.onMouse style up mouseX mouseY
  | .vScroll wParam => some (pData.vScroll wParam)

def onMessage (style : LstStyle) (strCmp : StrCmp) (pData : ListBox) : LbContent ⊕ LbView → Option ListBox
  | .inl message => (onContent style strCmp pData message).map Prod.fst
  | .inr message => pData.onView style strCmp message

end ListBox

end MiniGui
