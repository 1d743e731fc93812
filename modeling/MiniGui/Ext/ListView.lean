import Mathlib

namespace MiniGui.ListView

open Function

abbrev PItem := Nat

def plvroot : PItem := 0

/--
`ITEMDATA`, without what is drawn. `addData` is the row of the item, which is found by the item here; only that of the
root is `0`.
-/
structure ItemData where
  next : Option PItem
  child : Option PItem
  parent : Option PItem
  childNr : Int
  itemh : Int
  fold : Bool

structure Row where
  addData : PItem
  nItemHeight : Int
deriving DecidableEq, Repr

structure LVData where
  items : PItem → ItemData
  rows : List Row
  fresh : PItem
  size : Nat

def SV_DEF_ITEMHEIGHT : Int := 16

def insertAfter (pre : PItem) (ci : Row) : List Row → List Row
  | [] => []
  | row :: rows => if row.addData = pre then row :: ci :: rows else row :: insertAfter pre ci rows

def insertBefore (next : PItem) (ci : Row) : List Row → List Row
  | [] => []
  | row :: rows => if row.addData = next then ci :: row :: rows else row :: insertBefore next ci rows

def addByIndex (ci : Row) (index : Int) (rows : List Row) : List Row :=
  if 0 ≤ index then
    rows.take index.toNat ++ ci :: rows.drop index.toNat
  else
    rows ++ [ci]

def svlistItemAdd (rows : List Row) (preitem nextitem : Option PItem) (nItemHeight : Int) (addData : PItem)
    (nItem : Int) : List Row :=
  let ci := ⟨addData, if nItemHeight ≤ 0 then SV_DEF_ITEMHEIGHT else nItemHeight⟩
  match preitem, nextitem with
  | some preitem, _ => insertAfter preitem ci rows
  | none, some nextitem => insertBefore nextitem ci rows
  | none, none => addByIndex ci nItem rows

def svlistItemDel (rows : List Row) (pci : PItem) : List Row :=
  rows.eraseP fun row => row.addData = pci

def setHeight (height : Int) (row : Row) : Row :=
  if height < 0 then row else { row with nItemHeight := height }

def setItemHeight (rows : List Row) (hsvi : PItem) (height : Int) : List Row :=
  rows.map fun row => if row.addData = hsvi then setHeight height row else row

def sibWalk (items : PItem → ItemData) : Nat → Option PItem → Option PItem
  | 0, pi => pi
  | _ + 1, none => none
  | n + 1, some pi => sibWalk items n (items pi).next

def lvGetSibItems (items : PItem → ItemData) (parent : PItem) (nItem : Int) : Option PItem × Option PItem :=
  let pi := sibWalk items (nItem - 1).toNat (items parent).child
  (pi, pi.bind fun pi => (items pi).next)

def prevWalk (items : PItem → ItemData) (pi : PItem) : Nat → Option PItem → Option PItem
  | 0, _ => none
  | _ + 1, none => none
  | fuel + 1, some prev => if (items prev).next = some pi then some prev else prevWalk items pi fuel (items prev).next

def lastSib (items : PItem → ItemData) : Nat → PItem → PItem
  | 0, pi => pi
  | fuel + 1, pi =>
    match (items pi).next with
    | none => pi
    | some next => lastSib items fuel next

def lvGetLastChild (items : PItem → ItemData) (fuel : Nat) : Nat → PItem → PItem
  | 0, pitem => pitem
  | depth + 1, pitem =>
    match (items pitem).child with
    | none => pitem
    | some pi => lvGetLastChild items fuel depth (lastSib items fuel pi)

def addChildNr (d : Int) : Nat → Option PItem → (PItem → ItemData) → PItem → ItemData
  | 0, _, items => items
  | _ + 1, none, items => items
  | fuel + 1, some pp, items =>
    let items := update items pp { items pp with childNr := (items pp).childNr + d }
    addChildNr d fuel (items pp).parent items

def lvAddTree (fuel : Nat) (items : PItem → ItemData) (pp pi : PItem) : PItem → ItemData :=
  let items := if (items pp).child = none then update items pp { items pp with child := some pi } else items
  addChildNr ((items pi).childNr + 1) fuel (some pp) items

def lvDelTree (fuel : Nat) (items : PItem → ItemData) (pi : PItem) : PItem → ItemData :=
  match (items pi).parent with
  | none => items
  | some pp =>
    let items :=
      match prevWalk items pi fuel (items pp).child with
      | some prev => update items prev { items prev with next := (items pi).next }
      | none => update items pp { items pp with child := (items pp).next }
    addChildNr (-((items pi).childNr + 1)) fuel (some pp) items

def foldRows (items : PItem → ItemData) (bFold : Bool) : List Row → Int → Nat → List Row
  | [], _, _ => []
  | row :: rows, n, skip =>
    if 0 < skip then
      row :: foldRows items bFold rows n (skip - 1)
    else if n ≤ 0 then
      row :: rows
    else
      let pi := items row.addData
      let row := setHeight (if bFold then 0 else pi.itemh) row
      if bFold = false ∧ pi.fold ∧ pi.childNr > 0 then
        row :: foldRows items bFold rows (n - 1 - pi.childNr) pi.childNr.toNat
      else
        row :: foldRows items bFold rows (n - 1) 0

def foldFrom (items : PItem → ItemData) (pitem : PItem) (bFold : Bool) (n : Int) : List Row → List Row
  | [] => []
  | row :: rows =>
    if row.addData = pitem then row :: foldRows items bFold rows n 0 else row :: foldFrom items pitem bFold n rows

/--
`parent` is `plvroot` where the message has none.
-/
def lvAddItem (lv : LVData) (parent : PItem) (nItem nItemHeight : Int) (fold : Bool) : LVData :=
  let pnew := lv.fresh
  let (pprev, pnext) := lvGetSibItems lv.items parent nItem
  let itemh := if nItemHeight > 0 then nItemHeight else (lv.size : Int) + 6
  let items := update lv.items pnew ⟨pnext, none, some parent, 0, itemh, fold⟩
  let items :=
    match pprev with
    | some pprev => update items pprev { items pprev with next := some pnew }
    | none => items
  let items := lvAddTree (lv.fresh + 1) items parent pnew
  let height := if (items parent).fold then 0 else itemh
  let rows :=
    match pprev, pnext with
    | _, some pnext => svlistItemAdd lv.rows none (some pnext) height pnew nItem
    | some pprev, none =>
      svlistItemAdd lv.rows (some (lvGetLastChild items (lv.fresh + 1) (lv.fresh + 1) pprev)) none height pnew nItem
    | none, none =>
      svlistItemAdd lv.rows (if parent = plvroot then none else some parent) none height pnew nItem
  { lv with items, rows, fresh := lv.fresh + 1 }

def lvRemoveItem (lv : LVData) (pi : PItem) : LVData :=
  { lv with items := lvDelTree (lv.fresh + 1) lv.items pi, rows := svlistItemDel lv.rows pi }

def lvFoldItem (lv : LVData) (pitem : PItem) (bFold : Bool) : LVData :=
  if (lv.items pitem).fold = bFold then
    lv
  else
    let items := update lv.items pitem { lv.items pitem with fold := bFold }
    { lv with items, rows := foldFrom items pitem bFold (items pitem).childNr lv.rows }

def lvSetItemHeight (lv : LVData) (pi : PItem) (height : Int) : LVData :=
  { lv with
    items := update lv.items pi { lv.items pi with itemh := height }
    rows := setItemHeight lv.rows pi height }

def rootItem : ItemData :=
  ⟨none, none, none, 0, 0, false⟩

def lvRemoveAllItem (lv : LVData) : LVData :=
  { lv with items := update lv.items plvroot rootItem, rows := [] }

def lvStart (size : Nat) : LVData where
  items := fun _ => rootItem
  rows := []
  fresh := 1
  size := size

inductive LVMsg where
  | addItem (parent : PItem) (nItem : Nat) (nItemHeight : Int) (fold : Bool)
  | delItem (pi : PItem)
  | foldItem (pi : PItem) (bFold : Bool)
  | setItemHeight (pi : PItem) (height : Int)
  | delAllItem

def lvMsg (lv : LVData) : LVMsg → LVData
  | .addItem parent nItem nItemHeight fold => lvAddItem lv parent nItem nItemHeight fold
  | .delItem pi => lvRemoveItem lv pi
  | .foldItem pi bFold => lvFoldItem lv pi bFold
  | .setItemHeight pi height => lvSetItemHeight lv pi height
  | .delAllItem => lvRemoveAllItem lv

end MiniGui.ListView
