import Mathlib

namespace MiniGui

open List

namespace Menu

def MFT_STRING : BitVec 32 := 0x00000000#32
def MFT_BITMAP : BitVec 32 := 0x00000004#32
def MFT_BMPSTRING : BitVec 32 := 0x00010000#32
def MFT_SEPARATOR : BitVec 32 := 0x00000800#32

def MIIM_STATE : BitVec 32 := 0x00000001#32
def MIIM_ID : BitVec 32 := 0x00000002#32
def MIIM_SUBMENU : BitVec 32 := 0x00000004#32
def MIIM_CHECKMARKS : BitVec 32 := 0x00000008#32
def MIIM_TYPE : BitVec 32 := 0x00000010#32
def MIIM_DATA : BitVec 32 := 0x00000020#32

def ERR_INVALID_HMENU : Int := -4
def ERR_INVALID_POS : Int := -5
def ERR_INVALID_ARGS : Int := -23

inductive TypeData where
  | string (s : Nat) (text : List (BitVec 8))
  | data (d : Nat)
deriving DecidableEq, Repr

inductive MenuType where
  | menubar
  | pppmenu
  | nmlmenu
deriving DecidableEq, Repr

structure ItemData where
  mnutype : BitVec 32
  mnustate : BitVec 32
  id : Int
  uncheckedbmp : Nat
  checkedbmp : Nat
  itemdata : Nat
  typedata : TypeData
deriving DecidableEq, Repr

inductive MenuItem where
  | mk (pmi : Nat) (type : MenuType) (data : ItemData) (submenu : List MenuItem)

namespace MenuItem

def pmi : MenuItem → Nat
  | mk pmi _ _ _ => pmi

def type : MenuItem → MenuType
  | mk _ type _ _ => type

def data : MenuItem → ItemData
  | mk _ _ data _ => data

def submenu : MenuItem → List MenuItem
  | mk _ _ _ submenu => submenu

end MenuItem

structure MenuItemInfo where
  mask : BitVec 32
  type : BitVec 32
  state : BitVec 32
  id : Int
  uncheckedbmp : Nat
  checkedbmp : Nat
  itemdata : Nat
  typedata : Nat
  text : List (BitVec 8)
deriving DecidableEq, Repr

inductive Block where
  | item (pmi : Nat)
  | string (s : Nat)
  | other (d : Nat)
deriving DecidableEq, Repr

def isString (mnutype : BitVec 32) : Bool :=
  mnutype = MFT_STRING ∨ mnutype = MFT_BMPSTRING

def freeFixStr : TypeData → Block
  | .string s _ => .string s
  | .data d => .other d

def typedataValue : TypeData → Nat
  | .string s _ => s
  | .data d => d

mutual

def mnuDeleteMenuItem : MenuItem → List Block
  | .mk pmi _ data submenu =>
    mnuDeleteMenuItems submenu
      ++ ((if isString data.mnutype then [freeFixStr data.typedata] else []) ++ [.item pmi])

def mnuDeleteMenuItems : List MenuItem → List Block
  | [] => []
  | pmi :: next => mnuDeleteMenuItem pmi ++ mnuDeleteMenuItems next

end

def destroyMenu (hmnu : MenuItem) : List Block :=
  match hmnu.type with
  | .menubar => mnuDeleteMenuItems hmnu.submenu ++ [.item hmnu.pmi]
  | _ => mnuDeleteMenuItem hmnu

def badArgs (mii : MenuItemInfo) : Bool :=
  if mii.type = MFT_BITMAP ∨ mii.type = MFT_STRING then
    mii.typedata = 0
  else if mii.type = MFT_BMPSTRING then
    mii.typedata = 0 ∨ mii.uncheckedbmp = 0
  else
    false

def copyTypeData (s : Nat) (mii : MenuItemInfo) : TypeData :=
  if isString mii.type then .string s mii.text else .data mii.typedata

def defaultBmps (data : ItemData) : ItemData :=
  if data.mnutype = MFT_BITMAP then
    let uncheckedbmp := if data.uncheckedbmp = 0 then typedataValue data.typedata else data.uncheckedbmp
    { data with uncheckedbmp, checkedbmp := if data.checkedbmp = 0 then uncheckedbmp else data.checkedbmp }
  else if data.mnutype = MFT_BMPSTRING then
    { data with checkedbmp := if data.checkedbmp = 0 then data.uncheckedbmp else data.checkedbmp }
  else
    data

def newData (s : Nat) (mii : MenuItemInfo) : ItemData :=
  defaultBmps
    {
      mnutype := mii.type
      mnustate := mii.state
      id := mii.id
      uncheckedbmp := mii.uncheckedbmp
      checkedbmp := mii.checkedbmp
      itemdata := mii.itemdata
      typedata := copyTypeData s mii
    }

def insertByPosition (pnewmi : MenuItem) (item : Int) : Int → List MenuItem → List MenuItem
  | _, [] => [pnewmi]
  | index, next :: rest =>
    if index = item then pnewmi :: next :: rest else next :: insertByPosition pnewmi item (index + 1) rest

def insertByCommand (pnewmi : MenuItem) (item : Int) : List MenuItem → List MenuItem
  | [] => [pnewmi]
  | next :: rest => if next.data.id = item then pnewmi :: next :: rest else next :: insertByCommand pnewmi item rest

def mnuInsertMenuItem (item : Int) (flag : Bool) (pnewmi : MenuItem) : List MenuItem → List MenuItem
  | [] => [pnewmi]
  | pmi :: next =>
    if flag then
      if item = 0 then pnewmi :: pmi :: next else pmi :: insertByPosition pnewmi item 1 next
    else
      if item = pmi.data.id then pnewmi :: pmi :: next else pmi :: insertByCommand pnewmi item next

def unlinkByPosition (item : Int) : Int → List MenuItem → Option MenuItem × List MenuItem
  | _, [] => (none, [])
  | index, next :: rest =>
    if index = item then
      (some next, rest)
    else
      let (ptmpmi, rest) := unlinkByPosition item (index + 1) rest
      (ptmpmi, next :: rest)

def unlinkByCommand (item : Int) : List MenuItem → Option MenuItem × List MenuItem
  | [] => (none, [])
  | next :: rest =>
    if next.data.id = item then
      (some next, rest)
    else
      let (ptmpmi, rest) := unlinkByCommand item rest
      (ptmpmi, next :: rest)

def mnuUnlinkMenuItem (item : Int) (flag : Bool) : List MenuItem → Option MenuItem × List MenuItem
  | [] => (none, [])
  | phead :: next =>
    if flag then
      if item = 0 then
        (some phead, next)
      else
        let (ptmpmi, next) := unlinkByPosition item 1 next
        (ptmpmi, phead :: next)
    else
      if phead.data.id = item then
        (some phead, next)
      else
        let (ptmpmi, next) := unlinkByCommand item next
        (ptmpmi, phead :: next)

def getByPosition (item : Int) : Int → List MenuItem → Option Nat
  | _, [] => none
  | index, _ :: next => if index = item then some 0 else (getByPosition item (index + 1) next).map (· + 1)

def getByCommand (item : Int) : List MenuItem → Option Nat
  | [] => none
  | pmi :: next => if pmi.data.id = item then some 0 else (getByCommand item next).map (· + 1)

def mnuGetMenuItem (item : Int) (flag : Bool) (items : List MenuItem) : Option Nat :=
  if flag then getByPosition item 0 items else getByCommand item items

def countLoop : List MenuItem → Int → Int
  | [], count => count
  | _ :: next, count => countLoop next (count + 1)

def getMenuItemCount (items : List MenuItem) : Int :=
  countLoop items 0

def idLoop (pos : Int) : Int → List MenuItem → Int
  | _, [] => ERR_INVALID_POS
  | index, pmi :: next => if index = pos then pmi.data.id else idLoop pos (index + 1) next

def getMenuItemID (items : List MenuItem) (pos : Int) : Int :=
  idLoop pos 0 items

def subMenuLoop (pos : Int) : Int → List MenuItem → List MenuItem
  | _, [] => []
  | index, pmi :: next => if index = pos then pmi.submenu else subMenuLoop pos (index + 1) next

/--
The list that the handle stands for, which is empty for no submenu.
-/
def getSubMenu (items : List MenuItem) (pos : Int) : List MenuItem :=
  subMenuLoop pos 0 items

def readInfo (mii : MenuItemInfo) (cch : Nat) (data : ItemData) : MenuItemInfo :=
  let mii := if mii.mask &&& MIIM_CHECKMARKS ≠ 0 then
      { mii with checkedbmp := data.checkedbmp, uncheckedbmp := data.uncheckedbmp }
    else
      mii
  let mii := if mii.mask &&& MIIM_DATA ≠ 0 then { mii with itemdata := data.itemdata } else mii
  let mii := if mii.mask &&& MIIM_ID ≠ 0 then { mii with id := data.id } else mii
  let mii := if mii.mask &&& MIIM_STATE ≠ 0 then { mii with state := data.mnustate } else mii
  if mii.mask &&& MIIM_TYPE ≠ 0 then
    let mii := { mii with type := data.mnutype }
    match data.typedata with
    | .string s text =>
      if mii.type = MFT_STRING then { mii with text := text.take cch } else { mii with typedata := s, text }
    | .data d => { mii with typedata := d }
  else
    mii

def getMenuItemInfo (items : List MenuItem) (item : Int) (flag : Bool) (mii : MenuItemInfo) (cch : Nat)
    (hsubmenu : List MenuItem)
    : Int × MenuItemInfo × List MenuItem :=
  match (mnuGetMenuItem item flag items).bind fun k => items[k]? with
  | none => (ERR_INVALID_HMENU, mii, hsubmenu)
  | some pmi =>
    (0, readInfo mii cch pmi.data, if mii.mask &&& MIIM_SUBMENU ≠ 0 then pmi.submenu else hsubmenu)

/--
The argument `hsubmenu`: none, the one that the item has, or a popup menu that no item has.
-/
inductive SubArg where
  | null
  | same
  | popup (hmnu : Nat)
deriving DecidableEq, Repr

structure ItemEffect where
  code : Int
  data : ItemData
  submenu : List MenuItem
  unused : List MenuItem
  allocated : List Block
  freed : List Block

section SetItem

variable (s : Nat) (mii : MenuItemInfo) (arg : SubArg)

def badCheckmarks (data : ItemData) : Bool :=
  mii.mask &&& MIIM_CHECKMARKS ≠ 0 ∧ data.mnutype = MFT_BMPSTRING ∧ mii.uncheckedbmp = 0

def badTypeData : Bool :=
  (mii.type = MFT_STRING ∨ mii.type = MFT_BMPSTRING ∨ mii.type = MFT_BITMAP) ∧ mii.typedata = 0

def setFields (data : ItemData) : ItemData :=
  let data := if mii.mask &&& MIIM_CHECKMARKS ≠ 0 then
      { data with uncheckedbmp := mii.uncheckedbmp, checkedbmp := mii.checkedbmp }
    else
      data
  let data := if mii.mask &&& MIIM_DATA ≠ 0 then { data with itemdata := mii.itemdata } else data
  let data := if mii.mask &&& MIIM_ID ≠ 0 then { data with id := mii.id } else data
  if mii.mask &&& MIIM_STATE ≠ 0 then { data with mnustate := mii.state } else data

def setSubmenu (hsubmenu submenu : List MenuItem) : List MenuItem × List MenuItem :=
  if mii.mask &&& MIIM_SUBMENU ≠ 0 ∧ arg ≠ .same then (hsubmenu, submenu) else (submenu, hsubmenu)

def setItem (hsubmenu : List MenuItem) (data : ItemData) (submenu : List MenuItem) : ItemEffect :=
  if badCheckmarks mii data then
    ⟨ERR_INVALID_ARGS, data, submenu, hsubmenu, [], []⟩
  else
    let data := setFields mii data
    let (submenu, unused) := setSubmenu mii arg hsubmenu submenu
    if mii.mask &&& MIIM_TYPE ≠ 0 then
      let freed := if isString data.mnutype then [freeFixStr data.typedata] else []
      let data := { data with mnutype := mii.type }
      if badTypeData mii then
        ⟨ERR_INVALID_ARGS, data, submenu, unused, [], freed⟩
      else
        let allocated := if isString mii.type then [.string s] else []
        ⟨0, defaultBmps { data with typedata := copyTypeData s mii }, submenu, unused, allocated, freed⟩
    else
      ⟨0, defaultBmps data, submenu, unused, [], []⟩

end SetItem

structure Effect where
  code : Int
  items : List MenuItem
  unused : List MenuItem
  allocated : List Block
  freed : List Block
  detached : List Block

structure ListOps where
  insert : Int → Bool → MenuItem → List MenuItem → List MenuItem
  unlink : Int → Bool → List MenuItem → Option MenuItem × List MenuItem
  get : Int → Bool → List MenuItem → Option Nat
  setItem : Nat → MenuItemInfo → SubArg → List MenuItem → ItemData → List MenuItem → ItemEffect

def codeOps : ListOps :=
  ⟨mnuInsertMenuItem, mnuUnlinkMenuItem, mnuGetMenuItem, setItem⟩

def ownBlocks (pmi : Nat) (data : ItemData) : List Block :=
  (match data.typedata with
    | .string s _ => [.string s]
    | .data _ => []) ++ [.item pmi]

section Calls

variable (ops : ListOps)

def insertMenuItem (fresh : Nat) (item : Int) (flag : Bool) (mii : MenuItemInfo) (hsubmenu items : List MenuItem)
    : Effect :=
  if badArgs mii then
    ⟨ERR_INVALID_ARGS, items, hsubmenu, [], [], []⟩
  else
    let data := newData fresh mii
    let allocated := ownBlocks fresh data
    if mii.type &&& MFT_SEPARATOR ≠ 0 then
      ⟨0, ops.insert item flag (.mk fresh .nmlmenu data []) items, hsubmenu, allocated, [], []⟩
    else
      ⟨0, ops.insert item flag (.mk fresh .nmlmenu data hsubmenu) items, [], allocated, [], []⟩

def removeMenu (item : Int) (flag : Bool) (items : List MenuItem) : Effect :=
  match ops.unlink item flag items with
  | (none, items) => ⟨0, items, [], [], [], []⟩
  | (some pmi, items) =>
    match pmi.submenu with
    | [] => ⟨0, items, [], [], mnuDeleteMenuItem pmi, []⟩
    | submenu => ⟨0, items, submenu, [], [], ownBlocks pmi.pmi pmi.data⟩

def deleteMenu (item : Int) (flag : Bool) (items : List MenuItem) : Effect :=
  match ops.unlink item flag items with
  | (none, items) => ⟨0, items, [], [], [], []⟩
  | (some pmi, items) => ⟨0, items, [], [], mnuDeleteMenuItem pmi, []⟩

def setMenuItemInfo (fresh : Nat) (item : Int) (flag : Bool) (mii : MenuItemInfo) (arg : SubArg)
    (hsubmenu items : List MenuItem)
    : Effect :=
  match (ops.get item flag items).bind fun k => items[k]?.map (k, ·) with
  | none => ⟨ERR_INVALID_HMENU, items, hsubmenu, [], [], []⟩
  | some (k, pmi) =>
    let e := ops.setItem fresh mii arg hsubmenu pmi.data pmi.submenu
    ⟨e.code, items.set k (.mk pmi.pmi pmi.type e.data e.submenu), e.unused, e.allocated, e.freed, []⟩

end Calls

/--
The place of the first item that matches, and the length of the list or more if there is none.
-/
def firstMatch (item : Int) (flag : Bool) (items : List MenuItem) : Nat :=
  if flag then item.toNat else items.findIdx fun pmi => pmi.data.id = item

def refInsert (item : Int) (flag : Bool) (pnewmi : MenuItem) (items : List MenuItem) : List MenuItem :=
  items.take (firstMatch item flag items) ++ pnewmi :: items.drop (firstMatch item flag items)

def refUnlink (item : Int) (flag : Bool) (items : List MenuItem) : Option MenuItem × List MenuItem :=
  (items[firstMatch item flag items]?, items.eraseIdx (firstMatch item flag items))

def refGet (item : Int) (flag : Bool) (items : List MenuItem) : Option Nat :=
  if firstMatch item flag items < items.length then some (firstMatch item flag items) else none

def refSetItem (s : Nat) (mii : MenuItemInfo) (arg : SubArg) (hsubmenu : List MenuItem) (data : ItemData)
    (submenu : List MenuItem)
    : ItemEffect :=
  if badCheckmarks mii data ∨ mii.mask &&& MIIM_TYPE ≠ 0 ∧ badTypeData mii then
    ⟨ERR_INVALID_ARGS, data, submenu, hsubmenu, [], []⟩
  else if mii.mask &&& MIIM_TYPE ≠ 0 then
    {
      code := 0
      data := defaultBmps { setFields mii data with mnutype := mii.type, typedata := copyTypeData s mii }
      submenu := (setSubmenu mii arg hsubmenu submenu).1
      unused := (setSubmenu mii arg hsubmenu submenu).2
      allocated := if isString mii.type then [.string s] else []
      freed := if isString data.mnutype then [freeFixStr data.typedata] else []
    }
  else
    {
      code := 0
      data := defaultBmps (setFields mii data)
      submenu := (setSubmenu mii arg hsubmenu submenu).1
      unused := (setSubmenu mii arg hsubmenu submenu).2
      allocated := []
      freed := []
    }

def refOps : ListOps :=
  ⟨refInsert, refUnlink, refGet, refSetItem⟩

section Walks

variable {item : Int}

theorem insertByPosition_eq (pnewmi : MenuItem) (index : Int) (items : List MenuItem) (h : index ≤ item)
    : insertByPosition pnewmi item index items
      = items.take (item - index).toNat ++ pnewmi :: items.drop (item - index).toNat := by
  induction items generalizing index with
  | nil => simp [insertByPosition]
  | cons next rest ih =>
    rw [insertByPosition]
    split
    . next heq => simp [heq]
    . have hsucc : (item - index).toNat = (item - (index + 1)).toNat + 1 := by omega
      rw [ih (index + 1) (by omega), hsucc, take_succ_cons, drop_succ_cons, cons_append]

theorem insertByCommand_eq (pnewmi : MenuItem) (items : List MenuItem)
    : insertByCommand pnewmi item items = refInsert item false pnewmi items := by
  induction items with
  | nil => rfl
  | cons next rest ih =>
    rw [insertByCommand, ih]
    by_cases heq : next.data.id = item
    . simp [refInsert, firstMatch, findIdx_cons, heq]
    . simp [refInsert, firstMatch, findIdx_cons, heq]

theorem mnuInsertMenuItem_eq {flag : Bool} (hpos : flag = true → 0 ≤ item) (pnewmi : MenuItem) (items : List MenuItem)
    : mnuInsertMenuItem item flag pnewmi items = refInsert item flag pnewmi items := by
  cases items with
  | nil => simp [mnuInsertMenuItem, refInsert]
  | cons pmi next =>
    cases flag with
    | true =>
      have hpos := hpos rfl
      rw [mnuInsertMenuItem, if_pos rfl, refInsert, firstMatch, if_pos rfl]
      split
      . next heq => simp [heq]
      . have hsucc : item.toNat = (item - 1).toNat + 1 := by omega
        rw [insertByPosition_eq pnewmi 1 next (by omega), hsucc, take_succ_cons, drop_succ_cons,
          cons_append]
    | false =>
      rw [mnuInsertMenuItem, if_neg Bool.false_ne_true, insertByCommand_eq]
      by_cases heq : item = pmi.data.id
      . simp [refInsert, firstMatch, findIdx_cons, heq]
      . simp [refInsert, firstMatch, findIdx_cons, heq, Ne.symm heq]

theorem unlinkByPosition_eq (index : Int) (items : List MenuItem) (h : index ≤ item)
    : unlinkByPosition item index items
      = (items[(item - index).toNat]?, items.eraseIdx (item - index).toNat) := by
  induction items generalizing index with
  | nil => simp [unlinkByPosition]
  | cons next rest ih =>
    rw [unlinkByPosition]
    split
    . next heq => simp [heq]
    . have hsucc : (item - index).toNat = (item - (index + 1)).toNat + 1 := by omega
      rw [ih (index + 1) (by omega), hsucc, getElem?_cons_succ, eraseIdx_cons_succ]

theorem unlinkByCommand_eq (items : List MenuItem) : unlinkByCommand item items = refUnlink item false items := by
  induction items with
  | nil => rfl
  | cons next rest ih =>
    rw [unlinkByCommand, ih]
    by_cases heq : next.data.id = item
    . simp [refUnlink, firstMatch, findIdx_cons, heq]
    . simp [refUnlink, firstMatch, findIdx_cons, heq]

theorem mnuUnlinkMenuItem_eq {flag : Bool} (hpos : flag = true → 0 ≤ item) (items : List MenuItem)
    : mnuUnlinkMenuItem item flag items = refUnlink item flag items := by
  cases items with
  | nil => simp [mnuUnlinkMenuItem, refUnlink]
  | cons phead next =>
    cases flag with
    | true =>
      have hpos := hpos rfl
      rw [mnuUnlinkMenuItem, if_pos rfl, refUnlink, firstMatch, if_pos rfl]
      split
      . next heq => simp [heq]
      . have hsucc : item.toNat = (item - 1).toNat + 1 := by omega
        rw [unlinkByPosition_eq 1 next (by omega), hsucc, getElem?_cons_succ, eraseIdx_cons_succ]
    | false =>
      rw [mnuUnlinkMenuItem, if_neg Bool.false_ne_true, unlinkByCommand_eq]
      by_cases heq : phead.data.id = item
      . simp [refUnlink, firstMatch, findIdx_cons, heq]
      . simp [refUnlink, firstMatch, findIdx_cons, heq]

theorem getByPosition_eq (index : Int) (items : List MenuItem) (h : index ≤ item)
    : getByPosition item index items
      = if (item - index).toNat < items.length then some (item - index).toNat else none := by
  induction items generalizing index with
  | nil => simp [getByPosition]
  | cons pmi next ih =>
    rw [getByPosition]
    split
    . next heq => simp [heq]
    have hsucc : (item - index).toNat = (item - (index + 1)).toNat + 1 := by omega
    rw [ih (index + 1) (by omega), hsucc, length_cons]
    split
    . rw [if_pos (by omega)]
      rfl
    . rw [if_neg (by omega)]
      rfl

theorem mnuGetMenuItem_eq {flag : Bool} (hpos : flag = true → 0 ≤ item) (items : List MenuItem)
    : mnuGetMenuItem item flag items = refGet item flag items := by
  cases flag with
  | true =>
    have hget := getByPosition_eq 0 items (hpos rfl)
    rw [sub_zero] at hget
    exact hget
  | false =>
    rw [mnuGetMenuItem, if_neg Bool.false_ne_true]
    induction items with
    | nil => rfl
    | cons pmi next ih =>
      rw [getByCommand, ih]
      by_cases heq : pmi.data.id = item
      . simp [refGet, firstMatch, findIdx_cons, heq]
      . simp only [refGet, firstMatch, findIdx_cons, heq, length_cons]
        split <;> simp_all

theorem countLoop_eq (items : List MenuItem) (count : Int) : countLoop items count = count + items.length := by
  induction items generalizing count with
  | nil => simp [countLoop]
  | cons pmi next ih =>
    rw [countLoop, ih, length_cons]
    push_cast
    ring

theorem idLoop_eq (pos index : Int) (items : List MenuItem) (h : index ≤ pos)
    : idLoop pos index items = (items[(pos - index).toNat]?.map (·.data.id)).getD ERR_INVALID_POS := by
  induction items generalizing index with
  | nil => simp [idLoop]
  | cons pmi next ih =>
    rw [idLoop]
    split
    . next heq => simp [heq]
    . have hsucc : (pos - index).toNat = (pos - (index + 1)).toNat + 1 := by omega
      rw [ih (index + 1) (by omega), hsucc, getElem?_cons_succ]

theorem subMenuLoop_eq (pos index : Int) (items : List MenuItem) (h : index ≤ pos)
    : subMenuLoop pos index items = (items[(pos - index).toNat]?.map (·.submenu)).getD [] := by
  induction items generalizing index with
  | nil => simp [subMenuLoop]
  | cons pmi next ih =>
    rw [subMenuLoop]
    split
    . next heq => simp [heq]
    . have hsucc : (pos - index).toNat = (pos - (index + 1)).toNat + 1 := by omega
      rw [ih (index + 1) (by omega), hsucc, getElem?_cons_succ]

theorem refGet_bind (flag : Bool) (items : List MenuItem)
    : ((refGet item flag items).bind fun k => items[k]?) = items[firstMatch item flag items]? := by
  rw [refGet]
  split
  . rfl
  . next hlt => simp [getElem?_eq_none (not_lt.mp hlt)]

end Walks

theorem setFields_fields (mii : MenuItemInfo) (data : ItemData)
    : (setFields mii data).mnutype = data.mnutype ∧ (setFields mii data).typedata = data.typedata := by
  constructor
  . rw [setFields]
    split <;> split <;> split <;> split <;> rfl
  . rw [setFields]
    split <;> split <;> split <;> split <;> rfl

theorem setItem_eq {s : Nat} {mii : MenuItemInfo} {arg : SubArg} {data : ItemData} (hsubmenu submenu : List MenuItem)
    (h : badCheckmarks mii data = true ∨ ¬(mii.mask &&& MIIM_TYPE ≠ 0 ∧ badTypeData mii = true))
    : setItem s mii arg hsubmenu data submenu = refSetItem s mii arg hsubmenu data submenu := by
  rw [setItem, refSetItem]
  by_cases hcheck : badCheckmarks mii data = true
  . rw [if_pos hcheck, if_pos (Or.inl hcheck)]
  have htype := h.resolve_left hcheck
  have hnot : ¬(badCheckmarks mii data = true ∨ mii.mask &&& MIIM_TYPE ≠ 0 ∧ badTypeData mii = true) :=
    not_or.mpr ⟨hcheck, htype⟩
  rw [if_neg hcheck, if_neg hnot]
  dsimp only
  rw [(setFields_fields mii data).1, (setFields_fields mii data).2]
  by_cases hmask : mii.mask &&& MIIM_TYPE ≠ 0
  . have hdata : ¬badTypeData mii = true := fun hbad => htype ⟨hmask, hbad⟩
    rw [if_pos hmask, if_pos hmask, if_neg hdata]
  . rw [if_neg hmask, if_neg hmask]

structure ReadsList (items : List MenuItem) : Prop where
  count : getMenuItemCount items = items.length
  id : ∀ pos, 0 ≤ pos → getMenuItemID items pos = (items[pos.toNat]?.map (·.data.id)).getD ERR_INVALID_POS
  subMenu : ∀ pos, 0 ≤ pos → getSubMenu items pos = (items[pos.toNat]?.map (·.submenu)).getD []
  info : ∀ item flag mii cch hsubmenu, (flag = true → 0 ≤ item) → getMenuItemInfo items item flag mii cch hsubmenu
    = match items[firstMatch item flag items]? with
      | none => (ERR_INVALID_HMENU, mii, hsubmenu)
      | some pmi =>
        (0, readInfo mii cch pmi.data, if mii.mask &&& MIIM_SUBMENU ≠ 0 then pmi.submenu else hsubmenu)

theorem readsList (items : List MenuItem) : ReadsList items := by
  refine ⟨?_, ?_, ?_, ?_⟩
  . rw [getMenuItemCount, countLoop_eq, zero_add]
  . intro pos hpos
    rw [getMenuItemID, idLoop_eq pos 0 items hpos, sub_zero]
  . intro pos hpos
    rw [getSubMenu, subMenuLoop_eq pos 0 items hpos, sub_zero]
  intro item flag mii cch hsubmenu hpos
  have hitem : ((mnuGetMenuItem item flag items).bind fun k => items[k]?)
      = items[firstMatch item flag items]? := by
    rw [mnuGetMenuItem_eq hpos, refGet_bind]
  cases hget : items[firstMatch item flag items]? with
  | none | some pmi =>
    rw [hget] at hitem
    simp only [getMenuItemInfo, hitem]

end Menu

end MiniGui
