import MiniGui.Gui.Menu
import MiniGui.Library.Reach

namespace MiniGui.Menu

open List Option

open Reach

inductive ListCall where
  | insertMenuItem (item : Int) (flag : Bool) (mii : MenuItemInfo) (hsubmenu : Option Nat)
  | removeMenu (item : Int) (flag : Bool)
  | deleteMenu (item : Int) (flag : Bool)
  | setMenuItemInfo (item : Int) (flag : Bool) (mii : MenuItemInfo) (hsubmenu : SubArg)
deriving DecidableEq, Repr

inductive MenuCall where
  | createMenu
  | createPopupMenu (mii : MenuItemInfo)
  | onList (hmnu : Nat) (call : ListCall)
  | destroyMenu (hmnu : Nat)
deriving DecidableEq, Repr

def ListCall.arg : ListCall → SubArg
  | .insertMenuItem _ _ _ (some hmnu) => .popup hmnu
  | .setMenuItemInfo _ _ _ arg => arg
  | _ => .null

def ListCall.effect (ops : ListOps) (fresh : Nat) (hsubmenu items : List MenuItem) : ListCall → Effect
  | .insertMenuItem item flag mii _ => Menu.insertMenuItem ops fresh item flag mii hsubmenu items
  | .removeMenu item flag => Menu.removeMenu ops item flag items
  | .deleteMenu item flag => Menu.deleteMenu ops item flag items
  | .setMenuItemInfo item flag mii arg => Menu.setMenuItemInfo ops fresh item flag mii arg hsubmenu items

structure MenuState where
  roots : List MenuItem
  fresh : Nat
  result : Int
  allocated : List Block
  freed : List Block
  detached : List Block
  calls : List MenuCall

def initMenus : MenuState :=
  ⟨[], 1, 0, [], [], [], []⟩

def barData : ItemData :=
  ⟨MFT_SEPARATOR, 0, 0, 0, 0, 0, .data 0⟩

inductive MenuAt (hmnu : Nat) (items items' : List MenuItem) : List MenuItem → List MenuItem → Prop where
  | here {pre post : List MenuItem} {type : MenuType} {data : ItemData}
      : type ≠ .nmlmenu
        → MenuAt hmnu items items' (pre ++ .mk hmnu type data items :: post) (pre ++ .mk hmnu type data items' :: post)
  | inside {pre post submenu submenu' : List MenuItem} {pmi : Nat} {type : MenuType} {data : ItemData}
      : MenuAt hmnu items items' submenu submenu'
        → MenuAt hmnu items items' (pre ++ .mk pmi type data submenu :: post)
            (pre ++ .mk pmi type data submenu' :: post)

inductive Taken (roots : List MenuItem) : SubArg → List MenuItem → List MenuItem → Prop where
  | null : Taken roots .null [] roots
  | same : Taken roots .same [] roots
  | popup {pre post : List MenuItem} {hmnu : Nat} {data : ItemData} {items : List MenuItem}
      : roots = pre ++ .mk hmnu .pppmenu data items :: post
        → Taken roots (.popup hmnu) [.mk hmnu .pppmenu data items] (pre ++ post)

inductive Step (ops : ListOps) : MenuState → MenuCall → MenuState → Prop where
  | createMenu (s : MenuState)
      : Step ops s .createMenu
          { s with
            roots := .mk s.fresh .menubar barData [] :: s.roots
            fresh := s.fresh + 1
            result := 0
            allocated := .item s.fresh :: s.allocated
            calls := .createMenu :: s.calls }
  | createPopupMenu (s : MenuState) {mii : MenuItemInfo}
      : badArgs mii = false
        → Step ops s (.createPopupMenu mii)
            { s with
              roots := .mk s.fresh .pppmenu (newData s.fresh mii) [] :: s.roots
              fresh := s.fresh + 1
              result := 0
              allocated := ownBlocks s.fresh (newData s.fresh mii) ++ s.allocated
              calls := .createPopupMenu mii :: s.calls }
  | onList (s : MenuState) {hmnu : Nat} {call : ListCall} {hsubmenu rest items roots : List MenuItem} {e : Effect}
      : Taken s.roots call.arg hsubmenu rest
        → e = call.effect ops s.fresh hsubmenu items
        → MenuAt hmnu items e.items rest roots
        → Step ops s (.onList hmnu call)
            {
              roots := e.unused ++ roots
              fresh := s.fresh + 1
              result := e.code
              allocated := e.allocated ++ s.allocated
              freed := e.freed ++ s.freed
              detached := e.detached ++ s.detached
              calls := .onList hmnu call :: s.calls
            }
  | destroyMenu (s : MenuState) {pre post : List MenuItem} {menu : MenuItem}
      : s.roots = pre ++ menu :: post
        → Step ops s (.destroyMenu menu.pmi)
            { s with
              roots := pre ++ post
              result := 0
              freed := destroyMenu menu ++ s.freed
              calls := .destroyMenu menu.pmi :: s.calls }

def ListCall.Admitted (items : List MenuItem) : ListCall → Prop
  | .insertMenuItem item flag _ _ => flag = true → 0 ≤ item
  | .removeMenu item flag => flag = true → 0 ≤ item
  | .deleteMenu item flag => flag = true → 0 ≤ item
  | .setMenuItemInfo item flag mii _ =>
    (flag = true → 0 ≤ item)
      ∧ ∀ pmi, items[firstMatch item flag items]? = some pmi
        → badCheckmarks mii pmi.data = true ∨ ¬(mii.mask &&& MIIM_TYPE ≠ 0 ∧ badTypeData mii = true)

def Admitted (s : MenuState) : MenuCall → Prop
  | .onList hmnu call =>
    ∀ items items' hsubmenu rest roots, Taken s.roots call.arg hsubmenu rest → MenuAt hmnu items items' rest roots
      → call.Admitted items
  | _ => True

theorem effect_eq {call : ListCall} {items : List MenuItem} (h : call.Admitted items) (fresh : Nat)
    (hsubmenu : List MenuItem)
    : call.effect codeOps fresh hsubmenu items = call.effect refOps fresh hsubmenu items := by
  cases call with
  | insertMenuItem item flag mii arg =>
    simp only [ListCall.effect, insertMenuItem, codeOps, refOps, mnuInsertMenuItem_eq h]
  | removeMenu item flag => simp only [ListCall.effect, removeMenu, codeOps, refOps, mnuUnlinkMenuItem_eq h]
  | deleteMenu item flag => simp only [ListCall.effect, deleteMenu, codeOps, refOps, mnuUnlinkMenuItem_eq h]
  | setMenuItemInfo item flag mii arg =>
    have hget : codeOps.get item flag items = refOps.get item flag items := mnuGetMenuItem_eq h.1 items
    rw [ListCall.effect, ListCall.effect, setMenuItemInfo, setMenuItemInfo, hget]
    cases hk : refOps.get item flag items with
    | none => rfl
    | some k =>
      have hfirst : k = firstMatch item flag items := by
        simp only [refOps, refGet] at hk
        split at hk
        . exact (Option.some.inj hk).symm
        . cases hk
      rw [bind_some]
      cases hpmi : items[k]? with
      | none => rfl
      | some pmi =>
        have hset := @setItem_eq fresh mii arg pmi.data hsubmenu pmi.submenu (h.2 pmi (hfirst ▸ hpmi))
        simp only [map_some, codeOps, refOps, hset]

variable {call : MenuCall} {s : MenuState} {type : MenuType} {x : MenuItem} {hmnu : Nat}
  {items' roots roots' : List MenuItem}

theorem Step.ref {s' : MenuState} (hok : Admitted s call) (h : Step codeOps s call s')
    : Step refOps s call s' := by
  cases h with
  | createMenu => exact Step.createMenu s
  | createPopupMenu hargs => exact Step.createPopupMenu s hargs
  | onList htaken heffect hat =>
    rw [effect_eq (hok _ _ _ _ _ htaken hat)] at heffect
    exact Step.onList s htaken heffect hat
  | destroyMenu hroots => exact Step.destroyMenu s hroots

mutual

def blocks : MenuItem → List Block
  | .mk pmi _ data submenu => allBlocks submenu ++ ownBlocks pmi data

def allBlocks : List MenuItem → List Block
  | [] => []
  | pmi :: next => blocks pmi ++ allBlocks next

end

def SubTypes (type : MenuType) (types : List MenuType) : Prop :=
  if type = .nmlmenu then types = [] ∨ types = [.pppmenu] else ∀ t ∈ types, t = .nmlmenu

def DataOk (type : MenuType) (data : ItemData) : Prop :=
  (isString data.mnutype = true ↔ ∃ s text, data.typedata = .string s text) ∧ (type = .menubar → data = barData)

inductive WellTyped : MenuItem → Prop where
  | mk {pmi : Nat} {type : MenuType} {data : ItemData} {submenu : List MenuItem}
      : SubTypes type (submenu.map MenuItem.type) → DataOk type data → (∀ x ∈ submenu, WellTyped x)
        → WellTyped (.mk pmi type data submenu)

theorem ownBlocks_eq {data : ItemData} (h : DataOk type data) (pmi : Nat)
    : (if isString data.mnutype then [freeFixStr data.typedata] else []) ++ [.item pmi] = ownBlocks pmi data := by
  rw [ownBlocks]
  congr 1
  by_cases hstring : isString data.mnutype = true
  . rcases h.1.mp hstring with ⟨s, text, heq⟩
    rw [if_pos hstring, heq]
    rfl
  rw [if_neg hstring]
  cases heq : data.typedata with
  | string s text => exact absurd (h.1.mpr ⟨s, text, heq⟩) hstring
  | data d => rfl

mutual

theorem mnuDeleteMenuItem_eq : ∀ {x : MenuItem}, WellTyped x → mnuDeleteMenuItem x = blocks x
  | .mk pmi type data submenu, h => by
    cases h with
    | mk htypes hdata hsub =>
      rw [mnuDeleteMenuItem, blocks, mnuDeleteMenuItems_eq hsub, ownBlocks_eq hdata]

theorem mnuDeleteMenuItems_eq : ∀ {items : List MenuItem}, (∀ x ∈ items, WellTyped x)
    → mnuDeleteMenuItems items = allBlocks items
  | [], _ => rfl
  | x :: items, h => by
    rw [mnuDeleteMenuItems, allBlocks, mnuDeleteMenuItem_eq (h x mem_cons_self),
      mnuDeleteMenuItems_eq fun y hy => h y (mem_cons_of_mem _ hy)]

end

theorem destroyMenu_eq (h : WellTyped x) : destroyMenu x = blocks x := by
  cases h with
  | @mk pmi type data submenu htypes hdata hsub =>
    cases type with
    | menubar =>
      have hbar := hdata.2 rfl
      show mnuDeleteMenuItems submenu ++ [.item pmi] = blocks (.mk pmi .menubar data submenu)
      rw [blocks, mnuDeleteMenuItems_eq hsub, hbar]
      rfl
    | pppmenu | nmlmenu => exact mnuDeleteMenuItem_eq (WellTyped.mk htypes hdata hsub)

@[simp]
theorem allBlocks_append (items items' : List MenuItem)
    : allBlocks (items ++ items') = allBlocks items ++ allBlocks items' := by
  induction items with
  | nil => rfl
  | cons x items ih => rw [cons_append, allBlocks, allBlocks, ih, append_assoc]

@[simp]
theorem allBlocks_nil : allBlocks [] = [] := by
  rw [allBlocks]

@[simp]
theorem allBlocks_cons (x : MenuItem) (items : List MenuItem) : allBlocks (x :: items) = blocks x ++ allBlocks items := by
  rw [allBlocks]

@[simp]
theorem blocks_mk (pmi : Nat) (type : MenuType) (data : ItemData) (submenu : List MenuItem)
    : blocks (.mk pmi type data submenu) = allBlocks submenu ++ ownBlocks pmi data := by
  rw [blocks]

theorem MenuAt.count {items : List MenuItem} (h : MenuAt hmnu items items' roots roots') (o : Block)
    : (allBlocks roots).count o + (allBlocks items').count o
      = (allBlocks roots').count o + (allBlocks items).count o := by
  induction h with
  | here htype | inside _ ih =>
    simp only [allBlocks_append, allBlocks_cons, blocks_mk, count_append]
    omega

theorem MenuAt.types {items : List MenuItem} (h : MenuAt hmnu items items' roots roots')
    : roots'.map MenuItem.type = roots.map MenuItem.type := by
  cases h with
  | here htype | inside _ => simp [MenuItem.type]

def ItemsOk (items : List MenuItem) : Prop :=
  ∀ x ∈ items, x.type = .nmlmenu ∧ WellTyped x

theorem ItemsOk.types {items : List MenuItem} (h : ItemsOk items) (htype : type ≠ .nmlmenu)
    : SubTypes type (items.map MenuItem.type) := by
  rw [SubTypes, if_neg htype]
  intro t ht
  rcases List.mem_map.mp ht with ⟨x, hx, rfl⟩
  exact (h x hx).1

theorem MenuAt.items_ok {items : List MenuItem}
    (h : MenuAt hmnu items items' roots roots') (hroots : ∀ x ∈ roots, WellTyped x)
    : ItemsOk items := by
  induction h with
  | @here pre post type data htype =>
    cases hroots _ (mem_append_right pre mem_cons_self) with
    | mk htypes _ hsub =>
      rw [SubTypes, if_neg htype] at htypes
      intro x hx
      exact ⟨htypes _ (List.mem_map_of_mem hx), hsub x hx⟩
  | @inside pre post submenu submenu' pmi type data _ ih =>
    cases hroots _ (mem_append_right pre mem_cons_self) with
    | mk _ _ hsub => exact ih hsub

theorem MenuAt.wellTyped {items : List MenuItem}
    (h : MenuAt hmnu items items' roots roots') (hroots : ∀ x ∈ roots, WellTyped x) (hitems : ItemsOk items')
    : ∀ x ∈ roots', WellTyped x := by
  induction h with
  | @here pre post type data htype =>
    intro x hx
    rw [mem_append, mem_cons] at hx
    rcases hx with hx | rfl | hx
    . exact hroots x (mem_append_left _ hx)
    . cases hroots _ (mem_append_right pre mem_cons_self) with
      | mk _ hdata _ => exact WellTyped.mk (hitems.types htype) hdata fun y hy => (hitems y hy).2
    . exact hroots x (mem_append_right _ (mem_cons_of_mem _ hx))
  | @inside pre post submenu submenu' pmi type data hat ih =>
    intro x hx
    rw [mem_append, mem_cons] at hx
    rcases hx with hx | rfl | hx
    . exact hroots x (mem_append_left _ hx)
    . cases hroots _ (mem_append_right pre mem_cons_self) with
      | mk htypes hdata hsub => exact WellTyped.mk (by rw [hat.types]; exact htypes) hdata (ih hsub)
    . exact hroots x (mem_append_right _ (mem_cons_of_mem _ hx))

theorem exists_split {items : List MenuItem} {k : Nat} (h : items[k]? = some x)
    : ∃ pre post, items = pre ++ x :: post ∧ items.eraseIdx k = pre ++ post
      ∧ ∀ y, items.set k y = pre ++ y :: post := by
  rcases List.getElem?_eq_some_iff.mp h with ⟨hlt, hx⟩
  refine ⟨items.take k, items.drop (k + 1), ?_, eraseIdx_eq_take_drop_succ _ _, ?_⟩
  . rw [← hx, getElem_cons_drop, take_append_drop]
  . intro y
    rw [set_eq_take_append_cons_drop, if_pos hlt]

section Effects

def SubOk (menus : List MenuItem) : Prop :=
  (menus.map MenuItem.type = [] ∨ menus.map MenuItem.type = [.pppmenu]) ∧ ∀ x ∈ menus, WellTyped x

theorem SubOk.nil : SubOk [] :=
  ⟨.inl rfl, by simp⟩

theorem WellTyped.submenu_ok (h : WellTyped x) (htype : x.type = .nmlmenu) : SubOk x.submenu := by
  cases h with
  | @mk pmi type data submenu htypes _ hsub =>
    have htype : type = .nmlmenu := htype
    rw [SubTypes, if_pos htype] at htypes
    exact ⟨htypes, hsub⟩

theorem WellTyped.data_ok (h : WellTyped x) : DataOk x.type x.data := by
  cases h with
  | mk _ hdata _ => exact hdata

structure EffectOk (fresh : Nat) (hsubmenu items : List MenuItem) (e : Effect) : Prop where
  itemsOk : ItemsOk e.items
  unusedOk : SubOk e.unused
  count : ∀ o, (allBlocks items).count o + (allBlocks hsubmenu).count o + e.allocated.count o
    = (allBlocks e.items).count o + (allBlocks e.unused).count o + e.freed.count o + e.detached.count o
  nodup : e.allocated.Nodup
  number : ∀ o ∈ e.allocated, o = .item fresh ∨ o = .string fresh
  error : e.code < 0 → e.items = items ∧ e.unused = hsubmenu

variable {fresh : Nat} {items hsubmenu : List MenuItem} {item : Int} {flag : Bool} {mii : MenuItemInfo}

theorem EffectOk.unchanged (hitems : ItemsOk items) (hsub : SubOk hsubmenu) (code : Int)
    : EffectOk fresh hsubmenu items ⟨code, items, hsubmenu, [], [], []⟩ :=
  ⟨hitems, hsub, by simp, nodup_nil, by simp, fun _ => ⟨rfl, rfl⟩⟩

theorem defaultBmps_fields (data : ItemData)
    : (defaultBmps data).mnutype = data.mnutype ∧ (defaultBmps data).typedata = data.typedata := by
  rw [defaultBmps]
  constructor
  . split
    . rfl
    . split <;> rfl
  . split
    . rfl
    . split <;> rfl

theorem copyTypeData_string (s : Nat) (mii : MenuItemInfo)
    : isString mii.type = true ↔ ∃ s' text, copyTypeData s mii = .string s' text := by
  rw [copyTypeData]
  split
  . next h => simp [h]
  . next h => simp [h]

theorem newData_ok (fresh : Nat) (mii : MenuItemInfo) (htype : type ≠ .menubar)
    : DataOk type (newData fresh mii) := by
  refine ⟨?_, fun h => absurd h htype⟩
  rw [newData, (defaultBmps_fields _).1, (defaultBmps_fields _).2]
  exact copyTypeData_string fresh mii

theorem newData_blocks (fresh : Nat) (mii : MenuItemInfo)
    : (ownBlocks fresh (newData fresh mii)).Nodup
      ∧ ∀ o ∈ ownBlocks fresh (newData fresh mii), o = .item fresh ∨ o = .string fresh := by
  rw [ownBlocks, newData, (defaultBmps_fields _).2]
  by_cases h : isString mii.type = true
  . simp [copyTypeData, h]
  . simp [copyTypeData, h]

theorem refInsert_ok {pnewmi : MenuItem} (hitems : ItemsOk items) (hnew : pnewmi.type = .nmlmenu ∧ WellTyped pnewmi)
    : ItemsOk (refInsert item flag pnewmi items)
      ∧ ∀ o, (allBlocks (refInsert item flag pnewmi items)).count o
        = (allBlocks items).count o + (blocks pnewmi).count o := by
  constructor
  . intro x hx
    rw [refInsert, mem_append, mem_cons] at hx
    rcases hx with hx | rfl | hx
    . exact hitems x (mem_of_mem_take hx)
    . exact hnew
    . exact hitems x (mem_of_mem_drop hx)
  intro o
  have hsplit : allBlocks items
      = allBlocks (items.take (firstMatch item flag items)) ++ allBlocks (items.drop (firstMatch item flag items)) := by
    rw [← allBlocks_append, take_append_drop]
  rw [refInsert, hsplit]
  simp only [allBlocks_append, allBlocks_cons, count_append]
  omega

theorem insertMenuItem_ok (hitems : ItemsOk items) (hsub : SubOk hsubmenu)
    : EffectOk fresh hsubmenu items (insertMenuItem refOps fresh item flag mii hsubmenu items) := by
  have hdata : DataOk .nmlmenu (newData fresh mii) := newData_ok fresh mii (by decide)
  have hblocks := newData_blocks fresh mii
  rw [insertMenuItem]
  split
  . exact EffectOk.unchanged hitems hsub _
  dsimp only
  split
  . have hnew : WellTyped (.mk fresh .nmlmenu (newData fresh mii) []) := WellTyped.mk (.inl rfl) hdata (by simp)
    have hins := @refInsert_ok items item flag _ hitems ⟨rfl, hnew⟩
    refine ⟨hins.1, hsub, ?_, hblocks.1, hblocks.2, fun h => absurd h (lt_irrefl 0)⟩
    intro o
    have hcount := hins.2 o
    rw [blocks_mk, allBlocks_nil, nil_append] at hcount
    show _ = (allBlocks (refInsert item flag _ items)).count o + _ + _ + _
    rw [hcount]
    simp
    omega
  have hnew : WellTyped (.mk fresh .nmlmenu (newData fresh mii) hsubmenu) := WellTyped.mk hsub.1 hdata hsub.2
  have hins := @refInsert_ok items item flag _ hitems ⟨rfl, hnew⟩
  refine ⟨hins.1, SubOk.nil, ?_, hblocks.1, hblocks.2, fun h => absurd h (lt_irrefl 0)⟩
  intro o
  have hcount := hins.2 o
  rw [blocks_mk, count_append] at hcount
  show _ = (allBlocks (refInsert item flag _ items)).count o + _ + _ + _
  rw [hcount]
  simp
  omega

theorem ItemsOk.eraseIdx (hitems : ItemsOk items) (k : Nat) : ItemsOk (items.eraseIdx k) := by
  intro x hx
  exact hitems x (mem_of_mem_eraseIdx hx)

theorem unlink_ok {item : Int} {flag : Bool} {behind : MenuItem → List MenuItem → Effect} (hitems : ItemsOk items)
    (hbehind : ∀ x ∈ items, ∀ rest, ItemsOk rest
      → (∀ o, (allBlocks items).count o = (blocks x).count o + (allBlocks rest).count o)
      → EffectOk fresh [] items (behind x rest))
    : EffectOk fresh [] items
        (match refUnlink item flag items with
          | (none, items) => ⟨0, items, [], [], [], []⟩
          | (some pmi, items) => behind pmi items) := by
  have herase := hitems.eraseIdx (firstMatch item flag items)
  rw [refUnlink]
  cases hk : items[firstMatch item flag items]? with
  | none =>
    have heq : items.eraseIdx (firstMatch item flag items) = items :=
      eraseIdx_of_length_le (List.getElem?_eq_none_iff.mp hk)
    rw [heq]
    exact EffectOk.unchanged hitems SubOk.nil _
  | some x =>
    rcases exists_split hk with ⟨pre, post, hsplit, herased, _⟩
    refine hbehind x (mem_of_getElem? hk) _ herase ?_
    intro o
    rw [herased, hsplit]
    simp
    omega

theorem deleteMenu_ok (hitems : ItemsOk items)
    : EffectOk fresh [] items (deleteMenu refOps item flag items) := by
  refine unlink_ok hitems fun x hx rest hrest hcount => ?_
  refine ⟨hrest, SubOk.nil, ?_, nodup_nil, by simp, fun h => absurd h (lt_irrefl 0)⟩
  intro o
  rw [hcount, mnuDeleteMenuItem_eq (hitems x hx).2]
  simp
  omega

theorem mk_eta (x : MenuItem) : .mk x.pmi x.type x.data x.submenu = x := by
  cases x with
  | mk pmi type data submenu => rfl

theorem blocks_eq (x : MenuItem) : blocks x = allBlocks x.submenu ++ ownBlocks x.pmi x.data := by
  cases x with
  | mk pmi type data submenu => rw [blocks_mk]; rfl

theorem removeMenu_ok (hitems : ItemsOk items)
    : EffectOk fresh [] items (removeMenu refOps item flag items) := by
  refine unlink_ok hitems fun x hx rest hrest hcount => ?_
  have hsub := (hitems x hx).2.submenu_ok (hitems x hx).1
  split
  . refine ⟨hrest, SubOk.nil, ?_, nodup_nil, by simp, fun h => absurd h (lt_irrefl 0)⟩
    intro o
    rw [hcount, mnuDeleteMenuItem_eq (hitems x hx).2]
    simp
    omega
  refine ⟨hrest, hsub, ?_, nodup_nil, by simp, fun h => absurd h (lt_irrefl 0)⟩
  intro o
  rw [hcount, blocks_eq]
  simp
  omega

theorem setSubmenu_ok (arg : SubArg) {submenu : List MenuItem} (hsub : SubOk hsubmenu) (hold : SubOk submenu)
    : SubOk (setSubmenu mii arg hsubmenu submenu).1 ∧ SubOk (setSubmenu mii arg hsubmenu submenu).2
      ∧ ∀ o, (allBlocks (setSubmenu mii arg hsubmenu submenu).1).count o
          + (allBlocks (setSubmenu mii arg hsubmenu submenu).2).count o
        = (allBlocks submenu).count o + (allBlocks hsubmenu).count o := by
  rw [setSubmenu]
  split
  . exact ⟨hsub, hold, fun o => Nat.add_comm _ _⟩
  . exact ⟨hold, hsub, fun o => rfl⟩

structure ItemEffectOk (fresh : Nat) (hsubmenu : List MenuItem) (data : ItemData) (submenu : List MenuItem)
    (e : ItemEffect)
    : Prop where
  dataOk : DataOk .nmlmenu e.data
  submenuOk : SubOk e.submenu
  unusedOk : SubOk e.unused
  count : ∀ o pmi, (allBlocks submenu).count o + (ownBlocks pmi data).count o + (allBlocks hsubmenu).count o
      + e.allocated.count o
    = (allBlocks e.submenu).count o + (ownBlocks pmi e.data).count o + (allBlocks e.unused).count o + e.freed.count o
  nodup : e.allocated.Nodup
  number : ∀ o ∈ e.allocated, o = .item fresh ∨ o = .string fresh
  error : e.code < 0 → e.data = data ∧ e.submenu = submenu ∧ e.unused = hsubmenu

theorem refSetItem_ok (arg : SubArg) {submenu : List MenuItem} {data : ItemData} (hsub : SubOk hsubmenu)
    (hold : SubOk submenu) (hdata : DataOk .nmlmenu data)
    : ItemEffectOk fresh hsubmenu data submenu (refSetItem fresh mii arg hsubmenu data submenu) := by
  have hset := @setSubmenu_ok hsubmenu mii arg submenu hsub hold
  have hfields := setFields_fields mii data
  rw [refSetItem]
  split
  . exact ⟨hdata, hold, hsub, fun o pmi => by simp, nodup_nil, by simp, fun _ => ⟨rfl, rfl, rfl⟩⟩
  split
  . refine ⟨?_, hset.1, hset.2.1, ?_, ?_, ?_, fun h => absurd h (lt_irrefl 0)⟩
    . refine ⟨?_, fun h => by cases h⟩
      rw [(defaultBmps_fields _).1, (defaultBmps_fields _).2]
      exact copyTypeData_string fresh mii
    . intro o pmi
      have hcount := hset.2.2 o
      have hown := ownBlocks_eq hdata pmi
      have hnew : (if isString mii.type = true then [Block.string fresh] else []) ++ [.item pmi]
          = ownBlocks pmi (defaultBmps
            { setFields mii data with mnutype := mii.type, typedata := copyTypeData fresh mii }) := by
        rw [ownBlocks, (defaultBmps_fields _).2]
        rw [copyTypeData]
        by_cases h : isString mii.type = true
        . rw [if_pos h, if_pos h]
        . rw [if_neg h, if_neg h]
      rw [← hown, ← hnew]
      simp only [count_append]
      omega
    . dsimp only
      split
      . exact nodup_singleton _
      . exact nodup_nil
    dsimp only
    split
    . simp
    . simp
  refine ⟨?_, hset.1, hset.2.1, ?_, nodup_nil, by simp, fun h => absurd h (lt_irrefl 0)⟩
  . dsimp only
    refine ⟨?_, fun h => by cases h⟩
    rw [(defaultBmps_fields _).1, (defaultBmps_fields _).2, hfields.1, hfields.2]
    exact hdata.1
  intro o pmi
  have hcount := hset.2.2 o
  have hown : ownBlocks pmi (defaultBmps (setFields mii data)) = ownBlocks pmi data := by
    rw [ownBlocks, ownBlocks, (defaultBmps_fields _).2, hfields.2]
  rw [hown]
  simp only [count_nil]
  omega

theorem setMenuItemInfo_ok (arg : SubArg) (hitems : ItemsOk items) (hsub : SubOk hsubmenu)
    : EffectOk fresh hsubmenu items (setMenuItemInfo refOps fresh item flag mii arg hsubmenu items) := by
  rw [setMenuItemInfo]
  cases hk : refOps.get item flag items with
  | none => exact EffectOk.unchanged hitems hsub _
  | some k =>
    rw [bind_some]
    cases hx : items[k]? with
    | none => exact EffectOk.unchanged hitems hsub _
    | some x =>
      rcases exists_split hx with ⟨pre, post, hsplit, _, hset⟩
      have hxok := hitems x (mem_of_getElem? hx)
      have hdata := hxok.2.data_ok
      rw [hxok.1] at hdata
      have he := @refSetItem_ok fresh hsubmenu mii arg x.submenu x.data hsub (hxok.2.submenu_ok hxok.1) hdata
      have hnew : WellTyped (.mk x.pmi x.type (refSetItem fresh mii arg hsubmenu x.data x.submenu).data
          (refSetItem fresh mii arg hsubmenu x.data x.submenu).submenu) := by
        rw [hxok.1]
        exact WellTyped.mk he.submenuOk.1 he.dataOk he.submenuOk.2
      dsimp only [map_some, refOps]
      refine ⟨?_, he.unusedOk, ?_, he.nodup, he.number, ?_⟩
      . intro y hy
        rw [hset, mem_append, mem_cons] at hy
        rcases hy with hy | rfl | hy
        . exact hitems y (by rw [hsplit]; exact mem_append_left _ hy)
        . exact ⟨hxok.1, hnew⟩
        . exact hitems y (by rw [hsplit]; exact mem_append_right _ (mem_cons_of_mem _ hy))
      . intro o
        have hcount := he.count o x.pmi
        rw [hset, hsplit]
        simp only [allBlocks_append, allBlocks_cons, blocks_mk, blocks_eq x, count_append, count_nil]
        omega
      intro hcode
      rcases he.error hcode with ⟨hdata, hsubmenu, hunused⟩
      refine ⟨?_, hunused⟩
      rw [hset, hdata, hsubmenu, mk_eta]
      exact hsplit.symm

theorem effect_ok {call : ListCall} (hitems : ItemsOk items) (hsub : SubOk hsubmenu)
    (harg : call.arg = .null → hsubmenu = [])
    : EffectOk fresh hsubmenu items (call.effect refOps fresh hsubmenu items) := by
  cases call with
  | insertMenuItem item flag mii hmnu => exact insertMenuItem_ok hitems hsub
  | removeMenu item flag =>
    rw [harg rfl]
    exact removeMenu_ok hitems
  | deleteMenu item flag =>
    rw [harg rfl]
    exact deleteMenu_ok hitems
  | setMenuItemInfo item flag mii arg => exact setMenuItemInfo_ok arg hitems hsub

end Effects

structure Inv (s : MenuState) : Prop where
  roots : ∀ x ∈ s.roots, x.type ≠ .nmlmenu ∧ WellTyped x
  nodup : s.allocated.Nodup
  fresh : ∀ n, s.fresh ≤ n → .item n ∉ s.allocated ∧ .string n ∉ s.allocated
  count : ∀ o, s.allocated.count o = s.freed.count o + (allBlocks s.roots).count o + s.detached.count o

theorem Taken.ok {arg : SubArg} {hsubmenu rest : List MenuItem} (h : Taken s.roots arg hsubmenu rest)
    (hs : ∀ x ∈ s.roots, WellTyped x)
    : SubOk hsubmenu ∧ (arg = .null → hsubmenu = []) ∧ (hsubmenu ++ rest).Perm s.roots := by
  cases h with
  | null | same => exact ⟨SubOk.nil, fun _ => rfl, List.Perm.refl _⟩
  | @popup pre post hmnu data items hroots =>
    rw [hroots]
    refine ⟨⟨.inr rfl, ?_⟩, ?_, ?_⟩
    . intro x hx
      rw [mem_singleton.mp hx]
      apply hs
      rw [hroots]
      exact mem_append_right _ mem_cons_self
    . intro h
      cases h
    . exact (@perm_middle _ _ pre post).symm

theorem MenuAt.eq {items : List MenuItem} (h : MenuAt hmnu items items roots roots')
    : roots' = roots := by
  induction h with
  | here _ => rfl
  | inside _ ih => rw [ih]

theorem count_perm {menus menus' : List MenuItem} (h : menus.Perm menus') (o : Block)
    : (allBlocks menus).count o = (allBlocks menus').count o := by
  induction h with
  | nil => rfl
  | cons x _ ih | swap x y _ =>
    simp only [allBlocks_cons, count_append]
    omega
  | trans _ _ ih ih' => omega

theorem Inv.allocate {s : MenuState} (h : Inv s) {new : List Block} (hnodup : new.Nodup)
    (hnumber : ∀ o ∈ new, o = .item s.fresh ∨ o = .string s.fresh) : (new ++ s.allocated).Nodup
      ∧ ∀ n, s.fresh + 1 ≤ n → .item n ∉ new ++ s.allocated ∧ .string n ∉ new ++ s.allocated := by
  have hfresh := h.fresh s.fresh le_rfl
  constructor
  . apply hnodup.append h.nodup
    intro o ho ho'
    rcases hnumber o ho with rfl | rfl
    . exact hfresh.1 ho'
    . exact hfresh.2 ho'
  intro n hn
  have hold := h.fresh n (by omega)
  simp only [mem_append, not_or]
  refine ⟨⟨?_, hold.1⟩, ⟨?_, hold.2⟩⟩
  . intro ho
    rcases hnumber _ ho with heq | heq
    . cases heq
      omega
    . cases heq
  intro ho
  rcases hnumber _ ho with heq | heq
  . cases heq
  . cases heq
    omega

theorem step_inv {s' : MenuState} (h : Inv s) (hstep : Step refOps s call s') : Inv s' := by
  have htyped : ∀ x ∈ s.roots, WellTyped x := fun x hx => (h.roots x hx).2
  cases hstep with
  | createMenu =>
    have hbar : WellTyped (.mk s.fresh .menubar barData []) :=
      WellTyped.mk (by simp [SubTypes]) ⟨by simp [barData, isString]; decide, fun _ => rfl⟩ (by simp)
    have hnew := @Inv.allocate s h [.item s.fresh] (nodup_singleton _) (by simp)
    refine ⟨?_, hnew.1, hnew.2, ?_⟩
    . intro x hx
      rcases mem_cons.mp hx with rfl | hx
      . exact ⟨by simp [MenuItem.type], hbar⟩
      . exact h.roots x hx
    intro o
    have hcount := h.count o
    have hown : ownBlocks s.fresh barData = [.item s.fresh] := rfl
    simp only [allBlocks_cons, blocks_mk, allBlocks_nil, hown, nil_append, count_append, count_cons,
      count_nil]
    omega
  | @createPopupMenu mii hargs =>
    have hdata : DataOk .pppmenu (newData s.fresh mii) := newData_ok s.fresh mii (by decide)
    have hblocks := newData_blocks s.fresh mii
    have hnew := h.allocate hblocks.1 hblocks.2
    refine ⟨?_, hnew.1, hnew.2, ?_⟩
    . intro x hx
      rcases mem_cons.mp hx with rfl | hx
      . exact ⟨by simp [MenuItem.type], WellTyped.mk (by simp [SubTypes]) hdata (by simp)⟩
      . exact h.roots x hx
    intro o
    have hcount := h.count o
    simp only [allBlocks_cons, blocks_mk, allBlocks_nil, nil_append, count_append]
    omega
  | @onList hmnu call hsubmenu rest items roots e htaken heffect hat =>
    rcases htaken.ok htyped with ⟨hsub, harg, hperm⟩
    have hrest : ∀ x ∈ rest, x.type ≠ .nmlmenu ∧ WellTyped x :=
      fun x hx => h.roots x (hperm.mem_iff.mp (mem_append_right _ hx))
    have hitems := hat.items_ok fun x hx => (hrest x hx).2
    have he : EffectOk s.fresh hsubmenu items e := by
      rw [heffect]
      exact effect_ok hitems hsub harg
    have hnew := h.allocate he.nodup he.number
    refine ⟨?_, hnew.1, hnew.2, ?_⟩
    . intro x hx
      rcases mem_append.mp hx with hx | hx
      . refine ⟨?_, he.unusedOk.2 x hx⟩
        have hmem := @List.mem_map_of_mem _ _ _ _ MenuItem.type hx
        rcases he.unusedOk.1 with hnil | hone
        . rw [hnil] at hmem
          cases hmem
        . rw [hone, mem_singleton] at hmem
          rw [hmem]
          decide
      refine ⟨?_, hat.wellTyped (fun y hy => (hrest y hy).2) he.itemsOk x hx⟩
      have hmem := @List.mem_map_of_mem _ _ _ _ MenuItem.type hx
      rw [hat.types] at hmem
      rcases List.mem_map.mp hmem with ⟨y, hy, heq⟩
      rw [← heq]
      exact (hrest y hy).1
    intro o
    have hcount := h.count o
    have heq := he.count o
    have hmenu := hat.count o
    have hall := count_perm hperm o
    simp only [allBlocks_append, count_append] at hall ⊢
    omega
  | @destroyMenu pre post menu hroots =>
    have hmenu : WellTyped menu := htyped menu (by rw [hroots]; exact mem_append_right _ mem_cons_self)
    refine ⟨?_, h.nodup, h.fresh, ?_⟩
    . intro x hx
      apply h.roots
      rw [hroots]
      rcases mem_append.mp hx with hx | hx
      . exact mem_append_left _ hx
      . exact mem_append_right _ (mem_cons_of_mem _ hx)
    intro o
    have hcount := h.count o
    rw [hroots] at hcount
    simp only [allBlocks_append, allBlocks_cons, count_append] at hcount
    simp only [destroyMenu_eq hmenu, allBlocks_append, count_append]
    omega

theorem initMenus_inv : Inv initMenus :=
  ⟨by simp [initMenus], nodup_nil, by simp [initMenus], by simp [initMenus]⟩

def freedAtEnd (s : MenuState) : List Block :=
  s.roots.flatMap destroyMenu ++ s.freed

theorem freedAtEnd_count (h : Inv s) (o : Block)
    : (freedAtEnd s).count o + s.detached.count o = s.allocated.count o := by
  have hblocks : ∀ menus : List MenuItem, (∀ x ∈ menus, WellTyped x) → menus.flatMap destroyMenu = allBlocks menus := by
    intro menus hmenus
    induction menus with
    | nil => simp
    | cons x menus ih =>
      rw [flatMap_cons, allBlocks_cons, destroyMenu_eq (hmenus x mem_cons_self),
        ih fun y hy => hmenus y (mem_cons_of_mem _ hy)]
  rw [freedAtEnd, hblocks s.roots fun x hx => (h.roots x hx).2, h.count, count_append]
  omega

theorem error_unchanged {s' : MenuState} (h : Inv s) (hstep : Step refOps s call s')
    (hresult : s'.result < 0) : s'.roots.Perm s.roots := by
  cases hstep with
  | createMenu | createPopupMenu _ | destroyMenu _ => exact absurd hresult (lt_irrefl 0)
  | @onList hmnu call hsubmenu rest items roots e htaken heffect hat =>
    rcases htaken.ok fun x hx => (h.roots x hx).2 with ⟨hsub, harg, hperm⟩
    have hitems := hat.items_ok fun x hx => (h.roots x (hperm.mem_iff.mp (mem_append_right _ hx))).2
    have he : EffectOk s.fresh hsubmenu items e := by
      rw [heffect]
      exact effect_ok hitems hsub harg
    rcases he.error hresult with ⟨heq, hunused⟩
    rw [heq] at hat
    rw [hunused, hat.eq]
    exact hperm

/--
The same calls lead to the same menus in the reference, and the lists that they consist of are read back.
-/
theorem menu_runs {s : MenuState} (h : Reachable (Step codeOps) Admitted initMenus s)
    : Reachable (Step refOps) Admitted initMenus s
      ∧ (∀ hmnu items, MenuAt hmnu items items s.roots s.roots → ReadsList items)
      ∧ (∀ call s', Admitted s call → Step codeOps s call s' → s'.result < 0 → s'.roots.Perm s.roots)
      ∧ ∀ o, (freedAtEnd s).count o ≤ 1 ∧ (o ∈ s.allocated → o ∉ s.detached → (freedAtEnd s).count o = 1) := by
  have hboth : Reachable (Step refOps) Admitted initMenus s ∧ Inv s := by
    apply @Reachable.invariant _ _ _ _ _ (fun s => Reachable (Step refOps) Admitted initMenus s ∧ Inv s)
      ⟨Reachable.init, initMenus_inv⟩ _ s h
    rintro s call s' ⟨hreach, hinv⟩ hok hstep
    exact ⟨Reachable.step hreach hok (hstep.ref hok), step_inv hinv (hstep.ref hok)⟩
  refine ⟨hboth.1, fun _ items _ => readsList items, ?_, ?_⟩
  . intro call s' hok hstep
    exact error_unchanged hboth.2 (hstep.ref hok)
  intro o
  have hcount := freedAtEnd_count hboth.2 o
  have hle := nodup_iff_count_le_one.mp hboth.2.nodup o
  constructor
  . omega
  intro hmem hdetached
  have hpos := count_pos_iff.mpr hmem
  have hzero := count_eq_zero.mpr hdetached
  omega

def sampleInfo : MenuItemInfo :=
  ⟨MIIM_TYPE, MFT_STRING, 0, 7, 0, 0, 0, 1, [65#8]⟩

theorem menu_runs_item
    : ∃ s, s.calls = [.onList 1 (.insertMenuItem 0 true sampleInfo none), .createMenu]
      ∧ (freedAtEnd s).count (.string 2) = 1 := by
  have hcreate := Reachable.step Reachable.init (show Admitted initMenus .createMenu from trivial)
    (@Step.createMenu codeOps initMenus)
  have hadmitted : ∀ s, Admitted s (.onList 1 (.insertMenuItem 0 true sampleInfo none)) := by
    intro s items items' hsubmenu rest roots _ _ _
    exact le_refl _
  have hinsert := Reachable.step hcreate (hadmitted _)
    (@Step.onList codeOps _ 1 (.insertMenuItem 0 true sampleInfo none) [] _ [] _ _ Taken.null rfl
      (@MenuAt.here 1 [] _ [] [] .menubar barData (by decide)))
  exact ⟨_, rfl, ((menu_runs hinsert).2.2.2 (.string 2)).2 (by decide) (by decide)⟩

theorem not_menu_runs
    : ¬∀ s, Reachable (Step codeOps) (fun _ _ => True) initMenus s → ∀ o, (freedAtEnd s).count o ≤ 1 := by
  intro h
  have hcreate := Reachable.step (@Reachable.init _ _ _ (fun _ _ => True) _) trivial (@Step.createMenu codeOps initMenus)
  have hinsert := Reachable.step hcreate trivial
    (@Step.onList codeOps _ 1 (.insertMenuItem 0 true sampleInfo none) [] _ [] _ _ Taken.null rfl
      (@MenuAt.here 1 [] _ [] [] .menubar barData (by decide)))
  have hset := Reachable.step hinsert trivial
    (@Step.onList codeOps _ 1 (.setMenuItemInfo 0 true { sampleInfo with typedata := 0 } .null) [] _ _ _ _ Taken.null rfl
      (@MenuAt.here 1 _ _ [] [] .menubar barData (by decide)))
  have hcount := h _ hset (.string 2)
  revert hcount
  decide

end MiniGui.Menu
