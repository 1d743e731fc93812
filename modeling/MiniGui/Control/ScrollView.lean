import MiniGui.Control.ListModel

/-!
The rows of a scroll view (`control/scrollview.c`): where they are measured, hit and drawn.
-/

namespace MiniGui.ScrollView

open List Function ListModel

/-- `closed` is false when a walk over the ring does not come back to the queue. -/
structure SvList where
  list : MgList
  nItemHeight : MgItem → Int
  nTotalItemH : Int
  frozen : Bool
  closed : Bool

def svDefItemHeight : Int := 25

inductive Action where
  | add (itemCmp : Option MgItemCmp) (ci : MgItem) (preitem nextitem : Option MgItem) (nItem height : Int)
  | del (nItem : Int) (hsvi : Option MgItem)
  | move (hsvi : MgItem) (prehsvi : Option MgItem)
  | setItemHeight (hsvi : MgItem) (height : Int)
  | sort (cmp : MgItemCmp)
  | freeze (lock : Bool)
  | resetContent

section Loops

variable (nItemHeight : MgItem → Int)

/-- The loop of `isInItem`: the index, the item and its top. -/
def hitLoop (mouseY : Int) : Int → Int → Option MgItem → List MgItem → Int × Option MgItem × Int
  | h, ret, pci, [] => (ret, pci, h - (pci.map nItemHeight).getD 0)
  | h, ret, _, pci :: rest =>
    if h + nItemHeight pci > mouseY then
      (ret, some pci, h + nItemHeight pci - nItemHeight pci)
    else
      hitLoop mouseY (h + nItemHeight pci) (ret + 1) (some pci) rest

def yposLoop (ci : MgItem) : Int → List MgItem → Int
  | _, [] => -1
  | h, pci :: rest => if pci = ci then h else yposLoop ci (h + nItemHeight pci) rest

/-- The items that `scrollview_draw` draws, with the top and the bottom of their rectangles. -/
def drawLoop (visTop visBottom : Int) : Int → Int → List MgItem → List (MgItem × Int × Int)
  | _, _, [] => []
  | top, h, pci :: rest =>
    let bottom := top + h + nItemHeight pci
    if bottom < visTop then
      drawLoop visTop visBottom (top + h) (nItemHeight pci) rest
    else if top + h > visBottom then
      []
    else if nItemHeight pci > 0 then
      (pci, top + h, bottom) :: drawLoop visTop visBottom (top + h) (nItemHeight pci) rest
    else
      drawLoop visTop visBottom (top + h) (nItemHeight pci) rest

end Loops

namespace SvList

def isInItem (s : SvList) (mouseY : Int) : Option (Int × Option MgItem × Int) :=
  if mouseY < 0 ∨ mouseY ≥ s.nTotalItemH then none else some (hitLoop s.nItemHeight mouseY 0 0 none s.list.queue)

def getItemYpos (s : SvList) (hsvi : MgItem) : Int :=
  yposLoop s.nItemHeight hsvi 0 s.list.queue

/-- `top` is where the content begins in the window. -/
def draw (s : SvList) (top visTop visBottom : Int) : List (MgItem × Int × Int) :=
  drawLoop s.nItemHeight visTop visBottom top 0 s.list.queue

def adjustItemsHeight (s : SvList) (diff : Int) : SvList :=
  { s with nTotalItemH := s.nTotalItemH + diff }

def withQueue (s : SvList) (queue : List MgItem) : SvList :=
  { s with list := { s.list with queue } }

def delItem (s : SvList) (pci : MgItem) : SvList :=
  { s with list := s.list.step (.del pci) }.adjustItemsHeight (-s.nItemHeight pci)

def freeze (s : SvList) (lock : Bool) : SvList :=
  { s with frozen := lock }

def step (s : SvList) : Action → SvList
  | .add itemCmp ci preitem nextitem nItem height =>
    let height := if height ≤ 0 then svDefItemHeight else height
    { s with
      list := s.list.step (.add itemCmp ci preitem nextitem nItem)
      nItemHeight := update s.nItemHeight ci height }.adjustItemsHeight height
  | .del nItem none =>
    match s.list.getItemByIndex nItem with
    | none => s
    | some pci => s.delItem pci
  | .del _ (some hsvi) => s.delItem hsvi
  | .move hsvi none => s.withQueue (s.list.queue.erase hsvi ++ [hsvi])
  | .move hsvi (some prehsvi) =>
    if prehsvi = hsvi then { s with closed := false } else s.withQueue (moveItem s.list.queue hsvi prehsvi)
  | .setItemHeight hsvi height =>
    if height < 0 ∨ height = s.nItemHeight hsvi then
      s
    else
      { s with nItemHeight := update s.nItemHeight hsvi height }.adjustItemsHeight (height - s.nItemHeight hsvi)
  | .sort cmp => { s.freeze true with list := s.list.step (.sort cmp) }.freeze false
  | .freeze lock => s.freeze lock
  | .resetContent =>
    { s with list := s.list.queue.foldl (fun list pci => list.step (.del pci)) s.list, nTotalItemH := 0 }

/-- A row is hit, measured and drawn at one place. -/
structure RowsAgree (s : SvList) : Prop where
  closed : s.closed = true
  total : s.nTotalItemH = (s.list.queue.map s.nItemHeight).sum
  outside : ∀ y, s.isInItem y = none ↔ y < 0 ∨ s.nTotalItemH ≤ y
  hit : ∀ y ret item top, s.isInItem y = some (ret, item, top) → ∃ pci, item = some pci
    ∧ s.list.getItemByIndex ret = some pci ∧ top = s.getItemYpos pci ∧ top ≤ y ∧ y < top + s.nItemHeight pci
    ∧ ∀ other ∈ s.list.queue, s.getItemYpos other ≤ y → y < s.getItemYpos other + s.nItemHeight other → other = pci
  drawn : ∀ top visTop visBottom, ∀ row ∈ s.draw top visTop visBottom, row.1 ∈ s.list.queue
    ∧ row.2.1 = top + s.getItemYpos row.1 ∧ row.2.2 = row.2.1 + s.nItemHeight row.1

/-- New items are not in the view yet, and the items that are named are. -/
def Valid (s : SvList) : Action → Prop
  | .add itemCmp ci preitem nextitem nItem _ => s.list.Valid (.add itemCmp ci preitem nextitem nItem)
  | .del _ hsvi => ∀ pci, hsvi = some pci → pci ∈ s.list.queue
  | .move hsvi prehsvi => hsvi ∈ s.list.queue ∧ ∀ pre, prehsvi = some pre → pre ∈ s.list.queue
  | .setItemHeight hsvi _ => hsvi ∈ s.list.queue
  | _ => True

/-- No item is put before itself. -/
def MoveOk : Action → Prop
  | .move hsvi prehsvi => prehsvi ≠ some hsvi
  | _ => True

def ValidRun (s : SvList) : List Action → Prop
  | [] => True
  | a :: actions => s.Valid a ∧ ValidRun (s.step a) actions

def AgreeRun (s : SvList) : List Action → Prop
  | [] => s.RowsAgree
  | a :: actions => s.RowsAgree ∧ AgreeRun (s.step a) actions

end SvList

section Rows

variable {nItemHeight : MgItem → Int} {queue front back : List MgItem} {pci : MgItem}

theorem hitLoop_spec {y : Int} (h ret : Int) (p : Option MgItem) (hy : h ≤ y)
    (hlt : y < h + (queue.map nItemHeight).sum)
    : ∃ front pci back, queue = front ++ pci :: back
      ∧ hitLoop nItemHeight y h ret p queue = (ret + front.length, some pci, h + (front.map nItemHeight).sum)
      ∧ h + (front.map nItemHeight).sum ≤ y ∧ y < h + (front.map nItemHeight).sum + nItemHeight pci := by
  induction queue generalizing h ret p with
  | nil =>
    simp at hlt
    omega
  | cons pci rest ih =>
    rw [hitLoop]
    split
    . next hover => exact ⟨[], pci, rest, rfl, by simp, by simpa using hy, by simpa using hover⟩
    next hover =>
      rw [map_cons, sum_cons] at hlt
      obtain ⟨front, item, back, rfl, hloop, hle, hgt⟩ :=
        ih (h + nItemHeight pci) (ret + 1) (some pci) (by omega) (by omega)
      refine ⟨pci :: front, item, back, rfl, ?_, ?_, ?_⟩
      . rw [hloop, map_cons, sum_cons, length_cons]
        simp only [Prod.mk.injEq, true_and]
        omega
      . rw [map_cons, sum_cons]
        omega
      . rw [map_cons, sum_cons]
        omega

theorem yposLoop_append (h : Int) (hpci : pci ∉ front)
    : yposLoop nItemHeight pci h (front ++ pci :: back) = h + (front.map nItemHeight).sum := by
  induction front generalizing h with
  | nil => simp [yposLoop]
  | cons item front ih =>
    rw [mem_cons, not_or] at hpci
    rw [cons_append, yposLoop, if_neg (Ne.symm hpci.1), ih _ hpci.2, map_cons, sum_cons]
    omega

theorem drawLoop_spec {visTop visBottom : Int} (top h : Int)
    : ∀ row ∈ drawLoop nItemHeight visTop visBottom top h queue, ∃ front back, queue = front ++ row.1 :: back
      ∧ row.2.1 = top + h + (front.map nItemHeight).sum ∧ row.2.2 = row.2.1 + nItemHeight row.1 := by
  induction queue generalizing top h with
  | nil => simp [drawLoop]
  | cons pci rest ih =>
    intro row hrow
    have hrest (hmem : row ∈ drawLoop nItemHeight visTop visBottom (top + h) (nItemHeight pci) rest)
        : ∃ front back, pci :: rest = front ++ row.1 :: back
          ∧ row.2.1 = top + h + (front.map nItemHeight).sum ∧ row.2.2 = row.2.1 + nItemHeight row.1 := by
      obtain ⟨front, back, heq, htop, hbottom⟩ := ih _ _ row hmem
      refine ⟨pci :: front, back, by rw [heq, cons_append], ?_, hbottom⟩
      rw [map_cons, sum_cons]
      omega
    rw [drawLoop] at hrow
    split_ifs at hrow with habove hbelow hpos
    . exact hrest hrow
    . cases hrow
    . rcases mem_cons.mp hrow with rfl | hrow
      . exact ⟨[], rest, rfl, by simp, rfl⟩
      . exact hrest hrow
    . exact hrest hrow

theorem sum_erase (h : pci ∈ queue)
    : ((queue.erase pci).map nItemHeight).sum = (queue.map nItemHeight).sum - nItemHeight pci := by
  rw [((perm_cons_erase h).map nItemHeight).sum_eq, map_cons, sum_cons]
  omega

theorem sum_update (h : pci ∉ queue) (height : Int)
    : (queue.map (update nItemHeight pci height)).sum = (queue.map nItemHeight).sum := by
  congr 1
  exact map_congr_left fun item hitem => update_of_ne (ne_of_mem_of_not_mem hitem h) _ _

theorem update_nonneg {item : MgItem} {height : Int} (hheight : 0 ≤ height) (hitem : item ≠ pci → 0 ≤ nItemHeight item)
    : 0 ≤ update nItemHeight pci height item := by
  by_cases heq : item = pci
  . rw [heq, update_self]
    exact hheight
  . rw [update_of_ne heq]
    exact hitem heq

end Rows

namespace SvList

variable {s : SvList}

structure Inv (s : SvList) : Prop where
  closed : s.closed = true
  nodup : s.list.queue.Nodup
  total : s.nTotalItemH = (s.list.queue.map s.nItemHeight).sum
  nonneg : ∀ pci ∈ s.list.queue, 0 ≤ s.nItemHeight pci

theorem Inv.sum_nonneg (h : s.Inv) {part : List MgItem} (hpart : ∀ pci ∈ part, pci ∈ s.list.queue)
    : 0 ≤ (part.map s.nItemHeight).sum := by
  apply List.sum_nonneg
  intro x hx
  obtain ⟨pci, hmem, rfl⟩ := mem_map.mp hx
  exact h.nonneg pci (hpart pci hmem)

theorem Inv.ypos (h : s.Inv) {front back : List MgItem} {pci : MgItem} (hqueue : s.list.queue = front ++ pci :: back)
    : s.getItemYpos pci = (front.map s.nItemHeight).sum := by
  have hnodup := h.nodup
  rw [hqueue, nodup_append] at hnodup
  rw [getItemYpos, hqueue, yposLoop_append 0 fun hmem => hnodup.2.2 pci hmem pci mem_cons_self rfl, Int.zero_add]

theorem Inv.rowsAgree (h : s.Inv) : s.RowsAgree := by
  refine ⟨h.closed, h.total, ?_, ?_, ?_⟩
  . intro y
    unfold isInItem
    split_ifs with hout
    . exact iff_of_true rfl hout
    . exact iff_of_false not_false hout
  . intro y ret item top hhit
    unfold isInItem at hhit
    split_ifs at hhit with hout
    rw [not_or] at hout
    obtain ⟨front, pci, back, hqueue, hloop, hle, hlt⟩ :=
      @hitLoop_spec s.nItemHeight s.list.queue y 0 0 none (show 0 ≤ y by omega)
        (by rw [← h.total]; omega)
    rw [hloop, Option.some.injEq, Prod.mk.injEq, Prod.mk.injEq] at hhit
    obtain ⟨rfl, rfl, rfl⟩ := hhit
    have hypos := h.ypos hqueue
    refine ⟨pci, rfl, ?_, by omega, hle, hlt, ?_⟩
    . simp [MgList.getItemByIndex, hqueue]
    intro other hother hat hbefore
    rw [hqueue, mem_append, mem_cons] at hother
    rcases hother with hother | rfl | hother
    . obtain ⟨before, after, rfl⟩ := append_of_mem hother
      rw [@Inv.ypos s h before (after ++ pci :: back) other (by rw [hqueue]; simp)] at hbefore
      rw [map_append, map_cons, sum_append, sum_cons] at hle
      have := @Inv.sum_nonneg s h after fun item hitem => by rw [hqueue]; simp [hitem]
      omega
    . rfl
    obtain ⟨before, after, rfl⟩ := append_of_mem hother
    rw [@Inv.ypos s h (front ++ pci :: before) after other (by rw [hqueue]; simp)] at hat
    rw [map_append, map_cons, sum_append, sum_cons] at hat
    have := @Inv.sum_nonneg s h before fun item hitem => by rw [hqueue]; simp [hitem]
    omega
  intro top visTop visBottom row hrow
  obtain ⟨front, back, hqueue, htop, hbottom⟩ := drawLoop_spec top 0 row hrow
  refine ⟨by rw [hqueue]; simp, ?_, hbottom⟩
  rw [h.ypos hqueue]
  omega

theorem Inv.of_perm (h : s.Inv) {list : MgList} (hperm : list.queue.Perm s.list.queue) {frozen : Bool}
    : Inv { s with list, frozen } :=
  ⟨h.closed, hperm.nodup_iff.mpr h.nodup, h.total.trans (hperm.map _).sum_eq.symm,
    fun pci hmem => h.nonneg pci (hperm.mem_iff.mp hmem)⟩

theorem Inv.delItem (h : s.Inv) {pci : MgItem} (hmem : pci ∈ s.list.queue) : (s.delItem pci).Inv := by
  refine ⟨h.closed, h.nodup.erase pci, ?_, fun item hitem => h.nonneg item (mem_of_mem_erase hitem)⟩
  have hsum := @sum_erase s.nItemHeight _ _ hmem
  rw [← h.total] at hsum
  exact hsum.symm

theorem foldl_del (list : MgList) (items : List MgItem)
    : (items.foldl (fun list pci => list.step (.del pci)) list).queue = items.foldl List.erase list.queue := by
  induction items generalizing list with
  | nil => rfl
  | cons pci items ih => exact ih _

theorem foldl_erase (items : List MgItem) : items.foldl List.erase items = [] := by
  induction items with
  | nil => rfl
  | cons pci items ih => rwa [foldl_cons, erase_cons_head]

theorem Inv.step (h : s.Inv) {a : Action} (hvalid : s.Valid a) (hok : MoveOk a) : (s.step a).Inv := by
  cases a with
  | add itemCmp ci preitem nextitem nItem height =>
    have hperm := MgList.insertAt_perm s.list.queue (addPos s.list.queue itemCmp ci preitem nextitem nItem).1 ci
    have hheight : 0 ≤ if height ≤ 0 then svDefItemHeight else height := by
      unfold svDefItemHeight
      split <;> omega
    have hsum := @sum_update s.nItemHeight _ _ hvalid.1 (if height ≤ 0 then svDefItemHeight else height)
    refine ⟨h.closed, hperm.nodup_iff.mpr (nodup_cons.mpr ⟨hvalid.1, h.nodup⟩), ?_, ?_⟩
    . refine Eq.trans ?_ (hperm.map _).sum_eq.symm
      refine Eq.trans ?_ (congrArg₂ (· + ·) (update_self ..) hsum).symm
      rw [← h.total]
      exact Int.add_comm _ _
    . intro item hitem
      exact update_nonneg hheight fun hne => h.nonneg item ((mem_cons.mp (hperm.mem_iff.mp hitem)).resolve_left hne)
  | del nItem hsvi =>
    cases hsvi with
    | none =>
      simp only [SvList.step]
      cases hget : s.list.getItemByIndex nItem with
      | none => exact h
      | some pci =>
        unfold MgList.getItemByIndex at hget
        split at hget
        . cases hget
        . exact h.delItem (mem_of_getElem? hget)
    | some hsvi => exact h.delItem (hvalid hsvi rfl)
  | move hsvi prehsvi =>
    have hperm := (perm_cons_erase hvalid.1).symm
    cases prehsvi with
    | none => exact h.of_perm ((perm_append_singleton _ _).trans hperm)
    | some prehsvi =>
      simp only [SvList.step]
      rw [if_neg fun heq => hok (congrArg some heq)]
      exact h.of_perm ((MgList.insertAt_perm _ _ _).trans hperm)
  | setItemHeight hsvi height =>
    simp only [SvList.step]
    split
    . exact h
    next hheight =>
      rw [not_or] at hheight
      have hsum := (@sum_update s.nItemHeight _ _ h.nodup.not_mem_erase height).trans (sum_erase hvalid)
      rw [← h.total] at hsum
      refine ⟨h.closed, h.nodup, ?_, fun item hitem =>
        update_nonneg (Int.not_lt.mp hheight.1) fun _ => h.nonneg item hitem⟩
      refine Eq.trans ?_ ((perm_cons_erase hvalid).map _).sum_eq.symm
      refine Eq.trans ?_ (congrArg₂ (· + ·) (update_self ..) hsum).symm
      change s.nTotalItemH + (height - s.nItemHeight hsvi) = height + (s.nTotalItemH - s.nItemHeight hsvi)
      omega
  | sort cmp =>
    obtain ⟨sorted, hrun, hperm, -⟩ := MgList.sorts_of_nodup h.nodup cmp
    simp only [SvList.step, MgList.step, hrun _ (Nat.lt_succ_self _), Option.getD_some]
    exact h.of_perm hperm
  | freeze lock => exact h.of_perm (Perm.refl _)
  | resetContent =>
    have hnil : (s.step .resetContent).list.queue = [] := (foldl_del _ _).trans (foldl_erase _)
    refine ⟨h.closed, ?_, ?_, ?_⟩
    . rw [hnil]
      exact nodup_nil
    . rw [hnil]
      rfl
    . rw [hnil]
      intro pci hmem
      cases hmem

theorem not_closed {a : Action} (hok : ¬MoveOk a) : (s.step a).closed = false := by
  cases a with
  | move hsvi prehsvi =>
    cases not_not.mp hok
    simp only [SvList.step, if_true]
  | _ => exact absurd trivial hok

theorem agreeRun_iff (h : s.Inv) (actions : List Action) (hvalid : s.ValidRun actions)
    : s.AgreeRun actions ↔ ∀ a ∈ actions, MoveOk a := by
  induction actions generalizing s with
  | nil => exact iff_of_true h.rowsAgree (by simp)
  | cons a actions ih =>
    rw [forall_mem_cons, AgreeRun, and_iff_right h.rowsAgree]
    by_cases hok : MoveOk a
    . rw [ih (h.step hvalid.1 hok) hvalid.2, and_iff_right hok]
    refine iff_of_false ?_ (fun hall => hok hall.1)
    intro hrun
    have hagree : (s.step a).RowsAgree := by
      cases actions with
      | nil => exact hrun
      | cons b rest => exact hrun.1
    exact absurd (hagree.closed.symm.trans (not_closed hok)) (by decide)

/-- The view of `svlist_init`. -/
def start : SvList :=
  { list := MgList.start, nItemHeight := fun _ => 0, nTotalItemH := 0, frozen := false, closed := true }

end SvList

end MiniGui.ScrollView
