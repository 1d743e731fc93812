import Mathlib

/-!
The list that the scroll view and the icon view keep their items in (`control/listmodel.c`). The ring of the items is
the list of its nodes from the first on, and a cursor that has come back to the queue itself is `none`.
-/

namespace MiniGui.ListModel

open List

abbrev MgItem := Nat

abbrev MgItemCmp := MgItem → MgItem → Int

structure MgList where
  queue : List MgItem
  selQueue : List MgItem
  nItemNr : Int
  hilighted : Option MgItem

section Ring

variable (queue : List MgItem)

def nextOf (me : MgItem) : Option MgItem :=
  (queue.drop (queue.idxOf me + 1)).head?

def prevOf (me : MgItem) : Option MgItem :=
  (queue.take (queue.idxOf me)).getLast?

def insertAt (i : Nat) (ci : MgItem) : List MgItem :=
  queue.take i ++ ci :: queue.drop i

/-- Where an item is put, and the index that the branch of `mglist_add_item` returns. -/
def addPos (itemCmp : Option MgItemCmp) (ci : MgItem) (preitem nextitem : Option MgItem) (nItem : Int) : Nat × Int :=
  match itemCmp, preitem, nextitem with
  | some cmp, _, _ =>
    let i := queue.findIdx (fun pci => cmp ci pci < 0)
    (i, i)
  | none, some pre, _ => (queue.idxOf pre + 1, -1)
  | none, none, some next => (queue.idxOf next, -1)
  | none, none, none =>
    if nItem ≥ 0 then
      let i := min nItem.toNat queue.length
      (i, i)
    else
      (queue.length, -1)

def moveItem (pci pre : MgItem) : List MgItem :=
  let rest := queue.erase pci
  insertAt rest (rest.idxOf pre) pci

end Ring

/-- The outer loop of `mglstSortItems`, with a bound on its rounds. -/
def sortLoop (cmp : MgItemCmp) : Nat → List MgItem → Option MgItem → Option (List MgItem)
  | 0, _, _ => none
  | _ + 1, queue, none => some queue
  | rounds + 1, queue, some pci =>
    match (queue.takeWhile (· ≠ pci)).find? (fun pci2 => cmp pci pci2 < 0) with
    | none => sortLoop cmp rounds queue (nextOf queue pci)
    | some pci2 =>
      let me := prevOf queue pci
      let queue := moveItem queue pci pci2
      sortLoop cmp rounds queue (match me with
        | none => queue.head?
        | some me => nextOf queue me)

def sortItems (cmp : MgItemCmp) (rounds : Nat) (queue : List MgItem) : Option (List MgItem) :=
  sortLoop cmp rounds queue queue.head?

inductive Action where
  | add (itemCmp : Option MgItemCmp) (ci : MgItem) (preitem nextitem : Option MgItem) (nItem : Int)
  | del (pci : MgItem)
  | hilight (hitem : MgItem)
  | select (pci : MgItem) (bSel : Bool)
  | sort (cmp : MgItemCmp)

namespace MgList

def selectItem (s : MgList) (pci : MgItem) (bSel : Bool) : MgList :=
  if bSel then
    if pci ∈ s.selQueue then s else { s with selQueue := s.selQueue ++ [pci] }
  else
    { s with selQueue := s.selQueue.erase pci }

def step (s : MgList) : Action → MgList
  | .add itemCmp ci preitem nextitem nItem =>
    { s with
      queue := insertAt s.queue (addPos s.queue itemCmp ci preitem nextitem nItem).1 ci
      nItemNr := s.nItemNr + 1 }
  | .del pci =>
    { queue := s.queue.erase pci
      selQueue := s.selQueue.erase pci
      nItemNr := s.nItemNr - 1
      hilighted := if s.hilighted = some pci then none else s.hilighted }
  | .hilight hitem => { s with hilighted := some hitem }.selectItem hitem true
  | .select pci bSel => s.selectItem pci bSel
  | .sort cmp => { s with queue := (sortItems cmp (s.queue.length + 1) s.queue).getD s.queue }

/-- The index that `mglist_add_item` reports. -/
def addIndex (s : MgList) (itemCmp : Option MgItemCmp) (ci : MgItem) (preitem nextitem : Option MgItem) (nItem : Int)
    : Int :=
  let ret := (addPos s.queue itemCmp ci preitem nextitem nItem).2
  if ret < 0 then s.nItemNr else ret

end MgList

/-- A comparison by which any two items can be ordered. -/
structure TotalPreorder (cmp : MgItemCmp) : Prop where
  flip : ∀ a b, cmp a b < 0 ↔ 0 < cmp b a
  trans : ∀ a b c, cmp a b ≤ 0 → cmp b c ≤ 0 → cmp a c ≤ 0

/-- `a` comes before `b` in a stable order. -/
def Precedes (cmp : MgItemCmp) (before : MgItem → MgItem → Prop) (a b : MgItem) : Prop :=
  cmp a b < 0 ∨ cmp a b ≤ 0 ∧ before a b

section Sorting

variable {cmp : MgItemCmp} {before : MgItem → MgItem → Prop} {done rest front back : List MgItem} {pci pci2 : MgItem}

theorem nextOf_append (h : pci ∉ front) : nextOf (front ++ pci :: back) pci = back.head? := by
  rw [nextOf, idxOf_append_of_notMem h, idxOf_cons_self, Nat.add_zero]
  simp

theorem prevOf_append (h : pci ∉ front) : prevOf (front ++ pci :: back) pci = front.getLast? := by
  rw [prevOf, idxOf_append_of_notMem h, idxOf_cons_self, Nat.add_zero]
  simp

theorem moveItem_append (hpci : pci ∉ front ++ pci2 :: back) (hpci2 : pci2 ∉ front)
    : moveItem (front ++ pci2 :: back ++ pci :: rest) pci pci2 = front ++ pci :: pci2 :: back ++ rest := by
  rw [moveItem, erase_append_right _ hpci, erase_cons_head, insertAt, append_assoc, cons_append,
    idxOf_append_of_notMem hpci2, idxOf_cons_self, Nat.add_zero]
  simp

theorem precedes_insert (hcmp : TotalPreorder cmp) (hsorted : (front ++ pci2 :: back).Pairwise (Precedes cmp before))
    (hfront : ∀ a ∈ front, ¬cmp pci a < 0 ∧ before a pci) (hlt : cmp pci pci2 < 0)
    : (front ++ pci :: pci2 :: back).Pairwise (Precedes cmp before) := by
  rw [pairwise_append, pairwise_cons] at hsorted ⊢
  obtain ⟨hf, ⟨hback, hb⟩, hcross⟩ := hsorted
  refine ⟨hf, ⟨?_, pairwise_cons.mpr ⟨hback, hb⟩⟩, ?_⟩
  . intro w hw
    left
    rcases mem_cons.mp hw with rfl | hw
    . exact hlt
    by_contra hnot
    have hle : cmp pci2 w ≤ 0 := by
      rcases hback w hw with h | h
      . omega
      . exact h.1
    have hwp : cmp w pci ≤ 0 := by
      have := hcmp.flip pci w
      omega
    have htrans := hcmp.trans pci2 w pci hle hwp
    have := hcmp.flip pci pci2
    omega
  intro a ha w hw
  rcases mem_cons.mp hw with rfl | hw
  . obtain ⟨hnot, hbefore⟩ := hfront a ha
    right
    have := hcmp.flip w a
    exact ⟨by omega, hbefore⟩
  . exact hcross a ha w hw

/-- Each round puts the first of the rest into the part that is done, and goes on with the next. -/
theorem sortLoop_spec (hnodup : (done ++ rest).Nodup)
    : ∃ sorted, (∀ rounds, rest.length < rounds → sortLoop cmp rounds (done ++ rest) rest.head? = some sorted)
        ∧ sorted.Perm (done ++ rest)
        ∧ (TotalPreorder cmp → done.Pairwise (Precedes cmp before) → (∀ a ∈ done, ∀ b ∈ rest, before a b) →
            rest.Pairwise before → sorted.Pairwise (Precedes cmp before)) := by
  induction rest generalizing done with
  | nil =>
    refine ⟨done ++ [], ?_, Perm.refl _, by simp⟩
    intro rounds hrounds
    obtain ⟨k, rfl⟩ := Nat.exists_eq_succ_of_ne_zero (Nat.ne_of_gt hrounds)
    rfl
  | cons pci rest ih =>
    have hpci : pci ∉ done := by
      rw [nodup_append] at hnodup
      exact fun hmem => hnodup.2.2 pci hmem pci mem_cons_self rfl
    have htake : (done ++ pci :: rest).takeWhile (· ≠ pci) = done := by
      rw [takeWhile_append_of_pos (by simpa using fun a ha => ne_of_mem_of_not_mem ha hpci)]
      simp
    cases hfind : done.find? (fun pci2 => cmp pci pci2 < 0) with
    | none =>
      obtain ⟨sorted, hrun, hperm, hsorted⟩ := @ih (done ++ [pci]) (by simpa using hnodup)
      rw [append_assoc, singleton_append] at hrun hperm
      refine ⟨sorted, ?_, hperm, ?_⟩
      . intro rounds hrounds
        obtain ⟨k, rfl⟩ := Nat.exists_eq_succ_of_ne_zero (Nat.ne_of_gt (Nat.zero_lt_of_lt hrounds))
        rw [head?_cons, sortLoop, htake, hfind]
        rw [nextOf_append hpci]
        exact hrun k (by simpa using hrounds)
      intro hcmp hdone hcross hrest
      rw [pairwise_cons] at hrest
      simp only [find?_eq_none, decide_eq_true_eq] at hfind
      refine hsorted hcmp (pairwise_append.mpr ⟨hdone, pairwise_singleton _ _, ?_⟩) ?_ hrest.2
      . intro a ha b hb
        rw [mem_singleton.mp hb]
        right
        have := hcmp.flip pci a
        exact ⟨by have := hfind a ha; omega, hcross a ha pci mem_cons_self⟩
      intro a ha b hb
      rcases mem_append.mp ha with ha | ha
      . exact hcross a ha b (mem_cons_of_mem _ hb)
      . rw [mem_singleton.mp ha]
        exact hrest.1 b hb
    | some pci2 =>
      obtain ⟨hlt, front, back, rfl, hfront⟩ := find?_eq_some_iff_append.mp hfind
      rw [decide_eq_true_eq] at hlt
      have hmoved : (front ++ pci :: pci2 :: back ++ rest).Perm (front ++ pci2 :: back ++ pci :: rest) := by
        simpa using (@perm_middle _ pci (pci2 :: back) rest).symm.append_left front
      obtain ⟨sorted, hrun, hperm, hsorted⟩ := @ih (front ++ pci :: pci2 :: back) (hmoved.nodup_iff.mpr hnodup)
      refine ⟨sorted, ?_, hperm.trans hmoved, ?_⟩
      . intro rounds hrounds
        obtain ⟨k, rfl⟩ := Nat.exists_eq_succ_of_ne_zero (Nat.ne_of_gt (Nat.zero_lt_of_lt hrounds))
        have hpci2 : pci2 ∉ front := by
          have hdone := (nodup_append.mp hnodup).1
          rw [nodup_append] at hdone
          exact fun hmem => hdone.2.2 pci2 hmem pci2 mem_cons_self rfl
        have hnext := hmoved.nodup_iff.mpr hnodup
        obtain ⟨c, me, hlast⟩ := (eq_nil_or_concat (pci2 :: back)).resolve_left (cons_ne_nil _ _)
        rw [concat_eq_append] at hlast
        rw [head?_cons, sortLoop, htake, hfind]
        dsimp only
        rw [prevOf_append hpci, moveItem_append hpci hpci2]
        rw [hlast] at hrun hnext ⊢
        rw [getLast?_append, getLast?_concat, Option.some_or]
        have hsplit : front ++ pci :: (c ++ [me]) ++ rest = (front ++ pci :: c) ++ me :: rest := by simp
        rw [hsplit] at hrun hnext ⊢
        dsimp only
        rw [nextOf_append (fun hmem => (nodup_append.mp hnext).2.2 me hmem me mem_cons_self rfl)]
        exact hrun k (by simpa using hrounds)
      intro hcmp hdone hcross hrest
      rw [pairwise_cons] at hrest
      refine hsorted hcmp (precedes_insert hcmp hdone ?_ hlt) ?_ hrest.2
      . intro a ha
        have hnot := hfront a ha
        rw [Bool.not_eq_true', decide_eq_false_iff_not] at hnot
        exact ⟨hnot, hcross a (mem_append_left _ ha) pci mem_cons_self⟩
      intro a ha b hb
      have hor : a = pci ∨ a ∈ front ++ pci2 :: back := by
        simp only [mem_append, mem_cons] at ha ⊢
        tauto
      rcases hor with rfl | ha
      . exact hrest.1 b hb
      . exact hcross a ha b (mem_cons_of_mem _ hb)

end Sorting

namespace MgList

/-- New items are not in the list yet, and the items that are named are. -/
def Valid (s : MgList) : Action → Prop
  | .add _ ci preitem nextitem _ => ci ∉ s.queue ∧ (∀ p, preitem = some p ∨ nextitem = some p → p ∈ s.queue)
  | .del pci | .hilight pci | .select pci _ => pci ∈ s.queue
  | .sort _ => True

/-- What always holds of a list, with the stable order that the items are put into by a comparison. -/
structure ListOk (s : MgList) : Prop where
  nodup : s.queue.Nodup
  count : s.nItemNr = s.queue.length
  hilighted : ∀ hitem, s.hilighted = some hitem → hitem ∈ s.queue
  selected : s.selQueue.Nodup ∧ ∀ pci ∈ s.selQueue, pci ∈ s.queue
  sorts : ∀ cmp, ∃ sorted, (∀ rounds, s.queue.length < rounds → sortItems cmp rounds s.queue = some sorted)
    ∧ sorted.Perm s.queue
    ∧ (TotalPreorder cmp → sorted.Pairwise (Precedes cmp fun a b => [a, b] <+ s.queue))

def getItemByIndex (s : MgList) (index : Int) : Option MgItem :=
  if index < 0 then none else s.queue[index.toNat]?

def IndexOk (s : MgList) : Action → Prop
  | .add itemCmp ci preitem nextitem nItem =>
    (s.step (.add itemCmp ci preitem nextitem nItem)).getItemByIndex (s.addIndex itemCmp ci preitem nextitem nItem)
      = some ci
  | _ => True

/-- A neighbour is given only with automatic sorting, or to put an item after the last one. -/
def NeighbourOk (s : MgList) : Action → Prop
  | .add none _ (some pre) _ _ => s.queue.getLast? = some pre
  | .add none _ none (some _) _ => False
  | _ => True

def ValidRun (s : MgList) : List Action → Prop
  | [] => True
  | a :: actions => s.Valid a ∧ ValidRun (s.step a) actions

def OkRun (s : MgList) : List Action → Prop
  | [] => s.ListOk
  | a :: actions => s.ListOk ∧ s.IndexOk a ∧ OkRun (s.step a) actions

def NeighboursOk (s : MgList) : List Action → Prop
  | [] => True
  | a :: actions => s.NeighbourOk a ∧ NeighboursOk (s.step a) actions

variable {s : MgList}

theorem sorts_of_nodup {queue : List MgItem} (h : queue.Nodup) (cmp : MgItemCmp)
    : ∃ sorted, (∀ rounds, queue.length < rounds → sortItems cmp rounds queue = some sorted) ∧ sorted.Perm queue
        ∧ (TotalPreorder cmp → sorted.Pairwise (Precedes cmp fun a b => [a, b] <+ queue)) := by
  obtain ⟨sorted, hrun, hperm, hsorted⟩ :=
    @sortLoop_spec cmp (fun a b => [a, b] <+ queue) [] queue h
  exact ⟨sorted, hrun, hperm, fun hcmp => hsorted hcmp Pairwise.nil (fun _ ha => absurd ha not_mem_nil)
    (pairwise_iff_forall_sublist.mpr id)⟩

theorem insertAt_perm (queue : List MgItem) (i : Nat) (ci : MgItem) : (insertAt queue i ci).Perm (ci :: queue) := by
  refine perm_middle.trans (Perm.cons ci ?_)
  rw [take_append_drop]

theorem ListOk.of_perm (h : s.ListOk) {queue selQueue : List MgItem} (hperm : queue.Perm s.queue)
    (hsel : selQueue.Nodup ∧ ∀ pci ∈ selQueue, pci ∈ s.queue) {hilighted : Option MgItem}
    (hhi : ∀ hitem, hilighted = some hitem → hitem ∈ s.queue)
    : ListOk { queue, selQueue, nItemNr := s.nItemNr, hilighted } := by
  have hnodup := hperm.nodup_iff.mpr h.nodup
  refine ⟨hnodup, ?_, ?_, ⟨hsel.1, ?_⟩, sorts_of_nodup hnodup⟩
  . rw [h.count, hperm.length_eq]
  . exact fun hitem heq => hperm.mem_iff.mpr (hhi hitem heq)
  . exact fun pci hmem => hperm.mem_iff.mpr (hsel.2 pci hmem)

theorem ListOk.selectItem (h : s.ListOk) {pci : MgItem} (hmem : pci ∈ s.queue) (bSel : Bool)
    : (s.selectItem pci bSel).ListOk := by
  unfold MgList.selectItem
  split_ifs with hsel hin
  . exact h
  . refine h.of_perm (Perm.refl _) ⟨nodup_append.mpr ⟨h.selected.1, nodup_singleton _, ?_⟩, ?_⟩ h.hilighted
    . exact fun item hitem other hother heq => hin (mem_singleton.mp hother ▸ heq ▸ hitem)
    intro item hitem
    rcases mem_append.mp hitem with hitem | hitem
    . exact h.selected.2 item hitem
    . exact mem_singleton.mp hitem ▸ hmem
  . exact h.of_perm (Perm.refl _) ⟨h.selected.1.erase pci, fun item hitem => h.selected.2 item (mem_of_mem_erase hitem)⟩
      h.hilighted

theorem ListOk.step (h : s.ListOk) (a : Action) (hvalid : s.Valid a) : (s.step a).ListOk := by
  cases a with
  | add itemCmp ci preitem nextitem nItem =>
    have hperm := insertAt_perm s.queue (addPos s.queue itemCmp ci preitem nextitem nItem).1 ci
    have hnodup := hperm.nodup_iff.mpr (nodup_cons.mpr ⟨hvalid.1, h.nodup⟩)
    refine ⟨hnodup, ?_, ?_, ⟨h.selected.1, ?_⟩, sorts_of_nodup hnodup⟩
    . simp [MgList.step, h.count, hperm.length_eq]
    . exact fun hitem heq => hperm.mem_iff.mpr (mem_cons_of_mem _ (h.hilighted hitem heq))
    . exact fun pci hmem => hperm.mem_iff.mpr (mem_cons_of_mem _ (h.selected.2 pci hmem))
  | del pci =>
    have hnodup := h.nodup.erase pci
    refine ⟨hnodup, ?_, ?_, ⟨h.selected.1.erase pci, ?_⟩, sorts_of_nodup hnodup⟩
    . have hpos := length_pos_of_mem hvalid
      simp only [MgList.step, h.count, length_erase_of_mem hvalid]
      omega
    . intro hitem heq
      simp only [MgList.step] at heq ⊢
      split_ifs at heq with hsame
      rw [h.nodup.mem_erase_iff]
      exact ⟨fun hand => hsame (hand ▸ heq), h.hilighted hitem heq⟩
    . intro item hmem
      replace hmem := h.selected.1.mem_erase_iff.mp hmem
      exact (h.nodup.mem_erase_iff).mpr ⟨hmem.1, h.selected.2 item hmem.2⟩
  | hilight hitem =>
    have hnew : ListOk { s with hilighted := some hitem } :=
      h.of_perm (Perm.refl _) h.selected (fun item heq => Option.some.inj heq ▸ hvalid)
    exact hnew.selectItem hvalid true
  | select pci bSel => exact h.selectItem hvalid bSel
  | sort cmp =>
    obtain ⟨sorted, hrun, hperm, -⟩ := h.sorts cmp
    simp only [MgList.step, hrun _ (Nat.lt_succ_self _), Option.getD_some]
    exact h.of_perm hperm h.selected h.hilighted

theorem insertAt_self {queue : List MgItem} {i : Nat} (h : i ≤ queue.length) (ci : MgItem)
    : (insertAt queue i ci)[i]? = some ci := by
  simp [insertAt, h]

theorem insertAt_last {queue : List MgItem} {i : Nat} {ci : MgItem} (hi : i ≤ queue.length) (hci : ci ∉ queue)
    : (insertAt queue i ci)[queue.length]? = some ci ↔ i = queue.length := by
  constructor
  . intro hget
    by_contra hne
    rw [insertAt, getElem?_append_right (by simp), length_take_of_le hi, getElem?_cons, if_neg (by omega)] at hget
    exact hci (mem_of_mem_drop (mem_of_getElem? hget))
  . intro heq
    rw [← heq]
    exact insertAt_self hi ci

theorem idxOf_last_iff {queue : List MgItem} (hnodup : queue.Nodup) {pre : MgItem} (hpre : pre ∈ queue)
    : queue.idxOf pre + 1 = queue.length ↔ queue.getLast? = some pre := by
  obtain ⟨front, back, rfl⟩ := append_of_mem hpre
  have hnot : pre ∉ front := fun hmem => (nodup_append.mp hnodup).2.2 pre hmem pre mem_cons_self rfl
  rw [idxOf_append_of_notMem hnot, idxOf_cons_self, length_append, length_cons]
  cases hback : back.getLast? with
  | none =>
    rw [getLast?_eq_none_iff.mp hback]
    simp
  | some last =>
    have hmem := mem_of_getLast? hback
    have hne : last ≠ pre := by
      rintro rfl
      exact (nodup_cons.mp (nodup_append.mp hnodup).2.1).1 hmem
    have := length_pos_of_mem hmem
    rw [getLast?_append, getLast?_cons, hback]
    exact iff_of_false (by omega) (by simpa using hne)

theorem index_iff (h : s.ListOk) {a : Action} (hvalid : s.Valid a) : s.IndexOk a ↔ s.NeighbourOk a := by
  cases a with
  | add itemCmp ci preitem nextitem nItem =>
    obtain ⟨hci, hmem⟩ := hvalid
    have hcount := h.count
    have hindex {i : Nat} {ret : Int} (hi : i ≤ s.queue.length) (hret : ret = i)
        : (insertAt s.queue i ci)[(if ret < 0 then s.nItemNr else ret).toNat]? = some ci := by
      rw [hret, if_neg (by omega), Int.toNat_natCast]
      exact insertAt_self hi ci
    have hpos : ¬s.addIndex itemCmp ci preitem nextitem nItem < 0 := by
      unfold addIndex
      dsimp only
      split <;> omega
    simp only [IndexOk, getItemByIndex, if_neg hpos]
    simp only [addIndex, MgList.step]
    match itemCmp, preitem, nextitem with
    | some cmp, _, _ => exact iff_of_true (hindex findIdx_le_length rfl) trivial
    | none, some pre, _ =>
      have hpre := hmem pre (Or.inl rfl)
      simp only [addPos, NeighbourOk, hcount]
      rw [if_pos (by decide), Int.toNat_natCast, insertAt_last (idxOf_lt_length_of_mem hpre) hci]
      exact idxOf_last_iff h.nodup hpre
    | none, none, some next =>
      have hlt := idxOf_lt_length_of_mem (hmem next (Or.inr rfl))
      simp only [addPos, NeighbourOk, hcount]
      rw [if_pos (by decide), Int.toNat_natCast, insertAt_last (Nat.le_of_lt hlt) hci]
      exact iff_of_false (Nat.ne_of_lt hlt) not_false
    | none, none, none =>
      refine iff_of_true ?_ trivial
      simp only [addPos]
      split
      . exact hindex (Nat.min_le_right _ _) rfl
      . rw [if_pos (show (-1 : Int) < 0 by decide), hcount, Int.toNat_natCast]
        exact insertAt_self (Nat.le_refl _) ci
  | _ => exact Iff.rfl

theorem okRun_iff (h : s.ListOk) (actions : List Action)
    : (s.ValidRun actions → s.OkRun actions) ↔ (s.ValidRun actions → s.NeighboursOk actions) := by
  refine imp_congr_right fun hvalid => ?_
  induction actions generalizing s with
  | nil => exact iff_of_true h trivial
  | cons a actions ih =>
    simp only [OkRun, NeighboursOk, h, true_and, index_iff h hvalid.1, ih (h.step a hvalid.1) hvalid.2]

def start : MgList :=
  { queue := [], selQueue := [], nItemNr := 0, hilighted := none }

/-- The list of `mglist_init`. -/
theorem list_model_runs (actions : List Action)
    : (start.ValidRun actions → start.OkRun actions) ↔ (start.ValidRun actions → start.NeighboursOk actions) := by
  apply okRun_iff
  refine ⟨nodup_nil, rfl, ?_, ⟨nodup_nil, ?_⟩, sorts_of_nodup nodup_nil⟩
  . intro hitem h
    cases h
  . intro pci h
    cases h

/-- The third item is put after the first, and reported as the last. -/
theorem not_okRun_after
    : ¬∀ actions, start.ValidRun actions → start.OkRun actions := by
  intro h
  have hrun := h [.add none 1 none none (-1), .add none 2 none none (-1), .add none 3 (some 1) none 0]
    ⟨⟨by decide, by simp⟩, ⟨by decide, by simp⟩, ⟨by decide, by simp [start, MgList.step, insertAt, addPos]⟩, trivial⟩
  have hindex := hrun.2.2.2.2.2.1
  simp only [IndexOk] at hindex
  exact absurd hindex (by decide)

end MgList

end MiniGui.ListModel
