import MiniGui.Ext.TreeView

namespace MiniGui

open Function List

namespace TreeView

variable {c : PItem} {le : PItem → PItem → Prop}

namespace Nodes

variable {n : Nodes} {x : PItem} {f : Nodes → Nodes} {fold : PItem → Bool}

theorem alter_of_notMem (f : Nodes → Nodes) (hx : x ∉ preorder n) : alter x f n = n := by
  induction n with
  | nil => rfl
  | node p kids rest ihk ihr =>
    rw [preorder_node, mem_cons, mem_append, not_or, not_or] at hx
    rw [alter, if_neg (Ne.symm hx.1), ihk hx.2.1, ihr hx.2.2]

theorem siblings_alter (x : PItem) (f : Nodes → Nodes) (n : Nodes)
    : (alter x f n).siblings = n.siblings := by
  induction n with
  | nil => rfl
  | node p kids rest _ ihr =>
    rw [alter]
    split
    . rfl
    . rw [siblings, siblings, ihr]

theorem perm_node_kids {kids kids' : Nodes} (h : (preorder kids').Perm (c :: preorder kids)) (p : PItem)
    (rest : Nodes) : (preorder (node p kids' rest)).Perm (c :: preorder (node p kids rest)) := by
  rw [preorder_node, preorder_node]
  have hkids := (h.append_right (preorder rest)).cons p
  exact hkids.trans (List.Perm.swap _ _ _)

theorem perm_node_rest {rest rest' : Nodes} (h : (preorder rest').Perm (c :: preorder rest)) (p : PItem)
    (kids : Nodes) : (preorder (node p kids rest')).Perm (c :: preorder (node p kids rest)) := by
  rw [preorder_node, preorder_node]
  have hrest := (h.append_left (preorder kids)).cons p
  exact hrest.trans ((perm_middle.cons p).trans (List.Perm.swap _ _ _))

theorem perm_alter (hf : ∀ k, (preorder (f k)).Perm (c :: preorder k)) (hnodup : (preorder n).Nodup) (hx : x ∈ preorder n)
    : (preorder (alter x f n)).Perm (c :: preorder n) := by
  induction n with
  | nil => cases hx
  | node p kids rest ihk ihr =>
    rcases nodup_node hnodup with ⟨⟨_, _⟩, hnodupk, hnodupr, hdisj⟩
    rw [alter]
    split
    . exact perm_node_kids (hf kids) p rest
    rename_i hp
    by_cases hk : x ∈ preorder kids
    . rw [alter_of_notMem f (hdisj x hk)]
      exact perm_node_kids (ihk hnodupk hk) p rest
    . rw [alter_of_notMem f hk]
      exact perm_node_rest (ihr hnodupr (mem_rest hx hp hk)) p kids

theorem vis_congr {fold' : PItem → Bool} (h : ∀ p ∈ preorder n, fold p = fold' p)
    : vis fold n = vis fold' n := by
  induction n with
  | nil => rfl
  | node p kids rest ihk ihr =>
    rw [preorder_node] at h
    rw [vis, vis, h p mem_cons_self, ihk fun q hq => h q (mem_cons_of_mem p (mem_append_left _ hq)),
      ihr fun q hq => h q (mem_cons_of_mem p (mem_append_right _ hq))]

theorem length_vis_alter
    (hf : ∀ k, (vis fold (f k)).length = (vis fold k).length + 1) (hnodup : (preorder n).Nodup)
    (hx : x ∈ preorder n) : (vis fold (alter x f n)).length
      = (vis fold n).length + if fold x = false ∧ x ∈ vis fold n then 1 else 0 := by
  induction n with
  | nil => cases hx
  | node p kids rest ihk ihr =>
    rcases nodup_node hnodup with ⟨⟨_, _⟩, hnodupk, hnodupr, hdisj⟩
    rw [alter]
    by_cases hp : p = x
    . rw [if_pos hp, vis, vis, length_cons, length_cons, length_append, length_append, hp]
      cases hfold : fold x with
      | true => simp
      | false =>
        simp [hf]
        omega
    rw [if_neg hp, vis, vis, length_cons, length_cons, length_append, length_append]
    by_cases hk : x ∈ preorder kids
    . have hr : x ∉ vis fold rest := fun hr => hdisj x hk ((vis_sublist fold rest).subset hr)
      rw [alter_of_notMem f (hdisj x hk)]
      cases hfold : fold p with
      | true => simp [hr, Ne.symm hp]
      | false =>
        simp [hr, Ne.symm hp, ihk hnodupk hk]
        omega
    have hkv : x ∉ vis fold kids := fun hkv => hk ((vis_sublist fold kids).subset hkv)
    rw [alter_of_notMem f hk, ihr hnodupr (mem_rest hx hp hk)]
    cases hfold : fold p with
    | true =>
      simp [Ne.symm hp]
      omega
    | false =>
      simp [hkv, Ne.symm hp]
      omega

theorem remove_sublist (x : PItem) (n : Nodes) : (preorder (remove x n)).Sublist (preorder n) := by
  induction n with
  | nil => exact Sublist.refl _
  | node p kids rest ihk ihr =>
    rw [remove]
    split
    . rw [preorder_node]
      exact (sublist_append_right _ _).trans (sublist_cons_self _ _)
    . rw [preorder_node, preorder_node]
      exact (ihk.append ihr).cons_cons p

theorem siblings_remove (x : PItem) (n : Nodes) : (remove x n).siblings.Sublist n.siblings := by
  induction n with
  | nil => exact Sublist.refl _
  | node p kids rest _ ihr =>
    rw [remove]
    split
    . exact sublist_cons_self _ _
    . exact ihr.cons_cons p

theorem remove_of_notMem (hx : x ∉ preorder n) : remove x n = n := by
  induction n with
  | nil => rfl
  | node p kids rest ihk ihr =>
    rw [preorder_node, mem_cons, mem_append, not_or, not_or] at hx
    rw [remove, if_neg (Ne.symm hx.1), ihk hx.2.1, ihr hx.2.2]

theorem size_remove (hnodup : (preorder n).Nodup) (hx : x ∈ preorder n)
    : (remove x n).size + ((kidsOf x n).size + 1) = n.size := by
  induction n with
  | nil => cases hx
  | node p kids rest ihk ihr =>
    rcases nodup_node hnodup with ⟨⟨_, _⟩, hnodupk, hnodupr, hdisj⟩
    rw [remove, kidsOf]
    by_cases hp : p = x
    . rw [if_pos hp, if_pos hp, size]
      omega
    rw [if_neg hp, if_neg hp]
    by_cases hk : x ∈ preorder kids
    . have hsize := ihk hnodupk hk
      rw [if_pos hk, remove_of_notMem (hdisj x hk), size, size]
      omega
    . have hsize := ihr hnodupr (mem_rest hx hp hk)
      rw [if_neg hk, remove_of_notMem hk, size, size]
      omega

theorem parentOf_mem (r : PItem) (hx : x ∈ preorder n)
    : ∃ q, parentOf (some r) x n = some q ∧ (q = r ∨ q ∈ preorder (remove x n)) := by
  induction n generalizing r with
  | nil => cases hx
  | node p kids rest ihk ihr =>
    rw [parentOf, remove]
    by_cases hp : p = x
    . rw [if_pos hp]
      exact ⟨r, rfl, .inl rfl⟩
    rw [if_neg hp, if_neg hp]
    by_cases hk : x ∈ preorder kids
    . rw [if_pos hk, preorder_node]
      rcases ihk p hk with ⟨q, hparent, hq | hq⟩
      . exact ⟨q, hparent, .inr (by rw [hq]; exact mem_cons_self)⟩
      . exact ⟨q, hparent, .inr (mem_cons_of_mem p (mem_append_left _ hq))⟩
    rw [if_neg hk, preorder_node]
    rcases ihr r (mem_rest hx hp hk) with ⟨q, hparent, hq | hq⟩
    . exact ⟨q, hparent, .inl hq⟩
    . exact ⟨q, hparent, .inr (mem_cons_of_mem p (mem_append_right _ hq))⟩

def KidsSorted (le : PItem → PItem → Prop) : Nodes → Prop
  | nil => True
  | node _ kids rest => kids.siblings.Pairwise le ∧ KidsSorted le kids ∧ KidsSorted le rest

theorem siblings_subset (n : Nodes) : ∀ p ∈ n.siblings, p ∈ preorder n := by
  induction n with
  | nil => exact fun p hp => hp
  | node q kids rest _ ihr =>
    intro p hp
    rw [preorder_node]
    rcases mem_cons.mp hp with hp | hp
    . rw [hp]
      exact mem_cons_self
    . exact mem_cons_of_mem q (mem_append_right _ (ihr p hp))

theorem KidsSorted.congr {le le' : PItem → PItem → Prop} {n : Nodes}
    (h : ∀ p ∈ preorder n, ∀ q ∈ preorder n, le p q → le' p q) (hsorted : KidsSorted le n)
    : KidsSorted le' n := by
  induction n with
  | nil => exact trivial
  | node p kids rest ihk ihr =>
    rcases hsorted with ⟨hsibs, hkids, hrest⟩
    have hmemk : ∀ q ∈ preorder kids, q ∈ preorder (node p kids rest) :=
      fun q hq => mem_cons_of_mem p (mem_append_left _ hq)
    have hmemr : ∀ q ∈ preorder rest, q ∈ preorder (node p kids rest) :=
      fun q hq => mem_cons_of_mem p (mem_append_right _ hq)
    refine ⟨?_, ihk (fun q hq s hs => h q (hmemk q hq) s (hmemk s hs)) hkids,
      ihr (fun q hq s hs => h q (hmemr q hq) s (hmemr s hs)) hrest⟩
    refine hsibs.imp_of_mem ?_
    intro q s hq hs
    exact h q (hmemk q (siblings_subset kids q hq)) s (hmemk s (siblings_subset kids s hs))

theorem KidsSorted.remove (x : PItem) (hsorted : KidsSorted le n) : KidsSorted le (n.remove x) := by
  induction n with
  | nil => exact trivial
  | node p kids rest ihk ihr =>
    rcases hsorted with ⟨hsibs, hkids, hrest⟩
    rw [Nodes.remove]
    split
    . exact hrest
    . exact ⟨hsibs.sublist (siblings_remove x kids), ihk hkids, ihr hrest⟩

theorem KidsSorted.alter
    (hf : ∀ k, KidsSorted le k → k.siblings.Pairwise le → KidsSorted le (f k) ∧ (f k).siblings.Pairwise le)
    (x : PItem) (hsorted : KidsSorted le n) : KidsSorted le (n.alter x f) := by
  induction n with
  | nil => exact trivial
  | node p kids rest ihk ihr =>
    rcases hsorted with ⟨hsibs, hkids, hrest⟩
    rw [Nodes.alter]
    split
    . have hnew := hf kids hkids hsibs
      exact ⟨hnew.2, hnew.1, hrest⟩
    . refine ⟨?_, ihk hkids, ihr hrest⟩
      rw [siblings_alter]
      exact hsibs

end Nodes

section NewChild

open Nodes

theorem perm_appendChild (c : PItem) (k : Nodes) : (preorder (appendChild c k)).Perm (c :: preorder k) := by
  induction k with
  | nil => exact List.Perm.refl _
  | node p kids rest _ ihr =>
    rw [appendChild]
    exact perm_node_rest ihr p kids

theorem perm_insertSorted (strCmp : PItem → Int) (c : PItem) (k : Nodes)
    : (preorder (insertSorted strCmp c k)).Perm (c :: preorder k) := by
  induction k with
  | nil => exact List.Perm.refl _
  | node p kids rest _ ihr =>
    rw [insertSorted]
    split
    . exact perm_node_rest ihr p kids
    . exact List.Perm.refl _

theorem length_vis_appendChild (fold : PItem → Bool) (c : PItem) (k : Nodes)
    : (vis fold (appendChild c k)).length = (vis fold k).length + 1 := by
  induction k with
  | nil =>
    rw [appendChild, vis, vis]
    split <;> rfl
  | node p kids rest _ ihr =>
    rw [appendChild, vis, vis, length_cons, length_cons, length_append, length_append, ihr]
    omega

theorem length_vis_insertSorted (fold : PItem → Bool) (strCmp : PItem → Int) (c : PItem) (k : Nodes)
    : (vis fold (insertSorted strCmp c k)).length = (vis fold k).length + 1 := by
  induction k with
  | nil =>
    rw [insertSorted, vis, vis]
    split <;> rfl
  | node p kids rest _ ihr =>
    rw [insertSorted]
    split
    . rw [vis, vis, length_cons, length_cons, length_append, length_append, ihr]
      omega
    . rw [vis]
      simp [vis]

theorem sorted_insertSorted {strCmp : PItem → Int}
    (hle : ∀ p, ¬ strCmp p > 0 → le c p) (hgt : ∀ p, strCmp p > 0 → le p c)
    (htrans : ∀ p q, le c p → le p q → le c q) (k : Nodes) (hkids : KidsSorted le k)
    (hsibs : k.siblings.Pairwise le)
    : KidsSorted le (insertSorted strCmp c k) ∧ (insertSorted strCmp c k).siblings.Pairwise le
      ∧ ∀ p ∈ (insertSorted strCmp c k).siblings, p = c ∨ p ∈ k.siblings := by
  induction k with
  | nil =>
    refine ⟨⟨List.Pairwise.nil, trivial, trivial⟩, pairwise_singleton _ _, ?_⟩
    intro p hp
    exact .inl (mem_singleton.mp hp)
  | node p kids rest _ ihr =>
    rw [insertSorted]
    rw [siblings, pairwise_cons] at hsibs
    split
    . next hp =>
      rcases ihr hkids.2.2 hsibs.2 with ⟨hnewKids, hnewSibs, hmem⟩
      refine ⟨⟨hkids.1, hkids.2.1, hnewKids⟩, ?_, ?_⟩
      . rw [siblings, pairwise_cons]
        refine ⟨?_, hnewSibs⟩
        intro q hq
        rcases hmem q hq with hq | hq
        . rw [hq]
          exact hgt p hp
        . exact hsibs.1 q hq
      intro q hq
      rcases mem_cons.mp hq with hq | hq
      . exact .inr (by rw [hq]; exact mem_cons_self)
      . rcases hmem q hq with hq | hq
        . exact .inl hq
        . exact .inr (mem_cons_of_mem p hq)
    rename_i hp
    refine ⟨⟨List.Pairwise.nil, trivial, hkids⟩, ?_, ?_⟩
    . rw [siblings, siblings, pairwise_cons, pairwise_cons]
      refine ⟨?_, hsibs⟩
      intro q hq
      rcases mem_cons.mp hq with hq | hq
      . rw [hq]
        exact hle p hp
      . exact htrans p q (hle p hp) (hsibs.1 q hq)
    . intro q hq
      rcases mem_cons.mp hq with hq | hq
      . exact .inl hq
      . exact .inr hq

end NewChild

open Nodes

variable {α : Type}

section Invariant

structure TotalPreorder (strCmp : α → α → Int) : Prop where
  total : ∀ a b, strCmp a b ≤ 0 ∨ strCmp b a ≤ 0
  trans : ∀ a b c, strCmp a b ≤ 0 → strCmp b c ≤ 0 → strCmp a c ≤ 0

def textLe (strCmp : α → α → Int) (items : PItem → TVItem α) (p q : PItem) : Prop :=
  strCmp (items p).text (items q).text ≤ 0

structure Core (strCmp : α → α → Int) (tv : TVData α) : Prop where
  rooted : ∃ kids, tv.root = .node tvRoot kids .nil
  nodup : tv.root.preorder.Nodup
  below : ∀ p ∈ tv.root.preorder, p < tv.fresh
  count : tv.nItemCount = tv.root.size
  selected : ∃ s ∈ tv.root.preorder, tv.pItemSelected = some s
    ∧ ∀ p ∈ tv.root.preorder, (tv.items p).selected = true ↔ p = s
  sorted : tv.sort = true → TotalPreorder strCmp → KidsSorted (textLe strCmp tv.items) tv.root
  page : 0 < tv.nVisCount

def Fits (top nVisItemCount nVisCount : Int) : Prop :=
  (0 ≤ top ∧ top ≤ nVisItemCount - nVisCount) ∨ nVisItemCount ≤ nVisCount

structure Inv (strCmp : α → α → Int) (tv : TVData α) : Prop where
  core : Core strCmp tv
  vis : tv.nVisItemCount = (visOf tv).length
  top : 0 ≤ tv.nItemTop ∧ tv.nItemTop ≤ max 0 (tv.nVisItemCount - tv.nVisCount)

variable {strCmp : α → α → Int} {tv : TVData α}

theorem Inv.fits (h : Inv strCmp tv) : Fits tv.nItemTop tv.nVisItemCount tv.nVisCount := by
  have htop := h.top
  rw [Fits]
  omega

theorem root_mem (h : Core strCmp tv) : tvRoot ∈ tv.root.preorder := by
  rcases h.rooted with ⟨kids, hroot⟩
  rw [hroot, preorder_node]
  exact mem_cons_self

theorem visOf_subset (tv : TVData α) : ∀ x ∈ visOf tv, x ∈ tv.root.preorder :=
  fun _ hx => (vis_sublist tv.fold tv.root).subset hx

variable (h : Core strCmp tv)
include h

theorem visOf_nodup : (visOf tv).Nodup :=
  h.nodup.sublist (vis_sublist tv.fold tv.root)

theorem visOf_pos : 0 < (visOf tv).length := by
  rcases h.rooted with ⟨kids, hroot⟩
  rw [visOf, hroot, vis]
  exact Nat.succ_pos _

theorem Core.scrolled (top nVis : Int)
    : Core strCmp { tv with nItemTop := top, nVisItemCount := nVis } :=
  ⟨h.rooted, h.nodup, h.below, h.count, h.selected, h.sorted, h.page⟩

theorem inv_setVScrollInfo (hvis : tv.nVisItemCount = (visOf tv).length)
    (hfits : Fits tv.nItemTop tv.nVisItemCount tv.nVisCount)
    : Inv strCmp (tvSetVScrollInfo tv) := by
  rw [tvSetVScrollInfo]
  split
  . refine ⟨h.scrolled 0 tv.nVisItemCount, hvis, ?_⟩
    dsimp only
    omega
  . refine ⟨h, hvis, ?_⟩
    rw [Fits] at hfits
    omega

theorem inv_recalc (hfits : Fits tv.nItemTop (getVisItemCount tv) tv.nVisCount)
    : Inv strCmp (recalc tv) := by
  have hcore := h.scrolled tv.nItemTop (getVisItemCount tv)
  exact inv_setVScrollInfo hcore (visItemCount_eq tv.fold tv.root) hfits

end Invariant

section Selection

theorem items_setSelected (tv : TVData α) (p : Option PItem) (b : Bool) (q : PItem)
    : (setSelected tv p b).items q = if p = some q then { tv.items q with selected := b } else tv.items q := by
  cases p with
  | none => simp [setSelected]
  | some p =>
    by_cases hp : q = p
    . simp [setSelected, setItem, hp]
    . simp [setSelected, setItem, hp, Ne.symm hp]

theorem setSelected_eq (tv : TVData α) (p : Option PItem) (b : Bool)
    : setSelected tv p b = { tv with items := (setSelected tv p b).items } := by
  cases p with
  | none => rfl
  | some p => rfl

theorem changeSelected_spec (tv : TVData α) (new : PItem)
    : ∃ items, changeSelected tv (some new) = { tv with items := items, pItemSelected := some new }
      ∧ ∀ q, (items q).fold = (tv.items q).fold ∧ (items q).text = (tv.items q).text
        ∧ ∀ s, tv.pItemSelected = some s → ((tv.items q).selected = true ↔ q = s)
          → ((items q).selected = true ↔ q = new) := by
  rw [changeSelected]
  split
  . next heq =>
    refine ⟨tv.items, by rw [heq], fun q => ⟨rfl, rfl, ?_⟩⟩
    intro s hs hflag
    rw [hs, Option.some.injEq] at heq
    rw [heq]
    exact hflag
  rename_i hne
  refine ⟨(setSelected (setSelected tv tv.pItemSelected false) (some new) true).items, ?_, ?_⟩
  . rw [setSelected_eq, setSelected_eq tv]
  intro q
  rw [items_setSelected, items_setSelected]
  by_cases hq : q = new
  . rw [hq, if_pos rfl]
    refine ⟨?_, ?_, ?_⟩
    . dsimp only
      split <;> rfl
    . dsimp only
      split <;> rfl
    . intro s hs hflag
      simp
  have hnew : ¬ some new = some q := fun heq => hq (Option.some.inj heq).symm
  rw [if_neg hnew]
  refine ⟨?_, ?_, ?_⟩
  . split <;> rfl
  . split <;> rfl
  intro s hs hflag
  rw [hs]
  by_cases hqs : q = s
  . simp [hqs]
    exact fun heq => hq (hqs.trans heq)
  . have hsq : ¬ some s = some q := fun heq => hqs (Option.some.inj heq).symm
    rw [if_neg hsq, hflag]
    simp [hqs, hq]

variable {strCmp : α → α → Int} {tv : TVData α}

theorem textLe_congr {items items' : PItem → TVItem α} (htext : ∀ q, (items' q).text = (items q).text)
    : textLe strCmp items' = textLe strCmp items := by
  funext p q
  rw [textLe, textLe, htext, htext]

variable {new : PItem} {top : Int}

theorem Core.select (h : Core strCmp tv) (hnew : new ∈ tv.root.preorder)
    : Core strCmp (changeSelected tv (some new)) := by
  rcases changeSelected_spec tv new with ⟨items, heq, hitems⟩
  rcases h.selected with ⟨s, _, hs, hflags⟩
  rw [heq]
  refine ⟨h.rooted, h.nodup, h.below, h.count, ⟨new, hnew, rfl, ?_⟩, ?_, h.page⟩
  . intro p hp
    exact (hitems p).2.2 s hs (hflags p hp)
  . intro hsort hle
    rw [textLe_congr fun q => (hitems q).2.1]
    exact h.sorted hsort hle

theorem changeSelected_frame (tv : TVData α) (new : PItem)
    : (changeSelected tv (some new)).root = tv.root ∧ (changeSelected tv (some new)).fold = tv.fold
      ∧ (changeSelected tv (some new)).nItemTop = tv.nItemTop
      ∧ (changeSelected tv (some new)).nVisItemCount = tv.nVisItemCount
      ∧ (changeSelected tv (some new)).nVisCount = tv.nVisCount := by
  rcases changeSelected_spec tv new with ⟨items, heq, hitems⟩
  rw [heq]
  refine ⟨rfl, ?_, rfl, rfl, rfl⟩
  funext q
  exact (hitems q).1

theorem visOf_changeSelected (tv : TVData α) (new : PItem) : visOf (changeSelected tv (some new)) = visOf tv := by
  rcases changeSelected_frame tv new with ⟨hroot, hfold, _⟩
  rw [visOf, visOf, hroot, hfold]

variable (h : Inv strCmp tv)
include h

theorem inv_select (hnew : new ∈ tv.root.preorder) : Inv strCmp (changeSelected tv (some new)) := by
  rcases changeSelected_frame tv new with ⟨_, _, htop, hvis, hpage⟩
  refine ⟨h.core.select hnew, ?_, ?_⟩
  . rw [hvis, visOf_changeSelected]
    exact h.vis
  . rw [htop, hvis, hpage]
    exact h.top

theorem inv_selectAt (hnew : new ∈ tv.root.preorder)
    (hfits : Fits top tv.nVisItemCount tv.nVisCount)
    : Inv strCmp (tvSetVScrollInfo (changeSelected { tv with nItemTop := top } (some new))) := by
  rcases changeSelected_frame { tv with nItemTop := top } new with ⟨_, _, htop, hvis, hpage⟩
  have hcore := (h.core.scrolled top tv.nVisItemCount).select hnew
  refine inv_setVScrollInfo hcore ?_ ?_
  . rw [hvis, visOf_changeSelected]
    exact h.vis
  . rw [htop, hvis, hpage]
    exact hfits

theorem inv_scrollTo (hfits : Fits top tv.nVisItemCount tv.nVisCount)
    : Inv strCmp (tvSetVScrollInfo { tv with nItemTop := top }) :=
  inv_setVScrollInfo (h.core.scrolled top tv.nVisItemCount) h.vis hfits

end Selection

section Folding

variable {strCmp : α → α → Int} {tv : TVData α}

theorem fold_setFold (tv : TVData α) (p : PItem) (b : Bool)
    : (setFold tv p b).fold = Function.update tv.fold p b := by
  funext q
  by_cases hq : q = p
  . rw [hq, update_self]
    simp [TVData.fold, setFold, setItem]
  . rw [update_of_ne hq]
    simp [TVData.fold, setFold, setItem, hq]

theorem Core.folded (h : Core strCmp tv) (p : PItem) (b : Bool) : Core strCmp (setFold tv p b) := by
  have hitems : ∀ q, ((setFold tv p b).items q).text = (tv.items q).text
      ∧ ((setFold tv p b).items q).selected = (tv.items q).selected := by
    intro q
    by_cases hq : q = p
    . simp [setFold, setItem, hq]
    . simp [setFold, setItem, hq]
  rcases h.selected with ⟨s, hmem, hs, hflags⟩
  refine ⟨h.rooted, h.nodup, h.below, h.count, ⟨s, hmem, hs, ?_⟩, ?_, h.page⟩
  . intro q hq
    rw [(hitems q).2]
    exact hflags q hq
  . intro hsort hle
    rw [textLe_congr fun q => (hitems q).1]
    exact h.sorted hsort hle

theorem unfoldAncestor_spec (h : Core strCmp tv) (item : PItem)
    : Core strCmp (unfoldAncestor tv item) ∧ (unfoldAncestor tv item).root = tv.root
      ∧ (∀ x, (unfoldAncestor tv item).fold x = true → tv.fold x = true)
      ∧ (unfoldAncestor tv item).nItemTop = tv.nItemTop ∧ (unfoldAncestor tv item).nVisCount = tv.nVisCount := by
  rw [unfoldAncestor]
  generalize tv.root.ancestors item = ps
  induction ps with
  | nil => exact ⟨h, rfl, fun _ hx => hx, rfl, rfl⟩
  | cons p ps ih =>
    rcases ih with ⟨hcore, hroot, hfold, htop, hpage⟩
    rw [foldr_cons]
    refine ⟨hcore.folded p false, hroot, ?_, htop, hpage⟩
    intro x hx
    rw [fold_setFold] at hx
    by_cases hxp : x = p
    . rw [hxp, update_self] at hx
      cases hx
    . rw [update_of_ne hxp] at hx
      exact hfold x hx

end Folding

section NewItem

variable {strCmp : α → α → Int} {tv : TVData α}

theorem linkChild_spec (strCmp : α → α → Int) (tv : TVData α) (c : PItem) (k : Nodes)
    : (preorder (linkChild strCmp tv c k)).Perm (c :: preorder k)
      ∧ ∀ fold, (vis fold (linkChild strCmp tv c k)).length = (vis fold k).length + 1 := by
  rw [linkChild]
  split
  . exact ⟨perm_insertSorted _ _ _, fun fold => length_vis_insertSorted fold _ _ _⟩
  . exact ⟨perm_appendChild _ _, fun fold => length_vis_appendChild fold _ _⟩

theorem linkChild_sorted (tv : TVData α) (c : PItem) (hsort : tv.sort = true) (hle : TotalPreorder strCmp) (k : Nodes)
    (hkids : KidsSorted (textLe strCmp tv.items) k) (hsibs : k.siblings.Pairwise (textLe strCmp tv.items))
    : KidsSorted (textLe strCmp tv.items) (linkChild strCmp tv c k)
      ∧ (linkChild strCmp tv c k).siblings.Pairwise (textLe strCmp tv.items) := by
  rw [linkChild, if_pos hsort]
  have hbefore : ∀ p, ¬ strCmp (tv.items c).text (tv.items p).text > 0 → textLe strCmp tv.items c p :=
    fun p hp => not_lt.mp hp
  have hafter : ∀ p, strCmp (tv.items c).text (tv.items p).text > 0 → textLe strCmp tv.items p c :=
    fun p hp => (hle.total _ _).resolve_left (not_le.mpr hp)
  have htrans : ∀ p q, textLe strCmp tv.items c p → textLe strCmp tv.items p q → textLe strCmp tv.items c q :=
    fun p q => hle.trans _ _ _
  have hsorted := sorted_insertSorted hbefore hafter htrans k hkids hsibs
  exact ⟨hsorted.1, hsorted.2.1⟩

variable {c : PItem}

theorem size_of_perm {n n' : Nodes} (h : (preorder n').Perm (c :: preorder n)) : n'.size = n.size + 1 := by
  have hlen := h.length_eq
  rw [length_cons, length_preorder, length_preorder] at hlen
  exact hlen

theorem setItem_of_ne (tv : TVData α) {q : PItem} (item : TVItem α) (hq : q ≠ c)
    : (setItem tv c item).items q = tv.items q :=
  update_of_ne hq _ _

theorem insertChild_spec (h : Core strCmp tv) {parent : PItem} (hparent : parent ∈ tv.root.preorder) (text : α)
    (fold : Bool) : Core strCmp (insertChild strCmp tv parent text fold)
      ∧ ((visOf (insertChild strCmp tv parent text fold)).length : Int)
        = (visOf tv).length + if tv.fold parent = false ∧ parent ∈ visOf tv then 1 else 0 := by
  let tv' := setItem tv tv.fresh ⟨text, fold, false⟩
  have hold : ∀ q ∈ tv.root.preorder, tv'.items q = tv.items q :=
    fun q hq => setItem_of_ne tv _ (Nat.ne_of_lt (h.below q hq))
  have hfresh : tv.fresh ∉ tv.root.preorder := fun hmem => Nat.lt_irrefl _ (h.below _ hmem)
  have hperm : (preorder (tv.root.alter parent (linkChild strCmp tv' tv.fresh))).Perm
      (tv.fresh :: preorder tv.root) :=
    perm_alter (fun k => (linkChild_spec strCmp tv' tv.fresh k).1) h.nodup hparent
  refine ⟨⟨?_, ?_, ?_, ?_, ?_, ?_, h.page⟩, ?_⟩
  . rcases h.rooted with ⟨kids, hroot⟩
    show ∃ kids, tv.root.alter parent (linkChild strCmp tv' tv.fresh) = .node tvRoot kids .nil
    rw [hroot, alter]
    split
    . exact ⟨_, rfl⟩
    . exact ⟨_, rfl⟩
  . exact hperm.nodup_iff.mpr (nodup_cons.mpr ⟨hfresh, h.nodup⟩)
  . intro p hp
    rcases mem_cons.mp (hperm.mem_iff.mp hp) with hp | hp
    . rw [hp]
      exact Nat.lt_succ_self _
    . exact Nat.lt_succ_of_lt (h.below p hp)
  . have hsize := size_of_perm hperm
    have hcount := h.count
    show tv.nItemCount + 1 = (tv.root.alter parent (linkChild strCmp tv' tv.fresh)).size
    omega
  . rcases h.selected with ⟨s, hmem, hs, hflags⟩
    refine ⟨s, hperm.mem_iff.mpr (mem_cons_of_mem _ hmem), hs, ?_⟩
    intro p hp
    show (tv'.items p).selected = true ↔ p = s
    rcases mem_cons.mp (hperm.mem_iff.mp hp) with hp | hp
    . have hne : p ≠ s := fun heq => hfresh (by rw [← hp, heq]; exact hmem)
      have hitem : tv'.items p = ⟨text, fold, false⟩ := by
        rw [hp]
        exact update_self _ _ _
      simp [hitem, hne]
    . rw [hold p hp]
      exact hflags p hp
  . intro hsort hle
    have hsorted : KidsSorted (textLe strCmp tv'.items) tv.root := by
      refine (h.sorted hsort hle).congr ?_
      intro p hp q hq hpq
      rw [textLe, hold p hp, hold q hq]
      exact hpq
    exact KidsSorted.alter (linkChild_sorted tv' tv.fresh hsort hle) parent hsorted
  have hfold : ∀ p ∈ tv.root.preorder, tv'.fold p = tv.fold p := by
    intro p hp
    rw [TVData.fold, hold p hp, TVData.fold]
  have hvis := length_vis_alter (fun k => (linkChild_spec strCmp tv' tv.fresh k).2 tv'.fold) h.nodup hparent
  rw [vis_congr hfold, hfold parent hparent] at hvis
  show (((tv.root.alter parent (linkChild strCmp tv' tv.fresh)).vis tv'.fold).length : Int) = _
  rw [hvis]
  push_cast
  rfl

end NewItem

section RemovedItem

variable {strCmp : α → α → Int} {tv : TVData α} {item : PItem} (h : Core strCmp tv)
include h

theorem parentOf_item (hitem : item ∈ tv.root.preorder) (hne : item ≠ tvRoot)
    : ∃ q ∈ (tv.root.remove item).preorder, tv.root.parentOf none item = some q := by
  rcases h.rooted with ⟨kids, hroot⟩
  rw [hroot, preorder_node, mem_cons, mem_append] at hitem
  have hkids : item ∈ preorder kids := by
    rcases hitem with hitem | hitem | hitem
    . exact absurd hitem hne
    . exact hitem
    . cases hitem
  rw [hroot, parentOf, if_neg (Ne.symm hne), if_pos hkids, remove, if_neg (Ne.symm hne), preorder_node]
  rcases parentOf_mem tvRoot hkids with ⟨q, hparent, hq | hq⟩
  . exact ⟨q, by rw [hq]; exact mem_cons_self, hparent⟩
  . exact ⟨q, mem_cons_of_mem _ (mem_append_left _ hq), hparent⟩

theorem removeTree_spec (hitem : item ∈ tv.root.preorder) (hne : item ≠ tvRoot)
    (hsel : tv.pItemSelected = tv.root.parentOf none item) : Core strCmp (removeTree tv item) := by
  have hsub := (remove_sublist item tv.root).subset
  rcases parentOf_item h hitem hne with ⟨q, hq, hparent⟩
  refine ⟨?_, h.nodup.sublist (remove_sublist item tv.root), fun p hp => h.below p (hsub hp), ?_, ?_, ?_, h.page⟩
  . rcases h.rooted with ⟨kids, hroot⟩
    show ∃ kids, tv.root.remove item = .node tvRoot kids .nil
    rw [hroot, remove, if_neg (Ne.symm hne)]
    exact ⟨_, rfl⟩
  . have hsize := size_remove h.nodup hitem
    have hcount := h.count
    show tv.nItemCount - ((tv.root.kidsOf item).size + 1) = (tv.root.remove item).size
    omega
  . rcases h.selected with ⟨s, _, hs, hflags⟩
    have heq : s = q := Option.some.inj (by rw [← hs, hsel, hparent])
    refine ⟨q, hq, hparent, ?_⟩
    intro p hp
    rw [← heq]
    exact hflags p (hsub hp)
  . intro hsort hle
    exact (h.sorted hsort hle).remove item

theorem removeKids_spec {k : Nodes} (hroot : tv.root = .node tvRoot k .nil)
    (hsel : tv.pItemSelected = some tvRoot) : Core strCmp (k.siblings.foldl removeTree tv)
      ∧ (k.siblings.foldl removeTree tv).pItemSelected = some tvRoot := by
  induction k generalizing tv with
  | nil => exact ⟨h, hsel⟩
  | node p kids rest _ ihr =>
    have hnodup := h.nodup
    rw [hroot] at hnodup
    have hp : p ∈ preorder (.node p kids rest) := by
      rw [preorder_node]
      exact mem_cons_self
    have hne : p ≠ tvRoot := by
      intro heq
      rw [preorder_node, nodup_cons] at hnodup
      exact hnodup.1 (by rw [← heq]; exact mem_append_left _ hp)
    have hmem : p ∈ tv.root.preorder := by
      rw [hroot, preorder_node]
      exact mem_cons_of_mem _ (mem_append_left _ hp)
    have hparent : tv.root.parentOf none p = some tvRoot := by
      rw [hroot, parentOf, if_neg (Ne.symm hne), if_pos hp, parentOf, if_pos rfl]
    have hrest : (removeTree tv p).root = .node tvRoot rest .nil := by
      show tv.root.remove p = _
      rw [hroot, remove, if_neg (Ne.symm hne), remove, remove, if_pos rfl]
    rw [siblings, foldl_cons]
    exact ihr (removeTree_spec h hmem hne (by rw [hsel, hparent])) hrest hparent

end RemovedItem

end TreeView

end MiniGui
