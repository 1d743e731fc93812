import MiniGui.Ext.ListMessages

namespace MiniGui.ListView

open Function List

open Forest (addAfter alter kidsOf length_preorder map_rows path)

variable {f : Forest} {p parent x : PItem} {fold : Bool} {itemh d : Int} {lv : LVData}
  {items : PItem → ItemData} {j : Nat}

theorem path_disjoint (hnodup : f.preorder.Nodup) : ∀ x ∈ f.path p, x ∉ (f.kidsOf p).preorder := by
  induction f with
  | nil => intro x hx; cases hx
  | node pi itemh fold kids rest ihk ihr =>
    rcases Forest.nodup_node hnodup with ⟨⟨hnotk, hnotr⟩, hnodupk, hnodupr, hdisj⟩
    intro x hx
    rw [path] at hx
    rw [kidsOf]
    by_cases heq : pi = p
    . rw [if_pos heq] at hx ⊢
      rw [mem_singleton.mp hx]
      exact hnotk
    rw [if_neg heq] at hx ⊢
    by_cases hk : p ∈ kids.preorder
    . rw [if_pos hk] at hx ⊢
      rcases mem_cons.mp hx with rfl | hx
      . exact fun hkid => hnotk (kidsOf_subset x hkid)
      . exact ihk hnodupk x hx
    . rw [if_neg hk] at hx ⊢
      exact ihr hnodupr x hx

theorem addAfter_perm (pnew : PItem) (itemh : Int) (fold : Bool) (j : Nat) (k : Forest)
    : (k.addAfter pnew itemh fold j).preorder.Perm (pnew :: k.preorder) := by
  induction k generalizing j with
  | nil => cases j <;> exact List.Perm.refl _
  | node c ch cf kids rest _ ihr =>
    cases j with
    | zero =>
      have hmid : ((c :: kids.preorder) ++ pnew :: rest.preorder).Perm
          (pnew :: ((c :: kids.preorder) ++ rest.preorder)) := perm_middle
      exact hmid
    | succ j =>
      have hrest := (ihr j).append_left (c :: kids.preorder)
      exact hrest.trans perm_middle

theorem addAfter_size (pnew : PItem) (itemh : Int) (fold : Bool) (j : Nat) (k : Forest)
    : (k.addAfter pnew itemh fold j).size = k.size + 1 := by
  rw [← length_preorder, (addAfter_perm pnew itemh fold j k).length_eq, length_cons,
    length_preorder]

theorem alter_rootOf (f : Forest) (p : PItem) (kids' : Forest → Forest)
    : ∃ f', (rootOf f).alter p id id kids' = rootOf f' := by
  by_cases hp : p = plvroot
  . refine ⟨kids' f, ?_⟩
    rw [rootOf, alter, if_pos hp.symm]
    rfl
  . exact ⟨_, rootOf_alter hp id id kids'⟩

theorem root_split {root : Row} {rows rows' before after after' : List Row} (hbefore : before ≠ [])
    (h : root :: rows = before ++ after) (h' : root :: rows' = before ++ after')
    : ∃ before', rows = before' ++ after ∧ rows' = before' ++ after' ∧ ∀ r ∈ before', r ∈ before := by
  cases before with
  | nil => exact absurd rfl hbefore
  | cons r before =>
    rw [cons_append, List.cons.injEq] at h h'
    exact ⟨before, h.2, h'.2, fun r' hr' => mem_cons_of_mem r hr'⟩

theorem ne_of_nodup {before after : List Row} {row : Row}
    (h : ((before ++ row :: after).map Row.addData).Nodup) : ∀ r ∈ before, r.addData ≠ row.addData := by
  intro r hr heq
  rw [map_append, nodup_append] at h
  exact h.2.2 r.addData (List.mem_map_of_mem hr) row.addData (by simp) heq

theorem addItem_linked (h : Represents lv f)
    (hparent : parent ∈ (rootOf f).preorder) {items' : PItem → ItemData} (j : Nat)
    (hkids : Linked items' (some parent) (items' parent).child
      (((rootOf f).kidsOf parent).addAfter lv.fresh itemh fold j))
    (hself : items' parent = { lv.items parent with
      child := (items' parent).child, childNr := (lv.items parent).childNr + 1 })
    (hpath : ∀ x ∈ (rootOf f).path parent, x ≠ parent
      → items' x = { lv.items x with childNr := (lv.items x).childNr + 1 })
    (hother : ∀ x ∈ (rootOf f).preorder, x ∉ (rootOf f).path parent → x ∉ ((rootOf f).kidsOf parent).preorder
      → items' x = lv.items x)
    : Linked items' none (some plvroot)
      ((rootOf f).alter parent id id (addAfter lv.fresh itemh fold j)) := by
  apply h.linked.alter h.nodup hparent (d := 1)
  . rw [addAfter_size]
    push_cast
    rfl
  . rw [hself]
    exact ⟨rfl, rfl⟩
  . rw [hself]
    exact ⟨rfl, rfl, rfl⟩
  . exact hkids
  . exact hpath
  . exact hother

theorem bump_path (hx : x ∉ f.path p) : bump d (f.path p) items x = items x := by
  rw [bump, if_neg hx]

theorem bump_mem (hx : x ∈ f.path p)
    : bump d (f.path p) items x = { items x with childNr := (items x).childNr + d } := by
  rw [bump, if_pos hx]

variable (h : Represents lv f)
include h

variable (hparent : parent ∈ (rootOf f).preorder)
include hparent

theorem addItem_first (hnil : (rootOf f).kidsOf parent = .nil) (j : Nat) (itemh : Int) (fold : Bool)
    : let items := update lv.items lv.fresh ⟨none, none, some parent, 0, itemh, fold⟩
      Linked (lvAddTree (lv.fresh + 1) items parent lv.fresh) none (some plvroot)
        ((rootOf f).alter parent id id (addAfter lv.fresh itemh fold j))
      ∧ (lvAddTree (lv.fresh + 1) items parent lv.fresh parent).fold = (lv.items parent).fold := by
  intro items
  have hnew : lv.fresh ∉ (rootOf f).preorder := fun hmem => lt_irrefl _ (h.fresh _ hmem)
  have hne : ∀ x ∈ (rootOf f).preorder, x ≠ lv.fresh := by
    rintro x hx rfl
    exact hnew hx
  have hold : ∀ x ∈ (rootOf f).preorder, items x = lv.items x := fun x hx => update_of_ne (hne x hx) _ _
  have hchild : (items parent).child = none := by
    have hlinked := (h.linked.kidsOf hparent).1
    rw [hnil] at hlinked
    rw [hold parent hparent]
    exact hlinked
  have hfresh : (items lv.fresh).childNr = 0 := by
    rw [show items lv.fresh = _ from update_self _ _ _]
  have htree : lvAddTree (lv.fresh + 1) items parent lv.fresh = bump 1 ((rootOf f).path parent)
      (update items parent { items parent with child := some lv.fresh }) := by
    have hsize := h.size_le
    rw [lvAddTree, if_pos hchild]
    have hnr : (update items parent { items parent with child := some lv.fresh } lv.fresh).childNr = 0 := by
      rw [update_of_ne (Ne.symm (hne parent hparent)), hfresh]
    rw [hnr]
    apply addChildNr_tree h.linked h.nodup hparent
    . intro x hx
      by_cases hxp : x = parent
      . rw [hxp, update_self]
        rw [hold parent hparent]
      . rw [update_of_ne hxp, hold x hx]
    . omega
  rw [htree]
  have hmem := mem_path hparent
  have hself : bump 1 ((rootOf f).path parent)
      (update items parent { items parent with child := some lv.fresh }) parent
      = { lv.items parent with child := some lv.fresh, childNr := (lv.items parent).childNr + 1 } := by
    rw [bump_mem hmem, update_self, hold parent hparent]
  refine ⟨?_, by rw [hself]⟩
  apply addItem_linked h hparent
  . rw [hself, hnil]
    have hnewitem : bump 1 ((rootOf f).path parent)
        (update items parent { items parent with child := some lv.fresh }) lv.fresh
        = ⟨none, none, some parent, 0, itemh, fold⟩ := by
      rw [bump_path (fun hx => hnew (path_subset _ hx)), update_of_ne (Ne.symm (hne parent hparent))]
      exact update_self _ _ _
    have hadd : Forest.nil.addAfter lv.fresh itemh fold j = .node lv.fresh itemh fold .nil .nil := by
      cases j <;> rfl
    rw [hadd, Linked, hnewitem]
    exact ⟨rfl, rfl, rfl, rfl, rfl, rfl, rfl⟩
  . rw [hself]
  . intro x hx hxp
    rw [bump_mem hx, update_of_ne hxp, hold x (path_subset x hx)]
  intro x hx hpath _
  have hxp : x ≠ parent := by
    rintro rfl
    exact hpath hmem
  rw [bump_path hpath, update_of_ne hxp, hold x hx]

theorem addItem_next (hj : j < ((rootOf f).kidsOf parent).count) {a : PItem}
    (ha : sibWalk lv.items j (lv.items parent).child = some a) (itemh : Int) (fold : Bool)
    : let items := update lv.items lv.fresh ⟨(lv.items a).next, none, some parent, 0, itemh, fold⟩
      let items := update items a { items a with next := some lv.fresh }
      Linked (lvAddTree (lv.fresh + 1) items parent lv.fresh) none (some plvroot)
        ((rootOf f).alter parent id id (addAfter lv.fresh itemh fold j))
      ∧ (lvAddTree (lv.fresh + 1) items parent lv.fresh parent).fold = (lv.items parent).fold
      ∧ (lvAddTree (lv.fresh + 1) items parent lv.fresh a).child = (lv.items a).child
      ∧ ∀ x ∈ ((rootOf f).kidsOf parent).preorder, x ≠ a
        → lvAddTree (lv.fresh + 1) items parent lv.fresh x = lv.items x := by
  intro items0 items
  have hlinked := (h.linked.kidsOf hparent).1
  have hnew : lv.fresh ∉ (rootOf f).preorder := fun hmem => lt_irrefl _ (h.fresh _ hmem)
  have hne : ∀ x ∈ (rootOf f).preorder, x ≠ lv.fresh := by
    rintro x hx rfl
    exact hnew hx
  have hakid := sibWalk_mem hlinked ha
  have hamem := kidsOf_subset a hakid
  have hapath : a ∉ (rootOf f).path parent := fun hpath => path_disjoint h.nodup a hpath hakid
  have hold : ∀ x ∈ (rootOf f).preorder, x ≠ a → items x = lv.items x := by
    intro x hx hxa
    rw [show items x = items0 x from update_of_ne hxa _ _]
    exact update_of_ne (hne x hx) _ _
  have haitem : items a = { lv.items a with next := some lv.fresh } := by
    rw [show items a = { items0 a with next := some lv.fresh } from update_self _ _ _,
      show items0 a = lv.items a from update_of_ne (hne a hamem) _ _]
  have hpa : parent ≠ a := by
    rintro rfl
    exact not_mem_kidsOf hparent h.nodup hakid
  have hchild : (items parent).child ≠ none := by
    rw [hold parent hparent hpa]
    intro hnone
    rw [hnone] at hlinked
    rw [firstOf_eq_none hlinked.first] at hj
    exact Nat.not_lt_zero j hj
  have hnewitem : items lv.fresh = ⟨(lv.items a).next, none, some parent, 0, itemh, fold⟩ := by
    rw [show items lv.fresh = items0 lv.fresh from update_of_ne (Ne.symm (hne a hamem)) _ _]
    exact update_self _ _ _
  have htree : lvAddTree (lv.fresh + 1) items parent lv.fresh = bump 1 ((rootOf f).path parent) items := by
    have hsize := h.size_le
    rw [lvAddTree, if_neg hchild, hnewitem]
    apply addChildNr_tree h.linked h.nodup hparent
    . intro x hx
      by_cases hxa : x = a
      . rw [hxa, haitem]
      . rw [hold x hx hxa]
    . omega
  have hmem := mem_path hparent
  have hkid : ∀ x ∈ ((rootOf f).kidsOf parent).preorder, x ≠ a
      → bump 1 ((rootOf f).path parent) items x = lv.items x := by
    intro x hx hxa
    rw [bump_path (fun hpath => path_disjoint h.nodup x hpath hx), hold x (kidsOf_subset x hx) hxa]
  have hself : bump 1 ((rootOf f).path parent) items parent
      = { lv.items parent with childNr := (lv.items parent).childNr + 1 } := by
    rw [bump_mem hmem, hold parent hparent hpa]
  rw [htree]
  refine ⟨?_, by rw [hself], by rw [bump_path hapath, haitem], hkid⟩
  apply addItem_linked h hparent
  . rw [hself]
    apply hlinked.addAfter _ hj ha
    . rw [bump_path (fun hx => hnew (path_subset _ hx)), hnewitem]
    . rw [bump_path hapath, haitem]
    . exact hkid
    rcases preorder_alter hparent h.nodup id id id with ⟨before, after, hpre, _⟩
    have hnodup := h.nodup
    rw [hpre, nodup_append, nodup_cons, nodup_append] at hnodup
    exact hnodup.2.1.2.1
  . rw [hself]
  . intro x hx hxp
    have hxa : x ≠ a := by
      rintro rfl
      exact hapath hx
    rw [bump_mem hx, hold x (path_subset x hx) hxa]
  intro x hx hpath hkids
  have hxa : x ≠ a := by
    rintro rfl
    exact hkids hakid
  rw [bump_path hpath, hold x hx hxa]

theorem represents_add {lv' : LVData} {f' : Forest}
    (halter : (rootOf f).alter parent id id (addAfter lv.fresh itemh fold j) = rootOf f')
    (hlinked : Linked lv'.items none (some plvroot) (rootOf f')) (hrows : lv'.rows = f'.rows false)
    (hfresh : lv'.fresh = lv.fresh + 1) : Represents lv' f' := by
  rcases preorder_alter hparent h.nodup id id (addAfter lv.fresh itemh fold j) with ⟨before, after, hpre, hpre'⟩
  rw [halter] at hpre'
  have hperm : (rootOf f').preorder.Perm (lv.fresh :: (rootOf f).preorder) := by
    rw [hpre, hpre']
    have hkids := (addAfter_perm lv.fresh itemh fold j ((rootOf f).kidsOf parent)).append_right after
    have hall := ((hkids.cons parent).append_left before)
    have hmid : (before ++ parent :: (lv.fresh :: (((rootOf f).kidsOf parent).preorder ++ after))).Perm
        (lv.fresh :: (before ++ parent :: (((rootOf f).kidsOf parent).preorder ++ after))) :=
      ((List.Perm.swap lv.fresh parent _).append_left before).trans perm_middle
    exact hall.trans hmid
  refine ⟨hlinked, hrows, ?_, ?_⟩
  . rw [hperm.nodup_iff, nodup_cons]
    exact ⟨fun hmem => lt_irrefl _ (h.fresh _ hmem), h.nodup⟩
  intro x hx
  rw [hfresh]
  rcases mem_cons.mp (hperm.mem_iff.mp hx) with rfl | hx
  . exact Nat.lt_succ_self _
  . exact Nat.lt_succ_of_lt (h.fresh x hx)

theorem lvAddItem_represents {nItem : Nat} (nItemHeight : Int) (fold : Bool)
    (hcount : (rootOf f).kidsOf parent = .nil ∨ nItem ≤ ((rootOf f).kidsOf parent).count)
    (hhidden : (rootOf f).hiddenAt parent false = false) (hfold : (rootOf f).foldAt parent = false)
    : Represents (lvAddItem lv parent nItem nItemHeight fold)
      (treeMsg lv.size f lv.fresh (.addItem parent nItem nItemHeight fold)) := by
  have hlinked := h.linked.kidsOf hparent
  rw [treeMsg, lvAddItem, lvGetSibItems]
  generalize hitemh : (if nItemHeight > 0 then nItemHeight else (lv.size : Int) + 6) = itemh
  have hpos : ¬itemh ≤ 0 := by
    rw [← hitemh]
    split
    . omega
    . have hsize := Int.natCast_nonneg lv.size
      omega
  have hj : ((nItem : Int) - 1).toNat = nItem - 1 := by omega
  rw [hj]
  rcases alter_rootOf f parent (addAfter lv.fresh itemh fold (nItem - 1)) with ⟨f', halter⟩
  rw [halter]
  rcases Forest.rows_alter hparent h.nodup false with ⟨before, after, _, oldh, hrows, hrowsalter⟩
  have hrows' := hrowsalter id id (addAfter lv.fresh itemh fold (nItem - 1))
  have hnodup := h.nodup
  rw [← map_rows false (rootOf f)] at hnodup
  rw [halter, rows_rootOf] at hrows'
  rw [rows_rootOf, ← h.rows] at hrows
  rw [rows_rootOf, ← h.rows, hrows] at hnodup
  rw [hhidden, hfold] at hrows hrows' hnodup
  simp only [id_eq, Bool.false_or, Bool.false_eq_true, if_false] at hrows hrows' hnodup
  by_cases hnil : (rootOf f).kidsOf parent = .nil
  . have hadd := addItem_first h hparent hnil (nItem - 1) itemh fold
    rw [halter] at hadd
    have hfirst : (lv.items parent).child = none := by
      have hl := hlinked.1
      rw [hnil] at hl
      exact hl
    have hsib : sibWalk lv.items (nItem - 1) (lv.items parent).child = none := by
      rw [hfirst]
      cases nItem - 1 <;> rfl
    rw [hsib]
    dsimp only [Option.bind_none]
    apply represents_add h hparent halter hadd.1 _ rfl
    rw [hadd.2, hlinked.2.1, hfold]
    have hk : (addAfter lv.fresh itemh fold (nItem - 1) .nil).rows false = [⟨lv.fresh, itemh⟩] := by
      cases nItem - 1 <;> rfl
    rw [hnil, hk] at hrows'
    rw [hnil, Forest.rows, nil_append] at hrows hnodup
    by_cases hroot : parent = plvroot
    . have hf : f = .nil := by
        rw [hroot, rootOf, kidsOf, if_pos rfl] at hnil
        exact hnil
      have hf' : f' = addAfter lv.fresh itemh fold (nItem - 1) .nil := by
        rw [hroot, rootOf, alter, if_pos rfl, hf] at halter
        exact (Forest.node.inj halter).2.2.2.1.symm
      rw [if_pos hroot, hf', hk, h.rows, hf, svlistItemAdd]
      rw [if_neg Bool.false_ne_true, if_neg hpos, addByIndex]
      simp [Forest.rows]
    rw [if_neg hroot, svlistItemAdd]
    have hbefore : before ≠ [] := by
      rintro rfl
      rw [nil_append, List.cons.injEq] at hrows
      have haddr := congrArg Row.addData hrows.1
      exact hroot haddr.symm
    rw [show before ++ ⟨parent, oldh⟩ :: ([⟨lv.fresh, itemh⟩] ++ after)
      = before ++ (⟨parent, oldh⟩ :: ⟨lv.fresh, itemh⟩ :: after) from rfl] at hrows'
    rcases root_split hbefore hrows hrows' with ⟨before', hold, hnew, hmem⟩
    rw [if_neg Bool.false_ne_true, if_neg hpos, hold, hnew]
    exact insertAfter_append _ _ (fun r hr => ne_of_nodup hnodup r (hmem r hr)) rfl
  have hj' : nItem - 1 < ((rootOf f).kidsOf parent).count := by
    have hle := hcount.resolve_left hnil
    have hpos' : 0 < ((rootOf f).kidsOf parent).count := by
      cases hk : (rootOf f).kidsOf parent with
      | nil => exact absurd hk hnil
      | node => exact Nat.succ_pos _
    omega
  rcases sibWalk_some hlinked.1 hj' with ⟨a, ha⟩
  have hadd := addItem_next h hparent hj' ha itemh fold
  dsimp only at hadd
  rw [halter] at hadd
  rcases rows_addAfter hlinked.1 ha lv.fresh itemh fold false with ⟨front, back, hk, hk', hlast, hnext⟩
  rw [hk] at hrows hnodup
  rw [hk'] at hrows'
  rw [ha]
  dsimp only [Option.bind_some]
  cases hanext : (lv.items a).next with
  | some b =>
    rw [hanext] at hadd
    rcases hnext b hanext with ⟨row, back', hback, hrow⟩
    rw [hback] at hrows hrows' hnodup
    apply represents_add h hparent halter hadd.1 _ rfl
    dsimp only
    rw [hadd.2.1, hlinked.2.1, hfold, svlistItemAdd]
    have hold' : ⟨plvroot, 0⟩ :: lv.rows = (before ++ ⟨parent, oldh⟩ :: front) ++ row :: (back' ++ after) := by
      rw [hrows]
      simp
    have hnew' : ⟨plvroot, 0⟩ :: f'.rows false
        = (before ++ ⟨parent, oldh⟩ :: front) ++ ⟨lv.fresh, itemh⟩ :: row :: (back' ++ after) := by
      rw [hrows']
      simp
    rw [← hrows, hold'] at hnodup
    rcases root_split (by simp) hold' hnew' with ⟨before', hold, hnew, hmem⟩
    rw [if_neg Bool.false_ne_true, if_neg hpos, hold, hnew]
    apply insertBefore_append _ _ _ hrow
    intro r hr
    rw [← hrow]
    exact ne_of_nodup hnodup r (hmem r hr)
  | none =>
    rw [hanext] at hadd
    rcases hlast hanext with ⟨hback, before0, akids, hfront, hsize, hakids⟩
    rw [hback] at hrows hrows' hnodup hk
    rw [append_nil] at hrows hnodup hk
    apply represents_add h hparent halter hadd.1 _ rfl
    dsimp only
    rw [hadd.2.1, hlinked.2.1, hfold, svlistItemAdd]
    -- the children of the sibling are linked as before
    have hkidsorder : ((rootOf f).kidsOf parent).preorder = before0 ++ a :: akids.preorder := by
      rw [← map_rows false, hk, hfront]
    have hknodup : (before0 ++ a :: akids.preorder).Nodup := by
      rw [← hkidsorder]
      rcases preorder_alter hparent h.nodup id id id with ⟨before1, after1, hpre, _⟩
      have hn := h.nodup
      rw [hpre, nodup_append, nodup_cons, nodup_append] at hn
      exact hn.2.1.2.1
    generalize hitems : lvAddTree (lv.fresh + 1) _ parent lv.fresh = items at hadd ⊢
    have hakids' : Linked items (some a) (items a).child akids := by
      rw [hadd.2.2.1]
      apply hakids.congr
      intro x hx
      apply hadd.2.2.2
      . rw [hkidsorder]
        simp [hx]
      . rintro rfl
        rw [nodup_append, nodup_cons] at hknodup
        exact hknodup.2.1.1 hx
    have hksize : ((rootOf f).kidsOf parent).size ≤ (rootOf f).size := by
      rcases preorder_alter hparent h.nodup id id id with ⟨before1, after1, hpre, _⟩
      rw [← length_preorder, ← length_preorder, hpre]
      simp
      omega
    have hfuel := h.size_le
    rcases @lvGetLastChild_linked items (lv.fresh + 1) (lv.fresh + 1) a akids hakids' (by omega) (by omega) with
      ⟨pre, hpre⟩
    generalize lvGetLastChild items (lv.fresh + 1) (lv.fresh + 1) a = last at hpre ⊢
    have hfront' : front.map Row.addData = (before0 ++ pre) ++ [last] := by
      rw [hfront, hpre, append_assoc]
    rcases map_eq_append_iff.mp hfront' with ⟨front0, lastrow, hsplit, _, hlastrow⟩
    rcases map_eq_singleton_iff.mp hlastrow with ⟨row, hrow, hrowlast⟩
    rw [hsplit, hrow] at hrows hrows' hnodup
    have hold' : ⟨plvroot, 0⟩ :: lv.rows = (before ++ ⟨parent, oldh⟩ :: front0) ++ row :: after := by
      rw [hrows]
      simp
    have hnew' : ⟨plvroot, 0⟩ :: f'.rows false
        = (before ++ ⟨parent, oldh⟩ :: front0) ++ row :: ⟨lv.fresh, itemh⟩ :: after := by
      rw [hrows']
      simp
    rw [← hrows, hold'] at hnodup
    rcases root_split (by simp) hold' hnew' with ⟨before', hold, hnew, hmem⟩
    rw [if_neg Bool.false_ne_true, if_neg hpos, hold, hnew]
    apply insertAfter_append _ _ _ hrowlast
    intro r hr
    rw [← hrowlast]
    exact ne_of_nodup hnodup r (hmem r hr)

end MiniGui.ListView
