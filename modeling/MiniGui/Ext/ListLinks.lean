import MiniGui.Ext.ListForest

namespace MiniGui

open Function List Option

namespace ListView

variable {p : PItem} {f : Forest} {first : Option PItem} {items' : PItem → ItemData}

theorem mem_rest {pi : PItem} {itemh : Int} {fold : Bool} {kids rest : Forest}
    (hp : p ∈ (Forest.node pi itemh fold kids rest).preorder) (heq : pi ≠ p) (hk : p ∉ kids.preorder)
    : p ∈ rest.preorder := by
  rw [Forest.preorder_node, mem_cons, mem_append] at hp
  rcases hp with hp | hp | hp
  . exact absurd hp.symm heq
  . exact absurd hp hk
  . exact hp

theorem alter_of_not_mem (hp : p ∉ f.preorder) (itemh' : Int → Int) (fold' : Bool → Bool)
    (kids' : Forest → Forest) : f.alter p itemh' fold' kids' = f := by
  induction f with
  | nil => rfl
  | node pi itemh fold kids rest ihk ihr =>
    rw [Forest.preorder_node, mem_cons, mem_append, not_or, not_or] at hp
    rw [Forest.alter, if_neg (Ne.symm hp.1), ihk hp.2.1, ihr hp.2.2]

theorem size_alter {f : Forest} {p : PItem} (hp : p ∈ f.preorder) (hnodup : f.preorder.Nodup) {itemh' : Int → Int}
    {fold' : Bool → Bool} {kids' : Forest → Forest} {d : Int}
    (hsize : ((kids' (f.kidsOf p)).size : Int) = (f.kidsOf p).size + d)
    : ((f.alter p itemh' fold' kids').size : Int) = f.size + d := by
  induction f with
  | nil => cases hp
  | node pi itemh fold kids rest ihk ihr =>
    rcases Forest.nodup_node hnodup with ⟨_, hnodupk, hnodupr, hdisj⟩
    rw [Forest.kidsOf] at hsize
    by_cases heq : pi = p
    . rw [if_pos heq] at hsize
      rw [Forest.alter, if_pos heq, Forest.size, Forest.size]
      push_cast
      omega
    rw [if_neg heq] at hsize
    rw [Forest.alter, if_neg heq, Forest.size, Forest.size]
    by_cases hk : p ∈ kids.preorder
    . rw [if_pos hk] at hsize
      have hkids := ihk hk hnodupk hsize
      rw [alter_of_not_mem (hdisj p hk)]
      push_cast
      omega
    rw [if_neg hk] at hsize
    have hrest := ihr (mem_rest hp heq hk) hnodupr hsize
    rw [alter_of_not_mem hk]
    push_cast
    omega

theorem Linked.alter {items : PItem → ItemData} {parent : Option PItem}
    (h : Linked items parent first f) (hnodup : f.preorder.Nodup) (hp : p ∈ f.preorder)
    {itemh' : Int → Int} {fold' : Bool → Bool} {kids' : Forest → Forest} {d : Int}
    (hsize : ((kids' (f.kidsOf p)).size : Int) = (f.kidsOf p).size + d)
    (hlink : (items' p).parent = (items p).parent ∧ (items' p).next = (items p).next)
    (hitem : (items' p).itemh = itemh' (items p).itemh ∧ (items' p).fold = fold' (items p).fold
      ∧ (items' p).childNr = (items p).childNr + d)
    (hkids : Linked items' (some p) (items' p).child (kids' (f.kidsOf p)))
    (hpath : ∀ x ∈ f.path p, x ≠ p → items' x = { items x with childNr := (items x).childNr + d })
    (hother : ∀ x ∈ f.preorder, x ∉ f.path p → x ∉ (f.kidsOf p).preorder → items' x = items x)
    : Linked items' parent first (f.alter p itemh' fold' kids') := by
  induction f generalizing parent first with
  | nil => cases hp
  | node pi itemh fold kids rest ihk ihr =>
    rcases Forest.nodup_node hnodup with ⟨⟨hnotk, hnotr⟩, hnodupk, hnodupr, hdisj⟩
    rcases h with ⟨hfirst, hparent, hitemh, hfold, hnr, hlkids, hlrest⟩
    rw [Forest.kidsOf] at hsize hkids
    rw [Forest.path] at hpath
    rw [Forest.path, Forest.kidsOf] at hother
    by_cases heq : pi = p
    . subst heq
      rw [if_pos rfl] at hsize hkids hpath
      rw [if_pos rfl, if_pos rfl] at hother
      rw [Forest.alter, if_pos rfl, Linked, hlink.1, hlink.2, hitem.1, hitem.2.1, hitem.2.2, hitemh, hfold, hnr]
      refine ⟨hfirst, hparent, rfl, rfl, hsize.symm, hkids, hlrest.congr ?_⟩
      intro x hx
      apply hother x (by simp [hx])
      . intro hpathx
        rw [mem_singleton.mp hpathx] at hx
        exact hnotr hx
      . intro hxk
        exact hdisj x hxk hx
    rw [if_neg heq] at hsize hkids hpath
    rw [if_neg heq, if_neg heq] at hother
    rw [Forest.alter, if_neg heq]
    by_cases hk : p ∈ kids.preorder
    . rw [if_pos hk] at hsize hkids hpath
      rw [if_pos hk, if_pos hk] at hother
      have hpi : items' pi = { items pi with childNr := (items pi).childNr + d } :=
        hpath pi mem_cons_self heq
      have hsizek := @size_alter kids p hk hnodupk itemh' fold' kids' d hsize
      rw [alter_of_not_mem (hdisj p hk), Linked, hpi]
      refine ⟨hfirst, hparent, hitemh, hfold, ?_, ?_, hlrest.congr ?_⟩
      . show (items pi).childNr + d = _
        rw [hnr, hsizek]
      . apply ihk hlkids hnodupk hk hsize hkids
        . intro x hx
          exact hpath x (mem_cons_of_mem pi hx)
        intro x hx hnotpath hnotkid
        apply hother x (by simp [hx]) _ hnotkid
        rw [mem_cons, not_or]
        refine ⟨?_, hnotpath⟩
        rintro rfl
        exact hnotk hx
      intro x hx
      apply hother x (by simp [hx])
      . rw [mem_cons, not_or]
        refine ⟨?_, fun hpathx => hdisj x (path_subset x hpathx) hx⟩
        rintro rfl
        exact hnotr hx
      . exact fun hkid => hdisj x (kidsOf_subset x hkid) hx
    have hr := mem_rest hp heq hk
    rw [if_neg hk] at hsize hkids hpath
    rw [if_neg hk, if_neg hk] at hother
    have hpi : items' pi = items pi := by
      apply hother pi (by simp)
      . exact fun hpathx => hnotr (path_subset pi hpathx)
      . exact fun hkid => hnotr (kidsOf_subset pi hkid)
    rw [alter_of_not_mem hk, Linked, hpi]
    refine ⟨hfirst, hparent, hitemh, hfold, hnr, hlkids.congr ?_, ?_⟩
    . intro x hx
      apply hother x (by simp [hx])
      . exact fun hpathx => hdisj x hx (path_subset x hpathx)
      . exact fun hkid => hdisj x hx (kidsOf_subset x hkid)
    . apply ihr hlrest hnodupr hr hsize hkids hpath
      intro x hx
      exact hother x (by simp [hx])

def bump (d : Int) (l : List PItem) (items : PItem → ItemData) : PItem → ItemData :=
  fun x => if x ∈ l then { items x with childNr := (items x).childNr + d } else items x

theorem path_length : (f.path p).length ≤ f.size := by
  induction f with
  | nil => exact le_refl _
  | node pi itemh fold kids rest ihk ihr =>
    rw [Forest.path, Forest.size]
    split
    . show 1 ≤ _
      omega
    split
    . rw [length_cons]
      omega
    . omega

theorem addChildNr_path {items : PItem → ItemData} {parent : Option PItem}
    (h : Linked items parent first f) (hnodup : f.preorder.Nodup) (hp : p ∈ f.preorder) (d : Int) (hparents : ∀ x ∈ f.preorder, (items' x).parent = (items x).parent) (fuel : Nat)
    : addChildNr d (fuel + (f.path p).length) (some p) items' = addChildNr d fuel parent (bump d (f.path p) items') := by
  -- one round of the loop
  have hround : ∀ (fuel : Nat) (pp : PItem) (l : List PItem), pp ∉ l → pp ∈ f.preorder
      → addChildNr d (fuel + 1) (some pp) (bump d l items')
        = addChildNr d fuel (items pp).parent (bump d (pp :: l) items') := by
    intro fuel pp l hl hpp
    have hbump : Function.update (bump d l items') pp
        { bump d l items' pp with childNr := (bump d l items' pp).childNr + d } = bump d (pp :: l) items' := by
      funext x
      by_cases hx : x = pp
      . rw [hx, update_self, bump, bump, if_neg hl, if_pos mem_cons_self]
      . rw [update_of_ne hx, bump, bump]
        simp [hx]
    rw [addChildNr, hbump]
    have hparent : (bump d (pp :: l) items' pp).parent = (items pp).parent := by
      rw [bump, if_pos mem_cons_self]
      exact hparents pp hpp
    rw [hparent]
  induction f generalizing parent first fuel with
  | nil => cases hp
  | node pi itemh fold kids rest ihk ihr =>
    rcases Forest.nodup_node hnodup with ⟨⟨hnotk, hnotr⟩, hnodupk, hnodupr, hdisj⟩
    rcases h with ⟨hfirst, hparent, hitemh, hfold, hnr, hlkids, hlrest⟩
    have hempty : bump d [] items' = items' := by
      funext x
      rw [bump, if_neg not_mem_nil]
    rw [Forest.path]
    by_cases heq : pi = p
    . rw [if_pos heq, ← heq, ← hparent]
      have hone := hround fuel pi [] not_mem_nil (by simp)
      rw [hempty] at hone
      exact hone
    rw [if_neg heq]
    by_cases hk : p ∈ kids.preorder
    . rw [if_pos hk, length_cons, ← add_assoc, add_right_comm, ← hparent]
      rw [ihk hlkids hnodupk hk (fun x hx => hparents x (by simp [hx])) (fuel + 1)]
      . exact hround fuel pi _ (fun hpathx => hnotk (path_subset pi hpathx)) (by simp)
      . intro fuel pp l hl hpp
        exact hround fuel pp l hl (by simp [hpp])
    rw [if_neg hk]
    apply ihr hlrest hnodupr (mem_rest hp heq hk) (fun x hx => hparents x (by simp [hx])) fuel
    intro fuel pp l hl hpp
    exact hround fuel pp l hl (by simp [hpp])

theorem addChildNr_none (d : Int) (fuel : Nat) (items : PItem → ItemData) : addChildNr d fuel none items = items := by
  cases fuel <;> rfl

theorem addChildNr_tree {items : PItem → ItemData} (h : Linked items none first f)
    (hnodup : f.preorder.Nodup) (hp : p ∈ f.preorder) (d : Int)
    (hparents : ∀ x ∈ f.preorder, (items' x).parent = (items x).parent) {fuel : Nat} (hfuel : f.size ≤ fuel)
    : addChildNr d fuel (some p) items' = bump d (f.path p) items' := by
  have hlen := path_length (f := f) (p := p)
  have hwalk := addChildNr_path h hnodup hp d hparents (fuel - (f.path p).length)
  rw [Nat.sub_add_cancel (by omega), addChildNr_none] at hwalk
  exact hwalk

end ListView

end MiniGui

namespace MiniGui

open Function List Option

namespace ListView

section Siblings

def firstOf : Forest → Option PItem
  | .nil => none
  | .node pi _ _ _ _ => some pi

variable {items : PItem → ItemData}

theorem Linked.first {parent first : Option PItem} {f : Forest} (h : Linked items parent first f)
    : first = firstOf f := by
  cases f with
  | nil => exact h
  | node pi itemh fold kids rest => exact h.1

variable {a : PItem} {first parent : Option PItem} {j : Nat} {k f : Forest}

theorem sibWalk_mem (h : Linked items parent first k) (ha : sibWalk items j first = some a)
    : a ∈ k.preorder := by
  induction k generalizing first j with
  | nil =>
    rw [show first = none from h] at ha
    cases j <;> cases ha
  | node c ch cf kids rest _ ihr =>
    rcases h with ⟨hfirst, _, _, _, _, _, hlrest⟩
    rw [hfirst] at ha
    cases j with
    | zero => rw [some_inj.mp ha]; simp
    | succ j =>
      have hrest := ihr hlrest ha
      simp [hrest]

theorem sibWalk_some {parent first : Option PItem} {k : Forest}
    (h : Linked items parent first k) {j : Nat} (hj : j < k.count)
    : ∃ a, sibWalk items j first = some a := by
  induction k generalizing first j with
  | nil => exact absurd hj (Nat.not_lt_zero j)
  | node c ch cf kids rest _ ihr =>
    rcases h with ⟨hfirst, _, _, _, _, _, hlrest⟩
    rw [hfirst]
    cases j with
    | zero => exact ⟨c, rfl⟩
    | succ j => exact ihr hlrest (Nat.lt_of_succ_lt_succ hj)

theorem Linked.addAfter {items items' : PItem → ItemData} {p pnew : PItem}
    (h : Linked items (some p) first k) (hnodup : k.preorder.Nodup) (hj : j < k.count)
    (ha : sibWalk items j first = some a) {itemh : Int} {fold : Bool}
    (hnew : items' pnew = ⟨(items a).next, none, some p, 0, itemh, fold⟩)
    (hprev : items' a = { items a with next := some pnew })
    (hother : ∀ x ∈ k.preorder, x ≠ a → items' x = items x)
    : Linked items' (some p) first (k.addAfter pnew itemh fold j) := by
  induction k generalizing first j with
  | nil => exact absurd hj (Nat.not_lt_zero j)
  | node c ch cf kids rest _ ihr =>
    rcases Forest.nodup_node hnodup with ⟨⟨hnotk, hnotr⟩, hnodupk, hnodupr, hdisj⟩
    rcases h with ⟨hfirst, hparent, hitemh, hfold, hnr, hlkids, hlrest⟩
    cases j with
    | zero =>
      rw [hfirst] at ha
      have hca : c = a := some_inj.mp ha
      subst hca
      have hkids : ∀ x ∈ kids.preorder, items' x = items x := by
        intro x hx
        apply hother x (by simp [hx])
        rintro rfl
        exact hnotk hx
      have hrest : ∀ x ∈ rest.preorder, items' x = items x := by
        intro x hx
        apply hother x (by simp [hx])
        rintro rfl
        exact hnotr hx
      rw [Forest.addAfter, Linked, hprev]
      refine ⟨hfirst, hparent, hitemh, hfold, hnr, hlkids.congr hkids, ?_⟩
      rw [Linked, hnew]
      exact ⟨rfl, rfl, rfl, rfl, rfl, rfl, hlrest.congr hrest⟩
    | succ j =>
      rw [hfirst] at ha
      have hj' : j < rest.count := Nat.lt_of_succ_lt_succ hj
      have har := sibWalk_mem hlrest ha
      have hc : items' c = items c := by
        apply hother c (by simp)
        rintro rfl
        exact hnotr har
      have hkids : ∀ x ∈ kids.preorder, items' x = items x := by
        intro x hx
        apply hother x (by simp [hx])
        rintro rfl
        exact hdisj x hx har
      rw [Forest.addAfter, Linked, hc]
      refine ⟨hfirst, hparent, hitemh, hfold, hnr, hlkids.congr hkids, ihr hlrest hnodupr hj' ha ?_⟩
      intro x hx hne
      exact hother x (by simp [hx]) hne

theorem count_le_size (f : Forest) : f.count ≤ f.size := by
  induction f with
  | nil => exact le_refl _
  | node pi itemh fold kids rest _ ihr =>
    rw [Forest.count, Forest.size]
    omega

theorem lastSib_linked {c : PItem}
    (h : Linked items parent (some c) f) {fuel : Nat} (hfuel : f.count ≤ fuel)
    : ∃ before kids, f.preorder = before ++ lastSib items fuel c :: kids.preorder ∧ kids.size < f.size
      ∧ Linked items (some (lastSib items fuel c)) (items (lastSib items fuel c)).child kids := by
  induction f generalizing c fuel with
  | nil => cases h
  | node pi itemh fold kids rest _ ihr =>
    rcases h with ⟨hfirst, _, _, _, _, hlkids, hlrest⟩
    have hc : c = pi := some_inj.mp hfirst
    subst hc
    rw [Forest.count] at hfuel
    cases fuel with
    | zero => omega
    | succ fuel =>
      cases hnext : (items c).next with
      | none =>
        have hlast : lastSib items (fuel + 1) c = c := by rw [lastSib, hnext]
        rw [hlast]
        have hnil : rest = .nil := by
          cases rest with
          | nil => rfl
          | node => rw [hnext] at hlrest; cases hlrest.1
        subst hnil
        refine ⟨[], kids, ?_, ?_, hlkids⟩
        . simp
        . rw [Forest.size]
          omega
      | some next =>
        have hlast : lastSib items (fuel + 1) c = lastSib items fuel next := by rw [lastSib, hnext]
        rw [hlast]
        rw [hnext] at hlrest
        rcases ihr hlrest (show rest.count ≤ fuel by omega) with ⟨before, kids', hpre, hsize, hlinked⟩
        refine ⟨c :: (kids.preorder ++ before), kids', ?_, ?_, hlinked⟩
        . rw [Forest.preorder_node, hpre]
          simp
        . rw [Forest.size]
          omega

theorem lvGetLastChild_linked {items : PItem → ItemData} {fuel : Nat} {depth : Nat} {pitem : PItem} {k : Forest}
    (h : Linked items (some pitem) (items pitem).child k) (hdepth : k.size < depth) (hfuel : k.size ≤ fuel)
    : ∃ before, pitem :: k.preorder = before ++ [lvGetLastChild items fuel depth pitem] := by
  induction depth generalizing pitem k with
  | zero => exact absurd hdepth (Nat.not_lt_zero _)
  | succ depth ih =>
    cases hchild : (items pitem).child with
    | none =>
      rw [hchild] at h
      have hlast : lvGetLastChild items fuel (depth + 1) pitem = pitem := by rw [lvGetLastChild, hchild]
      have hnil : k = .nil := by
        cases k with
        | nil => rfl
        | node => cases h.1
      rw [hlast, hnil]
      exact ⟨[], rfl⟩
    | some c =>
      rw [hchild] at h
      have hlast : lvGetLastChild items fuel (depth + 1) pitem
          = lvGetLastChild items fuel depth (lastSib items fuel c) := by rw [lvGetLastChild, hchild]
      have hcount := count_le_size k
      rcases lastSib_linked h (by omega : k.count ≤ fuel) with ⟨before, kids, hpre, hsize, hlinked⟩
      rcases ih hlinked (by omega) (by omega) with ⟨before', hbefore'⟩
      refine ⟨pitem :: (before ++ before'), ?_⟩
      rw [hlast, hpre, hbefore']
      simp

theorem firstOf_eq_none (h : none = firstOf f) : f = .nil := by
  cases f with
  | nil => rfl
  | node => cases h

theorem rows_addAfter {parent first : Option PItem} {k : Forest}
    (h : Linked items parent first k) {j : Nat} {a : PItem} (ha : sibWalk items j first = some a) (pnew : PItem)
    (itemh : Int) (fold hidden : Bool) : ∃ before after, k.rows hidden = before ++ after
      ∧ (k.addAfter pnew itemh fold j).rows hidden = before ++ ⟨pnew, if hidden then 0 else itemh⟩ :: after
      ∧ ((items a).next = none → after = [] ∧ ∃ before' akids, before.map Row.addData = before' ++ a :: akids.preorder
        ∧ akids.size < k.size ∧ Linked items (some a) (items a).child akids)
      ∧ ∀ b, (items a).next = some b → ∃ row after', after = row :: after' ∧ row.addData = b := by
  induction k generalizing first j with
  | nil =>
    rw [show first = none from h] at ha
    cases j <;> cases ha
  | node c ch cf kids rest _ ihr =>
    rcases h with ⟨hfirst, _, _, _, _, hlkids, hlrest⟩
    rw [hfirst] at ha
    cases j with
    | zero =>
      have hca : c = a := some_inj.mp ha
      subst hca
      refine ⟨⟨c, if hidden then 0 else ch⟩ :: kids.rows (hidden || cf), rest.rows hidden, rfl, rfl, ?_, ?_⟩
      . intro hnext
        rw [hnext] at hlrest
        have hnil := firstOf_eq_none hlrest.first
        subst hnil
        refine ⟨rfl, [], kids, ?_, ?_, hlkids⟩
        . rw [map_cons, Forest.map_rows]
          rfl
        . rw [Forest.size]
          omega
      intro b hnext
      rw [hnext] at hlrest
      cases rest with
      | nil => cases hlrest
      | node q qh qf qk qr =>
        refine ⟨_, _, rfl, ?_⟩
        exact (some_inj.mp hlrest.1).symm
    | succ j =>
      rcases ihr hlrest ha with ⟨before, after, hrows, hadd, hlast, hnext⟩
      refine ⟨⟨c, if hidden then 0 else ch⟩ :: (kids.rows (hidden || cf) ++ before), after, ?_, ?_, ?_, hnext⟩
      . rw [Forest.rows, hrows]
        simp
      . rw [Forest.addAfter, Forest.rows, hadd]
        simp
      intro hnone
      rcases hlast hnone with ⟨hafter, before', akids, hbefore, hsize, hlinked⟩
      refine ⟨hafter, c :: (kids.preorder ++ before'), akids, ?_, ?_, hlinked⟩
      . rw [map_cons, map_append, Forest.map_rows, hbefore]
        simp
      . rw [Forest.size]
        omega

end Siblings

variable {before : List Row} {row : Row}

theorem insertAfter_append {pre : PItem} (ci : Row) (after : List Row)
    (hbefore : ∀ r ∈ before, r.addData ≠ pre) (hrow : row.addData = pre)
    : insertAfter pre ci (before ++ row :: after) = before ++ row :: ci :: after := by
  induction before with
  | nil => rw [nil_append, insertAfter, if_pos hrow, nil_append]
  | cons r before ih =>
    rw [cons_append, insertAfter, if_neg (hbefore r mem_cons_self), ih, cons_append]
    intro r' hr'
    exact hbefore r' (mem_cons_of_mem r hr')

theorem insertBefore_append {next : PItem} (ci : Row) (after : List Row)
    (hbefore : ∀ r ∈ before, r.addData ≠ next) (hrow : row.addData = next)
    : insertBefore next ci (before ++ row :: after) = before ++ ci :: row :: after := by
  induction before with
  | nil => rw [nil_append, insertBefore, if_pos hrow, nil_append]
  | cons r before ih =>
    rw [cons_append, insertBefore, if_neg (hbefore r mem_cons_self), ih, cons_append]
    intro r' hr'
    exact hbefore r' (mem_cons_of_mem r hr')

end ListView

end MiniGui
