import MiniGui.Ext.ListLinks

namespace MiniGui.ListView

open Function List

open Forest (alter foldAt map_rows nodup_node path rows_alter size)

def rootOf (f : Forest) : Forest :=
  .node plvroot 0 false f .nil

structure Represents (lv : LVData) (f : Forest) : Prop where
  linked : Linked lv.items none (some plvroot) (rootOf f)
  rows : lv.rows = f.rows false
  nodup : (rootOf f).preorder.Nodup
  fresh : ∀ x ∈ (rootOf f).preorder, x < lv.fresh

theorem rows_rootOf (f : Forest) : (rootOf f).rows false = ⟨plvroot, 0⟩ :: f.rows false := by
  simp [rootOf, Forest.rows]

variable {f : Forest} {lv : LVData} {p pi : PItem} {before : List Row} {row : Row} {height m : Int}
  {hidden : Bool}

theorem Represents.size_le (h : Represents lv f) : (rootOf f).size ≤ lv.fresh := by
  rw [← Forest.length_preorder]
  have hsub : (rootOf f).preorder ⊆ List.range lv.fresh := fun x hx => mem_range.mpr (h.fresh x hx)
  have hle := (subperm_of_subset h.nodup hsub).length_le
  rw [length_range] at hle
  exact hle

def treeMsg (size : Nat) (f : Forest) (fresh : PItem) : LVMsg → Forest
  | .addItem parent nItem nItemHeight fold =>
    let itemh := if nItemHeight > 0 then nItemHeight else (size : Int) + 6
    match (rootOf f).alter parent id id (Forest.addAfter fresh itemh fold (nItem - 1)) with
    | .nil => .nil
    | .node _ _ _ kids _ => kids
  | .delItem pi => f.remove pi
  | .foldItem pi bFold => f.alter pi id (fun _ => bFold) id
  | .setItemHeight pi height => f.alter pi (fun _ => height) id id
  | .delAllItem => .nil

def revealFits (hidden : Bool) : Forest → Prop
  | .nil => True
  | .node _ itemh fold kids rest =>
    (if hidden then itemh ≤ 0 else 0 ≤ itemh) ∧ (fold = false → revealFits hidden kids) ∧ revealFits hidden rest

def firstFits (pi : PItem) : Forest → Prop
  | .nil => True
  | .node _ _ _ kids rest =>
    (firstOf kids = some pi → kids.count = 1 ∧ rest = .nil) ∧ firstFits pi kids ∧ firstFits pi rest

def msgFits (f : Forest) : LVMsg → Prop
  | .addItem parent nItem _ _ =>
    ((rootOf f).kidsOf parent = .nil ∨ nItem ≤ ((rootOf f).kidsOf parent).count)
      ∧ (rootOf f).hiddenAt parent false = false ∧ (rootOf f).foldAt parent = false
  | .delItem pi => f.kidsOf pi = .nil ∧ firstFits pi (rootOf f)
  | .foldItem pi bFold =>
    bFold = false → f.foldAt pi = true → revealFits (f.hiddenAt pi false) (f.kidsOf pi)
  | .setItemHeight pi height => if f.hiddenAt pi false then height ≤ 0 else 0 ≤ height
  | .delAllItem => True

def msgOk (f : Forest) : LVMsg → Prop
  | .addItem parent _ _ _ => parent ∈ (rootOf f).preorder
  | .delItem pi => pi ∈ f.preorder
  | .foldItem pi _ => pi ∈ f.preorder
  | .setItemHeight pi _ => pi ∈ f.preorder
  | .delAllItem => True

theorem rootOf_alter (hp : p ≠ plvroot) (itemh' : Int → Int) (fold' : Bool → Bool)
    (kids' : Forest → Forest)
    : (rootOf f).alter p itemh' fold' kids' = rootOf (f.alter p itemh' fold' kids') := by
  rw [rootOf, alter, if_neg (Ne.symm hp)]
  rfl

theorem root_parts (hnodup : (rootOf f).preorder.Nodup) (hp : p ∈ f.preorder)
    : p ≠ plvroot ∧ p ∈ (rootOf f).preorder ∧ (rootOf f).kidsOf p = f.kidsOf p ∧ (rootOf f).foldAt p = f.foldAt p
      ∧ (rootOf f).hiddenAt p false = f.hiddenAt p false := by
  rcases nodup_node hnodup with ⟨⟨hroot, _⟩, _⟩
  have hne : p ≠ plvroot := by
    rintro rfl
    exact hroot hp
  have hmem : p ∈ (rootOf f).preorder := by
    rw [rootOf, Forest.preorder_node]
    exact mem_cons_of_mem _ (mem_append_left _ hp)
  refine ⟨hne, hmem, ?_, ?_, ?_⟩
  . rw [rootOf, Forest.kidsOf, if_neg (Ne.symm hne), if_pos hp]
  . rw [rootOf, foldAt, if_neg (Ne.symm hne), if_pos hp]
  . rw [rootOf, Forest.hiddenAt, if_neg (Ne.symm hne), if_pos hp]
    rfl

theorem preorder_alter (hp : p ∈ f.preorder) (hnodup : f.preorder.Nodup) (itemh' : Int → Int)
    (fold' : Bool → Bool) (kids' : Forest → Forest)
    : ∃ before after, f.preorder = before ++ p :: ((f.kidsOf p).preorder ++ after)
      ∧ (f.alter p itemh' fold' kids').preorder = before ++ p :: ((kids' (f.kidsOf p)).preorder ++ after) := by
  rcases rows_alter hp hnodup false with ⟨before, after, _, itemh, hrows, halter⟩
  refine ⟨before.map Row.addData, after.map Row.addData, ?_, ?_⟩
  . rw [← map_rows false f, hrows]
    simp [map_rows]
  . rw [← map_rows false, halter]
    simp [map_rows]

theorem rows_split (hp : p ∈ f.preorder) (hnodup : f.preorder.Nodup)
    : ∃ (before after : List Row) (itemh : Int), (∀ row ∈ before, row.addData ≠ p)
      ∧ (∀ hidden kids', kids' = f.kidsOf p → ∀ row ∈ kids'.rows hidden ++ after, row.addData ≠ p)
      ∧ f.rows false = before ++ ⟨p, if f.hiddenAt p false then 0 else itemh⟩
        :: ((f.kidsOf p).rows (f.hiddenAt p false || f.foldAt p) ++ after)
      ∧ ∀ itemh' fold' kids', (f.alter p itemh' fold' kids').rows false
        = before ++ ⟨p, if f.hiddenAt p false then 0 else itemh' itemh⟩
          :: ((kids' (f.kidsOf p)).rows (f.hiddenAt p false || fold' (f.foldAt p)) ++ after) := by
  rcases rows_alter hp hnodup false with ⟨before, after, hbefore, itemh, hrows, halter⟩
  refine ⟨before, after, itemh, hbefore, ?_, hrows, halter⟩
  rintro hidden kids' rfl row hrow hrowp
  rw [← map_rows false f, hrows, map_append, map_cons, nodup_append] at hnodup
  apply (nodup_cons.mp hnodup.2.1).1
  rw [map_append, map_rows, ← map_rows hidden, ← map_append]
  have hmem := List.mem_map_of_mem (f := Row.addData) hrow
  rw [hrowp] at hmem
  exact hmem

theorem not_mem_kidsOf (hp : p ∈ f.preorder) (hnodup : f.preorder.Nodup)
    : p ∉ (f.kidsOf p).preorder := by
  rcases preorder_alter hp hnodup id id id with ⟨before, after, hpre, _⟩
  rw [hpre, nodup_append, nodup_cons, mem_append, not_or] at hnodup
  exact hnodup.2.1.1.1

theorem mem_path (hp : p ∈ f.preorder) : p ∈ f.path p := by
  induction f with
  | nil => cases hp
  | node pi itemh fold kids rest ihk ihr =>
    rw [path]
    by_cases heq : pi = p
    . rw [if_pos heq, heq]
      exact mem_singleton_self p
    rw [if_neg heq]
    by_cases hk : p ∈ kids.preorder
    . rw [if_pos hk]
      exact mem_cons_of_mem pi (ihk hk)
    . rw [if_neg hk]
      exact ihr (mem_rest hp heq hk)

theorem represents_item {lv lv' : LVData} {f : Forest} (h : Represents lv f) {pi : PItem} (hpi : pi ∈ f.preorder)
    {itemh' : Int → Int} {fold' : Bool → Bool} (hitems : lv'.items = Function.update lv.items pi
      { lv.items pi with itemh := itemh' (lv.items pi).itemh, fold := fold' (lv.items pi).fold })
    (hfresh : lv'.fresh = lv.fresh) (hrows : lv'.rows = (f.alter pi itemh' fold' id).rows false)
    : Represents lv' (f.alter pi itemh' fold' id) := by
  rcases root_parts h.nodup hpi with ⟨hne, hmem, _⟩
  have halter := rootOf_alter (f := f) hne itemh' fold' id
  rcases preorder_alter hmem h.nodup itemh' fold' id with ⟨before, after, hpre, hpre'⟩
  have hsame : ((rootOf f).alter pi itemh' fold' id).preorder = (rootOf f).preorder := hpre'.trans hpre.symm
  rw [halter] at hsame
  refine ⟨?_, hrows, ?_, ?_⟩
  . rw [← halter]
    have hself : lv'.items pi
        = { lv.items pi with itemh := itemh' (lv.items pi).itemh, fold := fold' (lv.items pi).fold } := by
      rw [hitems, update_self]
    have hother : ∀ x, x ≠ pi → lv'.items x = lv.items x := by
      intro x hx
      rw [hitems, update_of_ne hx]
    apply h.linked.alter h.nodup hmem (d := 0)
    . rw [add_zero]
      rfl
    . rw [hself]
      exact ⟨rfl, rfl⟩
    . rw [hself]
      exact ⟨rfl, rfl, (add_zero _).symm⟩
    . rw [hself]
      apply (h.linked.kidsOf hmem).1.congr
      intro x hx
      apply hother
      rintro rfl
      exact not_mem_kidsOf hmem h.nodup hx
    . intro x _ hx
      rw [hother x hx, add_zero]
    intro x _ hpath _
    apply hother
    rintro rfl
    exact hpath (mem_path hmem)
  . rw [hsame]
    exact h.nodup
  . rw [hsame, hfresh]
    exact h.fresh

theorem setItemHeight_append {after : List Row} (height : Int)
    (hbefore : ∀ r ∈ before, r.addData ≠ p) (hafter : ∀ r ∈ after, r.addData ≠ p) (hrow : row.addData = p)
    : setItemHeight (before ++ row :: after) p height = before ++ setHeight height row :: after := by
  have hsame : ∀ l : List Row, (∀ r ∈ l, r.addData ≠ p) → setItemHeight l p height = l := by
    intro l hl
    have hid : l.map (fun row => if row.addData = p then setHeight height row else row) = l.map id :=
      map_congr_left fun r hr => if_neg (hl r hr)
    rw [setItemHeight, hid, List.map_id]
  rw [setItemHeight, map_append, map_cons, if_pos hrow]
  have hb := hsame before hbefore
  have ha := hsame after hafter
  rw [setItemHeight] at hb ha
  rw [hb, ha]

theorem setHeight_visible (p : PItem) {old : Int} (hold : hidden = true → old = 0)
    (hfit : if hidden then height ≤ 0 else 0 ≤ height)
    : setHeight height ⟨p, old⟩ = ⟨p, if hidden then 0 else height⟩ := by
  cases hidden with
  | false =>
    have hnot : ¬height < 0 := not_lt.mpr hfit
    rw [setHeight, if_neg hnot]
    rfl
  | true =>
    have hle : height ≤ 0 := hfit
    rw [hold rfl, setHeight]
    by_cases hneg : height < 0
    . rw [if_pos hneg]
      rfl
    rw [if_neg hneg]
    have hzero : height = 0 := by omega
    rw [hzero]
    rfl

theorem lvSetItemHeight_represents (h : Represents lv f) (hpi : pi ∈ f.preorder) (hfit : if f.hiddenAt pi false then height ≤ 0 else 0 ≤ height)
    : Represents (lvSetItemHeight lv pi height) (f.alter pi (fun _ => height) id id) := by
  rcases nodup_node h.nodup with ⟨_, hnodup, _⟩
  have hitem := @represents_item lv (lvSetItemHeight lv pi height) f h pi hpi (fun _ => height) id rfl rfl
  apply hitem
  rcases rows_split hpi hnodup with ⟨before, after, itemh, hbefore, hafter, hrows, halter⟩
  show setItemHeight lv.rows pi height = _
  rw [h.rows, hrows, halter, setItemHeight_append height hbefore (hafter _ _ rfl) rfl,
    setHeight_visible pi (fun hhidden => by rw [hhidden]; rfl) hfit]
  rfl

theorem foldRows_zero (items : PItem → ItemData) (bFold : Bool) (rows : List Row)
    : foldRows items bFold rows 0 0 = rows := by
  cases rows with
  | nil => rfl
  | cons row rows => rw [foldRows, if_neg (lt_irrefl 0), if_pos (le_refl (0 : Int))]

theorem foldRows_skip (items : PItem → ItemData) (bFold : Bool) (skipped rows : List Row) (n : Int)
    : foldRows items bFold (skipped ++ rows) n skipped.length = skipped ++ foldRows items bFold rows n 0 := by
  induction skipped with
  | nil => rfl
  | cons row skipped ih =>
    rw [cons_append, length_cons, foldRows, if_pos (Nat.succ_pos _), Nat.add_sub_cancel, ih,
      cons_append]

theorem foldRows_fold (items : PItem → ItemData) (k : Forest) (hidden : Bool) (rows : List Row) (hm : 0 ≤ m)
    : foldRows items true (k.rows hidden ++ rows) (k.size + m) 0 = k.rows true ++ foldRows items true rows m 0 := by
  induction k generalizing hidden rows m with
  | nil =>
    rw [Forest.rows, Forest.rows, size, nil_append, nil_append]
    simp
  | node pi itemh fold kids rest ihk ihr =>
    have hpos : ¬((Forest.node pi itemh fold kids rest).size : Int) + m ≤ 0 := by
      rw [size]
      push_cast
      omega
    have hcount : ((Forest.node pi itemh fold kids rest).size : Int) + m - 1 = kids.size + (rest.size + m) := by
      rw [size]
      push_cast
      omega
    rw [Forest.rows, Forest.rows, cons_append, foldRows, if_neg (lt_irrefl 0), if_neg hpos]
    simp only [Bool.true_eq_false, false_and, if_false, if_true]
    rw [hcount, append_assoc, ihk _ _ (by omega), ihr _ _ hm]
    simp [setHeight]

theorem foldRows_unfold {items : PItem → ItemData} {parent first : Option PItem} {k : Forest}
    (h : Linked items parent first k) (hfit : revealFits hidden k) (rows : List Row) (hm : 0 ≤ m)
    : foldRows items false (k.rows true ++ rows) (k.size + m) 0 = k.rows hidden ++ foldRows items false rows m 0 := by
  induction k generalizing parent first rows m with
  | nil =>
    rw [Forest.rows, Forest.rows, size, nil_append, nil_append]
    simp
  | node pi itemh fold kids rest ihk ihr =>
    rcases h with ⟨hfirst, hparent, hitemh, hfold, hnr, hlkids, hlrest⟩
    rcases hfit with ⟨hheight, hkids, hrest⟩
    have hpos : ¬((Forest.node pi itemh fold kids rest).size : Int) + m ≤ 0 := by
      rw [size]
      push_cast
      omega
    have hcount : ((Forest.node pi itemh fold kids rest).size : Int) + m - 1 = kids.size + (rest.size + m) := by
      rw [size]
      push_cast
      omega
    have hrow : setHeight itemh ⟨pi, 0⟩ = ⟨pi, if hidden then 0 else itemh⟩ :=
      setHeight_visible pi (fun _ => rfl) hheight
    rw [Forest.rows, Forest.rows, cons_append, foldRows, if_neg (lt_irrefl 0), if_neg hpos]
    simp only [Bool.false_eq_true, if_true, if_false, true_and, Bool.true_or]
    rw [hitemh, hfold, hnr, hrow, hcount, append_assoc]
    cases fold with
    | false =>
      simp only [Bool.false_eq_true, false_and, if_false, Bool.or_false]
      rw [ihk hlkids (hkids rfl) _ (by omega), ihr hlrest hrest _ hm]
      simp
    | true =>
      by_cases hempty : (kids.size : Int) > 0
      . rw [if_pos ⟨rfl, hempty⟩, Int.toNat_natCast, ← Forest.length_rows true kids, foldRows_skip, add_sub_cancel_left,
          ihr hlrest hrest _ hm]
        simp
      rw [if_neg (fun hboth => hempty hboth.2)]
      cases kids with
      | nil =>
        rw [Forest.rows, Forest.rows, size]
        simp only [nil_append, Nat.cast_zero, zero_add]
        rw [ihr hlrest hrest _ hm]
        rfl
      | node =>
        rw [size] at hempty
        push_cast at hempty
        omega

theorem foldFrom_append (items : PItem → ItemData) (bFold : Bool) (n : Int)
    (after : List Row) (hbefore : ∀ r ∈ before, r.addData ≠ p) (hrow : row.addData = p)
    : foldFrom items p bFold n (before ++ row :: after) = before ++ row :: foldRows items bFold after n 0 := by
  induction before with
  | nil => rw [nil_append, foldFrom, if_pos hrow, nil_append]
  | cons r before ih =>
    rw [cons_append, foldFrom, if_neg (hbefore r mem_cons_self), ih, cons_append]
    intro r' hr'
    exact hbefore r' (mem_cons_of_mem r hr')

theorem alter_same (hp : p ∈ f.preorder) (hnodup : f.preorder.Nodup)
    : f.alter p id (fun _ => f.foldAt p) id = f := by
  induction f with
  | nil => rfl
  | node pi itemh fold kids rest ihk ihr =>
    rcases nodup_node hnodup with ⟨_, hnodupk, hnodupr, hdisj⟩
    rw [foldAt, alter]
    by_cases heq : pi = p
    . rw [if_pos heq, if_pos heq]
      rfl
    rw [if_neg heq, if_neg heq]
    by_cases hk : p ∈ kids.preorder
    . rw [if_pos hk, ihk hk hnodupk, alter_of_not_mem (hdisj p hk)]
    . rw [if_neg hk, ihr (mem_rest hp heq hk) hnodupr, alter_of_not_mem hk]

theorem lvFoldItem_represents (h : Represents lv f) (hpi : pi ∈ f.preorder) {bFold : Bool}
    (hfit : bFold = false → f.foldAt pi = true → revealFits (f.hiddenAt pi false) (f.kidsOf pi))
    : Represents (lvFoldItem lv pi bFold) (f.alter pi id (fun _ => bFold) id) := by
  rcases root_parts h.nodup hpi with ⟨_, hmem, hkids, hfold, _⟩
  rcases nodup_node h.nodup with ⟨_, hnodup, _⟩
  have hlinked := h.linked.kidsOf hmem
  rw [hkids, hfold] at hlinked
  rw [lvFoldItem]
  by_cases hsame : (lv.items pi).fold = bFold
  . rw [if_pos hsame, ← hsame, hlinked.2.1, alter_same hpi hnodup]
    exact h
  rw [if_neg hsame]
  apply represents_item h hpi
  . rfl
  . rfl
  rcases rows_split hpi hnodup with ⟨before, after, itemh, hbefore, hafter, hrows, halter⟩
  dsimp only
  rw [h.rows, hrows, halter, foldFrom_append _ _ _ _ hbefore rfl, update_self]
  rw [hlinked.2.2, ← add_zero ((f.kidsOf pi).size : Int)]
  cases bFold with
  | true =>
    rw [foldRows_fold _ _ _ _ (le_refl 0), foldRows_zero, Bool.or_true]
    rfl
  | false =>
    have hfolded : f.foldAt pi = true := by
      rw [hlinked.2.1] at hsame
      simpa using hsame
    have hkids' : Linked (Function.update lv.items pi
        { lv.items pi with childNr := (f.kidsOf pi).size + 0, fold := false }) (some pi) (lv.items pi).child
        (f.kidsOf pi) := by
      apply hlinked.1.congr
      intro x hx
      apply update_of_ne
      rintro rfl
      exact not_mem_kidsOf hpi hnodup hx
    rw [hfolded, Bool.or_true, foldRows_unfold hkids' (hfit rfl hfolded) _ (le_refl 0), foldRows_zero, Bool.or_false]
    rfl

end MiniGui.ListView
