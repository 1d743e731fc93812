import MiniGui.Ext.ListAdd

namespace MiniGui

open Function List

namespace ListView

def roots : Forest → List PItem
  | .nil => []
  | .node pi _ _ _ rest => pi :: roots rest

variable {k f : Forest} {first : Option PItem} {items : PItem → ItemData} {x p : PItem}

theorem roots_subset : ∀ x ∈ roots k, x ∈ k.preorder := by
  induction k with
  | nil => intro x hx; cases hx
  | node pi itemh fold kids rest _ ihr =>
    intro x hx
    rcases mem_cons.mp hx with rfl | hx
    . simp
    . have hrest := ihr x hx
      simp [hrest]

theorem parent_of {parent : Option PItem}
    (h : Linked items parent first f) (hnodup : f.preorder.Nodup) (hx : x ∈ f.preorder)
    : (x ∈ roots f ∧ (items x).parent = parent)
      ∨ ∃ p ∈ f.preorder, (items x).parent = some p ∧ x ∈ roots (f.kidsOf p) := by
  induction f generalizing parent first with
  | nil => cases hx
  | node pi itemh fold kids rest ihk ihr =>
    rcases Forest.nodup_node hnodup with ⟨⟨hnotk, hnotr⟩, hnodupk, hnodupr, hdisj⟩
    rcases h with ⟨hfirst, hparent, _, _, _, hlkids, hlrest⟩
    by_cases heq : pi = x
    . subst heq
      exact .inl ⟨mem_cons_self, hparent⟩
    by_cases hk : x ∈ kids.preorder
    . right
      rcases ihk hlkids hnodupk hk with ⟨hroot, hpx⟩ | ⟨p, hp, hpx, hroot⟩
      . exact ⟨pi, by simp, hpx, by rw [Forest.kidsOf, if_pos rfl]; exact hroot⟩
      have hne : pi ≠ p := by
        rintro rfl
        exact hnotk hp
      exact ⟨p, by simp [hp], hpx, by rw [Forest.kidsOf, if_neg hne, if_pos hp]; exact hroot⟩
    rcases ihr hlrest hnodupr (mem_rest hx heq hk) with ⟨hroot, hpx⟩ | ⟨p, hp, hpx, hroot⟩
    . exact .inl ⟨mem_cons_of_mem pi hroot, hpx⟩
    right
    have hne : pi ≠ p := by
      rintro rfl
      exact hnotr hp
    have hpk : p ∉ kids.preorder := fun hpk => hdisj p hpk hp
    exact ⟨p, by simp [hp], hpx, by rw [Forest.kidsOf, if_neg hne, if_neg hpk]; exact hroot⟩

theorem remove_of_not_mem (hx : x ∉ f.preorder) : f.remove x = f := by
  induction f with
  | nil => rfl
  | node pi itemh fold kids rest ihk ihr =>
    rw [Forest.preorder_node, mem_cons, mem_append, not_or, not_or] at hx
    rw [Forest.remove, if_neg (Ne.symm hx.1), ihk hx.2.1, ihr hx.2.2]

theorem remove_sublist (f : Forest) (x : PItem) : (f.remove x).preorder.Sublist f.preorder := by
  induction f with
  | nil => exact Sublist.refl _
  | node pi itemh fold kids rest ihk ihr =>
    rw [Forest.remove, Forest.preorder_node]
    split
    . exact (sublist_append_right kids.preorder rest.preorder).cons pi
    . rw [Forest.preorder_node]
      exact (ihk.append ihr).cons_cons pi

theorem rows_remove (hnodup : f.preorder.Nodup) (hleaf : f.kidsOf x = .nil) (hidden : Bool)
    : (f.remove x).rows hidden = (f.rows hidden).eraseP fun row => row.addData = x := by
  have hnone : ∀ {g : Forest} (hidden : Bool), x ∉ g.preorder
      → ∀ row ∈ g.rows hidden, ¬decide (row.addData = x) = true := by
    intro g hidden hg row hrow hrowx
    apply hg
    rw [← Forest.map_rows hidden, ← of_decide_eq_true hrowx]
    exact List.mem_map_of_mem hrow
  induction f generalizing hidden with
  | nil => rfl
  | node pi itemh fold kids rest ihk ihr =>
    rcases Forest.nodup_node hnodup with ⟨_, hnodupk, hnodupr, hdisj⟩
    rw [Forest.kidsOf] at hleaf
    rw [Forest.remove, Forest.rows]
    by_cases heq : pi = x
    . rw [if_pos heq] at hleaf ⊢
      have herase : ∀ rows : List Row, (⟨pi, if hidden then 0 else itemh⟩ :: rows).eraseP
          (fun row => row.addData = x) = rows := fun rows => eraseP_cons_of_pos (decide_eq_true heq)
      rw [herase, hleaf]
      rfl
    rw [if_neg heq] at hleaf ⊢
    have hnot : ¬decide (pi = x) = true := fun h => heq (of_decide_eq_true h)
    have herase : ∀ rows : List Row, (⟨pi, if hidden then 0 else itemh⟩ :: rows).eraseP
        (fun row => row.addData = x) = ⟨pi, if hidden then 0 else itemh⟩ :: rows.eraseP fun row => row.addData = x :=
      fun rows => eraseP_cons_of_neg hnot
    rw [herase, Forest.rows]
    by_cases hk : x ∈ kids.preorder
    . rw [if_pos hk] at hleaf
      have hmem : x ∈ (kids.rows (hidden || fold)).map Row.addData := by
        rw [Forest.map_rows]
        exact hk
      rcases List.mem_map.mp hmem with ⟨row, hrow, hrowx⟩
      have hleft : (kids.rows (hidden || fold) ++ rest.rows hidden).eraseP (fun row => row.addData = x)
          = (kids.rows (hidden || fold)).eraseP (fun row => row.addData = x) ++ rest.rows hidden :=
        eraseP_append_left (p := fun row : Row => decide (row.addData = x)) (decide_eq_true hrowx) _ hrow
      rw [ihk hnodupk hleaf, remove_of_not_mem (hdisj x hk), hleft]
    . rw [if_neg hk] at hleaf
      rw [remove_of_not_mem hk, ihr hnodupr hleaf, eraseP_append_right _ (hnone _ hk)]

theorem remove_size (hnodup : f.preorder.Nodup) (hleaf : f.kidsOf x = .nil) (hx : x ∈ f.preorder)
    : ((f.remove x).size : Int) = f.size + (-1) := by
  have hmem : x ∈ (f.rows false).map Row.addData := by
    rw [Forest.map_rows]
    exact hx
  rcases List.mem_map.mp hmem with ⟨row, hrow, hrowx⟩
  have hlen := length_eraseP_of_mem hrow (p := fun row => row.addData = x) (decide_eq_true hrowx)
  rw [← rows_remove hnodup hleaf false, Forest.length_rows, Forest.length_rows] at hlen
  have hpos := length_pos_of_mem hrow
  rw [Forest.length_rows] at hpos
  omega

theorem alter_remove (hnodup : f.preorder.Nodup) (hx : x ∈ (f.kidsOf p).preorder)
    (hp : p ∈ f.preorder) : f.alter p id id (Forest.remove x) = f.remove x := by
  induction f with
  | nil => cases hp
  | node pi itemh fold kids rest ihk ihr =>
    rcases Forest.nodup_node hnodup with ⟨⟨hnotk, hnotr⟩, hnodupk, hnodupr, hdisj⟩
    rw [Forest.kidsOf] at hx
    rw [Forest.alter, Forest.remove]
    by_cases heq : pi = p
    . rw [if_pos heq] at hx
      have hne : pi ≠ x := by
        rintro rfl
        exact hnotk hx
      rw [if_pos heq, if_neg hne, remove_of_not_mem (hdisj x hx)]
      rfl
    rw [if_neg heq] at hx
    by_cases hk : p ∈ kids.preorder
    . rw [if_pos hk] at hx
      have hxk := kidsOf_subset x hx
      have hne : pi ≠ x := by
        rintro rfl
        exact hnotk hxk
      rw [if_neg heq, if_neg hne, ihk hnodupk hx hk, alter_of_not_mem (hdisj p hk), remove_of_not_mem (hdisj x hxk)]
    rw [if_neg hk] at hx
    have hxr := kidsOf_subset x hx
    have hne : pi ≠ x := by
      rintro rfl
      exact hnotr hxr
    have hxk : x ∉ kids.preorder := fun hxk => hdisj x hxk hxr
    rw [if_neg heq, if_neg hne, ihr hnodupr hx (mem_rest hp heq hk), alter_of_not_mem hk, remove_of_not_mem hxk]

theorem prevWalk_linked
    (h : Linked items (some p) first k) (hnodup : k.preorder.Nodup) (hx : x ∈ roots k)
    (hfirst : firstOf k ≠ some x) (hleaf : (items x).child = none) {fuel : Nat} (hfuel : k.count ≤ fuel)
    : ∃ a, prevWalk items x fuel first = some a ∧ a ∈ k.preorder ∧ a ≠ x ∧ ∀ items' : PItem → ItemData,
      items' a = { items a with next := (items x).next } → (∀ y ∈ k.preorder, y ≠ a → y ≠ x → items' y = items y)
      → Linked items' (some p) first (k.remove x) := by
  induction k generalizing first fuel with
  | nil => cases hx
  | node c ch cf kids rest _ ihr =>
    rcases Forest.nodup_node hnodup with ⟨⟨hnotk, hnotr⟩, hnodupk, hnodupr, hdisj⟩
    rcases h with ⟨hf, hparent, hitemh, hfold, hnr, hlkids, hlrest⟩
    have hne : c ≠ x := fun heq => hfirst (congrArg some heq)
    have hxr : x ∈ roots rest := (mem_cons.mp hx).resolve_left (Ne.symm hne)
    have hxrest := roots_subset x hxr
    have hxk : x ∉ kids.preorder := fun hxk => hdisj x hxk hxrest
    rw [Forest.count] at hfuel
    cases fuel with
    | zero => omega
    | succ fuel =>
      rw [hf, prevWalk]
      have hkidssame : ∀ {a : PItem} {items' : PItem → ItemData},
          (∀ y ∈ (Forest.node c ch cf kids rest).preorder, y ≠ a → y ≠ x → items' y = items y) → a ∉ kids.preorder
          → Linked items' (some c) (items c).child kids := by
        intro a items' hsame ha
        apply hlkids.congr
        intro y hy
        apply hsame y (by simp [hy])
        . rintro rfl
          exact ha hy
        . rintro rfl
          exact hxk hy
      by_cases hnext : (items c).next = some x
      . rw [if_pos hnext]
        refine ⟨c, rfl, by simp, hne, ?_⟩
        intro items' hc hsame
        rw [Forest.remove, if_neg hne, remove_of_not_mem hxk, Linked, hc]
        refine ⟨rfl, hparent, hitemh, hfold, hnr, hkidssame hsame hnotk, ?_⟩
        rw [hnext] at hlrest
        cases rest with
        | nil => cases hxr
        | node q qh qf qk qr =>
          have hq : x = q := Option.some_inj.mp hlrest.1
          subst hq
          rcases hlrest with ⟨_, _, _, _, _, hlqk, hlqr⟩
          rw [Forest.remove, if_pos rfl]
          apply hlqr.congr
          intro y hy
          apply hsame y (by simp [hy])
          . rintro rfl
            exact hnotr (by simp [hy])
          . rintro rfl
            exact (Forest.nodup_node hnodupr).1.2 hy
      rw [if_neg hnext]
      have hfirst' : firstOf rest ≠ some x := by
        rw [← hlrest.first]
        exact hnext
      rcases ihr hlrest hnodupr hxr hfirst' (by omega : rest.count ≤ fuel) with ⟨a, ha, har, hax, hlink⟩
      refine ⟨a, ha, by simp [har], hax, ?_⟩
      intro items' hitem hsame
      have hca : c ≠ a := by
        rintro rfl
        exact hnotr har
      have hak : a ∉ kids.preorder := fun hak => hdisj a hak har
      rw [Forest.remove, if_neg hne, remove_of_not_mem hxk, Linked, hsame c (by simp) hca hne]
      refine ⟨rfl, hparent, hitemh, hfold, hnr, hkidssame hsame hak, ?_⟩
      apply hlink items' hitem
      intro y hy
      exact hsame y (by simp [hy])

theorem firstFits_at {parent : Option PItem}
    (h : Linked items parent first f) (hnodup : f.preorder.Nodup) (hfit : firstFits x f)
    (hp : p ∈ f.preorder) (hfirst : firstOf (f.kidsOf p) = some x)
    : (f.kidsOf p).count = 1 ∧ (items p).next = none := by
  induction f generalizing parent first with
  | nil => cases hp
  | node pi itemh fold kids rest ihk ihr =>
    rcases Forest.nodup_node hnodup with ⟨_, hnodupk, hnodupr, _⟩
    rcases h with ⟨_, _, _, _, _, hlkids, hlrest⟩
    rw [Forest.kidsOf] at hfirst ⊢
    by_cases heq : pi = p
    . rw [if_pos heq] at hfirst ⊢
      have honly := hfit.1 hfirst
      refine ⟨honly.1, ?_⟩
      rw [← heq]
      rw [honly.2] at hlrest
      exact hlrest
    rw [if_neg heq] at hfirst ⊢
    by_cases hk : p ∈ kids.preorder
    . rw [if_pos hk] at hfirst ⊢
      exact ihk hlkids hnodupk hfit.2.1 hk hfirst
    . rw [if_neg hk] at hfirst ⊢
      exact ihr hlrest hnodupr hfit.2.2 (mem_rest hp heq hk) hfirst

theorem lvRemoveItem_represents {lv : LVData} (h : Represents lv f) {pi : PItem} (hpi : pi ∈ f.preorder)
    (hleaf : f.kidsOf pi = .nil) (hfit : firstFits pi (rootOf f))
    : Represents (lvRemoveItem lv pi) (f.remove pi) := by
  rcases root_parts h.nodup hpi with ⟨hne, hmem, hkids, _, _⟩
  rcases Forest.nodup_node h.nodup with ⟨_, hnodup, _⟩
  have hself := h.linked.kidsOf hmem
  rw [hkids, hleaf] at hself
  have hchild : (lv.items pi).child = none := hself.1
  have hnr : (lv.items pi).childNr = 0 := hself.2.2
  rcases parent_of h.linked h.nodup hmem with ⟨hroot, _⟩ | ⟨p, hp, hparent, hroot⟩
  . exact absurd (mem_singleton.mp hroot) hne
  have hlinked := (h.linked.kidsOf hp).1
  have hkid := roots_subset pi hroot
  have hkidnodup : ((rootOf f).kidsOf p).preorder.Nodup := by
    rcases preorder_alter hp h.nodup id id id with ⟨before, after, hpre, _⟩
    have hn := h.nodup
    rw [hpre, nodup_append, nodup_cons, nodup_append] at hn
    exact hn.2.1.2.1
  have hkidleaf : ((rootOf f).kidsOf p).kidsOf pi = .nil := by
    have hl := (hlinked.kidsOf hkid).1
    rw [hchild] at hl
    exact firstOf_eq_none hl.first
  have hppi : p ≠ pi := by
    rintro rfl
    exact not_mem_kidsOf hp h.nodup hkid
  have hpmem := mem_path hp
  have hsize := h.size_le
  have hremove : (rootOf f).alter p id id (Forest.remove pi) = rootOf (f.remove pi) := by
    rw [alter_remove h.nodup hkid hp, rootOf, Forest.remove, if_neg (Ne.symm hne)]
    rfl
  have hsub : (rootOf (f.remove pi)).preorder.Sublist (rootOf f).preorder := by
    rw [rootOf, rootOf, Forest.preorder_node, Forest.preorder_node]
    exact ((remove_sublist f pi).append_right _).cons_cons plvroot
  -- the links, by the place of the item among its siblings
  have hlinks : Linked (lvDelTree (lv.fresh + 1) lv.items pi) none (some plvroot)
      ((rootOf f).alter p id id (Forest.remove pi)) := by
    have htree : ∀ items : PItem → ItemData, (∀ x ∈ (rootOf f).preorder, (items x).parent = (lv.items x).parent)
        → (items pi).childNr = (lv.items pi).childNr
        → addChildNr (-((items pi).childNr + 1)) (lv.fresh + 1) (some p) items
          = bump (-1) ((rootOf f).path p) items := by
      intro items hparents hsame
      rw [hsame, hnr]
      exact addChildNr_tree h.linked h.nodup hp (-1) hparents (by omega)
    have hsizek : ((((rootOf f).kidsOf p).remove pi).size : Int) = ((rootOf f).kidsOf p).size + (-1) :=
      remove_size hkidnodup hkidleaf hkid
    by_cases hfirst : firstOf ((rootOf f).kidsOf p) = some pi
    . rcases firstFits_at h.linked h.nodup hfit hp hfirst with ⟨hone, hnext⟩
      have hnode : ∃ kh kf kk, (rootOf f).kidsOf p = .node pi kh kf kk .nil := by
        cases hk : (rootOf f).kidsOf p with
        | nil => rw [hk] at hfirst; cases hfirst
        | node c ch cf ck cr =>
          rw [hk] at hfirst hone
          have hc : c = pi := Option.some_inj.mp hfirst
          cases cr with
          | nil => exact ⟨ch, cf, ck, by rw [hc]⟩
          | node => rw [Forest.count, Forest.count] at hone; omega
      rcases hnode with ⟨kh, kf, kk, hnode⟩
      have honly := hlinked
      rw [hnode] at honly
      have hprev : prevWalk lv.items pi (lv.fresh + 1) (lv.items p).child = none := by
        have hnone : (lv.items pi).next = none := honly.2.2.2.2.2.2
        rw [honly.1, prevWalk, hnone, if_neg (by simp)]
        cases lv.fresh <;> rfl
      have hdel : lvDelTree (lv.fresh + 1) lv.items pi = bump (-1) ((rootOf f).path p)
          (update lv.items p { lv.items p with child := none }) := by
        rw [lvDelTree, hparent]
        dsimp only
        rw [hprev]
        dsimp only
        rw [hnext]
        apply htree
        . intro x _
          by_cases hxp : x = p
          . rw [hxp, update_self]
          . rw [update_of_ne hxp]
        . rw [update_of_ne (Ne.symm hppi)]
      rw [hdel]
      have hself' : bump (-1) ((rootOf f).path p) (update lv.items p { lv.items p with child := none }) p
          = { lv.items p with child := none, childNr := (lv.items p).childNr + (-1) } := by
        rw [bump_mem hpmem, update_self]
      apply h.linked.alter h.nodup hp hsizek
      . rw [hself']
        exact ⟨rfl, rfl⟩
      . rw [hself']
        exact ⟨rfl, rfl, rfl⟩
      . rw [hself', hnode, Forest.remove, if_pos rfl]
        rfl
      . intro x hx hxp
        rw [bump_mem hx, update_of_ne hxp]
      intro x _ hpath _
      have hxp : x ≠ p := by
        rintro rfl
        exact hpath hpmem
      rw [bump_path hpath, update_of_ne hxp]
    have hcount : ((rootOf f).kidsOf p).count ≤ lv.fresh + 1 := by
      have hle := count_le_size ((rootOf f).kidsOf p)
      rcases preorder_alter hp h.nodup id id id with ⟨before, after, hpre, _⟩
      have hlen := congrArg List.length hpre
      rw [Forest.length_preorder] at hlen
      simp only [length_append, length_cons, Forest.length_preorder] at hlen
      omega
    rcases prevWalk_linked hlinked hkidnodup hroot hfirst hchild hcount with ⟨a, hprev, hak, hax, hlink⟩
    have hapath : a ∉ (rootOf f).path p := fun hpath => path_disjoint h.nodup a hpath hak
    have hpa : p ≠ a := by
      rintro rfl
      exact hapath hpmem
    have hdel : lvDelTree (lv.fresh + 1) lv.items pi = bump (-1) ((rootOf f).path p)
        (update lv.items a { lv.items a with next := (lv.items pi).next }) := by
      rw [lvDelTree, hparent]
      dsimp only
      rw [hprev]
      refine htree (update lv.items a { lv.items a with next := (lv.items pi).next }) ?_ ?_
      . intro x _
        by_cases hxa : x = a
        . rw [hxa, update_self]
        . rw [update_of_ne hxa]
      . rw [update_of_ne (Ne.symm hax)]
    rw [hdel]
    have hself' : bump (-1) ((rootOf f).path p)
        (update lv.items a { lv.items a with next := (lv.items pi).next }) p
        = { lv.items p with childNr := (lv.items p).childNr + (-1) } := by
      rw [bump_mem hpmem, update_of_ne hpa]
    apply h.linked.alter h.nodup hp hsizek
    . rw [hself']
      exact ⟨rfl, rfl⟩
    . rw [hself']
      exact ⟨rfl, rfl, rfl⟩
    . rw [hself']
      apply hlink
      . rw [bump_path hapath, update_self]
      . intro y hy hya _
        rw [bump_path (fun hpath => path_disjoint h.nodup y hpath hy), update_of_ne hya]
    . intro x hx hxp
      have hxa : x ≠ a := by
        rintro rfl
        exact hapath hx
      rw [bump_mem hx, update_of_ne hxa]
    intro x _ hpath hxk
    have hxa : x ≠ a := by
      rintro rfl
      exact hxk hak
    rw [bump_path hpath, update_of_ne hxa]
  rw [hremove] at hlinks
  refine ⟨hlinks, ?_, h.nodup.sublist hsub, fun x hx => h.fresh x (hsub.subset hx)⟩
  show svlistItemDel lv.rows pi = _
  rw [h.rows, svlistItemDel, rows_remove hnodup hleaf]

theorem lvMsg_represents {lv : LVData} {f : Forest} (h : Represents lv f) {msg : LVMsg} (hok : msgOk f msg)
    (hfit : msgFits f msg) : Represents (lvMsg lv msg) (treeMsg lv.size f lv.fresh msg) := by
  cases msg with
  | addItem parent nItem nItemHeight fold =>
    exact lvAddItem_represents h hok nItemHeight fold hfit.1 hfit.2.1 hfit.2.2
  | delItem pi => exact lvRemoveItem_represents h hok hfit.1 hfit.2
  | foldItem pi bFold => exact lvFoldItem_represents h hok hfit
  | setItemHeight pi height => exact lvSetItemHeight_represents h hok hfit
  | delAllItem =>
    have hroot : (rootOf .nil).preorder.Sublist (rootOf f).preorder := by
      rw [rootOf, rootOf, Forest.preorder_node, Forest.preorder_node]
      exact (nil_sublist _).cons_cons plvroot
    refine ⟨?_, rfl, h.nodup.sublist hroot, fun x hx => h.fresh x (hroot.subset hx)⟩
    have hself : (lvMsg lv .delAllItem).items plvroot = rootItem := by
      show update lv.items plvroot rootItem plvroot = rootItem
      rw [update_self]
    rw [rootOf, Linked, hself]
    exact ⟨rfl, rfl, rfl, rfl, rfl, rfl, rfl⟩

def lvRun (lv : LVData) (msgs : List LVMsg) : LVData :=
  msgs.foldl lvMsg lv

def treeStep (size : Nat) (t : Forest × PItem) (msg : LVMsg) : Forest × PItem :=
  (treeMsg size t.1 t.2 msg, match msg with | .addItem .. => t.2 + 1 | _ => t.2)

def treeRun (size : Nat) (msgs : List LVMsg) : Forest × PItem :=
  msgs.foldl (treeStep size) (.nil, 1)

def allMsgs (size : Nat) (p : Forest → LVMsg → Prop) (msgs : List LVMsg) : Prop :=
  ∀ before msg after, msgs = before ++ msg :: after → p (treeRun size before).1 msg

theorem lvStart_represents (size : Nat) : Represents (lvStart size) .nil := by
  refine ⟨?_, rfl, by simp [rootOf], ?_⟩
  . rw [rootOf, Linked]
    exact ⟨rfl, rfl, rfl, rfl, rfl, rfl, rfl⟩
  intro x hx
  have hzero : x = plvroot := by
    rw [rootOf] at hx
    simpa using hx
  rw [hzero]
  exact Nat.one_pos

/--
The items and the rows stay those of the tree in a run whose messages fit.
-/
theorem lv_runs (size : Nat) {msgs : List LVMsg} (hok : allMsgs size msgOk msgs) (hfit : allMsgs size msgFits msgs)
    : Represents (lvRun (lvStart size) msgs) (treeRun size msgs).1 := by
  have hrun : ∀ msgs, allMsgs size msgOk msgs → allMsgs size msgFits msgs
      → Represents (lvRun (lvStart size) msgs) (treeRun size msgs).1
        ∧ (lvRun (lvStart size) msgs).size = size ∧ (lvRun (lvStart size) msgs).fresh = (treeRun size msgs).2 := by
    intro msgs
    induction msgs using reverseRecOn with
    | nil => intro _ _; exact ⟨lvStart_represents size, rfl, rfl⟩
    | append_singleton msgs msg ih =>
      intro hok hfit
      have hshorter : ∀ {p : Forest → LVMsg → Prop}, allMsgs size p (msgs ++ [msg]) → allMsgs size p msgs := by
        intro p hp before m after heq
        exact hp before m (after ++ [msg]) (by rw [heq]; simp)
      rcases ih (hshorter hok) (hshorter hfit) with ⟨hrep, hsize, hfresh⟩
      have hstep := lvMsg_represents hrep (hok msgs msg [] rfl) (hfit msgs msg [] rfl)
      rw [lvRun, treeRun, foldl_append, foldl_append]
      rw [hsize, hfresh] at hstep
      refine ⟨hstep, ?_, ?_⟩
      . cases msg with
        | foldItem pi bFold =>
          show (lvFoldItem _ pi bFold).size = size
          rw [lvFoldItem]
          split <;> exact hsize
        | addItem => exact hsize
        | delItem => exact hsize
        | setItemHeight => exact hsize
        | delAllItem => exact hsize
      cases msg with
      | foldItem pi bFold =>
        show (lvFoldItem _ pi bFold).fresh = _
        rw [lvFoldItem]
        split <;> exact hfresh
      | addItem => exact congrArg (· + 1) hfresh
      | delItem => exact hfresh
      | setItemHeight => exact hfresh
      | delAllItem => exact hfresh
  exact (hrun msgs hok hfit).1

theorem lv_runs_item
    : Represents (lvRun (lvStart 16) [.addItem plvroot 0 20 false]) (treeRun 16 [.addItem plvroot 0 20 false]).1 := by
  have hall : ∀ {p : Forest → LVMsg → Prop}, p .nil (.addItem plvroot 0 20 false)
      → allMsgs 16 p [.addItem plvroot 0 20 false] := by
    intro p hp before msg after heq
    cases before with
    | nil =>
      rw [nil_append, List.cons.injEq] at heq
      rw [← heq.1]
      exact hp
    | cons m before =>
      rw [cons_append, List.cons.injEq] at heq
      have hlen := congrArg List.length heq.2
      simp at hlen
  exact lv_runs 16 (hall (by simp [msgOk, rootOf])) (hall ⟨Or.inl rfl, rfl, rfl⟩)

theorem not_lv_runs
    : ¬∃ f, Represents (lvRun (lvStart 16) [.addItem plvroot 0 20 false, .addItem plvroot 1 20 false, .delItem 1]) f := by
  rintro ⟨f, h⟩
  have hrows : (lvRun (lvStart 16) [.addItem plvroot 0 20 false, .addItem plvroot 1 20 false, .delItem 1]).rows
      = [⟨2, 20⟩] := by
    decide
  have hchild : ((lvRun (lvStart 16)
      [.addItem plvroot 0 20 false, .addItem plvroot 1 20 false, .delItem 1]).items plvroot).child = none := by
    decide
  have hlinked := h.linked
  rw [rootOf, Linked, hchild] at hlinked
  have hnil := firstOf_eq_none hlinked.2.2.2.2.2.1.first
  have hempty := h.rows
  rw [hrows, hnil] at hempty
  cases hempty

end ListView

end MiniGui
