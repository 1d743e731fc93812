import MiniGui.Ext.ListView

namespace MiniGui.ListView

open List (mem_append mem_cons)

inductive Forest where
  | nil
  | node (pi : PItem) (itemh : Int) (fold : Bool) (kids rest : Forest)

variable {p : PItem} {f : Forest}

namespace Forest

def preorder : Forest → List PItem
  | nil => []
  | node pi _ _ kids rest => pi :: (preorder kids ++ preorder rest)

def rows (hidden : Bool) : Forest → List Row
  | nil => []
  | node pi itemh fold kids rest =>
    ⟨pi, if hidden then 0 else itemh⟩ :: (rows (hidden || fold) kids ++ rows hidden rest)

def size : Forest → Nat
  | nil => 0
  | node _ _ _ kids rest => size kids + 1 + size rest

def count : Forest → Nat
  | nil => 0
  | node _ _ _ _ rest => count rest + 1

def alter (p : PItem) (itemh' : Int → Int) (fold' : Bool → Bool) (kids' : Forest → Forest) : Forest → Forest
  | nil => nil
  | node pi itemh fold kids rest =>
    if pi = p then
      node pi (itemh' itemh) (fold' fold) (kids' kids) rest
    else
      node pi itemh fold (alter p itemh' fold' kids' kids) (alter p itemh' fold' kids' rest)

def kidsOf (p : PItem) : Forest → Forest
  | nil => nil
  | node pi _ _ kids rest => if pi = p then kids else if p ∈ preorder kids then kidsOf p kids else kidsOf p rest

def hiddenAt (p : PItem) (hidden : Bool) : Forest → Bool
  | nil => hidden
  | node pi _ fold kids rest =>
    if pi = p then hidden
    else if p ∈ preorder kids then hiddenAt p (hidden || fold) kids
    else hiddenAt p hidden rest

def foldAt (p : PItem) : Forest → Bool
  | nil => false
  | node pi _ fold kids rest =>
    if pi = p then fold else if p ∈ preorder kids then foldAt p kids else foldAt p rest

def path (p : PItem) : Forest → List PItem
  | nil => []
  | node pi _ _ kids rest => if pi = p then [pi] else if p ∈ preorder kids then pi :: path p kids else path p rest

def addAfter (pnew : PItem) (itemh : Int) (fold : Bool) : Nat → Forest → Forest
  | _, nil => node pnew itemh fold nil nil
  | 0, node pi h f kids rest => node pi h f kids (node pnew itemh fold nil rest)
  | j + 1, node pi h f kids rest => node pi h f kids (addAfter pnew itemh fold j rest)

def remove (p : PItem) : Forest → Forest
  | nil => nil
  | node pi itemh fold kids rest =>
    if pi = p then rest else node pi itemh fold (remove p kids) (remove p rest)

@[simp]
theorem preorder_nil : preorder nil = [] := rfl

@[simp]
theorem preorder_node (pi : PItem) (itemh : Int) (fold : Bool) (kids rest : Forest)
    : preorder (node pi itemh fold kids rest) = pi :: (preorder kids ++ preorder rest) := rfl

theorem length_preorder (f : Forest) : (preorder f).length = size f := by
  induction f with
  | nil => rfl
  | node pi itemh fold kids rest ihk ihr =>
    rw [preorder_node, List.length_cons, List.length_append, ihk, ihr, size]
    omega

theorem map_rows (hidden : Bool) (f : Forest) : (rows hidden f).map Row.addData = preorder f := by
  induction f generalizing hidden with
  | nil => rfl
  | node pi itemh fold kids rest ihk ihr =>
    rw [rows, List.map_cons, List.map_append, ihk, ihr, preorder_node]

theorem length_rows (hidden : Bool) (f : Forest) : (rows hidden f).length = size f := by
  rw [← length_preorder, ← map_rows hidden f, List.length_map]

theorem nodup_node {pi : PItem} {itemh : Int} {fold : Bool} {kids rest : Forest}
    (h : (preorder (node pi itemh fold kids rest)).Nodup)
    : (pi ∉ preorder kids ∧ pi ∉ preorder rest) ∧ (preorder kids).Nodup ∧ (preorder rest).Nodup
      ∧ ∀ x ∈ preorder kids, x ∉ preorder rest := by
  rw [preorder_node, List.nodup_cons, mem_append, not_or, List.nodup_append] at h
  refine ⟨h.1, h.2.1, h.2.2.1, ?_⟩
  intro x hx hx'
  exact h.2.2.2 x hx x hx' rfl

theorem rows_alter (hp : p ∈ preorder f) (hnodup : (preorder f).Nodup) (hidden : Bool)
    : ∃ before after : List Row, (∀ row ∈ before, row.addData ≠ p) ∧ (∃ itemh, rows hidden f
        = before ++ ⟨p, if hiddenAt p hidden f then 0 else itemh⟩
          :: (rows (hiddenAt p hidden f || foldAt p f) (kidsOf p f) ++ after)
      ∧ ∀ itemh' fold' kids', rows hidden (alter p itemh' fold' kids' f)
        = before ++ ⟨p, if hiddenAt p hidden f then 0 else itemh' itemh⟩
          :: (rows (hiddenAt p hidden f || fold' (foldAt p f)) (kids' (kidsOf p f)) ++ after)) := by
  induction f generalizing hidden with
  | nil => cases hp
  | node pi itemh fold kids rest ihk ihr =>
    rcases nodup_node hnodup with ⟨⟨hnotk, hnotr⟩, hnodupk, hnodupr, hdisj⟩
    by_cases heq : pi = p
    . refine ⟨[], rows hidden rest, by simp, itemh, ?_, ?_⟩
      . simp [rows, hiddenAt, foldAt, kidsOf, heq]
      . intro itemh' fold' kids'
        simp [rows, alter, hiddenAt, foldAt, kidsOf, heq]
    have halter : ∀ {g : Forest}, p ∉ preorder g → ∀ itemh' fold' kids', alter p itemh' fold' kids' g = g := by
      intro g hg itemh' fold' kids'
      induction g with
      | nil => rfl
      | node qi qh qf qk qr ihqk ihqr =>
        rw [preorder_node, mem_cons, mem_append, not_or, not_or] at hg
        rw [alter, if_neg (Ne.symm hg.1), ihqk hg.2.1, ihqr hg.2.2]
    by_cases hk : p ∈ preorder kids
    . rcases ihk hk hnodupk (hidden || fold) with ⟨before, after, hbefore, itemh0, hrows, halt⟩
      have hr := halter (hdisj p hk)
      refine ⟨⟨pi, if hidden then 0 else itemh⟩ :: before, after ++ rows hidden rest, ?_, itemh0, ?_, ?_⟩
      . intro row hrow
        rcases mem_cons.mp hrow with rfl | hrow
        . exact heq
        . exact hbefore row hrow
      . rw [rows, hrows, hiddenAt, if_neg heq, if_pos hk, foldAt, if_neg heq, if_pos hk, kidsOf, if_neg heq,
          if_pos hk]
        simp
      intro itemh' fold' kids'
      rw [alter, if_neg heq, rows, halt, hr, hiddenAt, if_neg heq, if_pos hk, foldAt, if_neg heq, if_pos hk,
        kidsOf, if_neg heq, if_pos hk]
      simp
    have hr : p ∈ preorder rest := by
      rw [preorder_node, mem_cons, mem_append] at hp
      rcases hp with hp | hp | hp
      . exact absurd hp.symm heq
      . exact absurd hp hk
      . exact hp
    rcases ihr hr hnodupr hidden with ⟨before, after, hbefore, itemh0, hrows, halt⟩
    have hkids := halter hk
    refine ⟨⟨pi, if hidden then 0 else itemh⟩ :: rows (hidden || fold) kids ++ before, after, ?_, itemh0, ?_, ?_⟩
    . intro row hrow
      rcases mem_append.mp hrow with hrow | hrow
      . rcases mem_cons.mp hrow with rfl | hrow
        . exact heq
        intro hrowp
        apply hk
        rw [← map_rows (hidden || fold) kids, ← hrowp]
        exact List.mem_map_of_mem hrow
      . exact hbefore row hrow
    . rw [rows, hrows, hiddenAt, if_neg heq, if_neg hk, foldAt, if_neg heq, if_neg hk, kidsOf, if_neg heq,
        if_neg hk]
      simp
    intro itemh' fold' kids'
    rw [alter, if_neg heq, rows, halt, hkids, hiddenAt, if_neg heq, if_neg hk, foldAt, if_neg heq, if_neg hk,
      kidsOf, if_neg heq, if_neg hk]
    simp

end Forest

def Linked (items : PItem → ItemData) (parent : Option PItem) : Option PItem → Forest → Prop
  | first, .nil => first = none
  | first, .node pi itemh fold kids rest =>
    first = some pi ∧ (items pi).parent = parent ∧ (items pi).itemh = itemh ∧ (items pi).fold = fold
      ∧ (items pi).childNr = kids.size ∧ Linked items (some pi) (items pi).child kids
      ∧ Linked items parent (items pi).next rest

theorem Linked.congr {items items' : PItem → ItemData} {parent first : Option PItem} {f : Forest}
    (h : Linked items parent first f) (heq : ∀ x ∈ f.preorder, items' x = items x)
    : Linked items' parent first f := by
  induction f generalizing parent first with
  | nil => exact h
  | node pi itemh fold kids rest ihk ihr =>
    rcases h with ⟨hfirst, hparent, hitemh, hfold, hnr, hkids, hrest⟩
    have hpi : items' pi = items pi := heq pi (by simp)
    rw [Linked, hpi]
    refine ⟨hfirst, hparent, hitemh, hfold, hnr, ihk hkids ?_, ihr hrest ?_⟩
    . intro x hx
      exact heq x (by simp [hx])
    . intro x hx
      exact heq x (by simp [hx])

theorem Linked.kidsOf {items : PItem → ItemData} {parent first : Option PItem}
    (h : Linked items parent first f) (hp : p ∈ f.preorder)
    : Linked items (some p) (items p).child (f.kidsOf p) ∧ (items p).fold = f.foldAt p
      ∧ (items p).childNr = (f.kidsOf p).size := by
  induction f generalizing parent first with
  | nil => cases hp
  | node pi itemh fold kids rest ihk ihr =>
    rcases h with ⟨hfirst, hparent, hitemh, hfold, hnr, hkids, hrest⟩
    rw [Forest.kidsOf, Forest.foldAt]
    by_cases heq : pi = p
    . rw [if_pos heq, if_pos heq, ← heq]
      exact ⟨hkids, hfold, hnr⟩
    rw [if_neg heq, if_neg heq]
    by_cases hk : p ∈ kids.preorder
    . rw [if_pos hk, if_pos hk]
      exact ihk hkids hk
    rw [if_neg hk, if_neg hk]
    apply ihr hrest
    rw [Forest.preorder_node, mem_cons, mem_append] at hp
    rcases hp with hp | hp | hp
    . exact absurd hp.symm heq
    . exact absurd hp hk
    . exact hp

theorem kidsOf_subset : ∀ x ∈ (f.kidsOf p).preorder, x ∈ f.preorder := by
  induction f with
  | nil => intro x hx; cases hx
  | node pi itemh fold kids rest ihk ihr =>
    intro x hx
    rw [Forest.kidsOf] at hx
    rw [Forest.preorder_node, mem_cons, mem_append]
    by_cases heq : pi = p
    . rw [if_pos heq] at hx
      exact .inr (.inl hx)
    rw [if_neg heq] at hx
    by_cases hk : p ∈ kids.preorder
    . rw [if_pos hk] at hx
      exact .inr (.inl (ihk x hx))
    . rw [if_neg hk] at hx
      exact .inr (.inr (ihr x hx))

theorem path_subset : ∀ x ∈ f.path p, x ∈ f.preorder := by
  induction f with
  | nil => intro x hx; cases hx
  | node pi itemh fold kids rest ihk ihr =>
    intro x hx
    rw [Forest.path] at hx
    rw [Forest.preorder_node, mem_cons, mem_append]
    by_cases heq : pi = p
    . rw [if_pos heq] at hx
      exact .inl (List.mem_singleton.mp hx)
    rw [if_neg heq] at hx
    by_cases hk : p ∈ kids.preorder
    . rw [if_pos hk] at hx
      rcases mem_cons.mp hx with hx | hx
      . exact .inl hx
      . exact .inr (.inl (ihk x hx))
    . rw [if_neg hk] at hx
      exact .inr (.inr (ihr x hx))

end MiniGui.ListView
