import Mathlib.Tactic

namespace MiniGui

open List Option

structure ItemStyle where
  wsGroup : Bool
  wsTabstop : Bool
  wsVisible : Bool
  wsDisabled : Bool

structure DlgItems (ι : Type) where
  list : List ι
  dwStyle : ι → ItemStyle
  nodup : list.Nodup

namespace DlgItems

variable {ι : Type} (dlg : DlgItems ι)

abbrev Item : Type :=
  { c : ι // c ∈ dlg.list }

def isGroup (c : ι) : Bool :=
  (dlg.dwStyle c).wsGroup

def isUsable (c : ι) : Bool :=
  (dlg.dwStyle c).wsVisible && !(dlg.dwStyle c).wsDisabled

def isTabstop (c : ι) : Bool :=
  (dlg.dwStyle c).wsTabstop && dlg.isUsable c

def nextMember : List ι → Option ι
  | [] => none
  | c :: rest => if dlg.isGroup c then none else if dlg.isUsable c then some c else nextMember rest

def lastOrGroup (c : ι) : List ι → ι
  | [] => c
  | next :: rest => if dlg.isGroup c then c else lastOrGroup next rest

def backToHead : List ι → List ι
  | [] => []
  | c :: rest => if dlg.isGroup c then [c] else c :: backToHead rest

def members (l : List ι) : List ι :=
  l.takeWhile fun p => !dlg.isGroup p

def AnyUsable (l : List ι) : Prop :=
  ∃ c ∈ l, dlg.isUsable c

variable {l : List ι} {p : ι}

theorem find_none : l.find? dlg.isUsable = none ↔ ¬dlg.AnyUsable l := by
  simp [AnyUsable]

theorem find_some (h : dlg.AnyUsable l) : ∃ c ∈ l, l.find? dlg.isUsable = some c := by
  cases hfind : l.find? dlg.isUsable with
  | none => exact absurd h (dlg.find_none.mp hfind)
  | some c => exact ⟨c, mem_of_find?_eq_some hfind, rfl⟩

theorem anyUsable_reverse : dlg.AnyUsable l.reverse ↔ dlg.AnyUsable l := by
  simp [AnyUsable]

theorem getD_eq_self {c : ι} (hc : ∀ p ∈ l, p ≠ c)
    : (l.find? dlg.isUsable).getD c = c ↔ ¬dlg.AnyUsable l := by
  rw [← find_none]
  cases hfind : l.find? dlg.isUsable with
  | none => simp
  | some p => simpa using hc p (mem_of_find?_eq_some hfind)

theorem nextMember_eq (l : List ι) : dlg.nextMember l = (dlg.members l).find? dlg.isUsable := by
  induction l with
  | nil => rfl
  | cons c l ih =>
    unfold nextMember members
    by_cases hgroup : dlg.isGroup c = true
    . rw [if_pos hgroup, takeWhile_cons_of_neg (by simp [hgroup])]
      rfl
    . rw [if_neg hgroup, takeWhile_cons_of_pos (by simp [hgroup]), ih, find?_cons]
      cases dlg.isUsable c <;> rfl

theorem members_append (m : List ι) (hl : ∀ p ∈ l, dlg.isGroup p = false)
    : dlg.members (l ++ m) = l ++ dlg.members m :=
  takeWhile_append_of_pos (by simpa using hl)

theorem backToHead_prefix (l : List ι) : dlg.backToHead l <+: l := by
  induction l with
  | nil => exact prefix_rfl
  | cons c l ih =>
    unfold backToHead
    split
    next => exact cons_prefix_cons.mpr ⟨rfl, nil_prefix⟩
    next => exact cons_prefix_cons.mpr ⟨rfl, ih⟩

theorem backToHead_head {h : ι} (hfind : l.find? dlg.isGroup = some h)
    : ∃ m, dlg.backToHead l = m ++ [h] ∧ ∀ p ∈ m, dlg.isGroup p = false := by
  induction l with
  | nil => cases hfind
  | cons c l ih =>
    unfold backToHead
    by_cases hgroup : dlg.isGroup c = true
    . rw [find?_cons_of_pos hgroup] at hfind
      rw [if_pos hgroup, Option.some.inj hfind]
      exact ⟨[], rfl, fun p hp => by cases hp⟩
    rw [find?_cons_of_neg hgroup] at hfind
    obtain ⟨m, heq, hm⟩ := ih hfind
    rw [if_neg hgroup, heq]
    exact ⟨c :: m, rfl, forall_mem_cons.mpr ⟨eq_false_of_ne_true hgroup, hm⟩⟩

theorem lastOrGroup_place (c : ι) (rest : List ι)
    : ∃ m k, c :: rest = m ++ dlg.lastOrGroup c rest :: k ∧ (∀ p ∈ m, dlg.isGroup p = false)
      ∧ (dlg.isGroup (dlg.lastOrGroup c rest) = true ∨ k = []) := by
  induction rest generalizing c with
  | nil => exact ⟨[], [], rfl, fun p hp => (by cases hp), .inr rfl⟩
  | cons next rest ih =>
    unfold lastOrGroup
    by_cases hgroup : dlg.isGroup c = true
    . rw [if_pos hgroup]
      exact ⟨[], next :: rest, rfl, fun p hp => (by cases hp), .inl hgroup⟩
    . rw [if_neg hgroup]
      obtain ⟨m, k, heq, hm, hend⟩ := ih next
      exact ⟨c :: m, k, congrArg (c :: ·) heq, forall_mem_cons.mpr ⟨eq_false_of_ne_true hgroup, hm⟩, hend⟩

variable [DecidableEq ι]

def prevs (c : ι) : List ι :=
  (dlg.list.take (dlg.list.idxOf c)).reverse

def nexts (c : ι) : List ι :=
  dlg.list.drop (dlg.list.idxOf c + 1)

def prevGroupItem (pStartCtrl : ι) : Option ι :=
  let pCtrl :=
    if dlg.isGroup pStartCtrl then
      match dlg.nexts pStartCtrl with
      | [] => pStartCtrl
      | c :: rest => dlg.lastOrGroup c rest
    else
      pStartCtrl
  if dlg.isGroup pCtrl || pCtrl = pStartCtrl then
    (dlg.prevs pCtrl).find? dlg.isUsable
  else
    (pCtrl :: dlg.prevs pCtrl).find? dlg.isUsable

def nextGroupItem (pStartCtrl : ι) : Option ι :=
  match dlg.nextMember (dlg.nexts pStartCtrl) with
  | some c => some c
  | none =>
    match (dlg.prevs pStartCtrl).find? dlg.isGroup with
    | some c => if dlg.isUsable c then some c else dlg.nextMember (dlg.nexts c)
    | none => none

def getNextDlgGroupItem (hCtl : Option ι) (bPrevious : Bool) : Option ι :=
  let pStartCtrl :=
    match hCtl with
    | some c => some c
    | none => if bPrevious then dlg.list.getLast? else dlg.list.head?
  match pStartCtrl with
  | none => hCtl
  | some c => (if bPrevious then dlg.prevGroupItem c else dlg.nextGroupItem c).or hCtl

def tabStart (hCtl : Option ι) (bPrevious : Bool) : List ι :=
  match hCtl, bPrevious with
  | some c, true => dlg.prevs c
  | some c, false => dlg.nexts c
  | none, true => dlg.list.reverse
  | none, false => dlg.list

def getNextDlgTabItem (hCtl : Option ι) (bPrevious : Bool) : Option ι :=
  let all := if bPrevious then dlg.list.reverse else dlg.list
  (((dlg.tabStart hCtl bPrevious).find? dlg.isTabstop).or (all.find? dlg.isTabstop)).or hCtl

section Places

variable {dlg} {c : ι}

section

variable {m : List ι} (h : dlg.list = l ++ c :: m)
include h

theorem idxOf_place : dlg.list.idxOf c = l.length := by
  have hnodup := dlg.nodup
  rw [h, nodup_append] at hnodup
  have hc : c ∉ l := fun hmem => hnodup.2.2 c hmem c mem_cons_self rfl
  rw [h, idxOf_append_of_notMem hc, idxOf_cons_self, Nat.add_zero]

theorem prevs_place : dlg.prevs c = l.reverse := by
  rw [prevs, idxOf_place h, h, take_left]

theorem nexts_place : dlg.nexts c = m := by
  rw [nexts, idxOf_place h, h, drop_append, Nat.add_sub_cancel_left, drop_of_length_le (by omega)]
  rfl

end

variable (hc : c ∈ dlg.list)
include hc

theorem list_eq : dlg.list = (dlg.prevs c).reverse ++ c :: dlg.nexts c := by
  obtain ⟨l, m, h⟩ := append_of_mem hc
  rw [prevs_place h, nexts_place h, reverse_reverse, h]

variable {q : ι}

theorem ne_of_prevs (hp : p ∈ dlg.prevs c) (hq : q ∈ c :: dlg.nexts c) : p ≠ q := by
  have hnodup := dlg.nodup
  rw [list_eq hc, nodup_append] at hnodup
  exact hnodup.2.2 p (mem_reverse.mpr hp) q hq

theorem ne_of_nexts (hq : q ∈ dlg.nexts c) : q ≠ c := by
  have hnodup := dlg.nodup
  rw [list_eq hc, nodup_append, nodup_cons] at hnodup
  exact fun heq => hnodup.2.1.1 (heq ▸ hq)

end Places

section Group

def groupBefore (c : ι) : List ι :=
  if dlg.isGroup c then [] else dlg.backToHead (dlg.prevs c)

def groupAfter (c : ι) : List ι :=
  dlg.members (dlg.nexts c)

def cyclicItem (c : ι) (bPrevious : Bool) : ι :=
  let others :=
    if bPrevious then
      dlg.groupBefore c ++ (dlg.groupAfter c).reverse
    else
      dlg.groupAfter c ++ (dlg.groupBefore c).reverse
  (others.find? dlg.isUsable).getD c

def StaysInGroup (c : ι) (bPrevious : Bool) : Prop :=
  if bPrevious then
    if dlg.isGroup c then
      dlg.nexts c ≠ [] ∧ (dlg.AnyUsable (dlg.groupAfter c) ∨ dlg.isUsable c) ∨ ¬dlg.AnyUsable (dlg.prevs c)
    else
      dlg.AnyUsable (dlg.groupBefore c) ∨ ¬dlg.AnyUsable (dlg.prevs c) ∧ ¬dlg.AnyUsable (dlg.groupAfter c)
  else
    dlg.AnyUsable (dlg.groupAfter c) ∨ ¬dlg.AnyUsable (dlg.backToHead (dlg.prevs c))
      ∨ ((∃ p ∈ dlg.prevs c, dlg.isGroup p) ↔ ¬dlg.isGroup c)

variable {dlg} {c : ι} (hc : c ∈ dlg.list)

include hc

theorem ne_of_groupAfter (hp : p ∈ dlg.groupAfter c) : p ≠ c :=
  ne_of_nexts hc ((List.takeWhile_prefix _).subset hp)

theorem ne_of_backToHead (hp : p ∈ dlg.backToHead (dlg.prevs c)) : p ≠ c :=
  ne_of_prevs hc ((dlg.backToHead_prefix _).subset hp) mem_cons_self

theorem prevGroupItem_head (hgroup : dlg.isGroup c = true) (hne : dlg.nexts c ≠ [])
    : dlg.prevGroupItem c = ((dlg.groupAfter c).reverse ++ c :: dlg.prevs c).find? dlg.isUsable := by
  unfold prevGroupItem
  rw [if_pos hgroup]
  cases hnexts : dlg.nexts c with
  | nil => exact absurd hnexts hne
  | cons d rest =>
    obtain ⟨m, k, heq, hm, hend⟩ := dlg.lastOrGroup_place d rest
    have hother := ne_of_nexts hc (q := dlg.lastOrGroup d rest) (by simp [hnexts, heq])
    have hlist := list_eq hc
    rw [hnexts, heq, ← cons_append, ← append_assoc] at hlist
    have hprevs := prevs_place hlist
    rw [reverse_append, reverse_cons, reverse_reverse, append_assoc,
      singleton_append] at hprevs
    dsimp only
    rw [hprevs, groupAfter, hnexts, heq, members_append _ _ hm]
    generalize dlg.lastOrGroup d rest = last at hend hother ⊢
    by_cases hlast : dlg.isGroup last = true
    . rw [hlast, Bool.true_or, if_pos rfl, members, takeWhile_cons_of_neg (by simp [hlast]), append_nil]
    . rw [hend.resolve_left hlast, members, takeWhile_cons_of_pos (by simp [hlast]),
        if_neg (by simp [hlast, hother])]
      simp

theorem prevGroupItem_iff
    : (dlg.prevGroupItem c).getD c = dlg.cyclicItem c true ↔ dlg.StaysInGroup c true := by
  have hafter := fun p (hp : p ∈ (dlg.groupAfter c).reverse) => ne_of_groupAfter hc (mem_reverse.mp hp)
  have hprevs := fun p (hp : p ∈ dlg.prevs c) => ne_of_prevs hc hp mem_cons_self
  unfold cyclicItem StaysInGroup groupBefore
  rw [if_pos rfl, if_pos rfl]
  dsimp only
  by_cases hgroup : dlg.isGroup c = true
  . rw [if_pos hgroup, if_pos hgroup, nil_append]
    by_cases hnil : dlg.nexts c = []
    . have hself : dlg.prevGroupItem c = (dlg.prevs c).find? dlg.isUsable := by
        simp [prevGroupItem, hgroup, hnil]
      rw [hself, groupAfter, hnil]
      exact (dlg.getD_eq_self hprevs).trans (by simp)
    rw [prevGroupItem_head hc hgroup hnil, find?_append]
    by_cases hany : dlg.AnyUsable (dlg.groupAfter c)
    . obtain ⟨p, _, hfind⟩ := dlg.find_some (dlg.anyUsable_reverse.mpr hany)
      rw [hfind]
      exact iff_of_true rfl (.inl ⟨hnil, .inl hany⟩)
    rw [dlg.find_none.mpr (mt dlg.anyUsable_reverse.mp hany), none_or]
    by_cases husable : dlg.isUsable c = true
    . rw [find?_cons_of_pos husable]
      exact iff_of_true rfl (.inl ⟨hnil, .inr husable⟩)
    . rw [find?_cons_of_neg husable]
      exact (dlg.getD_eq_self hprevs).trans (by simp [hany, husable])
  rw [if_neg hgroup, if_neg hgroup, find?_append]
  have hself : dlg.prevGroupItem c = (dlg.prevs c).find? dlg.isUsable := by
    simp [prevGroupItem, hgroup]
  rw [hself]
  obtain ⟨k, hk⟩ := dlg.backToHead_prefix (dlg.prevs c)
  by_cases hany : dlg.AnyUsable (dlg.backToHead (dlg.prevs c))
  . obtain ⟨p, _, hfind⟩ := dlg.find_some hany
    rw [← hk, find?_append, hk, hfind]
    exact iff_of_true rfl (.inl hany)
  rw [dlg.find_none.mpr hany, none_or, or_iff_right hany, ← dlg.anyUsable_reverse (l := dlg.groupAfter c),
    ← dlg.getD_eq_self hafter]
  by_cases hleft : dlg.AnyUsable (dlg.prevs c)
  . obtain ⟨p, hp, hfind⟩ := dlg.find_some hleft
    rw [hfind]
    apply iff_of_false
    . apply ne_of_prevs hc hp
      cases hfind' : (dlg.groupAfter c).reverse.find? dlg.isUsable with
      | none => exact mem_cons_self
      | some q =>
        have hq := mem_reverse.mp (mem_of_find?_eq_some hfind')
        exact mem_cons_of_mem _ ((List.takeWhile_prefix _).subset hq)
    . exact fun h => h.1 hleft
  . rw [dlg.find_none.mpr hleft, and_iff_right hleft]
    exact eq_comm

theorem nextGroupItem_iff
    : (dlg.nextGroupItem c).getD c = dlg.cyclicItem c false ↔ dlg.StaysInGroup c false := by
  have hback := fun p (hp : p ∈ (dlg.backToHead (dlg.prevs c)).reverse) => ne_of_backToHead hc (mem_reverse.mp hp)
  unfold cyclicItem StaysInGroup nextGroupItem
  rw [if_neg Bool.false_ne_true, if_neg Bool.false_ne_true]
  dsimp only
  rw [nextMember_eq, find?_append, ← groupAfter]
  by_cases hany : dlg.AnyUsable (dlg.groupAfter c)
  . obtain ⟨p, _, hfind⟩ := dlg.find_some hany
    rw [hfind]
    exact iff_of_true rfl (.inl hany)
  rw [dlg.find_none.mpr hany, none_or, or_iff_right hany]
  cases hfind : (dlg.prevs c).find? dlg.isGroup with
  | none =>
    have hheadless : ¬∃ p ∈ dlg.prevs c, dlg.isGroup p = true := by simpa using hfind
    rw [iff_false_left hheadless, not_not, groupBefore]
    by_cases hgroup : dlg.isGroup c = true
    . rw [if_pos hgroup]
      exact iff_of_true rfl (.inr hgroup)
    . rw [if_neg hgroup, or_iff_left hgroup, ← anyUsable_reverse, ← dlg.getD_eq_self hback]
      exact eq_comm
  | some h =>
    obtain ⟨m, hm, hmembers⟩ := dlg.backToHead_head hfind
    obtain ⟨k, hk⟩ := dlg.backToHead_prefix (dlg.prevs c)
    have hhead : ∃ p ∈ dlg.prevs c, dlg.isGroup p = true :=
      ⟨h, mem_of_find?_eq_some hfind, find?_some hfind⟩
    have hlist := list_eq hc
    rw [← hk, hm, reverse_append, reverse_append, reverse_singleton, append_assoc,
      append_assoc, singleton_append] at hlist
    have hrev : ∀ p ∈ m.reverse, dlg.isGroup p = false := fun p hp => hmembers p (mem_reverse.mp hp)
    have hsearch : (dlg.backToHead (dlg.prevs c)).reverse.find? dlg.isUsable
        = if dlg.isUsable h then some h else m.reverse.find? dlg.isUsable := by
      rw [hm, reverse_append, reverse_singleton, singleton_append, find?_cons]
      cases dlg.isUsable h <;> rfl
    dsimp only
    rw [iff_true_left hhead, nexts_place hlist, nextMember_eq, members_append _ _ hrev, groupBefore]
    by_cases hgroup : dlg.isGroup c = true
    . rw [if_pos hgroup, members, takeWhile_cons_of_neg (by simp [hgroup]), append_nil, ← hsearch,
        or_iff_left (not_not.mpr hgroup), ← anyUsable_reverse, ← dlg.getD_eq_self hback]
      rfl
    rw [if_neg hgroup, hsearch, members, takeWhile_cons_of_pos (by simp [hgroup]), ← members, ← groupAfter,
      find?_append, find?_cons, dlg.find_none.mpr hany]
    apply iff_of_true _ (.inr hgroup)
    cases dlg.isUsable h <;> cases m.reverse.find? dlg.isUsable <;> cases dlg.isUsable c <;> rfl

omit hc in
/--
The search finds the next usable control of the group if and only if it stays in it.
-/
theorem groupItem_iff (dlg : DlgItems ι) (c : dlg.Item) (bPrevious : Bool)
    : dlg.getNextDlgGroupItem (some c.1) bPrevious = some (dlg.cyclicItem c bPrevious)
      ↔ dlg.StaysInGroup c bPrevious := by
  have hor : ∀ o : Option ι, o.or (some c.1) = some (o.getD c) := by
    intro o
    cases o <;> rfl
  unfold getNextDlgGroupItem
  dsimp only
  rw [hor, Option.some.injEq]
  cases bPrevious with
  | false => exact nextGroupItem_iff c.2
  | true => exact prevGroupItem_iff c.2

end Group

theorem not_groupItem : ¬∀ (dlg : DlgItems Nat) (c : dlg.Item) (bPrevious : Bool),
    dlg.getNextDlgGroupItem (some c.1) bPrevious = some (dlg.cyclicItem c bPrevious) := by
  intro h
  have hitem := h ⟨[1, 2], fun _ => ⟨true, true, true, false⟩, by decide⟩ ⟨2, by decide⟩ false
  revert hitem
  decide

section Tab

variable {α : Type}

theorem head_cycle {l m : List α} (h : l ++ m ≠ [])
    : (m ++ (l ++ m)).head? = (l ++ m)[l.length % (l ++ m).length]? := by
  cases m with
  | nil => rw [append_nil, Nat.mod_self, nil_append, head?_eq_getElem?]
  | cons c m =>
    rw [Nat.mod_eq_of_lt (by simp), getElem?_append_right (le_refl _), Nat.sub_self]
    rfl

theorem head_cycle_back {l m : List α} (h : l ++ m ≠ [])
    : (l.reverse ++ (l ++ m).reverse).head? = (l ++ m)[(l.length + (l ++ m).length - 1) % (l ++ m).length]? := by
  have hpos := length_pos_of_ne_nil h
  rcases l.eq_nil_or_concat' with rfl | ⟨k, c, rfl⟩
  . rw [reverse_nil, nil_append, head?_reverse, getLast?_eq_getElem?, List.length_nil,
      Nat.zero_add, Nat.mod_eq_of_lt (by omega)]
  have hlast : (k ++ [c]).length + (k ++ [c] ++ m).length - 1 = k.length + (k ++ [c] ++ m).length := by
    rw [length_append, length_singleton]
    omega
  rw [hlast, Nat.add_mod_right, Nat.mod_eq_of_lt (by simp)]
  simp

def tabstops : List ι :=
  dlg.list.filter dlg.isTabstop

def tabsBefore (c : ι) : Nat :=
  ((dlg.list.take (dlg.list.idxOf c)).filter dlg.isTabstop).length

def rank (hCtl : Option ι) : Nat :=
  match hCtl with
  | some c => ((dlg.list.take (dlg.list.idxOf c + 1)).filter dlg.isTabstop).length
  | none => 0

variable {dlg}

theorem tab_search (h : dlg.tabstops ≠ []) (hCtl : Option ι) (bPrevious : Bool)
    : dlg.getNextDlgTabItem hCtl bPrevious
      = ((dlg.tabStart hCtl bPrevious).filter dlg.isTabstop
        ++ (if bPrevious then dlg.tabstops.reverse else dlg.tabstops)).head? := by
  have hall : (if bPrevious then dlg.list.reverse else dlg.list).filter dlg.isTabstop
      = if bPrevious then dlg.tabstops.reverse else dlg.tabstops := by
    cases bPrevious with
    | false => rfl
    | true => exact filter_reverse
  have hne : (if bPrevious then dlg.tabstops.reverse else dlg.tabstops) ≠ [] := by
    cases bPrevious with
    | false => exact h
    | true => exact mt reverse_eq_nil_iff.mp h
  unfold getNextDlgTabItem
  dsimp only
  rw [← head?_filter, ← head?_filter, hall, ← head?_append,
    head?_eq_some_head (append_ne_nil_of_right_ne_nil _ hne), some_or]

theorem tab_next (h : dlg.tabstops ≠ []) (hCtl : Option ι)
    : dlg.getNextDlgTabItem hCtl false = dlg.tabstops[dlg.rank hCtl % dlg.tabstops.length]? := by
  rw [tab_search h, if_neg Bool.false_ne_true]
  cases hCtl with
  | none =>
    rw [rank, Nat.zero_mod, tabStart, ← tabstops, head?_append_of_ne_nil _ h, head?_eq_getElem?]
  | some c =>
    have hsplit : dlg.tabstops = (dlg.list.take (dlg.list.idxOf c + 1)).filter dlg.isTabstop
        ++ (dlg.nexts c).filter dlg.isTabstop := by
      rw [← filter_append, nexts, take_append_drop, tabstops]
    rw [hsplit] at h ⊢
    exact head_cycle h

theorem tab_prev (h : dlg.tabstops ≠ []) (c : ι) : dlg.getNextDlgTabItem (some c) true
      = dlg.tabstops[(dlg.tabsBefore c + dlg.tabstops.length - 1) % dlg.tabstops.length]? := by
  have hsplit : dlg.tabstops = (dlg.list.take (dlg.list.idxOf c)).filter dlg.isTabstop
      ++ (dlg.list.drop (dlg.list.idxOf c)).filter dlg.isTabstop := by
    rw [← filter_append, take_append_drop, tabstops]
  rw [tab_search h, if_pos rfl, tabStart, prevs, filter_reverse, tabsBefore]
  rw [hsplit] at h ⊢
  exact head_cycle_back h

theorem tabStart_subset (hCtl : Option ι) (bPrevious : Bool) : dlg.tabStart hCtl bPrevious ⊆ dlg.list := by
  intro p hp
  cases hCtl with
  | none =>
    cases bPrevious with
    | false => exact hp
    | true => exact mem_reverse.mp hp
  | some c =>
    cases bPrevious with
    | false => exact mem_of_mem_drop hp
    | true => exact mem_of_mem_take (mem_reverse.mp hp)

theorem tab_place {j : Nat} (hj : j < dlg.tabstops.length)
    : dlg.tabsBefore dlg.tabstops[j] = j ∧ dlg.rank (some dlg.tabstops[j]) = j + 1 := by
  obtain ⟨hmem, htab⟩ := mem_filter.mp (getElem_mem hj)
  generalize hc : dlg.tabstops[j] = c at hmem htab ⊢
  obtain ⟨l, m, hlist⟩ := append_of_mem hmem
  have hindex := idxOf_place hlist
  have htabs : dlg.tabstops = l.filter dlg.isTabstop ++ c :: m.filter dlg.isTabstop := by
    rw [tabstops, hlist, filter_append, filter_cons_of_pos htab]
  have hbefore : dlg.tabsBefore c = (l.filter dlg.isTabstop).length := by
    rw [tabsBefore, hindex, hlist, take_left]
  have hrank : dlg.rank (some c) = (l.filter dlg.isTabstop).length + 1 := by
    rw [rank, hindex, hlist, take_length_add_append, filter_append, length_append, take_succ_cons,
      take_zero, filter_cons_of_pos htab]
    rfl
  have hlt : (l.filter dlg.isTabstop).length < dlg.tabstops.length := by
    rw [htabs, length_append, length_cons]
    omega
  have heq : dlg.tabstops[(l.filter dlg.isTabstop).length] = dlg.tabstops[j] := by
    rw [hc]
    simp [htabs]
  have hnodup : dlg.tabstops.Nodup := dlg.nodup.filter _
  have hsame := (hnodup.getElem_inj_iff).mp heq
  exact ⟨hbefore.trans hsame, hrank.trans (congrArg (· + 1) hsame)⟩

structure TabCycle (dlg : DlgItems ι) : Prop where
  found : ∀ hCtl bPrevious, dlg.tabstops ≠ [] →
    ∃ c ∈ dlg.tabstops, dlg.getNextDlgTabItem hCtl bPrevious = some c
  cycle : ∀ hCtl k, dlg.tabstops ≠ [] →
    (fun hCtl => dlg.getNextDlgTabItem hCtl false)^[k + 1] hCtl
      = dlg.tabstops[(dlg.rank hCtl + k) % dlg.tabstops.length]?
  inverse : ∀ c ∈ dlg.tabstops, ∀ bPrevious,
    dlg.getNextDlgTabItem (dlg.getNextDlgTabItem (some c) bPrevious) (!bPrevious) = some c

theorem tabCycle (dlg : DlgItems ι) : dlg.TabCycle where
  found := by
    intro hCtl bPrevious h
    rw [tab_search h]
    have hne : (dlg.tabStart hCtl bPrevious).filter dlg.isTabstop
        ++ (if bPrevious then dlg.tabstops.reverse else dlg.tabstops) ≠ [] := by
      cases bPrevious <;> simp [h]
    refine ⟨_, ?_, head?_eq_some_head hne⟩
    rcases mem_append.mp (head_mem hne) with hmem | hmem
    . obtain ⟨hstart, htab⟩ := mem_filter.mp hmem
      exact mem_filter.mpr ⟨tabStart_subset hCtl bPrevious hstart, htab⟩
    . cases bPrevious with
      | false => exact hmem
      | true => exact mem_reverse.mp hmem
  cycle := by
    intro hCtl k h
    have hlen := length_pos_of_ne_nil h
    induction k with
    | zero => exact tab_next h hCtl
    | succ k ih =>
      have hlt := Nat.mod_lt (dlg.rank hCtl + k) hlen
      rw [Function.iterate_succ_apply', ih, getElem?_eq_getElem hlt, tab_next h, (tab_place hlt).2,
        Nat.mod_add_mod, Nat.add_assoc]
  inverse := by
    intro c hmem bPrevious
    have h := ne_nil_of_mem hmem
    obtain ⟨j, hj, rfl⟩ := getElem_of_mem hmem
    have hnext := fun i (hi : i < dlg.tabstops.length) => (tab_next h (some dlg.tabstops[i])).trans
      (congrArg (fun r => dlg.tabstops[r % dlg.tabstops.length]?) (tab_place hi).2)
    have hprev := fun i (hi : i < dlg.tabstops.length) => (tab_prev h dlg.tabstops[i]).trans
      (congrArg (fun r => dlg.tabstops[(r + dlg.tabstops.length - 1) % dlg.tabstops.length]?) (tab_place hi).1)
    have hlen := length_pos_of_ne_nil h
    cases bPrevious with
    | false =>
      have hlt := Nat.mod_lt (j + 1) hlen
      rw [hnext j hj, getElem?_eq_getElem hlt, Bool.not_false, hprev _ hlt, ← getElem?_eq_getElem hj]
      congr 1
      rcases Nat.lt_or_ge (j + 1) dlg.tabstops.length with hsucc | hlast
      . rw [Nat.mod_eq_of_lt hsucc, Nat.add_right_comm, Nat.add_sub_cancel, Nat.add_mod_right, Nat.mod_eq_of_lt hj]
      . rw [show j + 1 = dlg.tabstops.length by omega, Nat.mod_self, Nat.zero_add, Nat.mod_eq_of_lt (by omega)]
        omega
    | true =>
      have hlt := Nat.mod_lt (j + dlg.tabstops.length - 1) hlen
      rw [hprev j hj, getElem?_eq_getElem hlt, Bool.not_true, hnext _ hlt, ← getElem?_eq_getElem hj]
      congr 1
      rw [Nat.mod_add_mod, Nat.sub_add_cancel (by omega), Nat.add_mod_right, Nat.mod_eq_of_lt hj]

end Tab

end DlgItems

end MiniGui
