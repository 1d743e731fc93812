import Mathlib.Data.List.Basic
import Mathlib.Data.List.Count

namespace MiniGui

inductive ChildPtr where
  | active
  | oldUnderPointer
  | primitive
deriving DecidableEq, Repr

/--
The main windows and controls in the order in which they were created. A main window has no parent. What is left of
a window that is not alive is freed memory.
-/
structure FocusWorld where
  count : Nat
  alive : Nat → Bool
  pParent : Nat → Option Nat
  ptr : ChildPtr → Nat → Option Nat
  fresh : ∀ i, count ≤ i → alive i = false
  older : ∀ i p, pParent i = some p → p < i

inductive FocusMsg where
  | killFocus
  | setFocus
deriving DecidableEq, Repr

abbrev Sent : Type := List (Nat × FocusMsg)

/--
`HWND_INVALID`, or a window or null.
-/
inductive FocusRet where
  | invalid
  | hwnd (h : Option Nat)
deriving DecidableEq, Repr

namespace FocusWorld

def setPtr (s : FocusWorld) (k : ChildPtr) (w : Nat) (h : Option Nat) : FocusWorld :=
  { s with ptr := fun k' i => if k' = k ∧ i = w then h else s.ptr k' i }

def setFocusHelper (s : FocusWorld) (hWnd : Nat) : Option (FocusWorld × Sent × FocusRet) :=
  match s.pParent hWnd with
  | none => some (s, [], .invalid)
  | some pWin =>
    if s.alive pWin then
      let oldActive := s.ptr .active pWin
      if oldActive ≠ some hWnd then
        let kill := oldActive.toList.map fun h => (h, FocusMsg.killFocus)
        let s := s.setPtr .active pWin (some hWnd)
        some (s, kill ++ [(hWnd, .setFocus)], .hwnd (s.ptr .active pWin))
      else
        some (s, [], .hwnd (s.ptr .active pWin))
    else
      none

def focusLoop : Nat → FocusWorld → Nat → Option (FocusWorld × Sent)
  | 0, _, _ => none
  | rounds + 1, s, hWnd =>
    (s.setFocusHelper hWnd).bind fun (s, sent, ret) =>
      match ret, s.pParent hWnd with
      | .hwnd _, some parent => (focusLoop rounds s parent).map fun (s, rest) => (s, sent ++ rest)
      | _, _ => some (s, sent)

def setFocusChild (s : FocusWorld) (hWnd : Nat) : Option (FocusWorld × Sent × FocusRet) :=
  if s.alive hWnd then
    (s.setFocusHelper hWnd).bind fun (s, sent, hOldActive) =>
      match hOldActive, s.pParent hWnd with
      | .hwnd _, some parent =>
        (focusLoop (hWnd + 1) s parent).map fun (s, rest) => (s, sent ++ rest, hOldActive)
      | _, _ => some (s, sent, hOldActive)
  else
    some (s, [], .invalid)

def setNullFocus (s : FocusWorld) (hParent : Nat) : FocusWorld × Sent × FocusRet :=
  if s.alive hParent then
    let hOldActive := s.ptr .active hParent
    (s.setPtr .active hParent none, hOldActive.toList.map fun h => (h, FocusMsg.killFocus), .hwnd hOldActive)
  else
    (s, [], .invalid)

def addWindow (s : FocusWorld) (parent : Option Nat) (hparent : ∀ p, parent = some p → p < s.count) : FocusWorld where
  count := s.count + 1
  alive := fun i => if i = s.count then true else s.alive i
  pParent := fun i => if i = s.count then parent else s.pParent i
  ptr := fun k i => if i = s.count then none else s.ptr k i
  fresh := by
    intro i hi
    rw [if_neg (by omega)]
    exact s.fresh i (by omega)
  older := by
    intro i p
    split
    . rename_i heq
      rw [heq]
      exact hparent p
    . exact s.older i p

theorem lt_count {s : FocusWorld} {i : Nat} (h : s.alive i = true) : i < s.count := by
  by_contra hnot
  rw [s.fresh i (by omega)] at h
  cases h

def createWindowEx (s : FocusWorld) (hParentWnd : Nat) : FocusWorld :=
  if h : s.alive hParentWnd = true then
    s.addWindow (some hParentWnd) (by
      intro p hp
      cases hp
      exact lt_count h)
  else
    s

def children (s : FocusWorld) (h : Nat) : List Nat :=
  (List.range s.count).filter fun c => s.alive c && s.pParent c = some h

def free (s : FocusWorld) (pParent hWnd : Nat) : FocusWorld where
  count := s.count
  alive := fun i => if i = hWnd then false else s.alive i
  pParent := s.pParent
  ptr := fun k i => if i = pParent ∧ s.ptr k i = some hWnd then none else s.ptr k i
  fresh := by
    intro i hi
    split
    . rfl
    . exact s.fresh i hi
  older := s.older

def destroyWindow (refuses : Nat → Bool) : Nat → FocusWorld → Nat → Option FocusWorld
  | 0, _, _ => none
  | rounds + 1, s, hWnd =>
    match s.alive hWnd, s.pParent hWnd with
    | true, some pParent =>
      if refuses hWnd then
        some s
      else
        -- `DestroyAllControls`
        ((s.children hWnd).foldlM (destroyWindow refuses rounds) s).bind fun (s : FocusWorld) =>
          if s.alive pParent then some (s.free pParent hWnd) else none
    | _, _ => some s

def PtrsOk (s : FocusWorld) : Prop :=
  ∀ w, s.alive w = true → ∀ k c, s.ptr k w = some c → s.alive c = true ∧ s.pParent c = some w

inductive Above (s : FocusWorld) (h : Nat) : Nat → Prop where
  | self : Above s h h
  | parent {x p : Nat} (hx : Above s h x) (hp : s.pParent x = some p) : Above s h p

structure Focused (s : FocusWorld) (c p : Nat) (s' : FocusWorld) (sent : Sent) (ret : FocusRet) : Prop where
  reaches : ∀ x q, s.Above c x → s.pParent x = some q → s'.ptr .active q = some x
  killed : ∀ o, sent.count (o, .killFocus) ≤ 1
    ∧ (sent.count (o, .killFocus) = 1 ↔ ∃ q, s.ptr .active q = some o ∧ s'.ptr .active q ≠ some o)
  set : ∀ n, sent.count (n, .setFocus) ≤ 1
    ∧ (sent.count (n, .setFocus) = 1 ↔ ∃ q, s'.ptr .active q = some n ∧ s.ptr .active q ≠ some n)
  ret : ret = .hwnd (s.ptr .active p)

end FocusWorld

inductive FocusCall where
  | createWindowEx (hParentWnd : Nat)
  | setFocusChild (hWnd : Nat)
  | setNullFocus (hParent : Nat)
  | destroyWindow (refuses : Nat → Bool) (hWnd : Nat)

namespace FocusWorld

def next (s : FocusWorld) : FocusCall → Option FocusWorld
  | .createWindowEx hParentWnd => some (s.createWindowEx hParentWnd)
  | .setFocusChild hWnd => (s.setFocusChild hWnd).map Prod.fst
  | .setNullFocus hParent => some (s.setNullFocus hParent).1
  | .destroyWindow refuses hWnd => s.destroyWindow refuses (s.count + 1) hWnd

def Answers (s : FocusWorld) : FocusCall → Prop
  | .setFocusChild c =>
    ∀ p, s.alive c = true → s.pParent c = some p →
      ∃ s' sent ret, s.setFocusChild c = some (s', sent, ret) ∧ s.Focused c p s' sent ret
  | _ => True

def CallOk (s : FocusWorld) : FocusCall → Prop
  | .setFocusChild c =>
    ∀ p, s.alive c = true → s.pParent c = some p → s.ptr .active p = some c ∧ ∀ x, s.Above c x → s.alive x = true
  | .destroyWindow refuses hWnd =>
    ∀ p, s.alive hWnd = true → s.pParent hWnd = some p → refuses hWnd = false → s.alive p = true
  | _ => True

def AlwaysFocused : FocusWorld → List FocusCall → Prop
  | s, [] => s.PtrsOk
  | s, call :: calls => s.PtrsOk ∧ s.Answers call ∧ ∃ s', s.next call = some s' ∧ AlwaysFocused s' calls

def CallsOk : FocusWorld → List FocusCall → Prop
  | _, [] => True
  | s, call :: calls => s.CallOk call ∧ ∀ s', s.next call = some s' → CallsOk s' calls

section Above

variable {s : FocusWorld} {h p x : Nat}

theorem above_iff (hp : s.pParent h = some p) : s.Above h x ↔ x = h ∨ s.Above p x := by
  constructor
  . intro hx
    induction hx with
    | self => exact .inl rfl
    | @parent x q _ hq ih =>
      right
      rcases ih with rfl | hx
      . rw [hp] at hq
        cases hq
        exact .self
      . exact .parent hx hq
  rintro (rfl | hx)
  . exact .self
  . induction hx with
    | self => exact .parent .self hp
    | parent _ hq ih => exact .parent ih hq

theorem above_root (hroot : s.pParent h = none) (hx : s.Above h x) : x = h := by
  induction hx with
  | self => rfl
  | parent _ hq ih =>
    rw [ih, hroot] at hq
    cases hq

theorem Above.le (hx : s.Above h x) : x ≤ h := by
  induction hx with
  | self => exact Nat.le_refl h
  | parent _ hq ih =>
    have hlt := s.older _ _ hq
    omega

theorem Above.congr {s' : FocusWorld} (hparent : s'.pParent = s.pParent) : s'.Above h x ↔ s.Above h x := by
  constructor
  . intro hx
    induction hx with
    | self => exact .self
    | parent _ hq ih =>
      rw [hparent] at hq
      exact .parent ih hq
  intro hx
  induction hx with
  | self => exact .self
  | parent _ hq ih =>
    rw [← hparent] at hq
    exact .parent ih hq

end Above

structure SameWindows (s s' : FocusWorld) : Prop where
  count : s'.count = s.count
  alive : s'.alive = s.alive
  pParent : s'.pParent = s.pParent
  ptr : ∀ k, k ≠ .active → s'.ptr k = s.ptr k

structure Raised (s : FocusWorld) (h : Nat) (s' : FocusWorld) (sent : Sent) : Prop where
  same : SameWindows s s'
  reaches : ∀ x q, s.Above h x → s.pParent x = some q → s'.ptr .active q = some x
  frame : ∀ q, (∀ x, s.Above h x → s.pParent x ≠ some q) → s'.ptr .active q = s.ptr .active q
  killed : ∀ o, (sent.count (o, .killFocus) = 1 ∧ ∃ q, s.ptr .active q = some o ∧ s'.ptr .active q ≠ some o)
    ∨ (sent.count (o, .killFocus) = 0 ∧ ¬∃ q, s.ptr .active q = some o ∧ s'.ptr .active q ≠ some o)
  set : ∀ n, (sent.count (n, .setFocus) = 1 ∧ ∃ q, s'.ptr .active q = some n ∧ s.ptr .active q ≠ some n)
    ∨ (sent.count (n, .setFocus) = 0 ∧ ¬∃ q, s'.ptr .active q = some n ∧ s.ptr .active q ≠ some n)

section Focus

variable {s s₁ s' : FocusWorld} {h p : Nat} {sent rest : Sent}

theorem raised_root (hroot : s.pParent h = none) : Raised s h s [] where
  same := ⟨rfl, rfl, rfl, fun _ _ => rfl⟩
  reaches := by
    intro x q hx hq
    rw [above_root hroot hx, hroot] at hq
    cases hq
  frame := fun _ _ => rfl
  killed := fun o => .inr ⟨rfl, fun ⟨_, h1, h2⟩ => h2 h1⟩
  set := fun n => .inr ⟨rfl, fun ⟨_, h1, h2⟩ => h2 h1⟩

structure Helped (s : FocusWorld) (h p : Nat) (s₁ : FocusWorld) (sent : Sent) : Prop where
  same : SameWindows s s₁
  active : s₁.ptr .active p = some h
  frame : ∀ q, q ≠ p → s₁.ptr .active q = s.ptr .active q
  killed : ∀ o, sent.count (o, .killFocus) = if s.ptr .active p = some o ∧ o ≠ h then 1 else 0
  set : ∀ n, sent.count (n, .setFocus) = if n = h ∧ s.ptr .active p ≠ some h then 1 else 0

theorem setFocusHelper_spec (hp : s.pParent h = some p) (halive : s.alive p = true)
    : ∃ s₁ sent, s.setFocusHelper h = some (s₁, sent, .hwnd (some h)) ∧ Helped s h p s₁ sent := by
  unfold setFocusHelper
  rw [hp]
  dsimp only
  rw [if_pos halive]
  by_cases hold : s.ptr .active p = some h
  . rw [if_neg (fun hne => hne hold), hold]
    refine ⟨s, [], rfl, ⟨rfl, rfl, rfl, fun _ _ => rfl⟩, hold, fun _ _ => rfl, ?_, ?_⟩
    . intro o
      rw [if_neg, List.count_nil]
      rintro ⟨heq, hne⟩
      rw [hold] at heq
      exact hne (Option.some.inj heq).symm
    . intro n
      rw [if_neg (fun hand => hand.2 hold), List.count_nil]
  have hself : (s.setPtr .active p (some h)).ptr .active p = some h := if_pos ⟨rfl, rfl⟩
  rw [if_pos hold, hself]
  refine ⟨_, _, rfl, ⟨rfl, rfl, rfl, ?_⟩, hself, ?_, ?_, ?_⟩
  . intro k hk
    funext i
    exact if_neg (fun hand => hk hand.1)
  . intro q hq
    exact if_neg (fun hand => hq hand.2)
  . intro o
    rw [List.count_append]
    cases hactive : s.ptr .active p with
    | none => simp
    | some o' =>
      rw [hactive] at hold
      by_cases ho : o' = o
      . have hne : o ≠ h := by
          rw [← ho]
          exact fun heq => hold (congrArg some heq)
        simp [ho, hne]
      . simp [ho]
  intro n
  rw [List.count_append]
  cases hactive : s.ptr .active p with
  | none =>
    by_cases hn : h = n
    . simp [hn]
    . have hn' : n ≠ h := fun heq => hn heq.symm
      simp [hn, hn']
  | some o' =>
    rw [hactive] at hold
    by_cases hn : h = n
    . rw [hn] at hold ⊢
      simp [hold]
    . have hn' : n ≠ h := fun heq => hn heq.symm
      simp [hn, hn']

theorem Helped.ptrsOk (h' : Helped s h p s₁ sent) (hok : s.PtrsOk) (hp : s.pParent h = some p)
    (hh : s.alive h = true) : s₁.PtrsOk := by
  intro w hw k c hc
  rw [h'.same.alive] at hw ⊢
  rw [h'.same.pParent]
  by_cases hk : k = .active
  . rw [hk] at hc
    by_cases hwp : w = p
    . rw [hwp, h'.active] at hc
      cases hc
      rw [hwp]
      exact ⟨hh, hp⟩
    . rw [h'.frame w hwp] at hc
      exact hok w hw .active c hc
  . rw [h'.same.ptr k hk] at hc
    exact hok w hw k c hc

theorem Helped.above_alive (h' : Helped s h p s₁ sent) (hp : s.pParent h = some p)
    (halive : ∀ x, s.Above h x → s.alive x = true) (x : Nat) (hx : s₁.Above p x) : s₁.alive x = true := by
  rw [h'.same.alive]
  exact halive x ((above_iff hp).mpr (.inr ((Above.congr h'.same.pParent).mp hx)))

theorem Helped.raised (h' : Helped s h p s₁ sent) (hrest : Raised s₁ p s' rest) (hok : s.PtrsOk) (hp : s.pParent h = some p)
    (halive : ∀ x, s.Above h x → s.alive x = true) : Raised s h s' (sent ++ rest) := by
  have hAbove : ∀ x, s₁.Above p x ↔ s.Above p x := fun x => Above.congr h'.same.pParent
  have hok₁ := h'.ptrsOk hok hp (halive h .self)
  have hkept : s'.ptr .active p = some h := by
    rw [hrest.frame p, h'.active]
    intro x hx hq
    have hle := ((hAbove x).mp hx).le
    rw [h'.same.pParent] at hq
    have hlt := s.older x p hq
    omega
  -- a window that changes above the parent is alive and gets one of the windows above
  have hchanged : ∀ q, s'.ptr .active q ≠ s₁.ptr .active q → ∃ x, s.Above p x ∧ s.pParent x = some q := by
    intro q hne
    by_contra hnone
    apply hne
    apply hrest.frame
    intro x hx hq
    rw [h'.same.pParent] at hq
    exact hnone ⟨x, (hAbove x).mp hx, hq⟩
  constructor
  . constructor
    . rw [hrest.same.count, h'.same.count]
    . rw [hrest.same.alive, h'.same.alive]
    . rw [hrest.same.pParent, h'.same.pParent]
    . intro k hk
      rw [hrest.same.ptr k hk, h'.same.ptr k hk]
  . intro x q hx hq
    rcases (above_iff hp).mp hx with rfl | hx
    . rw [hp] at hq
      cases hq
      exact hkept
    . refine hrest.reaches x q ((hAbove x).mpr hx) ?_
      rw [h'.same.pParent]
      exact hq
  . intro q hnot
    have hne : q ≠ p := by
      rintro rfl
      exact hnot h .self hp
    rw [hrest.frame q, h'.frame q hne]
    intro x hx hq
    rw [h'.same.pParent] at hq
    exact hnot x ((above_iff hp).mpr (.inr ((hAbove x).mp hx))) hq
  . intro o
    have hiff : (∃ q, s.ptr .active q = some o ∧ s'.ptr .active q ≠ some o)
        ↔ (s.ptr .active p = some o ∧ o ≠ h) ∨ ∃ q, s₁.ptr .active q = some o ∧ s'.ptr .active q ≠ some o := by
      constructor
      . rintro ⟨q, hq, hne⟩
        by_cases hqp : q = p
        . rw [hqp] at hq hne
          rw [hkept] at hne
          exact .inl ⟨hq, fun heq => hne (congrArg some heq.symm)⟩
        . rw [← h'.frame q hqp] at hq
          exact .inr ⟨q, hq, hne⟩
      rintro (⟨hold, hne⟩ | ⟨q, hq, hne⟩)
      . refine ⟨p, hold, ?_⟩
        rw [hkept]
        exact fun heq => hne (Option.some.inj heq).symm
      have hqp : q ≠ p := by
        rintro rfl
        rw [h'.active, ← hkept] at hq
        exact hne hq
      rw [h'.frame q hqp] at hq
      exact ⟨q, hq, hne⟩
    rw [hiff, List.count_append, h'.killed]
    by_cases hself : s.ptr .active p = some o ∧ o ≠ h
    . have hnone : ¬∃ q, s₁.ptr .active q = some o ∧ s'.ptr .active q ≠ some o := by
        rintro ⟨q, hq, hne⟩
        obtain ⟨x, hx, hxq⟩ := hchanged q (by rw [hq]; exact hne)
        have hqAlive := halive q ((above_iff hp).mpr (.inr (.parent hx hxq)))
        have hparent := (hok₁ q (by rw [h'.same.alive]; exact hqAlive) .active o hq).2
        have hpAlive := halive p ((above_iff hp).mpr (.inr .self))
        rw [h'.same.pParent, (hok p hpAlive .active o hself.1).2] at hparent
        cases hparent
        rw [h'.active, ← hkept] at hq
        exact hne hq
      left
      rw [if_pos hself]
      rcases hrest.killed o with ⟨-, hexists⟩ | ⟨hcount, -⟩
      . exact absurd hexists hnone
      . exact ⟨by rw [hcount], .inl hself⟩
    . rw [if_neg hself, Nat.zero_add]
      simp only [hself, false_or]
      exact hrest.killed o
  intro n
  have hiff : (∃ q, s'.ptr .active q = some n ∧ s.ptr .active q ≠ some n)
      ↔ (n = h ∧ s.ptr .active p ≠ some h) ∨ ∃ q, s'.ptr .active q = some n ∧ s₁.ptr .active q ≠ some n := by
    constructor
    . rintro ⟨q, hq, hne⟩
      by_cases hqp : q = p
      . rw [hqp] at hq hne
        rw [hkept] at hq
        cases hq
        exact .inl ⟨rfl, hne⟩
      . rw [← h'.frame q hqp] at hne
        exact .inr ⟨q, hq, hne⟩
    rintro (⟨rfl, hne⟩ | ⟨q, hq, hne⟩)
    . exact ⟨p, hkept, hne⟩
    have hqp : q ≠ p := by
      rintro rfl
      rw [h'.active, ← hkept] at hne
      exact hne hq
    rw [h'.frame q hqp] at hne
    exact ⟨q, hq, hne⟩
  rw [hiff, List.count_append, h'.set]
  by_cases hself : n = h ∧ s.ptr .active p ≠ some h
  . have hnone : ¬∃ q, s'.ptr .active q = some n ∧ s₁.ptr .active q ≠ some n := by
      rintro ⟨q, hq, hne⟩
      obtain ⟨x, hx, hxq⟩ := hchanged q (by rw [hq]; exact fun heq => hne heq.symm)
      have hreach := hrest.reaches x q ((hAbove x).mpr hx) (by rw [h'.same.pParent]; exact hxq)
      rw [hq] at hreach
      have hle := hx.le
      have hlt := s.older h p hp
      have heq := Option.some.inj hreach
      omega
    left
    rw [if_pos hself]
    rcases hrest.set n with ⟨-, hexists⟩ | ⟨hcount, -⟩
    . exact absurd hexists hnone
    . exact ⟨by rw [hcount], .inl hself⟩
  . rw [if_neg hself, Nat.zero_add]
    simp only [hself, false_or]
    exact hrest.set n

theorem focusLoop_spec {rounds : Nat} (hrounds : h < rounds) (hok : s.PtrsOk) (halive : ∀ x, s.Above h x → s.alive x = true)
    : ∃ s' sent, s.focusLoop rounds h = some (s', sent) ∧ Raised s h s' sent := by
  induction rounds generalizing s h with
  | zero => omega
  | succ rounds ih =>
    unfold focusLoop
    cases hp : s.pParent h with
    | none =>
      refine ⟨s, [], ?_, raised_root hp⟩
      unfold setFocusHelper
      rw [hp]
      rfl
    | some p =>
      obtain ⟨s₁, sent, hhelp, hspec⟩ := setFocusHelper_spec hp (halive p ((above_iff hp).mpr (.inr .self)))
      have hparent : s₁.pParent h = some p := by
        rw [hspec.same.pParent, hp]
      have hlt := s.older h p hp
      obtain ⟨s', rest, hloop, hrest⟩ := @ih s₁ p (by omega) (hspec.ptrsOk hok hp (halive h .self))
        (hspec.above_alive hp halive)
      refine ⟨s', sent ++ rest, ?_, hspec.raised hrest hok hp halive⟩
      rw [hhelp, Option.bind_some]
      dsimp only
      rw [hparent]
      dsimp only
      rw [hloop]
      rfl

theorem setFocusChild_spec (hok : s.PtrsOk) (hp : s.pParent h = some p) (halive : ∀ x, s.Above h x → s.alive x = true)
    : ∃ s' sent, s.setFocusChild h = some (s', sent, .hwnd (some h)) ∧ Raised s h s' sent := by
  obtain ⟨s₁, sent, hhelp, hspec⟩ := setFocusHelper_spec hp (halive p ((above_iff hp).mpr (.inr .self)))
  have hparent : s₁.pParent h = some p := by
    rw [hspec.same.pParent, hp]
  have hlt := s.older h p hp
  obtain ⟨s', rest, hloop, hrest⟩ := @focusLoop_spec s₁ p (h + 1) (by omega) (hspec.ptrsOk hok hp (halive h .self))
    (hspec.above_alive hp halive)
  refine ⟨s', sent ++ rest, ?_, hspec.raised hrest hok hp halive⟩
  unfold setFocusChild
  rw [if_pos (halive h .self), hhelp, Option.bind_some]
  dsimp only
  rw [hparent]
  dsimp only
  rw [hloop]
  rfl

end Focus

end MiniGui.FocusWorld
