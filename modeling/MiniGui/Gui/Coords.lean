import Mathlib.Tactic

namespace MiniGui

structure WinPlace where
  left : Int
  top : Int
  cl : Int
  ct : Int

namespace WinPlace

-- `parents` is the chain of `pParent`, from the parent of the window on.
variable (pCtrl : WinPlace) (parents : List WinPlace)

def screenToClient (p : Int × Int) : Int × Int :=
  parents.foldl (fun p pParent => (p.1 - pParent.cl, p.2 - pParent.ct)) (p.1 - pCtrl.cl, p.2 - pCtrl.ct)

def clientToScreen (p : Int × Int) : Int × Int :=
  parents.foldl (fun p pParent => (p.1 + pParent.cl, p.2 + pParent.ct)) (p.1 + pCtrl.cl, p.2 + pCtrl.ct)

def screenToWindow (p : Int × Int) : Int × Int :=
  parents.foldl (fun p pParent => (p.1 - pParent.left, p.2 - pParent.top)) (p.1 - pCtrl.left, p.2 - pCtrl.top)

def windowToScreen (p : Int × Int) : Int × Int :=
  parents.foldl (fun p pParent => (p.1 + pParent.left, p.2 + pParent.top)) (p.1 + pCtrl.left, p.2 + pCtrl.top)

def parentToScreen (p : Int × Int) : Int × Int :=
  match parents with
  | [] => p
  | pParent :: parents => pParent.clientToScreen parents p

section Sums

variable (dx dy : WinPlace → Int)

theorem foldl_add (p : Int × Int)
    : parents.foldl (fun p pParent => (p.1 + dx pParent, p.2 + dy pParent)) p
      = (p.1 + (parents.map dx).sum, p.2 + (parents.map dy).sum) := by
  induction parents generalizing p with
  | nil => simp
  | cons pParent parents ih => simp [ih, add_assoc]

theorem foldl_sub (p : Int × Int)
    : parents.foldl (fun p pParent => (p.1 - dx pParent, p.2 - dy pParent)) p
      = (p.1 - (parents.map dx).sum, p.2 - (parents.map dy).sum) := by
  induction parents generalizing p with
  | nil => simp
  | cons pParent parents ih => simp [ih, sub_sub]

end Sums

theorem client_inverse (p : Int × Int)
    : pCtrl.screenToClient parents (pCtrl.clientToScreen parents p) = p
      ∧ pCtrl.clientToScreen parents (pCtrl.screenToClient parents p) = p := by
  simp only [screenToClient, clientToScreen, foldl_add, foldl_sub]
  constructor <;> ext <;> dsimp only <;> omega

theorem window_inverse (p : Int × Int)
    : pCtrl.screenToWindow parents (pCtrl.windowToScreen parents p) = p
      ∧ pCtrl.windowToScreen parents (pCtrl.screenToWindow parents p) = p := by
  simp only [screenToWindow, windowToScreen, foldl_add, foldl_sub]
  constructor <;> ext <;> dsimp only <;> omega

theorem parentToScreen_eq (p : Int × Int)
    : parentToScreen parents p = (p.1 + (parents.map cl).sum, p.2 + (parents.map ct).sum) := by
  cases parents with
  | nil => simp [parentToScreen]
  | cons pParent parents => simp [parentToScreen, clientToScreen, foldl_add, add_assoc]

def ConversionsAgree : Prop :=
  ∀ p : Int × Int,
    (pCtrl.screenToClient parents (pCtrl.clientToScreen parents p) = p
      ∧ pCtrl.clientToScreen parents (pCtrl.screenToClient parents p) = p)
    ∧ (pCtrl.screenToWindow parents (pCtrl.windowToScreen parents p) = p
      ∧ pCtrl.windowToScreen parents (pCtrl.screenToWindow parents p) = p)
    ∧ pCtrl.windowToScreen parents p
      = parentToScreen parents (pCtrl.left + p.1, pCtrl.top + p.2)

/--
Borders, captions and menu bars must not move the client areas of the parents, all in all.
-/
theorem conversionsAgree_iff : ConversionsAgree pCtrl parents
      ↔ (parents.map left).sum = (parents.map cl).sum ∧ (parents.map top).sum = (parents.map ct).sum := by
  have hagree : ∀ p : Int × Int, pCtrl.windowToScreen parents p
      = parentToScreen parents (pCtrl.left + p.1, pCtrl.top + p.2)
      ↔ (parents.map left).sum = (parents.map cl).sum ∧ (parents.map top).sum = (parents.map ct).sum := by
    intro p
    rw [parentToScreen_eq, windowToScreen, foldl_add, Prod.mk.injEq]
    constructor
    . rintro ⟨hx, hy⟩
      omega
    . rintro ⟨hx, hy⟩
      omega
  constructor
  . intro h
    exact (hagree (0, 0)).mp (h (0, 0)).2.2
  . intro h p
    exact ⟨client_inverse pCtrl parents p, window_inverse pCtrl parents p, (hagree p).mpr h⟩

theorem not_conversionsAgree : ¬∀ pCtrl parents, ConversionsAgree pCtrl parents := by
  intro h
  have hagree := (h ⟨10, 10, 10, 10⟩ [⟨0, 0, 2, 22⟩] (0, 0)).2.2
  revert hagree
  decide

end WinPlace

end MiniGui
