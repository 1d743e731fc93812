import Mathlib

namespace MiniGui

structure Rect where
  left : Int
  top : Int
  right : Int
  bottom : Int
deriving DecidableEq, Repr, Inhabited

namespace Rect

def zero : Rect := ⟨0, 0, 0, 0⟩

def Mem (r : Rect) (x y : Int) : Prop :=
  r.left ≤ x ∧ x < r.right ∧ r.top ≤ y ∧ y < r.bottom

instance (r : Rect) (x y : Int) : Decidable (r.Mem x y) :=
  inferInstanceAs (Decidable (_ ∧ _))

end Rect

def isRectEmpty (prc : Rect) : Bool :=
  prc.left = prc.right || prc.top = prc.bottom

def normalizeRect (pRect : Rect) : Rect :=
  let pRect :=
    if pRect.left > pRect.right then
      { pRect with left := pRect.right, right := pRect.left }
    else
      pRect
  if pRect.top > pRect.bottom then
    { pRect with top := pRect.bottom, bottom := pRect.top }
  else
    pRect

def intersectRect (psrc1 psrc2 : Rect) : Bool × Rect :=
  let pdrc : Rect :=
    {
      left := if psrc1.left > psrc2.left then psrc1.left else psrc2.left
      top := if psrc1.top > psrc2.top then psrc1.top else psrc2.top
      right := if psrc1.right < psrc2.right then psrc1.right else psrc2.right
      bottom := if psrc1.bottom < psrc2.bottom then psrc1.bottom else psrc2.bottom
    }
  if pdrc.left ≥ pdrc.right || pdrc.top ≥ pdrc.bottom then
    (false, pdrc)
  else
    (true, pdrc)

def doesIntersect (psrc1 psrc2 : Rect) : Bool :=
  let left := if psrc1.left > psrc2.left then psrc1.left else psrc2.left
  let top := if psrc1.top > psrc2.top then psrc1.top else psrc2.top
  let right := if psrc1.right < psrc2.right then psrc1.right else psrc2.right
  let bottom := if psrc1.bottom < psrc2.bottom then psrc1.bottom else psrc2.bottom
  if left ≥ right || top ≥ bottom then
    false
  else
    true

def getBoundRect (psrc1 psrc2 : Rect) : Rect :=
  let src1 := normalizeRect psrc1
  let src2 := normalizeRect psrc2
  {
    left := if src1.left < src2.left then src1.left else src2.left
    top := if src1.top < src2.top then src1.top else src2.top
    right := if src1.right > src2.right then src1.right else src2.right
    bottom := if src1.bottom > src2.bottom then src1.bottom else src2.bottom
  }

def subtractRect (psrc1 psrc2 : Rect) : List Rect :=
  if !doesIntersect psrc1 psrc2 then
    [psrc1]
  else
    let src := psrc1
    -- The source trims `src` after the first and after the second piece.
    let top := if psrc2.top > src.top then psrc2.top else src.top
    let bottom := if psrc2.bottom < src.bottom then psrc2.bottom else src.bottom
    let above := if psrc2.top > src.top then [{ src with bottom := psrc2.top }] else []
    let below := if psrc2.bottom < src.bottom then [{ src with top := psrc2.bottom }] else []
    let before :=
      if psrc2.left > src.left then [⟨src.left, top, psrc2.left, bottom⟩] else []
    let behind :=
      if psrc2.right < src.right then [⟨psrc2.right, top, src.right, bottom⟩] else []
    above ++ below ++ before ++ behind

theorem doesIntersect_iff (a b : Rect) : doesIntersect a b = true
        ↔
      max a.left b.left < min a.right b.right ∧ max a.top b.top < min a.bottom b.bottom := by
  simp only [doesIntersect, Bool.if_false_left]
  grind

theorem doesIntersect_of_mem {a b : Rect} {x y : Int} (ha : a.Mem x y) (hb : b.Mem x y)
    : doesIntersect a b = true := by
  rw [doesIntersect_iff]
  simp only [Rect.Mem] at ha hb
  omega

@[simp]
theorem intersectRect_mem (a b : Rect) (x y : Int)
    : (intersectRect a b).2.Mem x y ↔ a.Mem x y ∧ b.Mem x y := by
  have : (intersectRect a b).2 = ⟨max a.left b.left, max a.top b.top, min a.right b.right,
      min a.bottom b.bottom⟩ := by
    simp only [intersectRect]
    grind
  rw [this]
  simp only [Rect.Mem]
  omega

theorem intersectRect_fst (a b : Rect) : (intersectRect a b).1 = doesIntersect a b := by
  unfold intersectRect doesIntersect
  exact apply_ite Prod.fst _ _ _

theorem isRectEmpty_not_mem {r : Rect} (h : isRectEmpty r = true) (x y : Int) : ¬r.Mem x y := by
  simp only [isRectEmpty, Bool.or_eq_true, decide_eq_true_eq] at h
  simp only [Rect.Mem]
  omega

end MiniGui
