import Mathlib

/-!
The content and the visible area of a scrolled window (`control/scrolled.c`). Both directions are computed alike, each
from its own offset, content size and visible size; a scroll bar that is shown or hidden by a call resizes the window
with a call of its own.
-/

namespace MiniGui.Scrolled

/-- `nContX`, `nContWidth` and `visibleWidth`, or those of the other direction. -/
structure Axis where
  cont : Int
  size : Int
  visible : Int
deriving DecidableEq

namespace Axis

def setContPos (a : Axis) (cont : Int) : Axis :=
  let room := a.size - a.visible
  let cont := if cont > room then room else cont
  if cont ≥ 0 ∧ cont ≤ room then { a with cont } else a

def visiblePos (a : Axis) (pos : Int) : Int :=
  if pos ≥ 0 then
    let pos := if pos ≥ a.size then a.size - 1 else pos
    if pos < a.cont then pos else if pos > a.cont + a.visible - 1 then pos - a.visible + 1 else -1
  else
    -1

/-- The offset that `svScroll` sets, if it sets one. -/
def scrollTo (a : Axis) (scrollval newpos : Int) : Option Int :=
  let bound := a.size - a.visible
  let scrollval := if newpos ≥ 0 then newpos - a.cont else scrollval
  if scrollval > 0 ∧ a.cont < bound then
    some (if a.cont + scrollval > bound then bound else a.cont + scrollval)
  else if scrollval < 0 ∧ a.cont > 0 then
    some (if a.cont + scrollval < 0 then 0 else a.cont + scrollval)
  else
    none

/-- The visible size is an `unsigned short`. -/
def recalc (a : Axis) (new : Int) : Axis :=
  let visible := new % 65536
  let size := if a.size < visible then visible else a.size
  { a with visible, size := if size = a.visible then visible else size }

def setContSize (a : Axis) (size : Int) : Axis :=
  if size < 0 then
    a
  else
    let size := if size < a.visible then a.visible else size
    if size = a.size then
      a
    else
      { a with size, cont := if a.cont > size - a.visible then size - a.visible else a.cont }

structure Inv (a : Axis) : Prop where
  visible_nonneg : 0 ≤ a.visible
  visible_le : a.visible ≤ a.size
  cont_nonneg : 0 ≤ a.cont
  cont_le : a.cont ≤ a.size - a.visible

/-- The view is not scrolled, or the content reaches to the end of the new visible area. -/
def Reaches (a : Axis) (new : Int) : Prop :=
  a.cont = 0 ∨ a.cont + new % 65536 ≤ a.size

variable {a : Axis}

theorem Inv.setContPos (h : a.Inv) (cont : Int) : (a.setContPos cont).Inv := by
  unfold Axis.setContPos
  dsimp only
  generalize (if cont > a.size - a.visible then a.size - a.visible else cont) = pos
  split
  . next hpos => exact ⟨h.visible_nonneg, h.visible_le, hpos.1, hpos.2⟩
  . exact h

theorem Inv.setContSize (h : a.Inv) (size : Int) : (a.setContSize size).Inv := by
  obtain ⟨h1, h2, h3, h4⟩ := h
  unfold Axis.setContSize
  dsimp only
  split_ifs <;> constructor <;> try dsimp only
  all_goals omega

/-- `scrolled_recalc_areas` never looks at the offset. -/
theorem Inv.recalc_iff (h : a.Inv) (new : Int) : (a.recalc new).Inv ↔ a.Reaches new := by
  obtain ⟨h1, h2, h3, h4⟩ := h
  have hmod := Int.emod_nonneg new (show (65536 : Int) ≠ 0 by decide)
  unfold recalc Reaches
  dsimp only
  generalize new % 65536 = visible at *
  constructor
  . rintro ⟨-, -, -, hle⟩
    dsimp only at hle
    split_ifs at hle <;> omega
  . intro hreach
    split_ifs <;> constructor <;> dsimp only <;> omega

theorem Inv.visiblePos (h : a.Inv) (hvisible : 0 < a.visible) {pos : Int} (hpos : 0 ≤ pos ∧ pos < a.size)
    : let b := a.setContPos (a.visiblePos pos)
      b.cont ≤ pos ∧ pos < b.cont + b.visible := by
  obtain ⟨h1, h2, h3, h4⟩ := h
  have hinside : ¬pos ≥ a.size := by omega
  simp only [Axis.visiblePos, Axis.setContPos, if_pos hpos.1, if_neg hinside]
  split_ifs <;> try dsimp only
  all_goals omega

end Axis

structure ScrData where
  x : Axis
  y : Axis
  leftMargin : Int
  topMargin : Int
  rightMargin : Int
  bottomMargin : Int

inductive Action where
  | recalcAreas (w h : Int)
  | setContWidth (w : Int)
  | setContHeight (h : Int)
  | setContPos (x y : Int)
  | makePosVisible (x y : Int)
  | setMargins (left top right bottom clientW clientH : Int)
  | svScroll (scrollval newpos : Int) (bHScroll : Bool)

namespace ScrData

def init (w h : Int) : ScrData :=
  let axis (size : Int) : Axis := { cont := 0, size := size % 65536, visible := size % 65536 }
  { x := axis w, y := axis h, leftMargin := 0, topMargin := 0, rightMargin := 0, bottomMargin := 0 }

def setContPos (s : ScrData) (x y : Int) : ScrData :=
  { s with x := s.x.setContPos x, y := s.y.setContPos y }

def recalcAreas (s : ScrData) (w h : Int) : ScrData :=
  { s with x := s.x.recalc w, y := s.y.recalc h }

def withMargins (s : ScrData) (left top right bottom : Int) : ScrData :=
  let margin (new old : Int) : Int := if new ≥ 0 then new % 65536 else old
  { s with
    leftMargin := margin left s.leftMargin
    topMargin := margin top s.topMargin
    rightMargin := margin right s.rightMargin
    bottomMargin := margin bottom s.bottomMargin }

def visibleSize (s : ScrData) (clientW clientH : Int) : Int × Int :=
  (clientW - s.leftMargin - s.rightMargin, clientH - s.topMargin - s.bottomMargin)

def step (s : ScrData) : Action → ScrData
  | .recalcAreas w h => s.recalcAreas w h
  | .setContWidth w => { s with x := s.x.setContSize w }
  | .setContHeight h => { s with y := s.y.setContSize h }
  | .setContPos x y => s.setContPos x y
  | .makePosVisible x y => s.setContPos (s.x.visiblePos x) (s.y.visiblePos y)
  | .setMargins left top right bottom clientW clientH =>
    let s := s.withMargins left top right bottom
    let size := s.visibleSize clientW clientH
    s.recalcAreas size.1 size.2
  | .svScroll scrollval newpos bHScroll =>
    match (if bHScroll then s.x else s.y).scrollTo scrollval newpos with
    | none => s
    | some cont => s.setContPos (if bHScroll then cont else -1) (if bHScroll then -1 else cont)

/-- Both directions are in range, and a point of the content that is made visible is in the visible area. -/
structure Geometry (s : ScrData) : Prop where
  x : s.x.Inv
  y : s.y.Inv
  shown : 0 < s.x.visible → 0 < s.y.visible → ∀ x y, 0 ≤ x ∧ x < s.x.size → 0 ≤ y ∧ y < s.y.size →
    let t := s.step (.makePosVisible x y)
    (t.x.cont ≤ x ∧ x < t.x.cont + t.x.visible) ∧ (t.y.cont ≤ y ∧ y < t.y.cont + t.y.visible)

def ResizeOk (s : ScrData) : Action → Prop
  | .recalcAreas w h => s.x.Reaches w ∧ s.y.Reaches h
  | .setMargins left top right bottom clientW clientH =>
    let size := (s.withMargins left top right bottom).visibleSize clientW clientH
    s.x.Reaches size.1 ∧ s.y.Reaches size.2
  | _ => True

def AlongRun (p : ScrData → Prop) (s : ScrData) : List Action → Prop
  | [] => p s
  | a :: actions => p s ∧ AlongRun p (s.step a) actions

def ResizesOk (s : ScrData) : List Action → Prop
  | [] => True
  | a :: actions => s.ResizeOk a ∧ ResizesOk (s.step a) actions

variable {s : ScrData}

theorem geometry_iff : s.Geometry ↔ s.x.Inv ∧ s.y.Inv :=
  ⟨fun h => ⟨h.x, h.y⟩, fun h => ⟨h.1, h.2, fun hx hy _ _ px py => ⟨h.1.visiblePos hx px, h.2.visiblePos hy py⟩⟩⟩

theorem Geometry.step_iff (h : s.Geometry) (a : Action) : (s.step a).Geometry ↔ s.ResizeOk a := by
  obtain ⟨hx, hy⟩ := geometry_iff.mp h
  rw [geometry_iff]
  cases a with
  | recalcAreas w h => exact and_congr (hx.recalc_iff w) (hy.recalc_iff h)
  | setContWidth w => exact iff_of_true ⟨hx.setContSize w, hy⟩ trivial
  | setContHeight h => exact iff_of_true ⟨hx, hy.setContSize h⟩ trivial
  | setContPos x y => exact iff_of_true ⟨hx.setContPos x, hy.setContPos y⟩ trivial
  | makePosVisible x y => exact iff_of_true ⟨hx.setContPos _, hy.setContPos _⟩ trivial
  | setMargins left top right bottom clientW clientH => exact and_congr (hx.recalc_iff _) (hy.recalc_iff _)
  | svScroll scrollval newpos bHScroll =>
    refine iff_of_true ?_ trivial
    dsimp only [step]
    split
    . exact ⟨hx, hy⟩
    . exact ⟨hx.setContPos _, hy.setContPos _⟩

theorem alongRun_iff (h : s.Geometry) (actions : List Action) : AlongRun Geometry s actions ↔ ResizesOk s actions := by
  induction actions generalizing s with
  | nil => exact iff_of_true h trivial
  | cons a actions ih =>
    constructor
    . rintro ⟨-, hrest⟩
      have hnext : (s.step a).Geometry := by
        cases actions with
        | nil => exact hrest
        | cons b rest => exact hrest.1
      exact ⟨(h.step_iff a).mp hnext, (ih hnext).mp hrest⟩
    . rintro ⟨hok, hrest⟩
      exact ⟨h, (ih ((h.step_iff a).mpr hok)).mpr hrest⟩

/-- The geometry holds all along a run exactly when every resize leaves the offset within the content. -/
theorem geometry_run_iff (w h : Int) (actions : List Action)
    : AlongRun Geometry (init w h) actions ↔ ResizesOk (init w h) actions := by
  apply alongRun_iff
  have hinit (n : Int) : Axis.Inv ⟨0, n % 65536, n % 65536⟩ := by
    constructor <;> dsimp only <;> omega
  exact geometry_iff.mpr ⟨hinit w, hinit h⟩

/-- A view that is scrolled to its right end, and then made wider. -/
theorem not_geometry_wider
    : ¬AlongRun Geometry (init 50 50) [.setContWidth 100, .setContPos 50 0, .recalcAreas 80 50] := by
  rintro ⟨-, -, -, h⟩
  exact absurd h.x.cont_le (by decide)

end ScrData

end MiniGui.Scrolled
