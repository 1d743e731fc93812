import MiniGui.Gdi.CellCalls

namespace MiniGui

def Rect.Normalized (r : Rect) : Prop :=
  r.left ≤ r.right ∧ r.top ≤ r.bottom

theorem Rect.Normalized.proper {r : Rect} (h : r.Normalized) (hr : ¬isRectEmpty r = true) : r.Proper := by
  unfold isRectEmpty at hr
  unfold Normalized at h
  unfold Proper
  simp only [Bool.or_eq_true, decide_eq_true_eq, not_or] at hr
  omega

namespace ClipRgn

structure Exact (rgn : ClipRgn) : Prop where
  wellFormed : rgn.WellFormed
  zero : rgn.rects = [] → rgn.rcBound = .zero

theorem exact_empty : emptyClipRgn.Exact :=
  ⟨wellFormed_of_nil rfl, fun _ => rfl⟩

theorem exact_single {r : Rect} (h : r.Proper) : (single r).Exact := by
  constructor
  . exact wellFormed_single h
  . intro hnil
    simp [single] at hnil

end ClipRgn

open ClipRgn

section Exact

variable {ι : Type} [DecidableEq ι] {m : RgnStore ι}

theorem finishRegion_zero (m : RgnStore ι) (dst : ι) (h : (finishRegion m dst dst).rects = [])
    : (finishRegion m dst dst).rcBound = .zero := by
  unfold finishRegion at h ⊢
  rw [Function.update_self] at h ⊢
  rw [regionSetExtents_rects] at h
  unfold regionSetExtents
  rw [h]

theorem Computes.exact {m' : RgnStore ι} {dst : ι} {s : Set (Int × Int)} (hm : ∀ i, (m i).Exact)
    (h : Computes m m' dst s) (hzero : (m' dst).rects = [] → (m' dst).rcBound = .zero)
    : ∀ i, (m' i).Exact := by
  intro i
  by_cases hi : i = dst
  . rw [hi]
    exact ⟨h.wellFormed, hzero⟩
  . rw [h.frame i hi]
    exact hm i

theorem clipRgnCopy_zero {dst src : ι} (h : (m src).rects = [] → (m src).rcBound = .zero)
    : ((clipRgnCopy m dst src).2 dst).rects = [] → ((clipRgnCopy m dst src).2 dst).rcBound = .zero := by
  unfold clipRgnCopy
  split
  next heq =>
    rw [heq]
    exact h
  next hne =>
    dsimp only
    rw [Function.update_of_ne (Ne.symm hne)]
    split
    . dsimp only
      rw [Function.update_self]
      exact fun _ => rfl
    . dsimp only
      rw [Function.update_self]
      exact h

theorem clipRgnIntersect_zero (m : RgnStore ι) (dst src1 src2 : ι)
    : ((clipRgnIntersect m dst src1 src2).2 dst).rects = []
        → ((clipRgnIntersect m dst src1 src2).2 dst).rcBound = .zero := by
  unfold clipRgnIntersect
  split
  . dsimp only
    rw [Function.update_self]
    exact fun _ => rfl
  . exact finishRegion_zero _ _

theorem subtractRegion_zero {rgnM : ι} (h : (m rgnM).rects = [] → (m rgnM).rcBound = .zero) (rgnD rgnS : ι)
    : ((subtractRegion m rgnD rgnM rgnS).2 rgnD).rects = []
        → ((subtractRegion m rgnD rgnM rgnS).2 rgnD).rcBound = .zero := by
  unfold subtractRegion
  split
  . exact clipRgnCopy_zero h
  . exact finishRegion_zero _ _

theorem copyUnless_zero {dst src : ι} (h : (m src).rects = [] → (m src).rcBound = .zero)
    : ((if dst ≠ src then (clipRgnCopy m dst src).2 else m) dst).rects = []
        → ((if dst ≠ src then (clipRgnCopy m dst src).2 else m) dst).rcBound = .zero := by
  split
  . exact clipRgnCopy_zero h
  next heq =>
    rw [ne_eq, not_not] at heq
    rw [heq]
    exact h

theorem unionRegion_zero {src1 src2 : ι} (h1 : (m src1).rects = [] → (m src1).rcBound = .zero)
    (h2 : (m src2).rects = [] → (m src2).rcBound = .zero) (dst : ι)
    : ((unionRegion m dst src1 src2).2 dst).rects = []
        → ((unionRegion m dst src1 src2).2 dst).rcBound = .zero := by
  unfold unionRegion
  split
  . exact copyUnless_zero h2
  split
  . exact copyUnless_zero h1
  split
  . exact copyUnless_zero h1
  . split
    . exact copyUnless_zero h2
    . exact finishRegion_zero _ _

section

variable (h : ∀ i, (m i).Exact)
include h

theorem subtractRegion_exact (rgnD rgnM rgnS : ι)
    : ∀ i, ((subtractRegion m rgnD rgnM rgnS).2 i).Exact :=
  (subtractRegion_computes m rgnD rgnM rgnS (h rgnM).wellFormed (h rgnS).wellFormed).exact h
    (subtractRegion_zero (h rgnM).zero rgnD rgnS)

theorem unionRegion_exact (dst src1 src2 : ι) : ∀ i, ((unionRegion m dst src1 src2).2 i).Exact :=
  (unionRegion_computes m dst src1 src2 (h src1).wellFormed (h src2).wellFormed).exact h
    (unionRegion_zero (h src1).zero (h src2).zero dst)

theorem clipRgnIntersect_exact (dst src1 src2 : ι)
    : ∀ i, ((clipRgnIntersect m dst src1 src2).2 i).Exact :=
  (clipRgnIntersect_computes (h src1).wellFormed (h src2).wellFormed).exact h
    (clipRgnIntersect_zero m dst src1 src2)

theorem clipRgnCopy_exact (dst src : ι) : ∀ i, ((clipRgnCopy m dst src).2 i).Exact :=
  (clipRgnCopy_computes (h src).wellFormed).exact h (clipRgnCopy_zero (h src).zero)

theorem xorRegion_exact (dst src1 src2 : ι) : ∀ i, ((xorRegion m dst src1 src2).2 i).Exact := by
  intro i
  unfold xorRegion
  apply unionRegion_exact
  apply subtractRegion_exact
  apply subtractRegion_exact
  intro o
  cases o with
  | arg i => exact h i
  | tmpa | tmpb => exact exact_empty

end

variable {rgn : ClipRgn} {rect : Rect} (h : rgn.Exact)
include h

theorem clipRectStore_exact (hrect : rect.Proper) : ∀ o, (clipRectStore rgn rect o).Exact := by
  intro o
  cases o with
  | region => exact h
  | myRegion => exact exact_single hrect

theorem addClipRect_exact (hrect : rect.Normalized) : (addClipRect rgn rect).2.Exact := by
  unfold addClipRect
  split
  . exact h
  next hne => exact unionRegion_exact (clipRectStore_exact h (hrect.proper hne)) _ _ _ _

theorem intersectClipRect_exact : (intersectClipRect rgn rect).2.Exact := by
  refine ⟨(intersectClipRect_spec h.wellFormed).1, ?_⟩
  unfold intersectClipRect
  split
  . exact fun _ => rfl
  . exact clipRgnIntersect_zero _ _ _ _

theorem subtractClipRect_exact : (subtractClipRect rgn rect).2.Exact := by
  refine ⟨(subtractClipRect_wellFormed h.wellFormed).1, ?_⟩
  unfold subtractClipRect
  split
  . exact h.zero
  . apply subtractRegion_zero
    exact h.zero

theorem setClipRgn_exact (hrect : rect.Normalized) : (setClipRgn rgn rect).2.Exact := by
  rw [setClipRgn_eq]
  split
  . exact h
  next hne => exact exact_single (hrect.proper hne)

theorem offsetRegion_exact (x y : Int) : (offsetRegion rgn x y).Exact := by
  refine ⟨(offsetRegion_spec h.wellFormed x y).1, ?_⟩
  unfold offsetRegion
  rw [List.map_eq_nil_iff]
  intro hnil
  rw [if_pos hnil]
  exact h.zero hnil

end Exact

namespace Cells

variable {ι : Type} [DecidableEq ι]

inductive RgnCall (ι : Type) where
  | setClipRgn (pRgn : ι) (pRect : Rect)
  | clipRgnCopy (pDstRgn pSrcRgn : ι)
  | unionRegion (dst src1 src2 : ι)
  | clipRgnIntersect (dst src1 src2 : ι)
  | subtractRegion (rgnD rgnM rgnS : ι)
  | xorRegion (dst src1 src2 : ι)
  | addClipRect (region : ι) (rect : Rect)
  | intersectClipRect (region : ι) (rect : Rect)
  | subtractClipRect (region : ι) (rect : Rect)
  | offsetRegion (region : ι) (x y : Int)

def RgnCall.run (heap : BlockHeap) (s : Store ι) : RgnCall ι → Store ι
  | .setClipRgn pRgn pRect => (Cells.setClipRgn heap s pRgn pRect).2
  | .clipRgnCopy pDstRgn pSrcRgn => (Cells.clipRgnCopy heap s pDstRgn pSrcRgn).2
  | .unionRegion dst src1 src2 => (Cells.unionRegion heap s dst src1 src2).2
  | .clipRgnIntersect dst src1 src2 => (Cells.clipRgnIntersect heap s dst src1 src2).2
  | .subtractRegion rgnD rgnM rgnS => (Cells.subtractRegion heap s rgnD rgnM rgnS).2
  | .xorRegion dst src1 src2 => (Cells.xorRegion heap s dst src1 src2).2
  | .addClipRect region rect => (Cells.addClipRect heap s region rect).2
  | .intersectClipRect region rect => (Cells.intersectClipRect heap s region rect).2
  | .subtractClipRect region rect => (Cells.subtractClipRect heap s region rect).2
  | .offsetRegion region x y => Cells.offsetRegion s region x y

def RgnCall.onView (m : RgnStore ι) : RgnCall ι → RgnStore ι
  | .setClipRgn pRgn pRect => Function.update m pRgn (MiniGui.setClipRgn (m pRgn) pRect).2
  | .clipRgnCopy pDstRgn pSrcRgn => (MiniGui.clipRgnCopy m pDstRgn pSrcRgn).2
  | .unionRegion dst src1 src2 => (MiniGui.unionRegion m dst src1 src2).2
  | .clipRgnIntersect dst src1 src2 => (MiniGui.clipRgnIntersect m dst src1 src2).2
  | .subtractRegion rgnD rgnM rgnS => (MiniGui.subtractRegion m rgnD rgnM rgnS).2
  | .xorRegion dst src1 src2 => (MiniGui.xorRegion m dst src1 src2).2
  | .addClipRect region rect => Function.update m region (MiniGui.addClipRect (m region) rect).2
  | .intersectClipRect region rect => Function.update m region (MiniGui.intersectClipRect (m region) rect).2
  | .subtractClipRect region rect => Function.update m region (MiniGui.subtractClipRect (m region) rect).2
  | .offsetRegion region x y => Function.update m region (MiniGui.offsetRegion (m region) x y)

def RgnCall.Normalized : RgnCall ι → Prop
  | .setClipRgn _ pRect => pRect.Normalized
  | .addClipRect _ rect => rect.Normalized
  | _ => True

structure RgnInv (s : Store ι) : Prop where
  sep : ∃ cells, Sep s cells
  exact : ∀ i, (s.view i).Exact

def start (mem : Mem) : Store ι :=
  { mem, rgn := fun _ => initClipRgn }

variable {heap : BlockHeap} {s : Store ι} {m : RgnStore ι}

theorem RgnCall.run_refines (h : Refines s m) (c : RgnCall ι) : Refines (c.run heap s) (c.onView m) := by
  cases c with
  | setClipRgn pRgn pRect => exact (setClipRgn_refines h pRgn pRect).2
  | clipRgnCopy pDstRgn pSrcRgn => exact (clipRgnCopy_refines h pDstRgn pSrcRgn).2
  | unionRegion dst src1 src2 => exact (unionRegion_refines h dst src1 src2).2
  | clipRgnIntersect dst src1 src2 => exact (clipRgnIntersect_refines h dst src1 src2).2
  | subtractRegion rgnD rgnM rgnS => exact (subtractRegion_refines h rgnD rgnM rgnS).2
  | xorRegion dst src1 src2 => exact (xorRegion_refines h dst src1 src2).2
  | addClipRect region rect => exact (addClipRect_refines h region rect).2
  | intersectClipRect region rect => exact (intersectClipRect_refines h region rect).2
  | subtractClipRect region rect => exact (subtractClipRect_refines h region rect).2
  | offsetRegion region x y => exact offsetRegion_refines h region x y

theorem update_exact (h : ∀ i, (m i).Exact) {j : ι} {rgn : ClipRgn} (hrgn : rgn.Exact)
    : ∀ i, (Function.update m j rgn i).Exact := by
  intro i
  by_cases hi : i = j
  . rw [hi, Function.update_self]
    exact hrgn
  . rw [Function.update_of_ne hi]
    exact h i

theorem RgnCall.onView_exact (h : ∀ i, (m i).Exact) {c : RgnCall ι} (hc : c.Normalized)
    : ∀ i, (c.onView m i).Exact := by
  cases c with
  | setClipRgn pRgn pRect => exact update_exact h (setClipRgn_exact (h pRgn) hc)
  | clipRgnCopy pDstRgn pSrcRgn => exact clipRgnCopy_exact h pDstRgn pSrcRgn
  | unionRegion dst src1 src2 => exact unionRegion_exact h dst src1 src2
  | clipRgnIntersect dst src1 src2 => exact clipRgnIntersect_exact h dst src1 src2
  | subtractRegion rgnD rgnM rgnS => exact subtractRegion_exact h rgnD rgnM rgnS
  | xorRegion dst src1 src2 => exact xorRegion_exact h dst src1 src2
  | addClipRect region rect => exact update_exact h (addClipRect_exact (h region) hc)
  | intersectClipRect region rect => exact update_exact h (intersectClipRect_exact (h region))
  | subtractClipRect region rect => exact update_exact h (subtractClipRect_exact (h region))
  | offsetRegion region x y => exact update_exact h (offsetRegion_exact (h region) x y)

theorem RgnCall.run_inv (h : RgnInv s) {c : RgnCall ι} (hc : c.Normalized) : RgnInv (c.run heap s) := by
  have hrun := @RgnCall.run_refines _ _ heap _ _ ⟨h.sep, rfl⟩ c
  constructor
  . exact hrun.1
  . rw [hrun.2]
    exact RgnCall.onView_exact h.exact hc

omit [DecidableEq ι] in
theorem start_inv (mem : Mem) : RgnInv (start mem : Store ι) := by
  have hempty : Rep mem initClipRgn.head initClipRgn.tail [] := ⟨DList.valid_nil.mpr rfl, rfl, by simp⟩
  constructor
  . exact ⟨fun _ => [], fun _ => hempty, by simp⟩
  intro i
  show (ClipRgn.mk _ _ (mem.rects initClipRgn.head)).Exact
  rw [hempty.rects_eq]
  exact exact_empty

/--
The representation of the regions holds after any calls, whichever objects they are given, as long as the rectangles
for `SetClipRgn` and `AddClipRect` have their sides in order.
-/
theorem region_representation (heap : BlockHeap) (mem : Mem) (calls : List (RgnCall ι))
    (hcalls : ∀ c ∈ calls, c.Normalized) : RgnInv (calls.foldl (RgnCall.run heap) (start mem)) := by
  have hstart := @start_inv ι mem
  generalize (start mem : Store ι) = s at hstart ⊢
  induction calls generalizing s with
  | nil => exact hstart
  | cons c calls ih =>
    rw [List.forall_mem_cons] at hcalls
    exact ih hcalls.2 _ (RgnCall.run_inv hstart hcalls.1)

def bumpHeap : BlockHeap where
  alloc used := used.sup id + 1
  fresh used h := by
    have hle : id (used.sup id + 1) ≤ used.sup id := Finset.le_sup h
    rw [id] at hle
    omega
  ne_null used := by simp

def noMem : Mem :=
  { rc := fun _ => .zero, next := fun _ => 0, prev := fun _ => 0, used := ∅ }

def someCalls : List (RgnCall Bool) :=
  [
    .setClipRgn true ⟨0, 0, 4, 4⟩,
    .addClipRect false ⟨2, 2, 6, 6⟩,
    .unionRegion true true false,
    .subtractClipRect true ⟨1, 1, 3, 3⟩,
    .xorRegion false false true,
    .clipRgnIntersect true true true,
    .intersectClipRect true ⟨5, 0, 3, 9⟩,
    .clipRgnCopy true false,
    .offsetRegion true 10 20
  ]

theorem region_representation_someCalls
    : RgnInv (someCalls.foldl (RgnCall.run bumpHeap) (start noMem)) := by
  apply region_representation bumpHeap noMem someCalls
  unfold someCalls
  simp [RgnCall.Normalized, Rect.Normalized]

theorem region_representation_inverted
    : ∃ calls : List (RgnCall Unit), (∀ c ∈ calls, ∀ pRgn pRect, c = .setClipRgn pRgn pRect → pRect.Normalized)
        ∧ ¬RgnInv (calls.foldl (RgnCall.run bumpHeap) (start noMem)) := by
  refine ⟨[.addClipRect () ⟨10, 0, 0, 10⟩], by simp, ?_⟩
  intro h
  have hempty : (start noMem : Store Unit).view = fun _ => MiniGui.emptyClipRgn := rfl
  have hrun := @RgnCall.run_refines _ _ bumpHeap _ _ ⟨(start_inv noMem).sep, hempty⟩
    (.addClipRect () ⟨10, 0, 0, 10⟩)
  have hexact := h.exact ()
  rw [List.foldl_cons, List.foldl_nil, hrun.2] at hexact
  have hrects : (RgnCall.onView (fun _ => MiniGui.emptyClipRgn) (.addClipRect () ⟨10, 0, 0, 10⟩) ()).rects
      = [⟨10, 0, 0, 10⟩] := by
    decide
  have hbanded := hexact.wellFormed.banded
  rw [hrects] at hbanded
  have hproper := hbanded.1 _ (List.mem_singleton_self _)
  simp at hproper

end Cells

end MiniGui
