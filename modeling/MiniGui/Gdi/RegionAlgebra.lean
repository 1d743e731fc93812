import MiniGui.Gdi.RegionOp

namespace MiniGui

open Function List

structure IsBound (bound : Rect) (l : List Rect) : Prop where
  contains : ∀ r ∈ l,
    bound.left ≤ r.left ∧ bound.top ≤ r.top ∧ r.right ≤ bound.right ∧ r.bottom ≤ bound.bottom
  attained : l ≠ [] →
    (∃ r ∈ l, r.left = bound.left) ∧ (∃ r ∈ l, r.top = bound.top)
      ∧ (∃ r ∈ l, r.right = bound.right) ∧ (∃ r ∈ l, r.bottom = bound.bottom)

variable {rgn : ClipRgn}

namespace ClipRgn

structure WellFormed (rgn : ClipRgn) : Prop where
  banded : Banded rgn.rects
  bound : IsBound rgn.rcBound rgn.rects

def pixels (rgn : ClipRgn) : Set (Int × Int) :=
  { p | Covers rgn.rects p.1 p.2 }

theorem WellFormed.mem_bound (h : rgn.WellFormed) {x y : Int} (hc : Covers rgn.rects x y)
    : rgn.rcBound.Mem x y := by
  rcases hc with ⟨r, hr, hm⟩
  have := h.bound.contains r hr
  simp only [Rect.Mem] at hm ⊢
  omega

theorem wellFormed_of_nil {rgn : ClipRgn} (h : rgn.rects = []) : rgn.WellFormed where
  banded := by
    rw [h]
    simp
  bound := by
    rw [h]
    refine ⟨by simp, by simp⟩

end ClipRgn

theorem isBound_singleton (r : Rect) : IsBound r [r] where
  contains := by simp
  attained := by simp

theorem foldl_widenExtents (ext : Rect) (l : List Rect) : (l.foldl widenExtents ext).top = ext.top
        ∧
      (l.foldl widenExtents ext).bottom = ext.bottom
        ∧
      (l.foldl widenExtents ext).left ≤ ext.left
        ∧
      ext.right ≤ (l.foldl widenExtents ext).right
        ∧
      (∀ r ∈ l, (l.foldl widenExtents ext).left ≤ r.left ∧ r.right ≤ (l.foldl widenExtents ext).right)
        ∧
      ((l.foldl widenExtents ext).left = ext.left ∨ ∃ r ∈ l, r.left = (l.foldl widenExtents ext).left)
        ∧
      ((l.foldl widenExtents ext).right = ext.right
        ∨ ∃ r ∈ l, r.right = (l.foldl widenExtents ext).right) := by
  induction l generalizing ext with
  | nil => simp
  | cons a l ih =>
    rcases ih (widenExtents ext a) with ⟨h1, h2, h3, h4, h5, h6, h7⟩
    rw [foldl_cons]
    generalize hw : l.foldl widenExtents (widenExtents ext a) = w at *
    have htop : (widenExtents ext a).top = ext.top := by rfl
    have hbot : (widenExtents ext a).bottom = ext.bottom := by rfl
    have hleft : (widenExtents ext a).left = min a.left ext.left := by
      simp only [widenExtents]
      omega
    have hright : (widenExtents ext a).right = max a.right ext.right := by
      simp only [widenExtents]
      omega
    simp only [mem_cons, forall_eq_or_imp, exists_eq_or_imp]
    refine ⟨by omega, by omega, by omega, by omega, ⟨by omega, h5⟩, ?_, ?_⟩
    . rcases h6 with h6 | h6
      . omega
      . exact .inr (.inr h6)
    . rcases h7 with h7 | h7
      . omega
      . exact .inr (.inr h7)

theorem Banded.bottom_le_getLast {l : List Rect} {tail r : Rect} (h : Banded l)
    (hl : l.getLast? = some tail) (hr : r ∈ l) : r.bottom ≤ tail.bottom := by
  rcases getLast?_eq_some_iff.mp hl with ⟨m, hm⟩
  rw [hm] at h hr
  have htail := h.1 tail (by simp)
  rw [mem_append, mem_singleton] at hr
  rcases hr with hr | hr
  . rcases (banded_append.mp h).2.2 r hr tail (by simp) with hf | hf
    . omega
    . omega
  . rw [hr]

theorem regionSetExtents_bound (rgn : ClipRgn) (h : Banded rgn.rects)
    : IsBound (regionSetExtents rgn).rcBound rgn.rects := by
  unfold regionSetExtents
  split
  . next head l tail hl hlast =>
    rw [hl] at h hlast ⊢
    have htail := fun r hr => h.bottom_le_getLast (r := r) hlast hr
    have hmem := mem_of_getLast? hlast
    have hhead := fun r hr => h.head_top_le (r := r) hr
    rcases foldl_widenExtents ⟨head.left, head.top, tail.right, tail.bottom⟩ (head :: l)
      with ⟨h1, h2, h3, h4, h5, h6, h7⟩
    dsimp only
    generalize (head :: l).foldl widenExtents ⟨head.left, head.top, tail.right, tail.bottom⟩ = w at *
    dsimp only at *
    constructor
    . intro r hr
      have := h5 r hr
      have := htail r hr
      have := hhead r hr
      omega
    intro hne
    refine ⟨?_, ⟨head, by simp, by omega⟩, ?_, ⟨tail, hmem, by omega⟩⟩
    . rcases h6 with h6 | h6
      . refine ⟨head, by simp, by omega⟩
      . exact h6
    . rcases h7 with h7 | h7
      . refine ⟨tail, hmem, by omega⟩
      . exact h7
  . next hnone =>
    cases hrects : rgn.rects with
    | nil => refine ⟨by simp, by simp⟩
    | cons a l => exact absurd (getLast?_eq_some_getLast (by simp [hrects])) (hnone a l _ hrects)

@[simp]
theorem regionSetExtents_rects (rgn : ClipRgn) : (regionSetExtents rgn).rects = rgn.rects := by
  unfold regionSetExtents
  split <;> rfl

theorem regionIntersectO_spec : OverlapSpec And regionIntersectO := by
  intro region r1 r2 top bottom h1 h2 _
  refine ⟨_, regionIntersectO_eq _ _ _ _ _, Span.gapped_inter _ _ h1 h2, ?_⟩
  intro x
  exact Span.covers_inter _ _ h1 h2 x

theorem regionUnionO_spec : OverlapSpec Or regionUnionO := by
  intro region r1 r2 top bottom h1 h2 htop
  have h := Span.union_spec _ _ h1 h2
  exact ⟨_, regionUnionO_eq _ _ _ _ _ htop, h.1, h.2⟩

theorem regionSubtractO_spec : OverlapSpec (fun p q => p ∧ ¬q) regionSubtractO := by
  intro region r1 r2 top bottom h1 h2 _
  have h := Span.diff_spec _ _ h1 h2
  exact ⟨_, regionSubtractO_eq _ _ _ _ _, h.1, h.2⟩

theorem nonOverlapSpec_none : NonOverlapSpec (fun _ => False) none := by
  intro region r top bottom h
  refine ⟨[], ?_, ?_, ?_⟩
  . simp [callNonOverlap]
  . simp
  . simp

theorem regionUnionNonO_spec : NonOverlapSpec (fun p => p) (some regionUnionNonO) := by
  intro region r top bottom h
  exact ⟨_, regionUnionNonO_eq _ _ _ _, h, fun x => Iff.rfl⟩

theorem regionSubtractNonO1_spec : NonOverlapSpec (fun p => p) (some regionSubtractNonO1) := by
  intro region r top bottom h
  exact ⟨_, regionSubtractNonO1_eq _ _ _ _, h, fun x => Iff.rfl⟩

section Operations

variable {ι : Type} [DecidableEq ι]

structure Computes (m m' : RgnStore ι) (dst : ι) (s : Set (Int × Int)) : Prop where
  wellFormed : (m' dst).WellFormed
  pixels : (m' dst).pixels = s
  frame : ∀ i, i ≠ dst → m' i = m i

theorem pixels_eq_empty (h : rgn.rects = []) : rgn.pixels = ∅ := by
  simp [ClipRgn.pixels, h]

theorem mem_pixels {p : Int × Int} : p ∈ rgn.pixels ↔ Covers rgn.rects p.1 p.2 := by
  rfl

variable {dst : ι} {m : RgnStore ι}

omit [DecidableEq ι] in
theorem computes_self (h : (m dst).WellFormed) : Computes m m dst (m dst).pixels where
  wellFormed := h
  pixels := rfl
  frame _ _ := rfl

theorem computes_empty (m : RgnStore ι) (dst : ι)
    : Computes m (update m dst emptyClipRgn) dst ∅ where
  wellFormed := by
    rw [update_self]
    exact ClipRgn.wellFormed_of_nil rfl
  pixels := by
    rw [update_self]
    exact pixels_eq_empty rfl
  frame i hi := by
    rw [update_of_ne hi]

theorem clipRgnCopy_computes {m : RgnStore ι} {dst src : ι} (h : (m src).WellFormed)
    : Computes m (clipRgnCopy m dst src).2 dst (m src).pixels := by
  unfold clipRgnCopy
  split
  . next heq =>
    rw [heq]
    exact computes_self h
  rename_i hne
  simp only [update_of_ne (Ne.symm hne)]
  split
  . next hnil =>
    rw [pixels_eq_empty hnil]
    exact computes_empty m dst
  constructor
  . simpa using h
  . simp
  . intro i hi
    simp [hi]

variable {op : Prop → Prop → Prop} {overlapFunc : OverlapFunc}
variable {nonOverlap1Func nonOverlap2Func : Option NonOverlapFunc}

variable (overlapFunc nonOverlap1Func nonOverlap2Func) in
theorem regionOp_eq (m : RgnStore ι) (dst src1 src2 : ι) : ∃ m' : RgnStore ι,
        (∀ i, i ≠ dst → m' i = m i)
          ∧
        regionOp overlapFunc nonOverlap1Func nonOverlap2Func m dst src1 src2
          =
        update m' dst
          { emptyClipRgn with
            rects := regionOpRects overlapFunc nonOverlap1Func nonOverlap2Func (m src1).rects
              (m src2).rects (min (m src1).rcBound.top (m src2).rcBound.top) } := by
  have hmin (a b : Int) : (if a < b then a else b) = min a b := by omega
  unfold regionOp
  dsimp only
  split
  . refine ⟨m, fun _ _ => rfl, ?_⟩
    rw [hmin]
  rename_i hne
  rw [not_or] at hne
  refine ⟨update m dst emptyClipRgn, ?_, ?_⟩
  . intro i hi
    rw [update_of_ne hi]
  . rw [hmin]
    rw [update_of_ne (Ne.symm hne.1)]
    rw [update_of_ne (Ne.symm hne.2)]

variable (op) in
theorem regionOp_computes {src1 src2 : ι} (h1 : (m src1).WellFormed)
    (h2 : (m src2).WellFormed) (hop : ¬op False False) (hf : OverlapSpec op overlapFunc)
    (hf1 : NonOverlapSpec (fun p => op p False) nonOverlap1Func)
    (hf2 : NonOverlapSpec (fun p => op False p) nonOverlap2Func) : Computes m
        (finishRegion
          (regionOp overlapFunc nonOverlap1Func nonOverlap2Func m dst src1 src2) dst)
        dst { p | op (p ∈ (m src1).pixels) (p ∈ (m src2).pixels) } := by
  have hy1 : ∀ r ∈ (m src1).rects, min (m src1).rcBound.top (m src2).rcBound.top ≤ r.top := by
    intro r hr
    have := (h1.bound.contains r hr).2.1
    omega
  have hy2 : ∀ r ∈ (m src2).rects, min (m src1).rcBound.top (m src2).rcBound.top ≤ r.top := by
    intro r hr
    have := (h2.bound.contains r hr).2.1
    omega
  rcases regionOpRects_spec h1.banded h2.banded hy1 hy2 hop hf hf1 hf2 with ⟨hb, hc⟩
  rcases regionOp_eq overlapFunc nonOverlap1Func nonOverlap2Func m dst src1 src2
    with ⟨m', hframe, heq⟩
  rw [heq]
  generalize regionOpRects overlapFunc nonOverlap1Func nonOverlap2Func _ _ _ = rects at hb hc ⊢
  unfold finishRegion
  rw [update_self]
  constructor
  . rw [update_self]
    refine ⟨?_, ?_⟩
    . simpa using hb
    . have := regionSetExtents_bound { emptyClipRgn with rects } hb
      simpa using this
  . rw [update_self]
    ext p
    simp only [mem_pixels, regionSetExtents_rects, Set.mem_ofPred_eq]
    exact hc p.1 p.2
  intro i hi
  rw [update_of_ne hi]
  rw [update_of_ne hi]
  exact hframe i hi

theorem extentCheck_of_mem {r1 r2 : Rect} {x y : Int} (h1 : r1.Mem x y) (h2 : r2.Mem x y)
    : extentCheck r1 r2 = true := by
  simp only [Rect.Mem] at h1 h2
  simp only [extentCheck, Bool.and_eq_true, decide_eq_true_eq]
  omega

theorem disjoint_of_reject {r1 r2 : ClipRgn} (h1 : r1.WellFormed) (h2 : r2.WellFormed)
    (h : (r1.rects = [] || r2.rects = [] || !extentCheck r1.rcBound r2.rcBound) = true)
    : Disjoint r1.pixels r2.pixels := by
  rw [Set.disjoint_left]
  intro p hp1 hp2
  rw [mem_pixels] at hp1 hp2
  have hne1 : r1.rects ≠ [] := by
    intro hnil
    simp [hnil] at hp1
  have hne2 : r2.rects ≠ [] := by
    intro hnil
    simp [hnil] at hp2
  have := extentCheck_of_mem (h1.mem_bound hp1) (h2.mem_bound hp2)
  simp [hne1, hne2, this] at h

theorem clipRgnIntersect_computes {m : RgnStore ι} {dst src1 src2 : ι}
    (h1 : (m src1).WellFormed) (h2 : (m src2).WellFormed)
    : Computes m (clipRgnIntersect m dst src1 src2).2 dst
        ((m src1).pixels ∩ (m src2).pixels) := by
  unfold clipRgnIntersect
  split
  . next h =>
    rw [(disjoint_of_reject h1 h2 h).inter_eq]
    exact computes_empty m dst
  apply regionOp_computes _ h1 h2
  . simp
  . exact regionIntersectO_spec
  . simpa using nonOverlapSpec_none
  . simpa using nonOverlapSpec_none

theorem subtractRegion_computes (m : RgnStore ι) (rgnD rgnM rgnS : ι)
    (h1 : (m rgnM).WellFormed) (h2 : (m rgnS).WellFormed)
    : Computes m (subtractRegion m rgnD rgnM rgnS).2 rgnD
        ((m rgnM).pixels \ (m rgnS).pixels) := by
  unfold subtractRegion
  split
  . next h =>
    rw [(disjoint_of_reject h1 h2 h).sdiff_eq_left]
    exact clipRgnCopy_computes h1
  apply regionOp_computes (fun p q => p ∧ ¬q) h1 h2
  . simp
  . exact regionSubtractO_spec
  . simpa using regionSubtractNonO1_spec
  . simpa using nonOverlapSpec_none

theorem subset_of_subsumes {r1 r2 : ClipRgn} (h1 : r1.WellFormed) (h2 : r2.WellFormed)
    (h : subsumes r1 r2 = true) : r2.pixels ⊆ r1.pixels := by
  simp only [subsumes, Bool.and_eq_true, decide_eq_true_eq] at h
  rcases length_eq_one_iff.mp h.1.1.1.1 with ⟨c, hc⟩
  have hatt := h1.bound.attained (by simp [hc])
  rw [hc] at hatt
  simp only [mem_singleton, exists_eq_left] at hatt
  intro p hp
  have hm := h2.mem_bound hp
  simp only [Rect.Mem] at hm
  rw [mem_pixels, hc, covers_cons]
  apply Or.inl
  simp only [Rect.Mem]
  omega

theorem copyUnless_computes {src : ι} (h : (m src).WellFormed)
    : Computes m (if dst ≠ src then (clipRgnCopy m dst src).2 else m) dst (m src).pixels := by
  split
  . exact clipRgnCopy_computes h
  rename_i heq
  rw [ne_eq, not_not] at heq
  rw [heq]
  exact computes_self h

theorem unionRegion_computes (m : RgnStore ι) (dst src1 src2 : ι)
    (h1 : (m src1).WellFormed) (h2 : (m src2).WellFormed)
    : Computes m (unionRegion m dst src1 src2).2 dst ((m src1).pixels ∪ (m src2).pixels) := by
  unfold unionRegion
  split
  . next h =>
    have : (m src1).pixels ⊆ (m src2).pixels := by
      simp only [Bool.or_eq_true, decide_eq_true_eq] at h
      rcases h with h | h
      . rw [h]
      . rw [pixels_eq_empty h]
        simp
    rw [Set.union_eq_right.mpr this]
    exact copyUnless_computes h2
  split
  . next h =>
    rw [pixels_eq_empty h, Set.union_empty]
    exact copyUnless_computes h1
  split
  . next h =>
    rw [Set.union_eq_left.mpr (subset_of_subsumes h1 h2 h)]
    exact copyUnless_computes h1
  split
  . next h =>
    rw [Set.union_eq_right.mpr (subset_of_subsumes h2 h1 h)]
    exact copyUnless_computes h2
  apply regionOp_computes _ h1 h2
  . simp
  . exact regionUnionO_spec
  . simpa using regionUnionNonO_spec
  . simpa using regionUnionNonO_spec

def xorStore (m : RgnStore ι) : RgnStore (XorObj ι)
  | .arg i => m i
  | .tmpa => emptyClipRgn
  | .tmpb => emptyClipRgn

theorem xorRegion_computes {src1 src2 : ι} (h1 : (m src1).WellFormed) (h2 : (m src2).WellFormed)
    : Computes m (xorRegion m dst src1 src2).2 dst
        (symmDiff (m src1).pixels (m src2).pixels) := by
  let m0 := xorStore m
  have ha := subtractRegion_computes m0 .tmpa (.arg src1) (.arg src2) h1 h2
  let ma := (subtractRegion m0 .tmpa (.arg src1) (.arg src2)).2
  have hma1 : ma (.arg src1) = m src1 := by
    apply ha.frame
    simp
  have hma2 : ma (.arg src2) = m src2 := by
    apply ha.frame
    simp
  have hb := subtractRegion_computes ma .tmpb (.arg src2) (.arg src1) (by rw [hma2]; exact h2) (by rw [hma1]; exact h1)
  let mb := (subtractRegion ma .tmpb (.arg src2) (.arg src1)).2
  have hmba : mb .tmpa = ma .tmpa := by
    apply hb.frame
    simp
  have hu := unionRegion_computes mb (.arg dst) .tmpa .tmpb
    (by rw [hmba]; exact ha.wellFormed) hb.wellFormed
  constructor
  . exact hu.wellFormed
  . have hpa : (mb .tmpa).pixels = (m src1).pixels \ (m src2).pixels := by
      rw [hmba]
      exact ha.pixels
    have hpb : (mb .tmpb).pixels = (m src2).pixels \ (m src1).pixels := by
      rw [hb.pixels, hma1, hma2]
    have := hu.pixels
    rw [hpa, hpb] at this
    exact this
  intro i hi
  have hui := hu.frame (.arg i) (by simpa using hi)
  have hbi := hb.frame (.arg i) (by simp)
  have hai := ha.frame (.arg i) (by simp)
  exact hui.trans (hbi.trans hai)

/--
The region operations are the set operations on pixels. `ι` addresses the objects, so that `dst` may be
one of the sources, or all three the same object.
-/
theorem region_operations_pixels (m : RgnStore ι) (dst src1 src2 : ι)
    (h1 : (m src1).WellFormed) (h2 : (m src2).WellFormed)
    : ((unionRegion m dst src1 src2).2 dst).pixels = (m src1).pixels ∪ (m src2).pixels
        ∧
      ((clipRgnIntersect m dst src1 src2).2 dst).pixels = (m src1).pixels ∩ (m src2).pixels
        ∧
      ((subtractRegion m dst src1 src2).2 dst).pixels = (m src1).pixels \ (m src2).pixels
        ∧
      ((xorRegion m dst src1 src2).2 dst).pixels
        = symmDiff (m src1).pixels (m src2).pixels := by
  refine ⟨?_, ?_, ?_, ?_⟩
  . exact (unionRegion_computes _ _ _ _ h1 h2).pixels
  . exact (clipRgnIntersect_computes h1 h2).pixels
  . exact (subtractRegion_computes _ _ _ _ h1 h2).pixels
  . exact (xorRegion_computes h1 h2).pixels

end Operations

def steps : RgnStore Bool
  | true =>
    {
      type := .complexRegion
      rcBound := ⟨0, 0, 9, 8⟩
      rects := [⟨0, 0, 4, 4⟩, ⟨0, 4, 9, 8⟩]
    }
  | false => { type := .simpleRegion, rcBound := ⟨2, 2, 6, 6⟩, rects := [⟨2, 2, 6, 6⟩] }

theorem region_operations_pixels_steps : (steps true).WellFormed
        ∧
      (steps false).WellFormed
        ∧
      ((subtractRegion steps true true false).2 true).pixels
        = (steps true).pixels \ (steps false).pixels := by
  have h1 : (steps true).WellFormed := by
    refine ⟨?_, ?_, ?_⟩
    . simp [steps, Banded, Follows]
    . simp [steps]
    . simp [steps]
  have h2 : (steps false).WellFormed := by
    refine ⟨?_, isBound_singleton _⟩
    simp [steps, Banded]
  exact ⟨h1, h2, (region_operations_pixels steps true true false h1 h2).2.2.1⟩

end MiniGui
