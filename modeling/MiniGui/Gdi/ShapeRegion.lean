import MiniGui.Gdi.RegionAlgebra

namespace MiniGui

structure HSpan where
  x1 : Int
  x2 : Int
  y : Int
deriving DecidableEq, Repr

def circleSpans (x y cx cy : Int) : List HSpan :=
  [⟨x - cx, x + cx, y + cy⟩]
    ++ (if cy ≠ 0 then [⟨x - cx, x + cx, y - cy⟩] else [])
    ++ (if cx ≠ cy then
          [⟨x - cy, x + cy, y + cx⟩] ++ if cx ≠ 0 then [⟨x - cy, x + cy, y - cx⟩] else []
        else
          [])

/--
The loop of `CircleGenerator`, or `none` where it takes more than `rounds`.
-/
def circleLoop (x y : Int) : Nat → Int → Int → Int → Int → Int → Option (List HSpan)
  | 0, _, _, _, _, _ => none
  | rounds + 1, cx, cy, df, dE, dSe =>
    let spans := circleSpans x y cx cy
    let cy' := if df < 0 then cy else cy - 1
    let df' := if df < 0 then df + dE else df + dSe
    let dSe' := if df < 0 then dSe + 2 else dSe + 4
    if cx + 1 ≤ cy' then
      (circleLoop x y rounds (cx + 1) cy' df' (dE + 2) dSe').map (spans ++ ·)
    else
      some spans

def circleGenerator (rounds : Nat) (x y r : Int) : Option (List HSpan) :=
  circleLoop x y rounds 0 r (1 - r) 3 (-2 * r + 5)

structure EllipseAt where
  h : Int
  i : Int
  j : Int
  k : Int
deriving DecidableEq, Repr

def ellipseAt (long short ix iy : Int) : EllipseAt :=
  let h := (ix + 32) >>> (6 : Nat)
  let i := (iy + 32) >>> (6 : Nat)
  { h, i, j := (h * short).tdiv long, k := (i * short).tdiv long }

def ellipseSpan (x y dx dy : Int) : List HSpan :=
  [⟨x - dx, x + dx, y + dy⟩] ++ if dy ≠ 0 then [⟨x - dx, x + dx, y - dy⟩] else []

def wideSpans (x y : Int) (last now : EllipseAt) : List HSpan :=
  (if (now.h ≠ last.h ∨ now.k ≠ last.k) ∧ now.h < last.i then ellipseSpan x y now.h now.k else [])
    ++ if (now.i ≠ last.i ∨ now.j ≠ last.j) ∧ now.h < now.i then ellipseSpan x y now.i now.j else []

def tallSpans (x y : Int) (last now : EllipseAt) : List HSpan :=
  (if (now.j ≠ last.j ∨ now.i ≠ last.i) ∧ now.h < now.i then ellipseSpan x y now.j now.i else [])
    ++ if (now.k ≠ last.k ∨ now.h ≠ last.h) ∧ now.h < last.i then ellipseSpan x y now.k now.h else []

/--
The loops of `EllipseGenerator`, or `none` where one takes more than `rounds`.
-/
def ellipseLoop (spansOf : EllipseAt → EllipseAt → List HSpan) (long short : Int)
    : Nat → Int → Int → EllipseAt → Option (List HSpan)
  | 0, _, _, _ => none
  | rounds + 1, ix, iy, last =>
    let now := ellipseAt long short ix iy
    let spans := spansOf last now
    let ix' := ix + iy.tdiv long
    let iy' := iy - ix'.tdiv long
    if now.i > now.h then
      (ellipseLoop spansOf long short rounds ix' iy' now).map (spans ++ ·)
    else
      some spans

def ellipseGenerator (rounds : Nat) (x y rx ry : Int) : Option (List HSpan) :=
  let rx := if rx < 1 then 1 else rx
  let ry := if ry < 1 then 1 else ry
  let last : EllipseAt := ⟨0xFFFF, 0xFFFF, 0xFFFF, 0xFFFF⟩
  if rx > ry then
    ellipseLoop (wideSpans x y) rx ry rounds 0 (rx * 64) last
  else
    ellipseLoop (tallSpans x y) ry rx rounds 0 (ry * 64) last

def cbRegion (region : ClipRgn) (span : HSpan) : ClipRgn :=
  let rc : Rect :=
    if span.x2 > span.x1 then
      ⟨span.x1, span.y, span.x2 + 1, span.y + 1⟩
    else
      ⟨span.x2, span.y, span.x1 + 1, span.y + 1⟩
  if region.rects = [] then
    (clipRgnCopy (clipRectStore region rc) .region .myRegion).2 .region
  else
    (unionRegion (clipRectStore region rc) .region .region .myRegion).2 .region

def pixelRegion (x y : Int) : ClipRgn :=
  { emptyClipRgn with rects := newClipRect emptyClipRgn.rects ⟨x, y, x + 1, y + 1⟩ }

/--
`none` stands for a generator that takes more than `rounds`.
-/
def initCircleRegion (rounds : Nat) (x y r : Int) : Option (Bool × ClipRgn) :=
  if r < 1 then
    some (true, pixelRegion x y)
  else
    (circleGenerator rounds x y r).map fun spans => (true, spans.foldl cbRegion emptyClipRgn)

def initEllipseRegion (rounds : Nat) (x y rx ry : Int) : Option (Bool × ClipRgn) :=
  if rx < 1 ∨ ry < 1 then
    some (true, pixelRegion x y)
  else
    (ellipseGenerator rounds x y rx ry).map fun spans => (true, spans.foldl cbRegion emptyClipRgn)

section Termination

variable {x y : Int}

theorem circleLoop_returns {rounds : Nat} {cx cy df dE dSe : Int} (h : cy - cx < rounds) (hrounds : 0 < rounds)
    : ∃ spans, circleLoop x y rounds cx cy df dE dSe = some spans := by
  induction rounds generalizing cx cy df dE dSe with
  | zero => omega
  | succ rounds ih =>
    rw [circleLoop]
    by_cases hmore : cx + 1 ≤ if df < 0 then cy else cy - 1
    . rw [if_pos hmore]
      obtain ⟨spans, hspans⟩ := @ih (cx + 1) (if df < 0 then cy else cy - 1) (if df < 0 then df + dE else df + dSe) (dE + 2)
        (if df < 0 then dSe + 2 else dSe + 4) (by omega) (by omega)
      rw [hspans]
      exact ⟨_, rfl⟩
    . rw [if_neg hmore]
      exact ⟨_, rfl⟩

theorem ellipseLoop_returns {spansOf : EllipseAt → EllipseAt → List HSpan} {long short : Int} (hlong : 1 ≤ long) {rounds : Nat}
    {ix iy : Int} {last : EllipseAt} (hix : 0 ≤ ix)
    (h : (iy < ix ∧ 1 ≤ rounds) ∨ (ix ≤ iy ∧ iy ≤ long * 64 ∧ long * 64 ≤ ix + iy ∧ long * 64 - ix + 2 ≤ rounds))
    : ∃ spans, ellipseLoop spansOf long short rounds ix iy last = some spans := by
  induction rounds generalizing ix iy last with
  | zero => omega
  | succ rounds ih =>
    rw [ellipseLoop]
    split
    . next hmore =>
      have hcont : ix ≤ iy := by
        by_contra hlt
        have hle : (iy + 32) >>> (6 : Nat) ≤ (ix + 32) >>> (6 : Nat) := by
          rw [Int.shiftRight_eq_div_pow, Int.shiftRight_eq_div_pow]
          apply Int.ediv_le_ediv (by norm_num)
          omega
        exact absurd hmore (not_lt.mpr hle)
      obtain ⟨hle, hmax, hsum, hrounds⟩ := h.resolve_left (by omega)
      have hiy : 0 ≤ iy := by omega
      have hstep : 32 ≤ iy.tdiv long := by
        rw [Int.tdiv_eq_ediv_of_nonneg hiy, Int.le_ediv_iff_mul_le (by omega)]
        omega
      have hnext : 0 ≤ ix + iy.tdiv long := by omega
      have hdown : 0 ≤ (ix + iy.tdiv long).tdiv long := Int.tdiv_nonneg hnext (by omega)
      have hrest : ∃ spans, ellipseLoop spansOf long short rounds (ix + iy.tdiv long)
          (iy - (ix + iy.tdiv long).tdiv long) (ellipseAt long short ix iy) = some spans := by
        apply ih hnext
        by_cases hcross : iy - (ix + iy.tdiv long).tdiv long < ix + iy.tdiv long
        . left
          omega
        right
        have hmono : (ix + iy.tdiv long).tdiv long ≤ iy.tdiv long := by
          rw [Int.tdiv_eq_ediv_of_nonneg hnext, Int.tdiv_eq_ediv_of_nonneg hiy]
          apply Int.ediv_le_ediv (by omega)
          rw [← Int.tdiv_eq_ediv_of_nonneg hiy]
          omega
        omega
      obtain ⟨spans, hspans⟩ := hrest
      rw [hspans]
      exact ⟨_, rfl⟩
    . exact ⟨_, rfl⟩

end Termination

section Usable

structure UsableRegion (rgn : ClipRgn) : Prop where
  wellFormed : rgn.WellFormed
  typeEmpty : rgn.type = .nullRegion ↔ rgn.rects = []
  operations : ∀ {ι : Type} [DecidableEq ι] (m : RgnStore ι) (dst shape other : ι), m shape = rgn → (m other).WellFormed →
    ((clipRgnIntersect m dst shape other).2 dst).pixels = rgn.pixels ∩ (m other).pixels
      ∧ ((clipRgnIntersect m dst other shape).2 dst).pixels = (m other).pixels ∩ rgn.pixels
      ∧ ((subtractRegion m dst shape other).2 dst).pixels = rgn.pixels \ (m other).pixels
      ∧ ((subtractRegion m dst other shape).2 dst).pixels = (m other).pixels \ rgn.pixels
      ∧ ((unionRegion m dst shape other).2 dst).pixels = rgn.pixels ∪ (m other).pixels
      ∧ ((unionRegion m dst other shape).2 dst).pixels = (m other).pixels ∪ rgn.pixels

def TypeOk (rgn : ClipRgn) : Prop :=
  rgn.type = .nullRegion ↔ rgn.rects = []

theorem usable_of_wellFormed {rgn : ClipRgn} (h : rgn.WellFormed) (htype : TypeOk rgn) : UsableRegion rgn := by
  refine ⟨h, htype, ?_⟩
  intro ι _ m dst shape other hshape hother
  have hself : (m shape).WellFormed := by
    rw [hshape]
    exact h
  rw [← hshape]
  exact ⟨(clipRgnIntersect_computes hself hother).pixels, (clipRgnIntersect_computes hother hself).pixels,
    (subtractRegion_computes m dst shape other hself hother).pixels,
    (subtractRegion_computes m dst other shape hother hself).pixels,
    (unionRegion_computes m dst shape other hself hother).pixels,
    (unionRegion_computes m dst other shape hother hself).pixels⟩

variable {ι : Type} [DecidableEq ι]

theorem clipRgnCopy_type {m : RgnStore ι} {dst src : ι} (h : TypeOk (m src)) : TypeOk ((clipRgnCopy m dst src).2 dst) := by
  unfold clipRgnCopy
  by_cases hsame : dst = src
  . rw [if_pos hsame, hsame]
    exact h
  rw [if_neg hsame]
  by_cases hnil : (m src).rects = []
  . simp [TypeOk, emptyClipRgn, Function.update_of_ne (Ne.symm hsame), hnil]
  . simpa [Function.update_of_ne (Ne.symm hsame), hnil] using h

theorem finishRegion_type (m : RgnStore ι) (dst : ι) : TypeOk (finishRegion m dst dst) := by
  unfold finishRegion TypeOk
  rw [Function.update_self]
  split
  . next hnil => exact iff_of_true rfl hnil
  . next hne => exact iff_of_false (fun htype => RgnType.noConfusion htype) hne

theorem unionRegion_type {m : RgnStore ι} {dst src1 src2 : ι} (h1 : TypeOk (m src1)) (h2 : TypeOk (m src2))
    : TypeOk ((unionRegion m dst src1 src2).2 dst) := by
  have hcopy : ∀ src, TypeOk (m src) → TypeOk ((if dst ≠ src then (clipRgnCopy m dst src).2 else m) dst) := by
    intro src h
    split
    . exact clipRgnCopy_type h
    rename_i heq
    rw [ne_eq, not_not] at heq
    rw [heq]
    exact h
  unfold unionRegion
  split
  . exact hcopy src2 h2
  split
  . exact hcopy src1 h1
  split
  . exact hcopy src1 h1
  . split
    . exact hcopy src2 h2
    . exact finishRegion_type _ dst

theorem cbRegion_usable {region : ClipRgn} (h : region.WellFormed) (htype : TypeOk region) (span : HSpan)
    : (cbRegion region span).WellFormed ∧ TypeOk (cbRegion region span)
        ∧ (cbRegion region span).pixels
          = region.pixels ∪ { p | p.2 = span.y ∧ min span.x1 span.x2 ≤ p.1 ∧ p.1 ≤ max span.x1 span.x2 } := by
  unfold cbRegion
  generalize hrc : (if span.x2 > span.x1 then (⟨span.x1, span.y, span.x2 + 1, span.y + 1⟩ : Rect)
    else ⟨span.x2, span.y, span.x1 + 1, span.y + 1⟩) = rc
  have hproper : rc.left < rc.right ∧ rc.top < rc.bottom := by
    rw [← hrc]
    split
    . exact ⟨by dsimp only; omega, by dsimp only; omega⟩
    . exact ⟨by dsimp only; omega, by dsimp only; omega⟩
  have hpixels : ((clipRectStore region rc) .myRegion).pixels
      = { p | p.2 = span.y ∧ min span.x1 span.x2 ≤ p.1 ∧ p.1 ≤ max span.x1 span.x2 } := by
    ext p
    rw [mem_pixels]
    simp only [clipRectStore, Covers, List.mem_singleton, exists_eq_left, Rect.Mem, Set.mem_ofPred_eq]
    rw [← hrc]
    split
    . dsimp only
      omega
    . dsimp only
      omega
  have hline : ((clipRectStore region rc) .myRegion).WellFormed := by
    refine ⟨⟨?_, List.pairwise_singleton _ _⟩, isBound_singleton rc⟩
    intro r hr
    rw [List.mem_singleton.mp hr]
    exact hproper
  have hlineType : TypeOk ((clipRectStore region rc) .myRegion) := by
    simp [TypeOk, clipRectStore]
  split
  . next hnil =>
    have hcopy := @clipRgnCopy_computes _ _ (clipRectStore region rc) .region .myRegion hline
    refine ⟨hcopy.wellFormed, clipRgnCopy_type hlineType, ?_⟩
    rw [hcopy.pixels, hpixels, pixels_eq_empty hnil, Set.empty_union]
  have hunion := unionRegion_computes (clipRectStore region rc) .region .region .myRegion h hline
  refine ⟨hunion.wellFormed, unionRegion_type htype hlineType, ?_⟩
  rw [hunion.pixels, hpixels]
  rfl

theorem foldl_cbRegion_usable (spans : List HSpan) {region : ClipRgn} (h : region.WellFormed) (htype : TypeOk region)
    : UsableRegion (spans.foldl cbRegion region) := by
  induction spans generalizing region with
  | nil => exact usable_of_wellFormed h htype
  | cons span spans ih =>
    have hspan := cbRegion_usable h htype span
    exact ih hspan.1 hspan.2.1

theorem not_usable_pixelRegion (x y : Int) : ¬UsableRegion (pixelRegion x y) := by
  intro h
  exact absurd (h.typeEmpty.mp rfl) (List.cons_ne_nil _ _)

/--
The constructors return a region, and a usable one exactly for radii of which none is below 1.
-/
theorem shapes_usable_iff (x y r rx ry : Int)
    : (∀ rounds : Nat, r < rounds → 0 < rounds → ∃ rgn, initCircleRegion rounds x y r = some (true, rgn) ∧ (UsableRegion rgn ↔ 1 ≤ r))
        ∧
      (∀ rounds : Nat, max rx ry * 64 + 2 ≤ rounds →
        ∃ rgn, initEllipseRegion rounds x y rx ry = some (true, rgn) ∧ (UsableRegion rgn ↔ 1 ≤ rx ∧ 1 ≤ ry)) := by
  have hempty : emptyClipRgn.WellFormed := ClipRgn.wellFormed_of_nil rfl
  have hemptyType : TypeOk emptyClipRgn := by
    simp [TypeOk, emptyClipRgn]
  constructor
  . intro rounds hrounds hpos
    unfold initCircleRegion
    by_cases hr : r < 1
    . rw [if_pos hr]
      refine ⟨_, rfl, iff_of_false (not_usable_pixelRegion x y) (by omega)⟩
    have hspans : ∃ spans, circleGenerator rounds x y r = some spans := circleLoop_returns (by omega) hpos
    obtain ⟨spans, hspans⟩ := hspans
    rw [if_neg hr, hspans]
    exact ⟨_, rfl, iff_of_true (foldl_cbRegion_usable spans hempty hemptyType) (by omega)⟩
  intro rounds hrounds
  unfold initEllipseRegion
  by_cases hr : rx < 1 ∨ ry < 1
  . rw [if_pos hr]
    exact ⟨_, rfl, iff_of_false (not_usable_pixelRegion x y) (by omega)⟩
  have hspans : ∃ spans, ellipseGenerator rounds x y rx ry = some spans := by
    unfold ellipseGenerator
    dsimp only
    rw [if_neg (show ¬rx < 1 by omega), if_neg (show ¬ry < 1 by omega)]
    split
    . exact ellipseLoop_returns (by omega) le_rfl (Or.inr (by omega))
    . exact ellipseLoop_returns (by omega) le_rfl (Or.inr (by omega))
  obtain ⟨spans, hspans⟩ := hspans
  rw [if_neg hr, hspans]
  exact ⟨_, rfl, iff_of_true (foldl_cbRegion_usable spans hempty hemptyType) (by omega)⟩

theorem not_shapes_usable
    : ¬∀ (rounds : Nat) (x y r : Int) (rgn : ClipRgn), initCircleRegion rounds x y r = some (true, rgn) → UsableRegion rgn := by
  intro hall
  have husable := hall 1 5 7 0 (pixelRegion 5 7) rfl
  exact absurd (husable.typeEmpty.mp rfl) (by decide)

theorem shapes_usable_iff_disc
    : ∃ rgn, initCircleRegion 3 5 7 2 = some (true, rgn) ∧ UsableRegion rgn := by
  obtain ⟨rgn, hinit, husable⟩ := (shapes_usable_iff 5 7 2 1 1).1 3 (by decide) (by decide)
  exact ⟨rgn, hinit, husable.mpr (by decide)⟩

end Usable

variable {x y r cx cy df dE dSe a b : Int} {rounds : Nat} {spans : List HSpan}

def InDisc (r a b : Int) : Prop :=
  |a| * |a| + |b| * |b| < r * r + max |a| |b|

def Spanned (spans : List HSpan) (p : Int × Int) : Prop :=
  ∃ span ∈ spans, p.2 = span.y ∧ min span.x1 span.x2 ≤ p.1 ∧ p.1 ≤ max span.x1 span.x2

/--
`(cx, cy)` is the point of its column that is nearest to the circle.
-/
structure OnCircle (r cx cy df dE dSe : Int) : Prop where
  octant : 0 ≤ cx ∧ cx ≤ cy
  outer : cx * cx + cy * cy < r * r + cy
  inner : r * r ≤ cx * cx + cy * cy + cy
  df_eq : df = (cx + 1) * (cx + 1) + cy * cy - cy - r * r
  dE_eq : dE = 2 * cx + 3
  dSe_eq : dSe = 2 * cx - 2 * cy + 5

theorem spanned_append (l : List HSpan) (p : Int × Int)
    : Spanned (l ++ spans) p ↔ Spanned l p ∨ Spanned spans p := by
  unfold Spanned
  simp only [List.mem_append, or_and_right, exists_or]

theorem spanned_circleSpans (h : 0 ≤ cx ∧ cx ≤ cy)
    : Spanned (circleSpans x y cx cy) (x + a, y + b) ↔ (|b| = cx ∧ |a| ≤ cy) ∨ (|b| = cy ∧ |a| ≤ cx) := by
  have ha := abs_cases a
  have hb := abs_cases b
  unfold circleSpans Spanned
  split <;> split <;> (try split) <;> simp <;> omega

theorem mul_self_sub_le (h0 : 0 ≤ a) (h : a ≤ b) : a * a - a ≤ b * b - b := by
  rcases h.eq_or_lt with heq | hlt
  . rw [heq]
  . nlinarith

namespace OnCircle

variable (h : OnCircle r cx cy df dE dSe)

include h

theorem inDisc_low (hb : |b| = cx) : InDisc r a b ↔ |a| ≤ cy := by
  obtain ⟨h0, hle⟩ := h.octant
  have houter := h.outer
  have hinner := h.inner
  have ha := abs_nonneg a
  rw [InDisc, hb]
  constructor
  . intro hin
    by_contra hlt
    rw [max_eq_left (by omega)] at hin
    nlinarith
  . intro hin
    rcases le_total |a| cx with hac | hac
    . have hcx := mul_self_sub_le h0 hle
      have haa := mul_self_le_mul_self ha hac
      rw [max_eq_right hac]
      omega
    . have haa := mul_self_sub_le ha hin
      rw [max_eq_left hac]
      omega

theorem inDisc_high (hb : |b| = cy) (ha : |a| ≤ cx) : InDisc r a b := by
  obtain ⟨h0, hle⟩ := h.octant
  have houter := h.outer
  have ha0 := abs_nonneg a
  rw [InDisc, hb, max_eq_right (by omega)]
  nlinarith

theorem not_inDisc_high (hdf : 0 ≤ df) (hlt : cx < cy) (hb : |b| = cy) (ha : cx < |a|) : ¬InDisc r a b := by
  obtain ⟨h0, hle⟩ := h.octant
  have hdf_eq := h.df_eq
  rw [InDisc, hb]
  rcases le_total |a| cy with hac | hac
  . rw [max_eq_right hac]
    nlinarith
  . rw [max_eq_left hac]
    nlinarith

theorem next (hmore : cx + 1 ≤ if df < 0 then cy else cy - 1)
    : OnCircle r (cx + 1) (if df < 0 then cy else cy - 1) (if df < 0 then df + dE else df + dSe) (dE + 2)
        (if df < 0 then dSe + 2 else dSe + 4) := by
  obtain ⟨⟨h0, hle⟩, houter, hinner, hdf, hdE, hdSe⟩ := h
  split at hmore
  . next hneg =>
    rw [if_pos hneg, if_pos hneg, if_pos hneg]
    refine ⟨⟨by omega, hmore⟩, ?_, ?_, ?_, ?_, ?_⟩ <;> nlinarith
  . next hneg =>
    rw [if_neg hneg, if_neg hneg, if_neg hneg]
    refine ⟨⟨by omega, hmore⟩, ?_, ?_, ?_, ?_, ?_⟩ <;> nlinarith

end OnCircle

theorem circleLoop_covers (h : OnCircle r cx cy df dE dSe) (hspans : circleLoop x y rounds cx cy df dE dSe = some spans)
    : Spanned spans (x + a, y + b) ↔ InDisc r a b ∧ cx ≤ |b| ∧ |b| ≤ cy := by
  induction rounds generalizing cx cy df dE dSe spans with
  | zero => cases hspans
  | succ rounds ih =>
    have hhere := @spanned_circleSpans x y cx cy a b h.octant
    have hoct := h.octant
    have hlow := h.inDisc_low (a := a) (b := b)
    have hhigh := h.inDisc_high (a := a) (b := b)
    rw [circleLoop] at hspans
    by_cases hmore : cx + 1 ≤ if df < 0 then cy else cy - 1
    . rw [if_pos hmore] at hspans
      obtain ⟨rest, hrest, rfl⟩ := Option.map_eq_some_iff.mp hspans
      rw [spanned_append, hhere, ih (h.next hmore) hrest]
      split at hmore
      . next hneg =>
        rw [if_pos hneg]
        grind
      . next hneg =>
        have hfar := h.not_inDisc_high (a := a) (b := b) (by omega) (by omega)
        rw [if_neg hneg]
        grind
    . rw [if_neg hmore] at hspans
      obtain rfl := Option.some.inj hspans
      rw [hhere]
      split at hmore
      . grind
      . have hfar := h.not_inDisc_high (a := a) (b := b) (by omega)
        grind

theorem foldl_cbRegion_pixels {region : ClipRgn} (h : region.WellFormed) (htype : TypeOk region) (p : Int × Int)
    : p ∈ (spans.foldl cbRegion region).pixels ↔ p ∈ region.pixels ∨ Spanned spans p := by
  induction spans generalizing region with
  | nil => simp [Spanned]
  | cons span spans ih =>
    have hspan := cbRegion_usable h htype span
    rw [List.foldl_cons, ih hspan.1 hspan.2.1, hspan.2.2]
    simp [Spanned, or_assoc]

/--
The midpoint circle: a disc has the pixels that are not more than half a pixel outside the circle, measured along the
axis of their octant.
-/
theorem initCircleRegion_pixels (x y r : Int) (hr : 1 ≤ r) (rounds : Nat) (hrounds : r < rounds)
    : ∃ rgn, initCircleRegion rounds x y r = some (true, rgn) ∧ ∀ p, p ∈ rgn.pixels ↔ InDisc r (p.1 - x) (p.2 - y) := by
  obtain ⟨spans, hspans⟩ := @circleLoop_returns x y rounds 0 r (1 - r) 3 (-2 * r + 5) (by omega) (by omega)
  have hstart : OnCircle r 0 r (1 - r) 3 (-2 * r + 5) := by
    refine ⟨⟨by omega, by omega⟩, ?_, ?_, ?_, ?_, ?_⟩ <;> nlinarith
  refine ⟨spans.foldl cbRegion emptyClipRgn, ?_, ?_⟩
  . rw [initCircleRegion, if_neg (by omega), circleGenerator, hspans]
    rfl
  intro p
  have hcovers := @circleLoop_covers x y r _ _ _ _ _ (p.1 - x) (p.2 - y) _ _ hstart hspans
  rw [add_sub_cancel, add_sub_cancel] at hcovers
  rw [foldl_cbRegion_pixels (ClipRgn.wellFormed_of_nil rfl) (by simp [TypeOk, emptyClipRgn]), hcovers]
  have hrow : InDisc r (p.1 - x) (p.2 - y) → |p.2 - y| ≤ r := by
    intro hin
    have ha := abs_nonneg (p.1 - x)
    by_contra hlt
    rw [InDisc] at hin
    rcases le_total |p.1 - x| |p.2 - y| with hle | hle
    . rw [max_eq_right hle] at hin
      nlinarith
    . rw [max_eq_left hle] at hin
      nlinarith
  have hempty : p ∉ emptyClipRgn.pixels := by
    rw [pixels_eq_empty rfl]
    exact Set.notMem_empty p
  have hb := abs_nonneg (p.2 - y)
  tauto

theorem initCircleRegion_pixels_two
    : ∃ rgn, initCircleRegion 3 5 7 2 = some (true, rgn) ∧ ∀ p, p ∈ rgn.pixels ↔ InDisc 2 (p.1 - 5) (p.2 - 7) :=
  initCircleRegion_pixels 5 7 2 (by decide) 3 (by decide)

end MiniGui
