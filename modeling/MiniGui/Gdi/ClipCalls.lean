import MiniGui.Gdi.Dc

namespace MiniGui

open ClipRgn Function

theorem normalizeRect_proper {rc : Rect} (h : isRectEmpty (normalizeRect rc) = false)
    : (normalizeRect rc).Proper := by
  unfold isRectEmpty at h
  unfold normalizeRect at h ⊢
  unfold Rect.Proper
  grind

theorem intersectRect_pixels (a b : Rect) : (intersectRect a b).2.pixels = a.pixels ∩ b.pixels := by
  ext p
  rw [Set.mem_inter_iff, Rect.mem_pixels, Rect.mem_pixels, Rect.mem_pixels]
  apply intersectRect_mem

theorem intersectRect_proper {a b : Rect} : (intersectRect a b).1 = true ↔ (intersectRect a b).2.Proper := by
  unfold intersectRect Rect.Proper
  grind [Rect.zero]

/-!
The sweep over a region and an inverted rectangle meets no band of both.
-/
section Inverted

variable {rect : Rect}

theorem regionIntersectO_inverted (h : rect.right ≤ rect.left) (region r1 : List Rect) (top bottom : Int)
    : regionIntersectO region r1 [rect] top bottom = region := by
  induction r1 with
  | nil => rw [regionIntersectO]; simp
  | cons a r1 ih =>
    rw [regionIntersectO]
    have hno : ¬max a.left rect.left < min a.right rect.right := by omega
    rw [if_neg hno]
    split
    . exact ih
    split
    . rw [regionIntersectO]
      simp
    . rw [regionIntersectO]
      simp

theorem regionOpLoop_inverted (h : ¬rect.Proper) (s : RegionOpState) (hpdst : s.pdst = [])
    (hr2 : s.r2 = [rect] ∨ s.r2 = []) : (regionOpLoop regionIntersectO none none s).pdst = [] := by
  induction s using regionOpLoop.induct regionIntersectO none none with
  | case1 s a l1 b l2 h1 h2 ih =>
    rw [regionOpLoop]
    split
    . next a' l1' b' l2' h1' h2' =>
      rw [h1, List.cons.injEq] at h1'
      rw [h2, List.cons.injEq] at h2'
      rw [← h1'.1, ← h2'.1]
      have hb : b = rect ∧ l2 = [] := by
        rw [h2] at hr2
        simpa using hr2
      have hnone : (nonIntersecting none none s a b).1 = [] := by
        unfold nonIntersecting callNonOverlap
        grind
      apply ih
      . unfold regionOpStep
        generalize hn : nonIntersecting none none s a b = n
        rw [hn] at hnone
        obtain ⟨pdst, ytop⟩ := n
        dsimp only at hnone ⊢
        rw [hnone, hpdst]
        have hfst : coalesceAdded (tailPos []) [] s.prevBand = ([], s.prevBand) := by
          unfold coalesceAdded tailPos
          simp
        rw [hfst]
        have hover : (if min a.bottom b.bottom > ytop then
            regionIntersectO [] (curBand s.r1) (curBand s.r2) ytop (min a.bottom b.bottom) else []) = [] := by
          split
          . next hy =>
            rw [h2, hb.1, hb.2]
            rw [hb.1] at hy
            have hcur : curBand [rect] = [rect] := by simp [curBand]
            rw [hcur]
            apply regionIntersectO_inverted
            have hytop : ytop ≥ b.top := by
              unfold nonIntersecting at hn
              grind
            rw [hb.1] at hytop
            unfold Rect.Proper at h
            omega
          . rfl
        rw [hover]
        rw [hfst]
      unfold regionOpStep
      dsimp only
      split
      . right
        rw [h2, hb.2]
        simp [bandEnd]
      . left
        rw [h2, hb.1, hb.2]
    . next hno => exact absurd h2 (hno a l1 b l2 h1)
  | case2 s hno =>
    rw [regionOpLoop]
    split
    . next a' l1' b' l2' h1' h2' => exact absurd h2' (hno a' l1' b' l2' h1')
    . exact hpdst

theorem regionOpRects_inverted (h : ¬rect.Proper) (l : List Rect) (ybot : Int)
    : regionOpRects regionIntersectO none none l [rect] ybot = [] := by
  unfold regionOpRects
  dsimp only
  have hloop := regionOpLoop_inverted h { r1 := l, r2 := [rect], pdst := [], prevBand := none, ybot } rfl (Or.inl rfl)
  have hrest : ∀ r yb, nonOverlapRest none yb
      (regionOpLoop regionIntersectO none none { r1 := l, r2 := [rect], pdst := [], prevBand := none, ybot }).pdst r
      = [] := by
    intro r yb
    unfold nonOverlapRest
    exact hloop
  rw [hrest, hrest, hloop]
  simp [coalesceAdded, tailPos]

end Inverted

section Calls

variable {rgn : ClipRgn} {rc : Rect}

theorem finishRegion_nil {ι : Type} [DecidableEq ι] (m : RgnStore ι) (dst : ι)
    (h : (m dst).rects = []) : ((finishRegion m dst) dst).rects = [] := by
  unfold finishRegion
  rw [update_self]
  rw [regionSetExtents_rects, h]

theorem intersectClipRect_spec (h : rgn.WellFormed)
    : (intersectClipRect rgn rc).2.WellFormed ∧ (intersectClipRect rgn rc).2.pixels = rgn.pixels ∩ rc.pixels := by
  unfold intersectClipRect
  split
  . next hempty =>
    have hnone : rc.pixels = ∅ := by
      apply Rect.pixels_eq_empty
      intro hproper
      unfold isRectEmpty at hempty
      unfold Rect.Proper at hproper
      grind
    refine ⟨wellFormed_of_nil rfl, ?_⟩
    rw [hnone, Set.inter_empty, pixels_eq_empty rfl]
  rename_i hempty
  by_cases hproper : rc.Proper
  . have hcomputes := @clipRgnIntersect_computes _ _ (clipRectStore rgn rc) .region .region .myRegion h
      (wellFormed_single hproper)
    refine ⟨hcomputes.wellFormed, ?_⟩
    rw [hcomputes.pixels, ← pixels_single rc]
    rfl
  have hnil : ((clipRgnIntersect (clipRectStore rgn rc) .region .region .myRegion).2 .region).rects = [] := by
    unfold clipRgnIntersect
    split
    . dsimp only
      rw [update_self]
      rfl
    apply finishRegion_nil
    rcases regionOp_eq regionIntersectO none none (clipRectStore rgn rc) .region .region .myRegion
      with ⟨m', _, heq⟩
    rw [heq, update_self]
    apply regionOpRects_inverted hproper
  refine ⟨wellFormed_of_nil hnil, ?_⟩
  rw [pixels_eq_empty hnil, Rect.pixels_eq_empty hproper, Set.inter_empty]

theorem addClipRect_spec (h : rgn.WellFormed) (hproper : rc.Proper)
    : (addClipRect rgn rc).2.WellFormed ∧ (addClipRect rgn rc).2.pixels = rgn.pixels ∪ rc.pixels := by
  unfold addClipRect
  have hnonempty : isRectEmpty rc = false := by
    unfold isRectEmpty
    unfold Rect.Proper at hproper
    grind
  rw [if_neg (by rw [hnonempty]; simp)]
  have hcomputes := unionRegion_computes (clipRectStore rgn rc) .region .region .myRegion h (wellFormed_single hproper)
  refine ⟨hcomputes.wellFormed, ?_⟩
  rw [hcomputes.pixels, ← pixels_single rc]
  rfl

theorem copyOf_spec {dst src : ClipRgn} (h : src.WellFormed)
    : (dst.copyOf src).WellFormed ∧ (dst.copyOf src).pixels = src.pixels
        ∧ ((dst.copyOf src).rects = src.rects) := by
  unfold copyOf clipRgnCopy
  rw [if_neg (by decide)]
  dsimp only
  rw [update_of_ne (by decide)]
  split
  . next hnil =>
    have hsrc : src.rects = [] := hnil
    dsimp only
    rw [update_self]
    refine ⟨wellFormed_of_nil rfl, ?_, ?_⟩
    . rw [pixels_eq_empty rfl, pixels_eq_empty hsrc]
    . rw [hsrc]
      rfl
  . dsimp only
    rw [update_self]
    exact ⟨h, rfl, rfl⟩

theorem intersectWith_spec {dst src : ClipRgn} (h1 : dst.WellFormed) (h2 : src.WellFormed)
    : (dst.intersectWith src).WellFormed ∧ (dst.intersectWith src).pixels = dst.pixels ∩ src.pixels := by
  have hcomputes := @clipRgnIntersect_computes _ _ (dcRgns dst src) .dst .dst .src h1 h2
  exact ⟨hcomputes.wellFormed, hcomputes.pixels⟩

def shift (x y : Int) (s : Set (Int × Int)) : Set (Int × Int) :=
  { p | (p.1 - x, p.2 - y) ∈ s }

theorem mem_shift {x y : Int} {s : Set (Int × Int)} {p : Int × Int} : p ∈ shift x y s ↔ (p.1 - x, p.2 - y) ∈ s := by
  rfl

theorem offsetRect_pixels (r : Rect) (x y : Int) : (offsetRect r x y).pixels = shift x y r.pixels := by
  ext p
  rw [Rect.mem_pixels, mem_shift, Rect.mem_pixels]
  unfold offsetRect Rect.Mem
  dsimp only
  omega

theorem banded_offset {l : List Rect} (h : Banded l) (x y : Int) : Banded (l.map (fun r => offsetRect r x y)) := by
  constructor
  . intro r hr
    rw [List.mem_map] at hr
    rcases hr with ⟨a, ha, heq⟩
    have hproper := h.1 a ha
    rw [← heq]
    unfold offsetRect
    dsimp only
    omega
  rw [List.pairwise_map]
  apply h.2.imp
  intro a b hab
  unfold Follows at hab ⊢
  unfold offsetRect
  dsimp only
  omega

theorem isBound_offset {bound : Rect} {l : List Rect} (h : IsBound bound l) (x y : Int)
    : IsBound (offsetRect bound x y) (l.map (fun r => offsetRect r x y)) := by
  constructor
  . intro r hr
    rw [List.mem_map] at hr
    rcases hr with ⟨a, ha, heq⟩
    have hin := h.contains a ha
    rw [← heq]
    unfold offsetRect
    dsimp only
    omega
  intro hne
  rw [ne_eq, List.map_eq_nil_iff] at hne
  rcases h.attained hne with ⟨⟨a, ha, hal⟩, ⟨b, hb, hbt⟩, ⟨c, hc, hcr⟩, ⟨d, hd, hdb⟩⟩
  refine ⟨⟨_, List.mem_map_of_mem ha, ?_⟩, ⟨_, List.mem_map_of_mem hb, ?_⟩, ⟨_, List.mem_map_of_mem hc, ?_⟩,
    ⟨_, List.mem_map_of_mem hd, ?_⟩⟩
  all_goals
    unfold offsetRect
    dsimp only
    omega

theorem covers_offset (l : List Rect) (x y u v : Int)
    : Covers (l.map (fun r => offsetRect r x y)) u v ↔ Covers l (u - x) (v - y) := by
  unfold Covers
  have hrect : ∀ r, (offsetRect r x y).Mem u v ↔ r.Mem (u - x) (v - y) := by
    intro r
    have hpixels := Set.ext_iff.mp (offsetRect_pixels r x y) (u, v)
    exact hpixels
  simp only [List.mem_map, exists_exists_and_eq_and, hrect]

theorem offsetRegion_spec (h : rgn.WellFormed) (x y : Int)
    : (offsetRegion rgn x y).WellFormed ∧ (offsetRegion rgn x y).pixels = shift x y rgn.pixels := by
  refine ⟨?_, ?_⟩
  . by_cases hnil : rgn.rects = []
    . apply wellFormed_of_nil
      unfold offsetRegion
      rw [hnil]
      rfl
    constructor
    . exact banded_offset h.banded x y
    . unfold offsetRegion
      rw [if_neg hnil]
      exact isBound_offset h.bound x y
  . ext p
    rw [mem_shift, mem_pixels, mem_pixels]
    unfold offsetRegion
    apply covers_offset

end Calls

end MiniGui
