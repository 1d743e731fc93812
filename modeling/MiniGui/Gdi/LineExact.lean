import MiniGui.Gdi.LineClip
import MiniGui.Gdi.ClipCalls
import MiniGui.Gdi.DrawRuns
import MiniGui.Gdi.ScanVline

namespace MiniGui

open ClipRgn

variable {p : Int × Int} {k rounds : Nat} {line : LineEnds}

theorem mem_lineSteps {majorInc minorInc : Int} {major minor n : Nat} {a b : Int} {rem : Nat} (hminor : minor ≤ major)
    (hrem : rem < major) (hp : p ∈ lineSteps majorInc minorInc major minor n a b rem)
    : ∃ k j : Nat, k ≤ n ∧ j * major ≤ rem + k * minor ∧ p = (a + majorInc * k, b + minorInc * j) := by
  induction n generalizing a b rem with
  | zero => cases hp
  | succ n ih =>
    unfold lineSteps at hp
    split at hp
    next hstep =>
      rcases List.mem_cons.mp hp with heq | hmem
      . refine ⟨1, 1, by omega, by omega, ?_⟩
        rw [heq]
        simp
      obtain ⟨k, j, hk, hj, heq⟩ := ih (by omega) hmem
      refine ⟨k + 1, j + 1, by omega, ?_, ?_⟩
      . rw [Nat.add_mul, Nat.add_mul]
        omega
      . rw [heq]
        push_cast
        ring_nf
    next hstep =>
      rcases List.mem_cons.mp hp with heq | hmem
      . refine ⟨1, 0, by omega, by omega, ?_⟩
        rw [heq]
        simp
      obtain ⟨k, j, hk, hj, heq⟩ := ih (by omega) hmem
      refine ⟨k + 1, j, by omega, ?_, ?_⟩
      . rw [Nat.add_mul]
        omega
      . rw [heq]
        push_cast
        ring_nf

theorem minor_le {major minor j : Nat} (hmajor : 0 < major) (hk : k ≤ major) (hj : j * major ≤ major / 2 + k * minor)
    : j ≤ minor := by
  by_contra hlt
  have hmul : (minor + 1) * major ≤ j * major := Nat.mul_le_mul_right major (by omega)
  have hkm : k * minor ≤ major * minor := Nat.mul_le_mul_right minor hk
  rw [Nat.add_mul, Nat.mul_comm minor major] at hmul
  omega

def LineEnds.InBox (line : LineEnds) (p : Int × Int) : Prop :=
  (min line.x0 line.x1 ≤ p.1 ∧ p.1 ≤ max line.x0 line.x1) ∧ min line.y0 line.y1 ≤ p.2 ∧ p.2 ≤ max line.y0 line.y1

theorem between_ends {a b : Int} (hk : k ≤ (b - a).natAbs)
    : min a b ≤ a + (if b > a then 1 else -1) * k ∧ a + (if b > a then 1 else -1) * k ≤ max a b := by
  split
  . omega
  . omega

theorem mem_straight {a b t : Int} : t ∈ straight a b ↔ min a b ≤ t ∧ t ≤ max a b := by
  unfold straight
  rw [List.mem_map]
  constructor
  . rintro ⟨k, hk, heq⟩
    rw [List.mem_range] at hk
    rw [← heq]
    exact between_ends (by omega)
  rintro ⟨h1, h2⟩
  refine ⟨(t - a).natAbs, ?_, ?_⟩
  . rw [List.mem_range]
    omega
  . split
    . omega
    . omega

theorem lineGenerator_inBox (hp : p ∈ lineGenerator line) : line.InBox p := by
  unfold lineGenerator at hp
  unfold LineEnds.InBox
  split at hp
  . rw [List.mem_singleton] at hp
    rw [hp]
    omega
  split at hp
  . obtain ⟨y, hy, heq⟩ := List.mem_map.mp hp
    rw [← heq]
    have hbetween := mem_straight.mp hy
    omega
  split at hp
  . obtain ⟨x, hx, heq⟩ := List.mem_map.mp hp
    rw [← heq]
    have hbetween := mem_straight.mp hx
    omega
  next hpoint hx hy =>
    dsimp only at hp
    split at hp
    next hmajor =>
      rcases List.mem_cons.mp hp with heq | hmem
      . rw [heq]
        omega
      obtain ⟨k, j, hk, hj, heq⟩ := mem_lineSteps hmajor (by omega) hmem
      have hjle := minor_le (by omega) hk hj
      rw [heq]
      exact ⟨between_ends hk, between_ends hjle⟩
    next hmajor =>
      rcases List.mem_cons.mp hp with heq | hmem
      . rw [heq]
        omega
      obtain ⟨q, hq, hqp⟩ := List.mem_map.mp hmem
      obtain ⟨k, j, hk, hj, heq⟩ := mem_lineSteps (by omega) (by omega) hq
      have hjle := minor_le (by omega) hk hj
      rw [← hqp, heq]
      exact ⟨between_ends hjle, between_ends hk⟩

def Uncut (cliprc : Rect) (line : LineEnds) : Prop :=
  (cliprc.Mem line.x0 line.y0 ∧ cliprc.Mem line.x1 line.y1)
    ∨ (outcode cliprc line.x0 line.y0).shares (outcode cliprc line.x1 line.y1) = true

theorem outcode_inside (cliprc : Rect) (x y : Int) : (outcode cliprc x y).inside = true ↔ cliprc.Mem x y := by
  unfold outcode Outcode.inside Rect.Mem
  simp
  omega

theorem outcode_shares {cliprc : Rect} {line : LineEnds} {p : Int × Int}
    (h : (outcode cliprc line.x0 line.y0).shares (outcode cliprc line.x1 line.y1) = true) (hp : line.InBox p)
    : ¬cliprc.Mem p.1 p.2 := by
  unfold outcode Outcode.shares at h
  unfold LineEnds.InBox at hp
  unfold Rect.Mem
  simp only [Bool.or_eq_true, Bool.and_eq_true, decide_eq_true_eq] at h
  omega

theorem mem_lineIn {cliprc : Rect} (hx : line.x0 ≠ line.x1) (hy : line.y0 ≠ line.y1)
    (h : Uncut cliprc line) (p : Int × Int)
    : p ∈ lineIn rounds cliprc line.x0 line.y0 line.x1 line.y1 ↔ p ∈ lineGenerator line ∧ cliprc.Mem p.1 p.2 := by
  unfold lineIn lineClipper
  rw [if_neg fun hpoint => hx hpoint.1, if_neg hx, if_neg hy]
  rcases h with ⟨h0, h1⟩ | hshares
  . rw [if_pos ⟨(outcode_inside _ _ _).mpr h0, (outcode_inside _ _ _).mpr h1⟩]
    rw [iff_self_and]
    intro hp
    have hbox := lineGenerator_inBox hp
    unfold LineEnds.InBox at hbox
    dsimp only at hbox
    unfold Rect.Mem at h0 h1 ⊢
    omega
  have hnot : ¬((outcode cliprc line.x0 line.y0).inside = true ∧ (outcode cliprc line.x1 line.y1).inside = true) := by
    rw [outcode_inside, outcode_inside]
    intro hboth
    apply outcode_shares hshares (p := (line.x0, line.y0)) _ hboth.1
    unfold LineEnds.InBox
    omega
  rw [if_neg hnot, if_pos hshares]
  apply iff_of_false
  . exact List.not_mem_nil
  . rintro ⟨hp, hmem⟩
    exact outcode_shares hshares (lineGenerator_inBox hp) hmem

theorem ptInRegion_iff {region : ClipRgn} (hb : Banded region.rects) (x y : Int)
    : ptInRegion region x y = true ↔ Covers region.rects x y := by
  unfold ptInRegion
  generalize region.rects = l at hb
  cases hhead : l.head? with
  | none =>
    rw [List.head?_eq_none_iff] at hhead
    rw [hhead]
    simp
  | some head =>
    cases htail : l.getLast? with
    | none =>
      rw [List.getLast?_eq_none_iff] at htail
      rw [htail]
      simp
    | some tail =>
      dsimp only
      split
      next hout =>
        apply iff_of_false Bool.false_ne_true
        rintro ⟨r, hr, hmem⟩
        have htop := head_top_le hb hhead hr
        have hbottom := hb.bottom_le_getLast htail hr
        unfold Rect.Mem at hmem
        omega
      next => rw [covers_band hb, ← any_inRect_iff]

def lineOutput (line : LineEnds) : Rect :=
  if line.x0 = line.x1 ∧ line.y0 = line.y1 then
    ⟨line.x1 - 1, line.y1 - 1, line.x1 + 1, line.y1 + 1⟩
  else
    inflateRect (normalizeRect ⟨line.x0, line.y0, line.x1, line.y1⟩) 1 1

theorem lineOutput_mem (h : line.InBox p) : (lineOutput line).Mem p.1 p.2 := by
  unfold LineEnds.InBox at h
  rw [min_le_iff, le_max_iff, min_le_iff, le_max_iff] at h
  unfold lineOutput inflateRect normalizeRect Rect.Mem
  dsimp only
  split
  . dsimp only
    omega
  split
  . split
    . dsimp only at *
      omega
    . dsimp only at *
      omega
  split
  . dsimp only at *
    omega
  . dsimp only at *
    omega

namespace PaintEnv

variable {e : PaintEnv}

structure Drawable (e : PaintEnv) : Prop where
  found : e.found = true
  allowed : checkDrawing e.env e.dc = false
  wellFormed : e.ecrgn.WellFormed
  bound : e.dc.rcBound = e.ecrgn.rcBound

theorem Drawable.enterDrawing_eq (h : e.Drawable) (rcOutput : Rect) : e.enterDrawing rcOutput =
        if (intersectRect rcOutput e.ecrgn.rcBound).1 then some (intersectRect rcOutput e.ecrgn.rcBound).2 else none := by
  unfold enterDrawing mgEnterDrawing
  rw [h.allowed, h.bound, if_neg Bool.false_ne_true]
  cases (intersectRect rcOutput e.ecrgn.rcBound).1 with
  | false => rfl
  | true => rfl

def lineDc (e : PaintEnv) (line : LineEnds) : ScanDc :=
  ⟨e.ecrgn, (intersectRect (lineOutput line) e.ecrgn.rcBound).2, 1, e.scrBottom⟩

theorem lineDc_visible (h : e.Drawable) (hp : line.InBox p)
    : (e.lineDc line).Visible p ↔ Covers e.ecrgn.rects p.1 p.2 := by
  unfold ScanDc.Visible lineDc
  rw [intersectRect_mem, and_iff_left_iff_imp]
  intro hcovers
  exact ⟨lineOutput_mem hp, h.wellFormed.mem_bound hcovers⟩

def LineClean (e : PaintEnv) (line : LineEnds) : Prop :=
  if line.x0 = line.x1 ∧ line.y0 = line.y1 then
    True
  else if line.y0 = line.y1 then
    (e.lineDc line).HlineOk line.x0 line.x1 line.y0
  else if line.x0 = line.x1 then
    (e.lineDc line).VlineOk line.y0 line.y1 line.x0
  else
    ∀ cliprect ∈ e.ecrgn.rects, (intersectRect (e.lineDc line).rcOutput cliprect).1 = true →
      Uncut (intersectRect (e.lineDc line).rcOutput cliprect).2 line

def places (out : List Write) : List (Int × Int) :=
  out.map fun w => (w.x, w.y)

theorem places_map_write (pdc : PaintDc) (ps : List (Int × Int)) : places (ps.map pdc.write) = ps := by
  unfold places
  rw [List.map_map]
  exact List.map_id ps

theorem places_entered (h : e.Drawable) {body : Rect → List Write × Option Nat}
    (hbody : ∀ p, p ∈ places (body (e.lineDc line).rcOutput).1 ↔ p ∈ lineGenerator line ∧ Covers e.ecrgn.rects p.1 p.2)
    (p : Int × Int)
    : p ∈ places (PaintDc.entered e (lineOutput line) body) ↔ p ∈ lineGenerator line ∧ Covers e.ecrgn.rects p.1 p.2 := by
  unfold PaintDc.entered
  rw [h.enterDrawing_eq]
  by_cases hmeet : (intersectRect (lineOutput line) e.ecrgn.rcBound).1 = true
  . rw [if_pos hmeet]
    exact hbody p
  rw [if_neg hmeet]
  apply iff_of_false
  . exact List.not_mem_nil
  rintro ⟨hp, hcovers⟩
  have hmem : (intersectRect (lineOutput line) e.ecrgn.rcBound).2.Mem p.1 p.2 := by
    rw [intersectRect_mem]
    exact ⟨lineOutput_mem (lineGenerator_inBox hp), h.wellFormed.mem_bound hcovers⟩
  rw [intersectRect_proper] at hmeet
  apply hmeet
  unfold Rect.Mem at hmem
  unfold Rect.Proper
  omega

end PaintEnv

namespace PaintDc

variable {gen : Generators} {e : PaintEnv} {pdc : PaintDc}

def lineEnds (e : PaintEnv) (pdc : PaintDc) (x y : Int) : LineEnds :=
  {
    x0 := (e.dc.coorLP2SP pdc.curPenPos.1 pdc.curPenPos.2).1
    y0 := (e.dc.coorLP2SP pdc.curPenPos.1 pdc.curPenPos.2).2
    x1 := (e.dc.coorLP2SP x y).1
    y1 := (e.dc.coorLP2SP x y).2
  }

theorem places_scanAll_single (rcOutput : Rect) (scan : Scan)
    : PaintEnv.places (pdc.scanAll e rcOutput none [scan]).1
        = (ScanDc.exec ⟨e.ecrgn, rcOutput, pdc.step, e.scrBottom⟩ none scan).1 := by
  unfold scanAll
  rw [List.foldl_cons, List.foldl_nil]
  dsimp only
  rw [List.nil_append, PaintEnv.places_map_write]

theorem point_pixels (h : e.Drawable) (hpoint : line.x0 = line.x1 ∧ line.y0 = line.y1) (pdc : PaintDc)
    (p : Int × Int) : p ∈ PaintEnv.places (pdc.setPixelHelper e line.x1 line.y1).2
        ↔ p ∈ lineGenerator line ∧ Covers e.ecrgn.rects p.1 p.2 := by
  unfold setPixelHelper
  rw [drawing_snd]
  have hout : lineOutput line = ⟨line.x1 - 1, line.y1 - 1, line.x1 + 1, line.y1 + 1⟩ := if_pos hpoint
  rw [← hout]
  apply PaintEnv.places_entered h
  intro p
  have hgen : p ∈ lineGenerator line ↔ p = (line.x1, line.y1) := by
    unfold lineGenerator
    rw [if_pos hpoint, List.mem_singleton, hpoint.1, hpoint.2]
  have hbox : line.InBox (line.x1, line.y1) := lineGenerator_inBox (by
    unfold lineGenerator
    rw [if_pos hpoint, List.mem_singleton, hpoint.1, hpoint.2])
  have hvisible := PaintEnv.lineDc_visible h hbox
  unfold ScanDc.Visible at hvisible
  rw [hgen]
  split
  next hin =>
    rw [Bool.and_eq_true, ScanDc.inRect_iff, ptInRegion_iff h.wellFormed.banded] at hin
    unfold PaintEnv.places write
    rw [List.map_singleton, List.mem_singleton]
    constructor
    . intro heq
      refine ⟨heq, ?_⟩
      rw [heq]
      exact hin.2
    . exact And.left
  next hout =>
    rw [Bool.and_eq_true, ScanDc.inRect_iff, ptInRegion_iff h.wellFormed.banded] at hout
    apply iff_of_false
    . exact List.not_mem_nil
    . rintro ⟨heq, hcovers⟩
      rw [heq] at hcovers
      exact hout ⟨(hvisible.mpr hcovers).2, hcovers⟩

theorem axis_pixels (h : e.Drawable) {line : LineEnds} {scan : Scan} (hok : scan.Ok (e.lineDc line))
    (hshape : ∀ p, scan.Shape 1 p ↔ p ∈ lineGenerator line)
    (hnil : e.ecrgn.rects = [] → ((e.lineDc line).exec none scan).1 = []) (p : Int × Int)
    : p ∈ ((e.lineDc line).exec none scan).1 ↔ p ∈ lineGenerator line ∧ Covers e.ecrgn.rects p.1 p.2 := by
  by_cases hrects : e.ecrgn.rects = []
  . rw [hnil hrects, hrects]
    simp
  have hexact := (scan_exact (e.lineDc line) (Or.inl rfl) h.wellFormed hrects [] scan).mpr hok
  have hmem := hexact.2 p
  have hban : (e.lineDc line).banAfter [] = none := rfl
  rw [hban, show (e.lineDc line).step = 1 from rfl, hshape] at hmem
  rw [hmem]
  constructor
  . rintro ⟨hp, hvisible⟩
    exact ⟨hp, (PaintEnv.lineDc_visible h (lineGenerator_inBox hp)).mp hvisible⟩
  . rintro ⟨hp, hcovers⟩
    exact ⟨hp, (PaintEnv.lineDc_visible h (lineGenerator_inBox hp)).mpr hcovers⟩

theorem hline_shape (hx : line.x0 ≠ line.x1) (hy : line.y0 = line.y1) (p : Int × Int)
    : (Scan.drawHline line.x0 line.x1 line.y0).Shape 1 p ↔ p ∈ lineGenerator line := by
  unfold Scan.Shape lineGenerator
  rw [if_neg fun hpoint => hx hpoint.1, if_neg hx, if_pos hy, List.mem_map]
  constructor
  . rintro ⟨hrow, hcolumn, _⟩
    exact ⟨p.1, mem_straight.mpr hcolumn, Prod.ext rfl hrow.symm⟩
  . rintro ⟨x, hmem, heq⟩
    rw [← heq]
    exact ⟨rfl, mem_straight.mp hmem, Int.emod_one _⟩

theorem vline_shape (hx : line.x0 = line.x1) (hy : line.y0 ≠ line.y1) (p : Int × Int)
    : (Scan.drawVline line.y0 line.y1 line.x0).Shape 1 p ↔ p ∈ lineGenerator line := by
  unfold Scan.Shape lineGenerator
  rw [if_neg fun hpoint => hy hpoint.2, if_pos hx, List.mem_map]
  constructor
  . rintro ⟨hcolumn, hrow, _⟩
    exact ⟨p.2, mem_straight.mpr hrow, Prod.ext hcolumn.symm rfl⟩
  . rintro ⟨y, hmem, heq⟩
    rw [← heq]
    exact ⟨rfl, mem_straight.mp hmem, Int.emod_one _⟩

variable {dc : ScanDc}

theorem setPixelClip_nil (h : dc.ecrgn.rects = []) (x y : Int) : (dc.setPixelClip none x y).1 = [] := by
  unfold ScanDc.setPixelClip dcWhichRegionBan
  rw [h]
  rfl

theorem drawHline_nil (h : dc.ecrgn.rects = []) (x1 x2 y : Int)
    : (dc.exec none (.drawHline x1 x2 y)).1 = [] := by
  unfold ScanDc.exec ScanDc.drawHlineClip
  dsimp only
  split
  . rfl
  split
  . split
    . exact setPixelClip_nil h x1 y
    . rfl
  . unfold dcWhichRegionBan
    rw [h]
    rfl

theorem drawVline_nil (h : dc.ecrgn.rects = []) (y1 y2 x : Int)
    : (dc.exec none (.drawVline y1 y2 x)).1 = [] := by
  unfold ScanDc.exec ScanDc.drawVlineClip
  dsimp only
  split
  . split
    . exact setPixelClip_nil h x y1
    . rfl
  . rw [h]
    rfl

theorem slanted_pixels (h : e.Drawable) (hx : line.x0 ≠ line.x1) (hy : line.y0 ≠ line.y1)
    (huncut : ∀ cliprect ∈ e.ecrgn.rects, (intersectRect (e.lineDc line).rcOutput cliprect).1 = true →
      Uncut (intersectRect (e.lineDc line).rcOutput cliprect).2 line)
    (p : Int × Int)
    : p ∈ (e.ecrgn.rects.flatMap fun cliprect =>
          let effRc := intersectRect (e.lineDc line).rcOutput cliprect
          if effRc.1 then lineIn rounds effRc.2 line.x0 line.y0 line.x1 line.y1 else [])
        ↔ p ∈ lineGenerator line ∧ Covers e.ecrgn.rects p.1 p.2 := by
  rw [List.mem_flatMap]
  constructor
  . rintro ⟨c, hc, hmem⟩
    dsimp only at hmem
    split at hmem
    next hmeet =>
      have hp := (mem_lineIn hx hy (huncut c hc hmeet) p).mp hmem
      rw [intersectRect_mem] at hp
      exact ⟨hp.1, c, hc, hp.2.2⟩
    next => cases hmem
  rintro ⟨hp, c, hc, hmem⟩
  refine ⟨c, hc, ?_⟩
  have hvisible := (PaintEnv.lineDc_visible h (lineGenerator_inBox hp)).mpr ⟨c, hc, hmem⟩
  have hin : (intersectRect (e.lineDc line).rcOutput c).2.Mem p.1 p.2 := by
    rw [intersectRect_mem]
    exact ⟨hvisible.2, hmem⟩
  have hmeet : (intersectRect (e.lineDc line).rcOutput c).1 = true := by
    rw [intersectRect_proper]
    unfold Rect.Mem at hin
    unfold Rect.Proper
    omega
  rw [if_pos hmeet]
  exact (mem_lineIn hx hy (huncut c hc hmeet) p).mpr ⟨hp, hin⟩

def lineGenerators (rounds : Nat) : Generators :=
  { blankGenerators with line := lineIn rounds }

def partEnv (rc : Rect) : PaintEnv :=
  { clientEnv with
    dc := { clientDc with rcBound := rc, devRC := ⟨0, 0, 100, 100⟩ }
    ecrgn := single rc
    scrBottom := 100 }

theorem drawable_partEnv {rc : Rect} (h : rc.Proper) : (partEnv rc).Drawable where
  found := rfl
  allowed := rfl
  wellFormed := wellFormed_single h
  bound := rfl

end PaintDc

variable {majorInc minorInc : Int} {major minor rem : Nat}

def lineAt (majorInc minorInc : Int) (major minor : Nat) (a b : Int) (rem k : Nat) : Int × Int :=
  (a + majorInc * k, b + minorInc * ((rem + k * minor) / major : Nat))

theorem lineAt_zero (hrem : rem < major) (a b : Int) : lineAt majorInc minorInc major minor a b rem 0 = (a, b) := by
  simp [lineAt, Nat.div_eq_of_lt hrem]

theorem lineSteps_eq (hminor : minor ≤ major) (n : Nat) (a b : Int) (hrem : rem < major)
    : (a, b) :: lineSteps majorInc minorInc major minor n a b rem
        = (List.range (n + 1)).map (lineAt majorInc minorInc major minor a b rem) := by
  induction n generalizing a b rem with
  | zero => simp [lineSteps, lineAt_zero hrem]
  | succ n ih =>
    rw [List.range_succ_eq_map, List.map_cons, lineAt_zero hrem, List.map_map, lineSteps]
    congr 1
    split
    next hstep =>
      rw [ih _ _ (by omega)]
      apply List.map_congr_left
      intro k _
      have hdiv : (rem + (k + 1) * minor) / major = (rem + minor - major + k * minor) / major + 1 := by
        rw [← Nat.add_div_right _ (by omega)]
        congr 1
        rw [Nat.add_mul]
        omega
      simp only [lineAt, Function.comp, Nat.succ_eq_add_one, hdiv]
      push_cast
      ring_nf
    next hstep =>
      rw [ih _ _ (by omega)]
      apply List.map_congr_left
      intro k _
      have hdiv : rem + (k + 1) * minor = rem + minor + k * minor := by
        ring
      simp only [lineAt, Function.comp, Nat.succ_eq_add_one, hdiv]
      push_cast
      ring_nf

/--
One pixel for each step along the x axis; the other coordinate of step `k` is rounded from `k * minor / major`.
-/
def LineEnds.walk (line : LineEnds) : List (Int × Int) :=
  let major := (line.x1 - line.x0).natAbs
  let minor := (line.y1 - line.y0).natAbs
  (List.range (major + 1)).map (lineAt (if line.x1 > line.x0 then 1 else -1) (if line.y1 > line.y0 then 1 else -1) major
    minor line.x0 line.y0 (major / 2))

/--
A line is walked along its longer axis.
-/
theorem lineGenerator_walk (line : LineEnds)
    : lineGenerator line
        = if (line.y1 - line.y0).natAbs ≤ (line.x1 - line.x0).natAbs then
            line.walk
          else
            (LineEnds.walk ⟨line.y0, line.x0, line.y1, line.x1⟩).map Prod.swap := by
  have hzero : ∀ n : Nat, n / 2 / n = 0 := by
    intro n
    rcases Nat.eq_zero_or_pos n with rfl | hpos
    . rfl
    . exact Nat.div_eq_of_lt (by omega)
  unfold lineGenerator LineEnds.walk
  by_cases hx : line.x0 = line.x1
  . by_cases hy : line.y0 = line.y1
    . simp [hx, hy, lineAt]
    . have hne : line.y1 - line.y0 ≠ 0 := by omega
      simp [hx, hy, hne, lineAt, straight, hzero]
  by_cases hy : line.y0 = line.y1
  . simp [hx, hy, lineAt, straight, hzero]
  rw [if_neg (by omega), if_neg hx, if_neg hy]
  dsimp only
  by_cases h : (line.y1 - line.y0).natAbs ≤ (line.x1 - line.x0).natAbs
  . rw [if_pos h, if_pos h, lineSteps_eq h _ _ _ (by omega)]
  . rw [if_neg h, if_neg h, ← lineSteps_eq (by omega) _ _ _ (by omega)]
    rfl

end MiniGui
