import MiniGui.Gdi.ScanExact

namespace MiniGui

open List

namespace FillSpans

open ScanDc

structure Span where
  x : Int
  y : Int
  width : Int

structure Tile where
  bmWidth : Int
  positive : 0 < bmWidth

structure Stipple where
  width : Int
  height : Int
  pitch : Int
  bits : Int → Nat

inductive BrushType where
  | tiled (brushTile : Option Tile)
  | stippled (brushStipple : Option Stipple) (solidStipple : Bool)
  | other

structure Brush where
  type : BrushType
  origX : Int
  origY : Int

def wrap (a n : Int) : Int :=
  if a.tmod n < 0 then a.tmod n + n else a.tmod n

def row (x y w : Int) : List (Int × Int) :=
  (List.range w.toNat).map fun (i : Nat) => (x + i, y)

def tiledLoop (tiled : Tile) (origX y : Int) (fuel : Nat) (curx right w : Int) : List (Int × Int) :=
  match fuel with
  | 0 => []
  | fuel + 1 =>
    if curx < right then
      let xstep := min (tiled.bmWidth - wrap (curx - origX) tiled.bmWidth) w
      row curx y xstep ++ tiledLoop tiled origX y fuel (curx + xstep) right (w - xstep)
    else
      []

def stippleBit (stipple : Stipple) (origX origY curx y : Int) : Bool :=
  let maskx := wrap (curx - origX) stipple.width
  let masky := wrap (y - origY) stipple.height
  (stipple.bits (maskx / 8 + stipple.pitch * masky)).testBit (maskx % 8).toNat

def fillSpanBrushHelper (brush : Brush) (x y w : Int) : List (Int × Int) :=
  match brush.type with
  | .tiled none => []
  | .tiled (some tiled) => tiledLoop tiled brush.origX y w.toNat x (x + w) w
  | .stippled none _ => []
  | .stippled (some stipple) solidStipple =>
    (row x y w).filter fun p => stippleBit stipple brush.origX brush.origY p.1 y || solidStipple
  | .other => []

section Loops

variable (pdc : ScanDc) (fill : Int → Int → Int → List (Int × Int))

def spanIn (span : Span) (cliprect : Rect) : List (Int × Int) :=
  let effRc := intersectRect pdc.rcOutput cliprect
  if effRc.1 then
    match dcClipHline effRc.2 span.x span.y span.width with
    | some (x, w) => if w > 0 then fill x span.y w else []
    | none => []
  else
    []

def drawSpan (span : Span) (k : Nat) : List (Int × Int) × Option Nat :=
  if span.width = 1 then
    pdc.setPixelClip (some k) span.x span.y
  else
    ((banAt pdc.ecrgn k).flatMap (spanIn pdc fill span), some k)

def drawSpanBrush (span : Span) (k : Nat) : List (Int × Int) × Option Nat :=
  ((banAt pdc.ecrgn k).flatMap (spanIn pdc fill span), some k)

/--
`_dc_which_region_ban`, which reads the tail and the head of the region; no result stands for an access through the
null pointer.
-/
def findBan (region : ClipRgn) (curBan : Option Nat) (y : Int) : Option (Option Nat) :=
  if region.rects = [] then none else some (dcWhichRegionBan region curBan y)

variable (draw : Span → Nat → List (Int × Int) × Option Nat)

def sortedBan (first : Bool) (curBan : Option Nat) (y : Int) : Option (Option Nat) :=
  if first then
    findBan pdc.ecrgn curBan y
  else
    match curBan with
    | none => none
    | some k => if y ≥ (pdc.ecrgn.rects.getD k default).bottom then findBan pdc.ecrgn curBan y else some curBan

def fillSorted (first : Bool) (curBan : Option Nat) : List Span → Option (List (Int × Int))
  | [] => some []
  | span :: spans => do
    match ← sortedBan pdc first curBan span.y with
    | none => some []
    | some k => return (draw span k).1 ++ (← fillSorted false (draw span k).2 spans)

def fillUnsorted : List Span → Option (List (Int × Int))
  | [] => some []
  | span :: spans => do
    match ← findBan pdc.ecrgn none span.y with
    | none => fillUnsorted spans
    | some k => return (draw span k).1 ++ (← fillUnsorted spans)

def fillWith (spans : List Span) (sorted : Bool) : Option (List (Int × Int)) :=
  if sorted then fillSorted pdc draw true none spans else fillUnsorted pdc draw spans

def dcFillSpans (spans : List Span) (sorted : Bool) : Option (List (Int × Int)) :=
  fillWith pdc (drawSpan pdc row) spans sorted

def dcFillSpansBrush (brush : Brush) (spans : List Span) (sorted : Bool) : Option (List (Int × Int)) :=
  fillWith pdc (drawSpanBrush pdc (fillSpanBrushHelper brush)) spans sorted

end Loops

def Paints (brush : Brush) (p : Int × Int) : Prop :=
  match brush.type with
  | .tiled brushTile => brushTile.isSome = true
  | .stippled none _ => False
  | .stippled (some stipple) solidStipple =>
    (stippleBit stipple brush.origX brush.origY p.1 p.2 || solidStipple) = true
  | .other => False

theorem mem_row {x y w : Int} {p : Int × Int} : p ∈ row x y w ↔ p.2 = y ∧ x ≤ p.1 ∧ p.1 < x + w := by
  rw [row, List.mem_map]
  constructor
  . rintro ⟨i, hi, heq⟩
    rw [mem_range] at hi
    rw [← heq]
    exact ⟨rfl, by dsimp only; omega, by dsimp only; omega⟩
  rintro ⟨hy, hle, hlt⟩
  refine ⟨(p.1 - x).toNat, mem_range.mpr (by omega), ?_⟩
  rw [Prod.ext_iff]
  exact ⟨by dsimp only; omega, hy.symm⟩

theorem wrap_range (a : Int) {n : Int} (hn : 0 < n) : 0 ≤ wrap a n ∧ wrap a n < n := by
  have hlt := Int.tmod_lt_of_pos a hn
  have hgt : -n < a.tmod n := by
    have hneg := Int.tmod_lt_of_pos (-a) hn
    rw [Int.neg_tmod] at hneg
    omega
  rw [wrap]
  split
  . omega
  . omega

theorem mem_tiledLoop (tiled : Tile) (origX y : Int) {fuel : Nat} {curx right w : Int} (hw : right = curx + w)
    (hfuel : w ≤ fuel) {p : Int × Int}
    : p ∈ tiledLoop tiled origX y fuel curx right w ↔ p.2 = y ∧ curx ≤ p.1 ∧ p.1 < right := by
  induction fuel generalizing curx w with
  | zero =>
    rw [tiledLoop]
    refine iff_of_false not_mem_nil ?_
    rintro ⟨_, hle, hlt⟩
    omega
  | succ fuel ih =>
    rw [tiledLoop]
    split
    . next hlt =>
      have hwrap := wrap_range (curx - origX) tiled.positive
      generalize hstep : min (tiled.bmWidth - wrap (curx - origX) tiled.bmWidth) w = xstep
      rw [mem_append, mem_row, ih (by omega) (by omega)]
      omega
    rename_i hge
    refine iff_of_false not_mem_nil ?_
    rintro ⟨_, hle, hlt⟩
    omega

theorem mem_fillSpanBrushHelper (brush : Brush) {x y w : Int} {p : Int × Int}
    : p ∈ fillSpanBrushHelper brush x y w ↔ (p.2 = y ∧ x ≤ p.1 ∧ p.1 < x + w) ∧ Paints brush p := by
  rw [fillSpanBrushHelper, Paints]
  cases brush.type with
  | tiled brushTile =>
    cases brushTile with
    | none => simp
    | some tiled => simp [mem_tiledLoop tiled brush.origX y rfl (Int.self_le_toNat w)]
  | stippled brushStipple solidStipple =>
    cases brushStipple with
    | none => simp
    | some stipple =>
      rw [mem_filter, mem_row]
      constructor
      . rintro ⟨hrow, hbit⟩
        rw [hrow.1]
        exact ⟨⟨rfl, hrow.2⟩, hbit⟩
      . rintro ⟨hrow, hbit⟩
        rw [hrow.1] at hbit
        exact ⟨hrow, hbit⟩
  | other => simp

section Bans

variable {region : ClipRgn} {curBan : Option Nat} {y : Int} {k : Nat}

structure BanAbove (region : ClipRgn) (k : Nat) (y : Int) : Prop where
  start : BandStart region.rects (some k)
  above : ∀ r ∈ region.rects.take k, r.bottom ≤ y
  inside : ∀ head, region.rects.head? = some head → head.top ≤ y

theorem bandStart_lt (h : BandStart region.rects (some k)) : k < region.rects.length := by
  rcases h with ⟨pre, c, post, hl, hk, _⟩
  rw [hl, ← hk, length_append, length_cons]
  omega

theorem rects_split (region : ClipRgn) (k : Nat)
    : region.rects = region.rects.take k ++ (banAt region k ++ bandEnd (region.rects.drop k)) := by
  rw [banAt, curBand_append_bandEnd, take_append_drop]

theorem top_of_bandEnd_drop (hb : Banded region.rects) (h : BandStart region.rects (some k)) {r : Rect}
    (hr : r ∈ bandEnd (region.rects.drop k)) : (region.rects.getD k default).bottom ≤ r.top := by
  rcases h with ⟨pre, c, post, hl, hk, _⟩
  have hdrop : region.rects.drop k = c :: post := by
    rw [hl, ← hk, drop_left]
  have hget : region.rects.getD k default = c := by
    simp [hl, ← hk]
  rw [hdrop] at hr
  rw [hget]
  rw [hl] at hb
  exact (banded_append.mp hb).2.1.top_of_bandEnd hr

theorem dcWhichRegionBan_forward (hb : Banded region.rects) (hcur : BanOk region curBan) (hne : region.rects ≠ [])
    (hy : (region.rects.getD (curBan.getD 0) default).top ≤ y) (hban : dcWhichRegionBan region curBan y = some k)
    : BanAbove region k y ∧ y < (region.rects.getD k default).bottom := by
  rcases hcur.split hne with ⟨pre, c, post, hl, hpre, habove⟩
  have hspec := dcWhichRegionBan_spec (y := y) hb hne hcur
  rw [hban] at hspec
  have hget : region.rects.getD (curBan.getD 0) default = c := by
    rw [← hpre]
    simp [hl]
  have hdrop : region.rects.drop (curBan.getD 0) = c :: post := by
    rw [← hpre, hl, drop_left]
  rw [hget] at hy
  rw [dcWhichRegionBan] at hban
  obtain ⟨head, hhead⟩ := exists_head hne
  obtain ⟨tail, hlast⟩ := exists_getLast hne
  simp only [hhead, hlast, hget, hdrop] at hban
  split at hban
  . cases hban
  rename_i hin
  rw [if_neg (not_lt.mpr hy)] at hban
  split at hban
  . next hlt =>
    rw [Option.some.injEq] at hban
    have hsplit := takeWhile_append_dropWhile (p := fun r : Rect => decide (y ≥ r.bottom)) (l := c :: post)
    generalize htake : (c :: post).takeWhile (fun r => decide (y ≥ r.bottom)) = past at hsplit hban hlt
    generalize hrest : (c :: post).dropWhile (fun r => decide (y ≥ r.bottom)) = rest at hsplit
    have hrects : region.rects = (pre ++ past) ++ rest := by
      rw [hl, ← hsplit, append_assoc]
    have hlen : (pre ++ past).length = k := by
      rw [length_append, ← hban, hpre]
    refine ⟨⟨hspec.1, ?_, ?_⟩, ?_⟩
    . intro r hr
      rw [hrects, ← hlen, take_left, mem_append] at hr
      rcases hr with hr | hr
      . have hrc := habove r hr c mem_cons_self
        omega
      . rw [← htake] at hr
        simpa using mem_takeWhile_imp hr
    . intro r hr
      rw [hhead] at hr
      rw [← Option.some.inj hr]
      simp at hin
      exact hin.2
    cases rest with
    | nil =>
      rw [hrects, append_nil, hlen, hban] at hlt
      exact absurd hlt (lt_irrefl k)
    | cons d rest' =>
      have hd : region.rects.getD k default = d := by
        rw [hrects, ← hlen]
        simp
      have hnot := head?_dropWhile_not (fun r : Rect => decide (y ≥ r.bottom)) (c :: post)
      rw [hrest] at hnot
      rw [hd]
      simpa using hnot
  . cases hban

theorem dcWhichRegionBan_above (hb : Banded region.rects) (h : BanAbove region k y) {k' : Nat}
    (hban : dcWhichRegionBan region (some k) y = some k') : BanAbove region k' y := by
  have hlt := bandStart_lt h.start
  have hne : region.rects ≠ [] := ne_nil_of_length_pos (by omega)
  have hcur : BanOk region (some k) := by
    intro j hj
    rw [← Option.some.inj hj]
    exact h.start
  have hspec := dcWhichRegionBan_spec (y := y) hb hne hcur
  rw [hban] at hspec
  by_cases hy : (region.rects.getD k default).top ≤ y
  . exact (dcWhichRegionBan_forward hb hcur hne hy hban).1
  refine ⟨hspec.1, ?_, h.inside⟩
  -- Backward the search ends at `k` or before it.
  have hle : k' ≤ k := by
    rw [dcWhichRegionBan] at hban
    obtain ⟨head, hhead⟩ := exists_head hne
    obtain ⟨tail, hlast⟩ := exists_getLast hne
    simp only [hhead, hlast, Option.getD_some] at hban
    split at hban
    . cases hban
    rw [if_pos (not_le.mp hy)] at hban
    split at hban
    . cases hban
    rename_i hbefore
    rw [Option.some.injEq] at hban
    have hstart := rdropWhile_prefix (fun c : Rect => decide (y < c.top)) (region.rects.take (k + 1))
    have hbanded : Banded ((region.rects.take (k + 1)).rdropWhile fun c => decide (y < c.top)) :=
      ⟨fun r hr => hb.1 r (mem_of_mem_take (hstart.subset hr)),
        (hb.2.sublist (take_sublist _ _)).sublist hstart.sublist⟩
    rcases lastBandStart_spec hbanded hbefore with ⟨pre, c, post, hl, hlen, _⟩
    have hlen' := hstart.length_le
    rw [hl, length_append, length_cons, length_take] at hlen'
    omega
  intro r hr
  refine h.above r ?_
  rw [← take_append_drop k' (region.rects.take k), mem_append, take_take, min_eq_left hle]
  exact .inl hr

theorem dcWhichRegionBan_isSome {head tail : Rect} (hcur : BanOk region curBan)
    (hhead : region.rects.head? = some head) (hlast : region.rects.getLast? = some tail) (htop : head.top ≤ y)
    (hbottom : y < tail.bottom) : ∃ k, dcWhichRegionBan region curBan y = some k := by
  have hne : region.rects ≠ [] := by
    intro hnil
    rw [hnil] at hhead
    cases hhead
  rcases hcur.split hne with ⟨pre, c, post, hl, hpre, habove⟩
  have hdrop : region.rects.drop (curBan.getD 0) = c :: post := by
    rw [← hpre, hl, drop_left]
  rw [dcWhichRegionBan]
  simp only [hhead, hlast]
  rw [if_neg (by simp; omega)]
  split
  . rw [if_neg]
    . exact ⟨_, rfl⟩
    intro hnil
    rw [rdropWhile_eq_nil_iff] at hnil
    have hmem : head ∈ region.rects.take (curBan.getD 0 + 1) := by
      cases hrects : region.rects with
      | nil => exact absurd hrects hne
      | cons a l =>
        rw [hrects, head?_cons, Option.some.injEq] at hhead
        rw [hhead]
        exact mem_cons_self
    have hlt := hnil head hmem
    simp at hlt
    omega
  rw [if_pos]
  . exact ⟨_, rfl⟩
  rw [hdrop]
  have htail : tail ∈ c :: post := by
    have hmem := getLast?_eq_some_getLast (l := c :: post) (by simp)
    rw [hl, getLast?_append, hmem] at hlast
    rw [← Option.some.inj hlast]
    exact getLast_mem _
  have hle := (List.takeWhile_prefix (fun r : Rect => decide (y ≥ r.bottom)) (l := c :: post)).length_le
  have hne' : ((c :: post).takeWhile fun r => decide (y ≥ r.bottom)).length ≠ (c :: post).length := by
    intro heq
    have hall := takeWhile_eq_self_iff.mp ((List.takeWhile_prefix _).eq_of_length heq)
    have hge := hall tail htail
    simp at hge
    omega
  rw [hl, length_append, hpre]
  omega

end Bans

section Canonical

variable {pdc : ScanDc} {fill : Int → Int → Int → List (Int × Int)} {span : Span} {k : Nat}

theorem spanIn_off {r : Rect} (h : span.y < r.top ∨ r.bottom ≤ span.y) : spanIn pdc fill span r = [] := by
  rw [spanIn]
  split
  . have hnone : dcClipHline (intersectRect pdc.rcOutput r).2 span.x span.y span.width = none := by
      rw [dcClipHline, intersectRect_snd, if_pos]
      simp
      omega
    rw [hnone]
  . rfl

theorem flatMap_off {l : List Rect} (h : ∀ r ∈ l, span.y < r.top ∨ r.bottom ≤ span.y)
    : l.flatMap (spanIn pdc fill span) = [] := by
  rw [flatMap_eq_nil_iff]
  exact fun r hr => spanIn_off (h r hr)

theorem flatMap_banAt (hb : Banded pdc.ecrgn.rects) (h : BanAbove pdc.ecrgn k span.y)
    (hy : span.y < (pdc.ecrgn.rects.getD k default).bottom)
    : (banAt pdc.ecrgn k).flatMap (spanIn pdc fill span) = pdc.ecrgn.rects.flatMap (spanIn pdc fill span) := by
  have hbefore : (pdc.ecrgn.rects.take k).flatMap (spanIn pdc fill span) = [] :=
    flatMap_off fun r hr => Or.inr (h.above r hr)
  have hbehind : (bandEnd (pdc.ecrgn.rects.drop k)).flatMap (spanIn pdc fill span) = [] := by
    refine flatMap_off fun r hr => Or.inl ?_
    have htop := top_of_bandEnd_drop hb h.start hr
    omega
  conv => rhs; rw [rects_split pdc.ecrgn k]
  rw [flatMap_append, flatMap_append, hbefore, hbehind, nil_append, append_nil]

theorem mem_spanIn {paints : Int × Int → Prop}
    (hfill : ∀ x y w, 0 < w → ∀ p, p ∈ fill x y w ↔ (p.2 = y ∧ x ≤ p.1 ∧ p.1 < x + w) ∧ paints p) {r : Rect}
    {p : Int × Int} : p ∈ spanIn pdc fill span r
      ↔ (p.2 = span.y ∧ span.x ≤ p.1 ∧ p.1 < span.x + span.width) ∧ (r.Mem p.1 p.2 ∧ pdc.rcOutput.Mem p.1 p.2)
        ∧ paints p := by
  rw [spanIn]
  simp only [intersectRect_fst, intersectRect_snd, doesIntersect_iff, Rect.Mem]
  by_cases hproper : max pdc.rcOutput.left r.left < min pdc.rcOutput.right r.right
      ∧ max pdc.rcOutput.top r.top < min pdc.rcOutput.bottom r.bottom
  . rw [if_pos hproper]
    by_cases hw : 0 < span.width
    . rw [dcClipHline_eq _ hproper.1 _ _ _ hw]
      split
      . next heq =>
        split at heq
        . next hon =>
          rw [Option.some.injEq, Prod.mk.injEq] at heq
          dsimp only at heq hon
          rw [← heq.1, ← heq.2, if_pos (by omega), hfill _ _ _ (by omega)]
          constructor
          . rintro ⟨hseg, hpaints⟩
            exact ⟨by omega, by omega, hpaints⟩
          . rintro ⟨hseg, hmem, hpaints⟩
            exact ⟨by omega, hpaints⟩
        . cases heq
      rename_i heq
      split at heq
      . cases heq
      rename_i hoff
      dsimp only at hoff
      refine iff_of_false not_mem_nil ?_
      rintro ⟨hseg, hmem, _⟩
      omega
    split
    . next x w heq =>
      have hle : ¬ w > 0 := by
        unfold dcClipHline at heq
        grind
      rw [if_neg hle]
      refine iff_of_false not_mem_nil ?_
      rintro ⟨hseg, _⟩
      omega
    . refine iff_of_false not_mem_nil ?_
      rintro ⟨hseg, _⟩
      omega
  . rw [if_neg hproper]
    refine iff_of_false not_mem_nil ?_
    rintro ⟨hseg, hmem, _⟩
    omega

end Canonical

end FillSpans

end MiniGui
