import MiniGui.Gdi.FillSpans

namespace MiniGui.FillSpans

open List Option

open ScanDc

variable {curBan : Option Nat}

section Loops

variable {pdc : ScanDc} {draw : Span → Nat → List (Int × Int) × Option Nat} {canon : Span → List (Int × Int)}

structure DrawOk (pdc : ScanDc) (draw : Span → Nat → List (Int × Int) × Option Nat)
    (canon : Span → List (Int × Int)) : Prop where
  ban : ∀ span k, BanAbove pdc.ecrgn k span.y → span.y < (pdc.ecrgn.rects.getD k default).bottom
    → (draw span k).1 = canon span ∧ ∃ k', (draw span k).2 = some k' ∧ BanAbove pdc.ecrgn k' span.y
  off : ∀ span, (∀ r ∈ pdc.ecrgn.rects, span.y < r.top ∨ r.bottom ≤ span.y) → canon span = []

variable {k : Nat} {region : ClipRgn} {y : Int} {head : Rect} {span : Span}

theorem BanAbove.later {y' : Int} (h : BanAbove region k y) (hle : y ≤ y') : BanAbove region k y' :=
  ⟨h.start, fun r hr => le_trans (h.above r hr) hle, fun r hr => le_trans (h.inside r hr) hle⟩

theorem banOk_some (h : BandStart region.rects (some k)) : BanOk region (some k) := by
  intro j hj
  rw [← Option.some.inj hj]
  exact h

theorem findBan_eq (hne : pdc.ecrgn.rects ≠ []) (curBan : Option Nat) (y : Int)
    : findBan pdc.ecrgn curBan y = some (dcWhichRegionBan pdc.ecrgn curBan y) :=
  if_neg hne

theorem off_of_none (hb : Banded pdc.ecrgn.rects) (hcur : BanOk pdc.ecrgn curBan)
    (hban : dcWhichRegionBan pdc.ecrgn curBan y = none)
    : ∀ r ∈ pdc.ecrgn.rects, y < r.top ∨ r.bottom ≤ y := by
  intro r hr
  have hne := ne_nil_of_mem hr
  obtain ⟨head, hhead⟩ := exists_head hne
  obtain ⟨tail, hlast⟩ := exists_getLast hne
  have htop := head_top_le hb hhead hr
  have hbottom := hb.bottom_le_getLast hlast hr
  by_cases hin : head.top ≤ y ∧ y < tail.bottom
  . rcases dcWhichRegionBan_isSome hcur hhead hlast hin.1 hin.2 with ⟨k, hk⟩
    rw [hban] at hk
    cases hk
  . omega

theorem head_getD (hhead : pdc.ecrgn.rects.head? = some head)
    : pdc.ecrgn.rects.getD 0 default = head := by
  rw [head?_eq_getElem?] at hhead
  rw [getD_eq_getElem?_getD, hhead, getD_some]

theorem above_of_none (hhead : pdc.ecrgn.rects.head? = some head) (hy : y < head.top)
    : dcWhichRegionBan pdc.ecrgn none y = none := by
  rw [dcWhichRegionBan, hhead]
  cases pdc.ecrgn.rects.getLast? with
  | none => rfl
  | some tail =>
    dsimp only
    rw [if_pos]
    simp [hy]

theorem fillUnsorted_eq (hb : Banded pdc.ecrgn.rects) (hne : pdc.ecrgn.rects ≠ []) (hdraw : DrawOk pdc draw canon)
    (spans : List Span) : fillUnsorted pdc draw spans = some (spans.flatMap canon) := by
  induction spans with
  | nil => rfl
  | cons span spans ih =>
    rw [fillUnsorted, findBan_eq hne, ih, flatMap_cons]
    cases hban : dcWhichRegionBan pdc.ecrgn none span.y with
    | none =>
      rw [hdraw.off span (off_of_none hb banOk_none hban)]
      rfl
    | some k =>
      obtain ⟨head, hhead⟩ := exists_head hne
      have htop : head.top ≤ span.y := by
        by_contra hlt
        rw [above_of_none hhead (not_le.mp hlt)] at hban
        cases hban
      have hstart : (pdc.ecrgn.rects.getD (Option.getD none 0) default).top ≤ span.y := by
        rw [getD_none, head_getD hhead]
        exact htop
      have hfound := dcWhichRegionBan_forward hb banOk_none hne hstart hban
      rw [← (hdraw.ban span k hfound.1 hfound.2).1]
      rfl

theorem fillSorted_cons (hdraw : DrawOk pdc draw canon)
    {first : Bool} {spans : List Span} (hsorted : ∀ s ∈ spans, span.y ≤ s.y)
    {found : Option Nat} (hfound : sortedBan pdc first curBan span.y = some found)
    (hnone : found = none → ∀ r ∈ pdc.ecrgn.rects, r.bottom ≤ span.y)
    (hsome : ∀ k, found = some k → BanAbove pdc.ecrgn k span.y ∧ span.y < (pdc.ecrgn.rects.getD k default).bottom)
    (hrest : ∀ k', BanAbove pdc.ecrgn k' span.y
      → fillSorted pdc draw false (some k') spans = some (spans.flatMap canon))
    : fillSorted pdc draw first curBan (span :: spans) = some ((span :: spans).flatMap canon) := by
  rw [fillSorted, hfound]
  cases found with
  | none =>
    have hbelow : (span :: spans).flatMap canon = [] := by
      rw [flatMap_eq_nil_iff]
      intro s hs
      refine hdraw.off s fun r hr => Or.inr ?_
      have hr' := hnone rfl r hr
      rcases mem_cons.mp hs with hs | hs
      . rw [hs]
        exact hr'
      . exact le_trans hr' (hsorted s hs)
    rw [hbelow]
    rfl
  | some k =>
    rcases hsome k rfl with ⟨habove, hy⟩
    rcases hdraw.ban span k habove hy with ⟨hpixels, k', hnext, habove'⟩
    show (do return (draw span k).1 ++ (← fillSorted pdc draw false (draw span k).2 spans)) = _
    rw [hnext, hrest k' habove', flatMap_cons, ← hpixels]
    rfl

theorem sortedBan_next (hb : Banded pdc.ecrgn.rects) (hne : pdc.ecrgn.rects ≠ [])
    (h : BanAbove pdc.ecrgn k y) : ∃ found, sortedBan pdc false (some k) y = some found
      ∧ (found = none → ∀ r ∈ pdc.ecrgn.rects, r.bottom ≤ y)
      ∧ ∀ k', found = some k' → BanAbove pdc.ecrgn k' y ∧ y < (pdc.ecrgn.rects.getD k' default).bottom := by
  have hlt := bandStart_lt h.start
  have hmem : pdc.ecrgn.rects.getD k default ∈ pdc.ecrgn.rects := by
    rw [getD_eq_getElem _ _ hlt]
    exact getElem_mem hlt
  have hpos := hb.1 _ hmem
  rw [sortedBan, if_neg Bool.false_ne_true]
  by_cases hy : y ≥ (pdc.ecrgn.rects.getD k default).bottom
  . rw [if_pos hy, findBan_eq hne]
    refine ⟨_, rfl, ?_, ?_⟩
    . intro hnone r hr
      have hoff := off_of_none hb (banOk_some h.start) hnone
      obtain ⟨tail, hlast⟩ := exists_getLast hne
      have htail : tail ∈ pdc.ecrgn.rects := mem_of_getLast? hlast
      have hlast' := hb.bottom_le_getLast hlast hmem
      have hbottom := hb.bottom_le_getLast hlast hr
      rcases hoff tail htail with hup | hdown
      . -- Then the row is between the top and the bottom of the region.
        obtain ⟨head, hhead⟩ := exists_head hne
        have htop := head_top_le hb hhead hmem
        have htail' := hb.1 tail htail
        rcases dcWhichRegionBan_isSome (y := y) (banOk_some h.start) hhead hlast (by omega) (by omega) with ⟨j, hj⟩
        rw [hnone] at hj
        cases hj
      . omega
    . intro k' hk'
      exact dcWhichRegionBan_forward hb (banOk_some h.start) hne (by rw [getD_some]; omega) hk'
  rw [if_neg hy]
  refine ⟨some k, rfl, ?_, ?_⟩
  . intro hnone
    cases hnone
  . intro k' hk'
    rw [← Option.some.inj hk']
    exact ⟨h, not_le.mp hy⟩

theorem fillSorted_eq (hb : Banded pdc.ecrgn.rects) (hne : pdc.ecrgn.rects ≠ []) (hdraw : DrawOk pdc draw canon) (h : BanAbove pdc.ecrgn k y) {spans : List Span} (hsorted : spans.Pairwise fun s t => s.y ≤ t.y)
    (hy : ∀ s ∈ spans, y ≤ s.y)
    : fillSorted pdc draw false (some k) spans = some (spans.flatMap canon) := by
  induction spans generalizing k y with
  | nil => rfl
  | cons span spans ih =>
    rw [pairwise_cons] at hsorted
    rcases sortedBan_next hb hne (h.later (hy span mem_cons_self)) with ⟨found, hfound, hnone, hsome⟩
    exact fillSorted_cons hdraw hsorted.1 hfound hnone hsome fun k' habove => ih habove hsorted.2 hsorted.1

theorem fillSorted_first (hb : Banded pdc.ecrgn.rects) (hne : pdc.ecrgn.rects ≠ []) (hdraw : DrawOk pdc draw canon)
    {spans : List Span} (hsorted : spans.Pairwise fun s t => s.y ≤ t.y)
    (hfirst : ∀ s r, spans.head? = some s → pdc.ecrgn.rects.head? = some r → r.top ≤ s.y)
    : fillSorted pdc draw true none spans = some (spans.flatMap canon) := by
  cases spans with
  | nil => rfl
  | cons span spans =>
    rw [pairwise_cons] at hsorted
    have hfound : sortedBan pdc true none span.y = some (dcWhichRegionBan pdc.ecrgn none span.y) := by
      rw [sortedBan, if_pos rfl, findBan_eq hne]
    obtain ⟨head, hhead⟩ := exists_head hne
    have htop := hfirst span head rfl hhead
    have hstart : (pdc.ecrgn.rects.getD (Option.getD none 0) default).top ≤ span.y := by
      rw [getD_none, head_getD hhead]
      exact htop
    refine fillSorted_cons hdraw hsorted.1 hfound ?_ ?_ ?_
    . intro hnone r hr
      rcases off_of_none hb banOk_none hnone head (mem_of_head? hhead) with hup | hdown
      . omega
      obtain ⟨tail, hlast⟩ := exists_getLast hne
      by_contra hlt
      have hbottom := hb.bottom_le_getLast hlast hr
      rcases dcWhichRegionBan_isSome (y := span.y) banOk_none hhead hlast htop (by omega) with ⟨j, hj⟩
      rw [hnone] at hj
      cases hj
    . intro k hk
      exact dcWhichRegionBan_forward hb banOk_none hne hstart hk
    . intro k' habove
      exact fillSorted_eq hb hne hdraw habove hsorted.2 hsorted.1

theorem fillSorted_above {spans : List Span} (hhead : pdc.ecrgn.rects.head? = some head)
    (hy : span.y < head.top) : fillSorted pdc draw true none (span :: spans) = some [] := by
  have hne : pdc.ecrgn.rects ≠ [] := by
    intro hnil
    rw [hnil] at hhead
    cases hhead
  rw [fillSorted, sortedBan, if_pos rfl, findBan_eq hne, above_of_none hhead hy]
  rfl

end Loops

section Agreement

variable {pdc : ScanDc}

def InSpan (span : Span) (p : Int × Int) : Prop :=
  p.2 = span.y ∧ span.x ≤ p.1 ∧ p.1 < span.x + span.width

def pixelsOf (pdc : ScanDc) (fill : Int → Int → Int → List (Int × Int)) (span : Span) : List (Int × Int) :=
  pdc.ecrgn.rects.flatMap (spanIn pdc fill span)

def pixelsOrPixel (pdc : ScanDc) (span : Span) : List (Int × Int) :=
  if span.width = 1 then (pdc.setPixelClip none span.x span.y).1 else pixelsOf pdc row span

theorem mem_pixelsOf {fill : Int → Int → Int → List (Int × Int)} {paints : Int × Int → Prop}
    (hfill : ∀ x y w, 0 < w → ∀ p, p ∈ fill x y w ↔ (p.2 = y ∧ x ≤ p.1 ∧ p.1 < x + w) ∧ paints p) {span : Span}
    {p : Int × Int} : p ∈ pixelsOf pdc fill span ↔ InSpan span p ∧ pdc.Visible p ∧ paints p := by
  rw [pixelsOf, mem_flatMap]
  constructor
  . rintro ⟨r, hr, hp⟩
    rw [mem_spanIn hfill] at hp
    exact ⟨hp.1, ⟨⟨r, hr, hp.2.1.1⟩, hp.2.1.2⟩, hp.2.2⟩
  . rintro ⟨hspan, ⟨⟨r, hr, hmem⟩, hout⟩, hpaints⟩
    exact ⟨r, hr, (mem_spanIn hfill).mpr ⟨hspan, ⟨hmem, hout⟩, hpaints⟩⟩

theorem drawOk_brush (hb : Banded pdc.ecrgn.rects) (fill : Int → Int → Int → List (Int × Int))
    : DrawOk pdc (drawSpanBrush pdc fill) (pixelsOf pdc fill) where
  ban _ k habove hy := ⟨flatMap_banAt hb habove hy, k, rfl, habove⟩
  off _ hoff := flatMap_off hoff

theorem setPixelClip_ban (hb : Banded pdc.ecrgn.rects) (hne : pdc.ecrgn.rects ≠ [])
    (hcur : BanOk pdc.ecrgn curBan) (x y : Int)
    : (pdc.setPixelClip curBan x y).1 = (pdc.setPixelClip none x y).1 := by
  rcases setPixelClip_exact (x := x) (y := y) hb hne hcur with ⟨hnodup, hmem⟩
  rcases setPixelClip_exact (x := x) (y := y) hb hne banOk_none with ⟨hnodup', hmem'⟩
  have hperm := (perm_ext_iff_of_nodup hnodup hnodup').mpr fun p => (hmem p).trans (hmem' p).symm
  cases hlist : (pdc.setPixelClip none x y).1 with
  | nil =>
    rw [hlist] at hperm
    exact hperm.eq_nil
  | cons p ps =>
    have hnil : ps = [] := by
      rw [hlist, nodup_cons] at hnodup'
      cases ps with
      | nil => rfl
      | cons q qs =>
        have hp := ((hmem' p).mp (by rw [hlist]; exact mem_cons_self)).1
        have hq := ((hmem' q).mp (by rw [hlist]; exact mem_cons_of_mem p mem_cons_self)).1
        exact absurd (by rw [hp, hq]; exact mem_cons_self) hnodup'.1
    rw [hlist, hnil] at hperm
    rw [hnil]
    exact hperm.eq_singleton

theorem setPixelClip_next (pdc : ScanDc) (curBan : Option Nat) (x y : Int)
    : (pdc.setPixelClip curBan x y).2 = dcWhichRegionBan pdc.ecrgn curBan y := by
  rw [ScanDc.setPixelClip]
  split
  . rfl
  . split <;> rfl

theorem drawOk_pixel (hb : Banded pdc.ecrgn.rects) (hne : pdc.ecrgn.rects ≠ [])
    : DrawOk pdc (drawSpan pdc row) (pixelsOrPixel pdc) where
  ban span k habove hy := by
    rw [drawSpan, pixelsOrPixel]
    split
    . refine ⟨setPixelClip_ban hb hne (banOk_some habove.start) span.x span.y, ?_⟩
      rw [setPixelClip_next]
      have hlt := bandStart_lt habove.start
      have hmem : pdc.ecrgn.rects.getD k default ∈ pdc.ecrgn.rects := by
        rw [getD_eq_getElem _ _ hlt]
        exact getElem_mem hlt
      obtain ⟨head, hhead⟩ := exists_head hne
      obtain ⟨tail, hlast⟩ := exists_getLast hne
      have hbottom := hb.bottom_le_getLast hlast hmem
      have hsome := dcWhichRegionBan_isSome (y := span.y) (banOk_some habove.start) hhead hlast
        (habove.inside head hhead) (by omega)
      rcases hsome with ⟨k', hk'⟩
      exact ⟨k', hk', dcWhichRegionBan_above hb habove hk'⟩
    . exact ⟨flatMap_banAt hb habove hy, k, rfl, habove⟩
  off span hoff := by
    rw [pixelsOrPixel]
    split
    . rw [eq_nil_iff_forall_not_mem]
      intro p hp
      rcases ((setPixelClip_exact hb hne banOk_none).2 p).mp hp with ⟨heq, ⟨r, hr, hmem⟩, _⟩
      have hout := hoff r hr
      rw [heq, Rect.Mem] at hmem
      omega
    . exact flatMap_off hoff

def SpansAgree (pdc : ScanDc) (fillSpans : List Span → Bool → Option (List (Int × Int))) (paints : Int × Int → Prop)
    (spans : List Span) : Prop :=
  ∃ written, fillSpans spans true = some written ∧ fillSpans spans false = some written
    ∧ ∀ p, p ∈ written ↔ ∃ span ∈ spans, InSpan span p ∧ pdc.Visible p ∧ paints p

def SpansFit (pdc : ScanDc) (spans : List Span) : Prop :=
  spans = [] ∨ pdc.ecrgn.rects ≠ []
    ∧ ((∀ s r, spans.head? = some s → pdc.ecrgn.rects.head? = some r → r.top ≤ s.y)
      ∨ ∀ s ∈ spans, ∀ p, InSpan s p → ¬pdc.Visible p)

variable {draw : Span → Nat → List (Int × Int) × Option Nat} {canon : Span → List (Int × Int)}
variable {paints : Int × Int → Prop} {spans : List Span}

theorem spansAgree_of_fit (hb : Banded pdc.ecrgn.rects) (hsorted : spans.Pairwise fun s t => s.y ≤ t.y)
    (hdraw : pdc.ecrgn.rects ≠ [] → DrawOk pdc draw canon)
    (hcanon : pdc.ecrgn.rects ≠ [] → ∀ span p, p ∈ canon span ↔ InSpan span p ∧ pdc.Visible p ∧ paints p)
    (h : SpansFit pdc spans) : SpansAgree pdc (fillWith pdc draw) paints spans := by
  rcases h with hnil | ⟨hne, hfit⟩
  . rw [hnil]
    exact ⟨[], rfl, rfl, by simp⟩
  have hmem : ∀ p, p ∈ spans.flatMap canon ↔ ∃ span ∈ spans, InSpan span p ∧ pdc.Visible p ∧ paints p := by
    intro p
    rw [mem_flatMap]
    exact exists_congr fun span => and_congr_right fun _ => hcanon hne span p
  refine ⟨spans.flatMap canon, ?_, fillUnsorted_eq hb hne (hdraw hne) spans, hmem⟩
  by_cases hfirst : ∀ s r, spans.head? = some s → pdc.ecrgn.rects.head? = some r → r.top ≤ s.y
  . exact fillSorted_first hb hne (hdraw hne) hsorted hfirst
  have hnil : spans.flatMap canon = [] := by
    rw [eq_nil_iff_forall_not_mem]
    intro p hp
    rcases (hmem p).mp hp with ⟨s, hs, hin, hvis, _⟩
    exact (hfit.resolve_left hfirst) s hs p hin hvis
  push Not at hfirst
  rcases hfirst with ⟨s, r, hs, hr, hlt⟩
  rw [hnil]
  cases spans with
  | nil => cases hs
  | cons span spans =>
    rw [head?_cons, Option.some.injEq] at hs
    rw [← hs] at hlt
    exact fillSorted_above hr hlt

theorem fit_of_spansAgree (hagree : SpansAgree pdc (fillWith pdc draw) (fun _ => True) spans) : SpansFit pdc spans := by
  rcases hagree with ⟨written, hsorted, _, hmem⟩
  cases spans with
  | nil => exact .inl rfl
  | cons span spans =>
    refine .inr ?_
    have hne : pdc.ecrgn.rects ≠ [] := by
      intro hnil
      have hcrash : fillSorted pdc draw true none (span :: spans) = none := by
        rw [fillSorted, sortedBan, if_pos rfl, findBan, if_pos hnil]
        rfl
      rw [fillWith, if_pos rfl, hcrash] at hsorted
      cases hsorted
    refine ⟨hne, ?_⟩
    by_cases hfirst : ∀ s r, (span :: spans).head? = some s → pdc.ecrgn.rects.head? = some r → r.top ≤ s.y
    . exact .inl hfirst
    push Not at hfirst
    rcases hfirst with ⟨s, r, hs, hr, hlt⟩
    rw [head?_cons, Option.some.injEq] at hs
    rw [← hs] at hlt
    have hnil : written = [] := by
      rw [fillWith, if_pos rfl, fillSorted_above hr hlt] at hsorted
      exact (Option.some.inj hsorted).symm
    refine .inr ?_
    intro t ht p hin hvis
    have hp := (hmem p).mpr ⟨t, ht, hin, hvis, trivial⟩
    rw [hnil] at hp
    cases hp

theorem mem_pixelsOrPixel (hb : Banded pdc.ecrgn.rects) (hne : pdc.ecrgn.rects ≠ []) (span : Span) (p : Int × Int)
    : p ∈ pixelsOrPixel pdc span ↔ InSpan span p ∧ pdc.Visible p ∧ True := by
  rw [pixelsOrPixel]
  split
  . next hwidth =>
    rw [(setPixelClip_exact hb hne banOk_none).2 p, InSpan, hwidth, Prod.ext_iff]
    constructor
    . rintro ⟨⟨hx, hy⟩, hvis⟩
      exact ⟨⟨hy, by omega, by omega⟩, hvis, trivial⟩
    . rintro ⟨⟨hy, hle, hlt⟩, hvis, _⟩
      exact ⟨⟨by omega, hy⟩, hvis⟩
  . have hrow : ∀ x y w, 0 < w → ∀ p, p ∈ row x y w ↔ (p.2 = y ∧ x ≤ p.1 ∧ p.1 < x + w) ∧ True := by
      intro x y w _ p
      rw [mem_row, and_true]
    exact @mem_pixelsOf pdc row (fun _ => True) hrow span p

/--
Sorted spans are filled like unsorted ones, with and without a brush, if and only if they fit.
-/
theorem spansAgree_iff (h : pdc.ecrgn.WellFormed) (brush : Brush)
    (hsorted : spans.Pairwise fun s t => s.y ≤ t.y)
    : (SpansAgree pdc (dcFillSpans pdc) (fun _ => True) spans
        ∧ SpansAgree pdc (dcFillSpansBrush pdc brush) (Paints brush) spans)
      ↔ SpansFit pdc spans := by
  constructor
  . rintro ⟨hagree, _⟩
    exact fit_of_spansAgree hagree
  intro hfit
  have hb := h.banded
  exact ⟨spansAgree_of_fit hb hsorted (drawOk_pixel hb) (mem_pixelsOrPixel hb) hfit,
    spansAgree_of_fit hb hsorted (fun _ => drawOk_brush hb _)
      (fun _ _ _ => mem_pixelsOf fun _ _ _ _ _ => mem_fillSpanBrushHelper brush) hfit⟩

def oneRect : ScanDc where
  ecrgn := { type := .simpleRegion, rcBound := ⟨0, 0, 4, 4⟩, rects := [⟨0, 0, 4, 4⟩] }
  rcOutput := ⟨0, 0, 4, 4⟩
  step := 1
  scrBottom := 10

theorem oneRect_wellFormed : oneRect.ecrgn.WellFormed where
  banded := ⟨by simp [oneRect], pairwise_singleton _ _⟩
  bound := isBound_singleton _

theorem spansAgree_iff_inside
    : (SpansAgree oneRect (dcFillSpans oneRect) (fun _ => True) [⟨1, 2, 5⟩]
        ∧ SpansAgree oneRect (dcFillSpansBrush oneRect ⟨.other, 0, 0⟩) (Paints ⟨.other, 0, 0⟩) [⟨1, 2, 5⟩])
      ↔ SpansFit oneRect [⟨1, 2, 5⟩] :=
  spansAgree_iff oneRect_wellFormed ⟨.other, 0, 0⟩ (pairwise_singleton _ _)

theorem not_spansAgree
    : ¬SpansAgree oneRect (dcFillSpans oneRect) (fun _ => True) [⟨0, -1, 2⟩, ⟨0, 0, 2⟩] := by
  rintro ⟨written, hsorted, hunsorted, _⟩
  have hnone : dcFillSpans oneRect [⟨0, -1, 2⟩, ⟨0, 0, 2⟩] true = some [] := by decide
  have hsome : dcFillSpans oneRect [⟨0, -1, 2⟩, ⟨0, 0, 2⟩] false = some [(0, 0), (1, 0)] := by decide
  rw [hnone] at hsorted
  rw [hsome, ← hsorted] at hunsorted
  cases hunsorted

end Agreement

end MiniGui.FillSpans
