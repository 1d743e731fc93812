import MiniGui.Gdi.Bands

namespace MiniGui

open List

def BandStart (l : List Rect) : Option Nat → Prop
  | none => l = []
  | some p => ∃ pre a post, l = pre ++ a :: post ∧ pre.length = p ∧ Above pre (a :: post)

variable {new pdst : List Rect}

theorem BandStart.append {l : List Rect} {p : Nat} (h : BandStart l (some p)) (ha : Above l new)
    : BandStart (l ++ new) (some p) := by
  rcases h with ⟨pre, a, post, hl, hp, hab⟩
  refine ⟨pre, a, post ++ new, ?_, hp, ?_⟩
  . rw [hl]
    simp
  intro c hc d hd
  rw [← cons_append, mem_append] at hd
  rcases hd with hd | hd
  . apply hab c hc d hd
  apply ha
  . rw [hl]
    simp [hc]
  . exact hd

theorem above_of_top_ne {l m : List Rect} (top : Int) (hb : Banded (l ++ m))
    (htop : ∀ r ∈ m, r.top = top) (hl : ∀ r, l.getLast? = some r → r.top ≠ top) : Above l m := by
  rw [banded_append] at hb
  rcases eq_nil_or_concat l with hnil | ⟨l, c, hconcat⟩
  . rw [hnil]
    intro a ha
    simp at ha
  rw [concat_eq_append] at hconcat
  rw [hconcat] at hb hl ⊢
  have hc : c.top ≠ top := by
    apply hl
    simp
  have hcm : ∀ b ∈ m, c.bottom ≤ b.top := by
    intro b hbm
    rcases hb.2.2 c (by simp) b hbm with hf | hf
    . have := htop b hbm
      omega
    . exact hf
  intro a ha b hbm
  have hcb := hcm b hbm
  rw [mem_append, mem_singleton] at ha
  rcases ha with ha | ha
  . have hac := (banded_append.mp hb.1).2.2 a ha c (by simp)
    have hpos := hb.1.1 c (by simp)
    rcases hac with hf | hf
    . omega
    . omega
  . rw [ha]
    exact hcb

theorem lastBandStart_spec {l : List Rect} (hb : Banded l) (hl : l ≠ [])
    : BandStart l (some (lastBandStart l)) := by
  have hlast := getLast?_eq_some_getLast hl
  generalize l.getLast hl = tail at hlast
  let q : Rect → Bool := fun r => r.top = tail.top
  have hsplit : l = l.rdropWhile q ++ l.rtakeWhile q := by
    simp
  have hne : l.rtakeWhile q ≠ [] := by
    rw [Ne, rtakeWhile_eq_nil_iff]
    intro h
    have := h hl
    rw [getLast?_eq_some_getLast hl, Option.some.injEq] at hlast
    simp [q, hlast] at this
  have hab : Above (l.rdropWhile q) (l.rtakeWhile q) := by
    apply above_of_top_ne tail.top
    . rw [← hsplit]
      exact hb
    . intro r hr
      have := mem_rtakeWhile_imp hr
      simpa [q] using this
    intro r hr
    have hd : l.rdropWhile q ≠ [] := by
      intro h
      simp [h] at hr
    have := rdropWhile_last_not q l hd
    rw [getLast?_eq_some_getLast hd, Option.some.injEq] at hr
    simpa [q, hr] using this
  cases htake : l.rtakeWhile q with
  | nil => exact absurd htake hne
  | cons a post =>
    refine ⟨l.rdropWhile q, a, post, ?_, ?_, ?_⟩
    . rw [← htake]
      exact hsplit
    . have hlen := congrArg List.length hsplit
      simp only [length_append] at hlen
      have hval : lastBandStart l = l.length - (l.rtakeWhile q).length := by
        simp [lastBandStart, hlast, rtakeWhile, q]
      omega
    . rw [← htake]
      exact hab

theorem lastBandStart_append {l : List Rect} (hb : Banded (l ++ new)) (ha : Above l new)
    (hnew : new ≠ []) : lastBandStart (l ++ new) = l.length + lastBandStart new := by
  have hlast := getLast?_eq_some_getLast hnew
  generalize hg : new.getLast hnew = tail at hlast
  have htail : tail ∈ new := by
    rw [← hg]
    simp
  have hlast' : (l ++ new).getLast? = some tail := by
    simp [getLast?_append, hlast]
  have hstop : l.reverse.takeWhile (fun r => decide (r.top = tail.top)) = [] := by
    cases hr : l.reverse with
    | nil => simp
    | cons c m =>
      have hc : c ∈ l := by
        rw [← mem_reverse, hr]
        simp
      have hpos := hb.1 c (by simp [hc])
      have := ha c hc tail htail
      have : c.top ≠ tail.top := by omega
      simp [this]
  have htw : (l ++ new).reverse.takeWhile (fun r => decide (r.top = tail.top))
      = new.reverse.takeWhile (fun r => decide (r.top = tail.top)) := by
    rw [reverse_append, takeWhile_append]
    split
    . next hall =>
      rw [hstop, append_nil]
      symm
      apply (takeWhile_sublist _).eq_of_length hall
    . rfl
  simp only [lastBandStart, hlast, hlast', htw, length_append]
  have := (takeWhile_sublist (fun r : Rect => decide (r.top = tail.top)) (l := new.reverse)).length_le
  rw [length_reverse] at this
  omega

structure Coalesced (l : List Rect) (res : List Rect × Option Nat) : Prop where
  banded : Banded res.1
  start : BandStart res.1 res.2
  covers : ∀ x y, Covers res.1 x y ↔ Covers l x y
  bottom_le : ∀ b, (∀ r ∈ l, r.bottom ≤ b) → ∀ r ∈ res.1, r.bottom ≤ b

theorem Coalesced.refl {l : List Rect} {p : Option Nat} (hb : Banded l) (hs : BandStart l p)
    : Coalesced l (l, p) where
  banded := hb
  start := hs
  covers _ _ := Iff.rfl
  bottom_le _ h := h

theorem regionCoalesce_eq (pre mid new : List Rect) (c : Rect) (hmid : mid ≠ []) (hnew : new ≠ [])
    (htop : ∀ r ∈ new, r.top ≠ c.top)
    : regionCoalesce (pre ++ mid ++ c :: new) (some pre.length) (some (pre ++ mid).length)
        =
      match mid with
      | [b] =>
        if b.bottom = c.top ∧ b.left = c.left ∧ b.right = c.right then
          (pre ++ { b with bottom := c.bottom } :: new,
            lastBandStart (pre ++ mid ++ c :: new) - 1)
        else
          (pre ++ mid ++ c :: new, lastBandStart (pre ++ mid ++ c :: new))
      | _ => (pre ++ mid ++ c :: new, lastBandStart (pre ++ mid ++ c :: new)) := by
  have hpos := length_pos_iff.mpr hmid
  have hnpos := length_pos_iff.mpr hnew
  have htake : new.takeWhile (fun r => decide (r.top = c.top)) = [] := by
    cases new with
    | nil => rfl
    | cons d new =>
      have := htop d (by simp)
      simp [this]
  have hdrop : (pre ++ mid ++ c :: new).drop (pre.length + mid.length) = c :: new := by
    rw [← length_append]
    simp
  have hdrop' : (pre ++ mid ++ c :: new).drop pre.length = mid ++ c :: new := by
    rw [append_assoc]
    simp
  have hdrop1 : (pre ++ mid ++ c :: new).drop (pre.length + mid.length + 1) = new := by
    rw [← drop_drop, hdrop]
    rfl
  have htake' : (pre ++ mid ++ c :: new).take pre.length = pre := by
    rw [append_assoc]
    simp
  have hne : pre.length ≠ pre.length + mid.length := by omega
  have hcur : (c :: new).takeWhile (fun r => decide (r.top = c.top)) = [c] := by
    simp [htake]
  have hmore : pre.length + mid.length + 1 < (pre ++ mid ++ c :: new).length := by
    simp only [length_append, length_cons]
    omega
  unfold regionCoalesce
  rw [length_append]
  simp only [Option.getD_some, hne, ↓reduceIte, hdrop, headD_cons, hcur, length_singleton,
    hmore, hdrop', hdrop1, htake', Nat.add_sub_cancel_left, take_left, take_succ_cons,
    take_zero]
  cases mid with
  | nil => exact absurd rfl hmid
  | cons b mid =>
    cases mid with
    | nil => simp
    | cons b' mid => simp

theorem coalesceAdded_ne (h : new ≠ []) (prev : Option Nat)
    : coalesceAdded (tailPos pdst) (pdst ++ new) prev
        =
      ((regionCoalesce (pdst ++ new) prev (tailPos pdst)).1,
        some (regionCoalesce (pdst ++ new) prev (tailPos pdst)).2) := by
  have hpos := length_pos_iff.mpr h
  have hne : tailPos (pdst ++ new) ≠ tailPos pdst := by
    simp only [tailPos, append_eq_nil_iff, h, and_false, ↓reduceIte, length_append]
    split
    . simp
    rename_i hp
    have := length_pos_iff.mpr hp
    simp only [ne_eq, Option.some.injEq]
    omega
  simp [coalesceAdded, hne]

theorem mem_merged {b c : Rect} (h : b.bottom = c.top) (hl : b.left = c.left)
    (hr : b.right = c.right) (hb : b.top < b.bottom) (hc : c.top < c.bottom) (x y : Int)
    : Rect.Mem { b with bottom := c.bottom } x y ↔ b.Mem x y ∨ c.Mem x y := by
  simp only [Rect.Mem]
  omega

theorem coalesced_merged {pre : List Rect} {b c : Rect} (hb : Banded (pre ++ [b, c] ++ new))
    (ha : Above (pre ++ [b, c]) new) (hpre : Above pre [b, c]) (hnew : new ≠ [])
    (hbc : b.bottom = c.top) (hl : b.left = c.left) (hr : b.right = c.right)
    : Coalesced (pre ++ [b, c] ++ new)
        (pre ++ { b with bottom := c.bottom } :: new,
          some (lastBandStart (pre ++ [b, c] ++ new) - 1)) := by
  have hb1 := hb.1 b (by simp)
  have hb2 := hb.1 c (by simp)
  have habove : Above (pre ++ [{ b with bottom := c.bottom }]) new := by
    intro d hd e he
    rw [mem_append, mem_singleton] at hd
    rcases hd with hd | hd
    . apply ha
      . simp [hd]
      . exact he
    rw [hd]
    apply ha c
    . simp
    . exact he
  have hbanded : Banded (pre ++ [{ b with bottom := c.bottom }] ++ new) := by
    rw [banded_append] at hb ⊢
    refine ⟨?_, hb.2.1, habove.follows⟩
    rw [banded_append] at hb ⊢
    refine ⟨hb.1.1, ?_, ?_⟩
    . rw [banded_cons]
      simp only [not_mem_nil, false_implies, implies_true, banded_nil, and_true]
      omega
    intro d hd e he
    rw [mem_singleton] at he
    rw [he]
    apply Or.inr
    apply hpre d hd b
    simp
  have hstart := lastBandStart_spec hbanded (by simp)
  rw [lastBandStart_append hbanded habove hnew] at hstart
  have hpos : lastBandStart (pre ++ [b, c] ++ new) - 1
      = (pre ++ [{ b with bottom := c.bottom }]).length + lastBandStart new := by
    rw [lastBandStart_append hb ha hnew]
    simp only [length_append, length_cons, List.length_nil]
    omega
  rw [hpos, append_cons pre { b with bottom := c.bottom } new]
  refine ⟨hbanded, hstart, ?_, ?_⟩
  . intro x y
    have := mem_merged hbc hl hr hb1.2 hb2.2 x y
    simp only [covers_append, covers_cons, covers_nil, this]
    tauto
  intro bound h r hrm
  simp only [mem_append, mem_cons, not_mem_nil, or_false] at h hrm
  rcases hrm with (hrm | hrm) | hrm
  . apply h
    simp [hrm]
  . rw [hrm]
    apply h c
    simp
  . apply h
    simp [hrm]

theorem coalesceAdded_spec {prev : Option Nat} (hb : Banded (pdst ++ new))
    (ha : Above pdst new) (hs : BandStart pdst prev)
    : Coalesced (pdst ++ new) (coalesceAdded (tailPos pdst) (pdst ++ new) prev) := by
  cases hnew : new with
  | nil =>
    rw [hnew] at hb
    simp only [coalesceAdded, append_nil, ne_eq, not_true_eq_false, ↓reduceIte] at hb ⊢
    exact Coalesced.refl hb hs
  | cons d new' =>
    have hne : new ≠ [] := by simp [hnew]
    rw [← hnew, coalesceAdded_ne hne]
    cases prev with
    | none =>
      -- The first rectangles: they start at the head of the list.
      rw [BandStart] at hs
      subst hs
      simp only [regionCoalesce, tailPos, ↓reduceIte, Option.getD_none]
      apply Coalesced.refl hb
      refine ⟨[], d, new', ?_, rfl, ?_⟩
      . simp [hnew]
      . intro e he
        simp at he
    | some p =>
      have hs' := hs
      rcases hs with ⟨pre, a, post, hl, hp, hab⟩
      rcases eq_nil_or_concat (a :: post) with hnil | ⟨mid, c, hmid⟩
      . simp at hnil
      rw [concat_eq_append] at hmid
      rw [hmid] at hl hab
      have htail : tailPos pdst = some (pre ++ mid).length := by
        rw [hl, ← append_assoc]
        simp [tailPos]
      have hctop : ∀ r ∈ new, r.top ≠ c.top := by
        intro r hr
        have h1 := ha c (by simp [hl]) r hr
        have h2 := hb.1 c (by simp [hl])
        omega
      by_cases hmidnil : mid = []
      . -- The old tail is the start of the previous band.
        have : regionCoalesce (pdst ++ new) (some p) (tailPos pdst) = (pdst ++ new, p) := by
          rw [htail, hmidnil]
          simp [regionCoalesce, hp]
        rw [this]
        exact Coalesced.refl hb (hs'.append ha)
      have hreg : pdst ++ new = pre ++ mid ++ c :: new := by
        rw [hl]
        simp
      have hlast := lastBandStart_spec hb (by simp [hne])
      have hrefl := Coalesced.refl hb hlast
      rw [htail, hreg, ← hp, regionCoalesce_eq pre mid new c hmidnil hne hctop]
      rw [hreg] at hrefl
      cases mid with
      | nil => exact absurd rfl hmidnil
      | cons b mid =>
        cases mid with
        | nil =>
          dsimp only
          split
          . next h =>
            have heq : pre ++ [b] ++ c :: new = pre ++ [b, c] ++ new := by simp
            have heq' : pdst = pre ++ [b, c] := by simp [hl]
            rw [hreg, heq] at hb
            rw [heq'] at ha
            rw [heq]
            apply coalesced_merged hb ha hab hne h.1 h.2.1 h.2.2
          . exact hrefl
        | cons b' mid => exact hrefl

section Sweep

variable (op : Prop → Prop → Prop)

def OverlapSpec (f : OverlapFunc) : Prop :=
  ∀ region r1 r2 top bottom,
    Span.Gapped (spans r1) → Span.Gapped (spans r2) → (∀ t ∈ region, t.top ≠ top) →
      ∃ s, f region r1 r2 top bottom = region ++ rows top bottom s ∧ Span.Gapped s ∧
        ∀ x, Span.Covers s x ↔ op (Span.Covers (spans r1) x) (Span.Covers (spans r2) x)

def NonOverlapSpec (keep : Prop → Prop) (f : Option NonOverlapFunc) : Prop :=
  ∀ region r top bottom,
    Span.Gapped (spans r) →
      ∃ s, callNonOverlap f region r top bottom = region ++ rows top bottom s ∧ Span.Gapped s ∧
        ∀ x, Span.Covers s x ↔ keep (Span.Covers (spans r) x)

structure Built (S1 S2 : Int → Int → Prop) (pdst : List Rect) (prevBand : Option Nat) (ybot : Int) :
    Prop where
  banded : Banded pdst
  start : BandStart pdst prevBand
  bottom_le : ∀ r ∈ pdst, r.bottom ≤ ybot
  covers : ∀ x y, y < ybot → (Covers pdst x y ↔ op (S1 x y) (S2 x y))

variable {op} {S1 S2 : Int → Int → Prop}

variable {prevBand : Option Nat} {y1 : Int} {f : Option NonOverlapFunc} {keep : Prop → Prop} {r : List Rect}
  {s : RegionOpState}

theorem Built.coalesce {y0 : Int}
    (h : Built op S1 S2 pdst prevBand y0) (hy : y0 ≤ y1) (hb : Banded new)
    (htop : ∀ r ∈ new, y0 ≤ r.top) (hbot : ∀ r ∈ new, r.bottom ≤ y1)
    (hc : ∀ x y, y0 ≤ y → y < y1 → (Covers new x y ↔ op (S1 x y) (S2 x y)))
    : Built op S1 S2 (coalesceAdded (tailPos pdst) (pdst ++ new) prevBand).1
        (coalesceAdded (tailPos pdst) (pdst ++ new) prevBand).2 y1 := by
  have ha : Above pdst new := by
    intro a ha b hb
    have := h.bottom_le a ha
    have := htop b hb
    omega
  have hb : Banded (pdst ++ new) := by
    rw [banded_append]
    exact ⟨h.banded, hb, ha.follows⟩
  have hres := coalesceAdded_spec hb ha h.start
  refine ⟨hres.banded, hres.start, ?_, ?_⟩
  . apply hres.bottom_le
    intro r hr
    rw [mem_append] at hr
    rcases hr with hr | hr
    . have := h.bottom_le r hr
      omega
    . exact hbot r hr
  intro x y hlt
  rw [hres.covers, covers_append]
  by_cases hy0 : y < y0
  . have := not_covers_of_le_top htop hy0 (x := x)
    rw [h.covers x y hy0]
    simp [this]
  . have := not_covers_of_bottom_le h.bottom_le (not_lt.mp hy0) (x := x)
    rw [hc x y (not_lt.mp hy0) hlt]
    simp [this]

theorem Built.skip {y0 : Int} (h : Built op S1 S2 pdst prevBand y0) (hy : y0 ≤ y1)
    (hc : ∀ x y, y0 ≤ y → y < y1 → ¬op (S1 x y) (S2 x y))
    : Built op S1 S2 (coalesceAdded (tailPos pdst) pdst prevBand).1
        (coalesceAdded (tailPos pdst) pdst prevBand).2 y1 := by
  have hnil : Banded [] := by simp
  have := h.coalesce hy hnil (by simp) (by simp)
  rw [append_nil] at this
  apply this
  intro x y h1 h2
  simp [hc x y h1 h2]

theorem Built.coalesce_rows {y0 top bottom : Int}
    {s : List (Span Int)} (h : Built op S1 S2 pdst prevBand y0) (htop : y0 ≤ top)
    (hbot : top < bottom) (hs : Span.Gapped s)
    (hbefore : ∀ x y, y0 ≤ y → y < top → ¬op (S1 x y) (S2 x y))
    (hc : ∀ x y, top ≤ y → y < bottom → (Span.Covers s x ↔ op (S1 x y) (S2 x y)))
    : Built op S1 S2 (coalesceAdded (tailPos pdst) (pdst ++ rows top bottom s) prevBand).1
        (coalesceAdded (tailPos pdst) (pdst ++ rows top bottom s) prevBand).2 bottom := by
  apply h.coalesce
  . omega
  . exact banded_rows hs hbot
  . intro r hr
    rw [(mem_rows hr).1]
    exact htop
  . intro r hr
    rw [(mem_rows hr).2]
  intro x y h1 h2
  rw [covers_rows]
  by_cases hy : y < top
  . have := hbefore x y h1 hy
    simp [this, hy]
  . rw [hc x y (not_lt.mp hy) h2]
    simp [h2, not_lt.mp hy]

structure Remaining (S : Int → Int → Prop) (r : List Rect) (ybot : Int) : Prop where
  banded : Banded r
  bottom_gt : ∀ c ∈ r, ybot < c.bottom
  covers : ∀ x y, ybot ≤ y → (Covers r x y ↔ S x y)

section Remaining

variable {S : Int → Int → Prop} {l : List Rect} {a : Rect} {ybot : Int}

theorem Remaining.nil (h : Remaining S [] ybot) {x y : Int} (hy : ybot ≤ y) : S x y = False := by
  have := h.covers x y hy
  simp only [covers_nil, false_iff] at this
  simp [this]

variable (h : Remaining S (a :: l) ybot)
include h

theorem Remaining.above_head {x y : Int} (hy : ybot ≤ y) (htop : y < a.top) : S x y = False := by
  have := h.banded.not_covers_above (x := x) htop
  rw [h.covers x y hy] at this
  simp [this]

theorem Remaining.in_band {x y : Int} (hy : ybot ≤ y) (htop : a.top ≤ y) (hbot : y < a.bottom)
    : Span.Covers (spans (curBand (a :: l))) x ↔ S x y := by
  rw [← h.covers x y hy]
  symm
  apply h.banded.covers_curBand htop hbot

theorem Remaining.advance (hy : ybot ≤ y1) (hle : y1 ≤ a.bottom)
    : Remaining S (if a.bottom = y1 then bandEnd (a :: l) else a :: l) y1 := by
  split
  . next heq =>
    refine ⟨banded_bandEnd h.banded, ?_, ?_⟩
    . intro c hc
      have htop := h.banded.top_of_bandEnd hc
      have hpos := (banded_bandEnd h.banded).1 c hc
      omega
    intro x y hy1
    rw [h.banded.covers_bandEnd (by omega)]
    apply h.covers
    omega
  rename_i hne
  refine ⟨h.banded, ?_, ?_⟩
  . intro c hc
    have := h.banded.head_bottom_le hc
    omega
  . intro x y hy1
    apply h.covers
    omega

end Remaining

structure RegionOpInv (op : Prop → Prop → Prop) (S1 S2 : Int → Int → Prop) (s : RegionOpState) :
    Prop where
  built : Built op S1 S2 s.pdst s.prevBand s.ybot
  rest1 : Remaining S1 s.r1 s.ybot
  rest2 : Remaining S2 s.r2 s.ybot
  fresh : (∀ r ∈ s.r1, s.ybot ≤ r.top) ∨ (∀ r ∈ s.r2, s.ybot ≤ r.top)

variable {overlapFunc : OverlapFunc} {nonOverlap1Func nonOverlap2Func : Option NonOverlapFunc}

theorem Built.nonOverlap {ybot top bot : Int} (h : Built op S1 S2 pdst prevBand ybot)
    (hf : NonOverlapSpec keep f) (hr : Span.Gapped (spans r)) (hy : ybot ≤ top) (hle : top ≤ bot)
    (hbefore : ∀ x y, ybot ≤ y → y < top → ¬op (S1 x y) (S2 x y))
    (hkeep : ∀ x y, top ≤ y → y < bot → (keep (Span.Covers (spans r) x) ↔ op (S1 x y) (S2 x y)))
    : Built op S1 S2
        (coalesceAdded (tailPos pdst)
          (if top ≠ bot then callNonOverlap f pdst r top bot else pdst) prevBand).1
        (coalesceAdded (tailPos pdst)
          (if top ≠ bot then callNonOverlap f pdst r top bot else pdst) prevBand).2
        bot := by
  split
  . next hne =>
    rcases hf pdst r top bot hr with ⟨s, hs, hgap, hcov⟩
    rw [hs]
    apply h.coalesce_rows hy
    . omega
    . exact hgap
    . exact hbefore
    . intro x y h1 h2
      rw [hcov]
      exact hkeep x y h1 h2
  . next heq =>
    simp only [ne_eq, not_not] at heq
    rw [← heq]
    exact h.skip hy hbefore

theorem Built.nonIntersecting {a b : Rect} {l1 l2 : List Rect}
    (h : RegionOpInv op S1 S2 s) (h1 : s.r1 = a :: l1) (h2 : s.r2 = b :: l2)
    (hop : ¬op False False) (hf1 : NonOverlapSpec (fun p => op p False) nonOverlap1Func)
    (hf2 : NonOverlapSpec (fun p => op False p) nonOverlap2Func) : Built op S1 S2
        (coalesceAdded (tailPos s.pdst)
          (MiniGui.nonIntersecting nonOverlap1Func nonOverlap2Func s a b).1 s.prevBand).1
        (coalesceAdded (tailPos s.pdst)
          (MiniGui.nonIntersecting nonOverlap1Func nonOverlap2Func s a b).1 s.prevBand).2
        (min (max a.top b.top) (min a.bottom b.bottom)) := by
  have hr1 := h.rest1
  have hr2 := h.rest2
  rw [h1] at hr1
  rw [h2] at hr2
  have ha := hr1.banded.1 a (by simp)
  have hb := hr2.banded.1 b (by simp)
  have hay := hr1.bottom_gt a (by simp)
  have hby := hr2.bottom_gt b (by simp)
  have hfresh : s.ybot ≤ a.top ∨ s.ybot ≤ b.top := by
    rcases h.fresh with hf | hf
    . apply Or.inl
      apply hf
      simp [h1]
    . apply Or.inr
      apply hf
      simp [h2]
  unfold MiniGui.nonIntersecting
  split
  . next hlt =>
    have heq : min (max a.top b.top) (min a.bottom b.bottom) = min a.bottom b.top := by omega
    rw [heq, h1]
    apply h.built.nonOverlap hf1 hr1.banded.gapped_curBand
    . omega
    . omega
    . intro x y hy hy'
      rw [hr1.above_head hy (by omega), hr2.above_head hy (by omega)]
      exact hop
    . intro x y hy hy'
      rw [hr1.in_band (x := x) (y := y) (by omega) (by omega) (by omega)]
      rw [hr2.above_head (x := x) (y := y) (by omega) (by omega)]
  rename_i hlt
  split
  . next hgt =>
    have heq : min (max a.top b.top) (min a.bottom b.bottom) = min b.bottom a.top := by omega
    rw [heq, h2]
    apply h.built.nonOverlap hf2 hr2.banded.gapped_curBand
    . omega
    . omega
    . intro x y hy hy'
      rw [hr1.above_head hy (by omega), hr2.above_head hy (by omega)]
      exact hop
    . intro x y hy hy'
      rw [hr2.in_band (x := x) (y := y) (by omega) (by omega) (by omega)]
      rw [hr1.above_head (x := x) (y := y) (by omega) (by omega)]
  rename_i hgt
  have heq : min (max a.top b.top) (min a.bottom b.bottom) = a.top := by omega
  rw [heq]
  apply h.built.skip
  . omega
  . intro x y hy hy'
    rw [hr1.above_head hy (by omega), hr2.above_head hy (by omega)]
    exact hop

variable (nonOverlap1Func nonOverlap2Func) in
theorem nonIntersecting_ytop (s : RegionOpState) (a b : Rect)
    : (nonIntersecting nonOverlap1Func nonOverlap2Func s a b).2 = max a.top b.top := by
  unfold nonIntersecting
  split
  . simp only
    omega
  split
  . simp only
    omega
  . simp only
    omega

theorem regionOpStep_inv {a b : Rect} {l1 l2 : List Rect}
    (h : RegionOpInv op S1 S2 s) (h1 : s.r1 = a :: l1) (h2 : s.r2 = b :: l2)
    (hop : ¬op False False) (hf : OverlapSpec op overlapFunc)
    (hf1 : NonOverlapSpec (fun p => op p False) nonOverlap1Func)
    (hf2 : NonOverlapSpec (fun p => op False p) nonOverlap2Func)
    : RegionOpInv op S1 S2 (regionOpStep overlapFunc nonOverlap1Func nonOverlap2Func s a b) := by
  have hr1 := h.rest1
  have hr2 := h.rest2
  rw [h1] at hr1
  rw [h2] at hr2
  have hay := hr1.bottom_gt a (by simp)
  have hby := hr2.bottom_gt b (by simp)
  have hmid := Built.nonIntersecting h h1 h2 hop hf1 hf2
  rw [← h1] at hr1
  rw [← h2] at hr2
  have hytop := nonIntersecting_ytop nonOverlap1Func nonOverlap2Func s a b
  unfold regionOpStep
  generalize nonIntersecting nonOverlap1Func nonOverlap2Func s a b = band at hmid hytop ⊢
  rcases band with ⟨pdst, ytop⟩
  dsimp only at hmid hytop ⊢
  rw [hytop]
  generalize coalesceAdded (tailPos s.pdst) pdst s.prevBand = res at hmid ⊢
  rcases res with ⟨pdst', prev'⟩
  refine ⟨?_, ?_, ?_, ?_⟩
  . -- The rows that both regions have.
    dsimp only
    split
    . next hlt =>
      have heq : min (max a.top b.top) (min a.bottom b.bottom) = max a.top b.top := by omega
      rw [heq] at hmid
      have htop : ∀ t ∈ pdst', t.top ≠ max a.top b.top := by
        intro t ht
        have := hmid.banded.1 t ht
        have := hmid.bottom_le t ht
        omega
      rcases hf pdst' _ _ (max a.top b.top) (min a.bottom b.bottom) hr1.banded.gapped_curBand
        hr2.banded.gapped_curBand htop with ⟨new, hnew, hgap, hcov⟩
      rw [hnew]
      apply hmid.coalesce_rows
      . omega
      . exact hlt
      . exact hgap
      . intro x y hy hy'
        omega
      intro x y hy hy'
      have hfresh : s.ybot ≤ max a.top b.top := by
        rcases h.fresh with hfr | hfr
        . have := hfr a (by simp [h1])
          omega
        . have := hfr b (by simp [h2])
          omega
      rw [hcov]
      rw [h1, h2] at *
      rw [hr1.in_band (x := x) (y := y) (by omega) (by omega) (by omega)]
      rw [hr2.in_band (x := x) (y := y) (by omega) (by omega) (by omega)]
    rename_i hle
    have heq : min (max a.top b.top) (min a.bottom b.bottom) = min a.bottom b.bottom := by omega
    rw [heq] at hmid
    apply hmid.skip
    . omega
    . intro x y hy hy'
      omega
  . rw [h1] at hr1 ⊢
    apply hr1.advance
    . omega
    . omega
  . rw [h2] at hr2 ⊢
    apply hr2.advance
    . omega
    . omega
  dsimp only
  by_cases hle : a.bottom ≤ b.bottom
  . apply Or.inl
    have heq : a.bottom = min a.bottom b.bottom := by omega
    rw [if_pos heq, h1]
    rw [h1] at hr1
    intro r hr
    have := hr1.banded.top_of_bandEnd hr
    omega
  apply Or.inr
  have heq : b.bottom = min a.bottom b.bottom := by omega
  rw [if_pos heq, h2]
  rw [h2] at hr2
  intro r hr
  have := hr2.banded.top_of_bandEnd hr
  omega

theorem regionOpLoop_inv (h : RegionOpInv op S1 S2 s) (hop : ¬op False False)
    (hf : OverlapSpec op overlapFunc) (hf1 : NonOverlapSpec (fun p => op p False) nonOverlap1Func)
    (hf2 : NonOverlapSpec (fun p => op False p) nonOverlap2Func)
    : RegionOpInv op S1 S2 (regionOpLoop overlapFunc nonOverlap1Func nonOverlap2Func s)
        ∧
      ((regionOpLoop overlapFunc nonOverlap1Func nonOverlap2Func s).r1 = []
        ∨ (regionOpLoop overlapFunc nonOverlap1Func nonOverlap2Func s).r2 = []) := by
  fun_induction regionOpLoop overlapFunc nonOverlap1Func nonOverlap2Func s with
  | case1 s a l1 b l2 h1 h2 ih =>
    apply ih
    exact regionOpStep_inv h h1 h2 hop hf hf1 hf2
  | case2 s hne =>
    refine ⟨h, ?_⟩
    cases h1 : s.r1 with
    | nil => simp
    | cons a l1 =>
      cases h2 : s.r2 with
      | nil => simp
      | cons b l2 => exact absurd h2 (hne a l1 b l2 h1)

theorem regionOpRest_spec
    (hf : NonOverlapSpec keep f) (hkeep : ¬keep False) (ybot : Int) (pdst r : List Rect)
    (hb : Banded r) (hbot : ∀ c ∈ r, ybot < c.bottom) : ∃ new,
        regionOpRest (callNonOverlap f) ybot pdst r = pdst ++ new ∧ Banded new ∧
          (∀ t ∈ new, ybot ≤ t.top ∧ ∃ c ∈ r, c.top ≤ t.top) ∧
            ∀ x y, ybot ≤ y → (Covers new x y ↔ keep (Covers r x y)) := by
  fun_induction regionOpRest (callNonOverlap f) ybot pdst r with
  | case1 pdst =>
    refine ⟨[], ?_, ?_, ?_, ?_⟩
    . simp
    . simp
    . simp
    . simp [hkeep]
  | case2 pdst a l ih =>
    have ha := hb.1 a (by simp)
    have hay := hbot a (by simp)
    rcases hf pdst (curBand (a :: l)) (max a.top ybot) a.bottom hb.gapped_curBand
      with ⟨s, hs, hgap, hcov⟩
    rw [hs] at ih ⊢
    rcases ih (banded_bandEnd hb) (fun c hc => by
      have := hb.top_of_bandEnd hc
      have := (banded_bandEnd hb).1 c hc
      omega) with ⟨new, hnew, hbnew, htop, hcnew⟩
    have htop' : ∀ t ∈ new, a.bottom ≤ t.top := by
      intro t ht
      rcases (htop t ht).2 with ⟨c, hc, hct⟩
      have := hb.top_of_bandEnd hc
      omega
    refine ⟨rows (max a.top ybot) a.bottom s ++ new, ?_, ?_, ?_, ?_⟩
    . rw [hnew, append_assoc]
    . rw [banded_append]
      refine ⟨?_, hbnew, ?_⟩
      . apply banded_rows hgap
        omega
      intro c hc d hd
      apply Or.inr
      rw [(mem_rows hc).2]
      exact htop' d hd
    . intro t ht
      rw [mem_append] at ht
      rcases ht with ht | ht
      . rw [(mem_rows ht).1]
        refine ⟨by omega, a, by simp, by omega⟩
      . refine ⟨(htop t ht).1, a, by simp, ?_⟩
        have := htop' t ht
        omega
    intro x y hy
    rw [covers_append, covers_rows, hcov]
    by_cases hya : y < a.bottom
    . have hn := not_covers_of_le_top htop' hya (x := x)
      by_cases hyt : y < a.top
      . have := hb.not_covers_above hyt (x := x)
        simp only [hn, this, hkeep, or_false, iff_false]
        omega
      . rw [← hb.covers_curBand (not_lt.mp hyt) hya]
        have : max a.top ybot ≤ y := by omega
        simp [hn, hya, this]
    . rw [hcnew x y hy, hb.covers_bandEnd (not_lt.mp hya)]
      simp [hya]

theorem regionOpRest_none (ybot : Int) (pdst r : List Rect)
    : regionOpRest (callNonOverlap none) ybot pdst r = pdst := by
  fun_induction regionOpRest (callNonOverlap none) ybot pdst r with
  | case1 => rfl
  | case2 pdst a l ih => exact ih

theorem nonOverlapRest_eq (f : Option NonOverlapFunc) (ybot : Int) (pdst r : List Rect)
    : nonOverlapRest f ybot pdst r = regionOpRest (callNonOverlap f) ybot pdst r := by
  cases f with
  | none =>
    rw [regionOpRest_none]
    rfl
  | some f => rfl

theorem Built.rest {S : Int → Int → Prop}
    (h : Built op S1 S2 s.pdst s.prevBand s.ybot) (hr : Remaining S r s.ybot)
    (hf : NonOverlapSpec keep f) (hkeep : ¬keep False)
    (hop : ∀ x y, s.ybot ≤ y → (keep (S x y) ↔ op (S1 x y) (S2 x y)))
    : Banded (coalesceAdded (tailPos s.pdst) (regionOpRest (callNonOverlap f) s.ybot s.pdst r)
          s.prevBand).1
        ∧
      ∀ x y,
        Covers (coalesceAdded (tailPos s.pdst) (regionOpRest (callNonOverlap f) s.ybot s.pdst r)
            s.prevBand).1 x y
          ↔
        op (S1 x y) (S2 x y) := by
  rcases regionOpRest_spec hf hkeep s.ybot s.pdst r hr.banded hr.bottom_gt
    with ⟨new, hnew, hbnew, htop, hcov⟩
  rw [hnew]
  have ha : Above s.pdst new := by
    intro c hc d hd
    have := h.bottom_le c hc
    have := (htop d hd).1
    omega
  have hb : Banded (s.pdst ++ new) := by
    rw [banded_append]
    exact ⟨h.banded, hbnew, ha.follows⟩
  have hres := coalesceAdded_spec hb ha h.start
  refine ⟨hres.banded, ?_⟩
  intro x y
  rw [hres.covers, covers_append]
  by_cases hy : y < s.ybot
  . have := not_covers_of_le_top (fun t ht => (htop t ht).1) hy (x := x)
    rw [h.covers x y hy]
    simp [this]
  . have := not_covers_of_bottom_le h.bottom_le (not_lt.mp hy) (x := x)
    rw [hcov x y (not_lt.mp hy), hr.covers x y (not_lt.mp hy), hop x y (not_lt.mp hy)]
    simp [this]

theorem regionOpRects_spec {r1 r2 : List Rect} {ybot : Int} (hb1 : Banded r1) (hb2 : Banded r2)
    (h1 : ∀ r ∈ r1, ybot ≤ r.top) (h2 : ∀ r ∈ r2, ybot ≤ r.top) (hop : ¬op False False)
    (hf : OverlapSpec op overlapFunc) (hf1 : NonOverlapSpec (fun p => op p False) nonOverlap1Func)
    (hf2 : NonOverlapSpec (fun p => op False p) nonOverlap2Func)
    : Banded (regionOpRects overlapFunc nonOverlap1Func nonOverlap2Func r1 r2 ybot)
        ∧
      ∀ x y,
        Covers (regionOpRects overlapFunc nonOverlap1Func nonOverlap2Func r1 r2 ybot) x y
          ↔
        op (Covers r1 x y) (Covers r2 x y) := by
  have hrest (r : List Rect) (hb : Banded r) (h : ∀ c ∈ r, ybot ≤ c.top)
      : Remaining (Covers r) r ybot := by
    refine ⟨hb, ?_, fun _ _ _ => Iff.rfl⟩
    intro c hc
    have := h c hc
    have := hb.1 c hc
    omega
  have hinit : RegionOpInv op (Covers r1) (Covers r2)
      { r1, r2, pdst := [], prevBand := none, ybot } := by
    refine ⟨⟨by simp, rfl, by simp, ?_⟩, hrest r1 hb1 h1, hrest r2 hb2 h2, Or.inl h1⟩
    intro x y hy
    have hn1 := not_covers_of_le_top h1 hy (x := x)
    have hn2 := not_covers_of_le_top h2 hy (x := x)
    simp [hn1, hn2, hop]
  rcases regionOpLoop_inv hinit hop hf hf1 hf2 with ⟨hinv, hend⟩
  unfold regionOpRects
  simp only [nonOverlapRest_eq]
  generalize regionOpLoop overlapFunc nonOverlap1Func nonOverlap2Func _ = s at hinv hend ⊢
  have hr1 := hinv.rest1
  have hr2 := hinv.rest2
  split
  . next hne =>
    apply hinv.built.rest hr1 hf1 hop
    intro x y hy
    rcases hend with hnil | hnil
    . exact absurd hnil hne
    . rw [hnil] at hr2
      rw [hr2.nil hy]
  rename_i hnil
  simp only [ne_eq, not_not] at hnil
  apply hinv.built.rest hr2 hf2 hop
  intro x y hy
  rw [hnil] at hr1
  rw [hr1.nil hy]

end Sweep

end MiniGui
