import MiniGui.Gdi.ScanExact

namespace MiniGui

def RegionQuery.ptInRegion (region : ClipRgn) (x y : Int) : Option Bool :=
  match region.rects.getLast?, region.rects.head? with
  | some tail, some head =>
    if y ≥ tail.bottom || y < head.top then
      some false
    else
      -- The ban in which the point lies.
      let ban := curBand (region.rects.dropWhile fun cliprect => y ≥ cliprect.bottom)
      some (ban.any fun cliprect => inRect cliprect x y)
  | _, _ => none

def rectInRegionLoop (rect : Rect) : List Rect → Bool
  | [] => false
  | cliprect :: next =>
    if cliprect.bottom ≤ rect.top then
      rectInRegionLoop rect next
    else if cliprect.top ≥ rect.bottom then
      false
    else if cliprect.right ≤ rect.left then
      rectInRegionLoop rect next
    else if cliprect.left ≥ rect.right then
      rectInRegionLoop rect next
    else
      true

def rectInRegion (region : ClipRgn) (rect : Rect) : Bool :=
  if region.rects ≠ [] ∧ extentCheck region.rcBound rect = true then
    rectInRegionLoop rect region.rects
  else
    false

variable {region : ClipRgn}

theorem ptInRegion_eq (h : region.WellFormed) (hne : region.rects ≠ []) (x y : Int)
    : ∃ b, RegionQuery.ptInRegion region x y = some b ∧ (b = true ↔ Covers region.rects x y) := by
  have hb := h.banded
  obtain ⟨tail, hlast⟩ := exists_getLast hne
  obtain ⟨head, hhead⟩ := exists_head hne
  simp only [RegionQuery.ptInRegion, hlast, hhead]
  by_cases hout : y ≥ tail.bottom ∨ y < head.top
  . rw [if_pos (by simpa using hout)]
    refine ⟨false, rfl, ?_⟩
    have hnot : ¬Covers region.rects x y := by
      rcases hout with hbelow | habove
      . exact not_covers_of_bottom_le (fun r hr => hb.bottom_le_getLast hlast hr) hbelow
      . exact not_covers_of_le_top (fun r hr => head_top_le hb hhead hr) habove
    simp [hnot]
  . rw [if_neg (by simpa using hout)]
    refine ⟨_, rfl, ?_⟩
    rw [covers_band hb, any_inRect_iff]

theorem rectInRegionLoop_iff (rect : Rect) {l : List Rect} (hb : Banded l)
    : rectInRegionLoop rect l = true ↔ ∃ r ∈ l, extentCheck r rect = true := by
  induction l with
  | nil => simp [rectInRegionLoop]
  | cons cliprect next ih =>
    have hnext := ih (banded_cons.mp hb).2.2
    have hmiss : extentCheck cliprect rect ≠ true
        → rectInRegionLoop rect next = rectInRegionLoop rect (cliprect :: next)
        → (rectInRegionLoop rect (cliprect :: next) = true ↔ ∃ r ∈ cliprect :: next, extentCheck r rect = true) := by
      intro hnot heq
      rw [← heq, hnext]
      simp [hnot]
    rw [rectInRegionLoop] at hmiss ⊢
    split
    . next hup =>
      rw [if_pos hup] at hmiss
      exact hmiss (by simp [extentCheck]; omega) rfl
    rename_i hup
    rw [if_neg hup] at hmiss
    split
    . next hdown =>
      -- All that follows is below `rect`, too.
      constructor
      . intro hfalse
        cases hfalse
      rintro ⟨r, hr, hover⟩
      have htop := hb.head_top_le hr
      simp [extentCheck] at hover
      omega
    rename_i hdown
    rw [if_neg hdown] at hmiss
    split
    . next hleft =>
      rw [if_pos hleft] at hmiss
      exact hmiss (by simp [extentCheck]; omega) rfl
    rename_i hleft
    rw [if_neg hleft] at hmiss
    split
    . next hright =>
      rw [if_pos hright] at hmiss
      exact hmiss (by simp [extentCheck]; omega) rfl
    rename_i hright
    refine iff_of_true rfl ⟨cliprect, List.mem_cons_self, ?_⟩
    simp [extentCheck]
    omega

theorem rectInRegion_iff (h : region.WellFormed) (rect : Rect)
    : rectInRegion region rect = true ↔ ∃ r ∈ region.rects, extentCheck r rect = true := by
  rw [rectInRegion]
  split
  . exact rectInRegionLoop_iff rect h.banded
  rename_i hnot
  refine iff_of_false Bool.false_ne_true ?_
  rintro ⟨r, hr, hover⟩
  apply hnot
  refine ⟨List.ne_nil_of_mem hr, ?_⟩
  have hbound := h.bound.contains r hr
  simp [extentCheck] at hover ⊢
  omega

theorem extentCheck_iff {r rect : Rect} (hr : r.left < r.right ∧ r.top < r.bottom)
    (hrect : rect.left < rect.right ∧ rect.top < rect.bottom)
    : extentCheck r rect = true ↔ doesIntersect r rect = true := by
  rw [doesIntersect_iff]
  simp [extentCheck]
  omega

theorem not_doesIntersect {r rect : Rect} (hrect : ¬(rect.left < rect.right ∧ rect.top < rect.bottom))
    : ¬doesIntersect r rect = true := by
  rw [doesIntersect_iff]
  omega

def QueriesAgree (region : ClipRgn) (x y : Int) (rect : Rect) : Prop :=
  (∃ b, RegionQuery.ptInRegion region x y = some b ∧ (b = true ↔ ∃ r ∈ region.rects, r.Mem x y))
    ∧ (rectInRegion region rect = true ↔ ∃ r ∈ region.rects, doesIntersect r rect = true)

/--
The queries agree with the pixels of a region that has some, if the rectangle has some or is not inside one of the
region.
-/
theorem queriesAgree_iff (h : region.WellFormed) (x y : Int) (rect : Rect)
    : QueriesAgree region x y rect
      ↔ region.rects ≠ []
        ∧ ((rect.left < rect.right ∧ rect.top < rect.bottom) ∨ ∀ r ∈ region.rects, extentCheck r rect = false) := by
  rw [QueriesAgree, rectInRegion_iff h]
  constructor
  . rintro ⟨⟨b, hpt, _⟩, hrect⟩
    have hne : region.rects ≠ [] := by
      intro hnil
      simp [RegionQuery.ptInRegion, hnil] at hpt
    refine ⟨hne, ?_⟩
    by_cases hproper : rect.left < rect.right ∧ rect.top < rect.bottom
    . exact .inl hproper
    refine .inr ?_
    intro r hr
    rw [Bool.eq_false_iff]
    intro hover
    rcases hrect.mp ⟨r, hr, hover⟩ with ⟨r', _, hmeets⟩
    exact not_doesIntersect hproper hmeets
  rintro ⟨hne, hrect⟩
  refine ⟨ptInRegion_eq h hne x y, ?_⟩
  rcases hrect with hproper | hnone
  . constructor
    . rintro ⟨r, hr, hover⟩
      exact ⟨r, hr, (extentCheck_iff (h.banded.1 r hr) hproper).mp hover⟩
    . rintro ⟨r, hr, hmeets⟩
      exact ⟨r, hr, (extentCheck_iff (h.banded.1 r hr) hproper).mpr hmeets⟩
  constructor
  . rintro ⟨r, hr, hover⟩
    rw [hnone r hr] at hover
    cases hover
  rintro ⟨r, hr, hmeets⟩
  have hproper : rect.left < rect.right ∧ rect.top < rect.bottom := by
    by_contra hnot
    exact not_doesIntersect hnot hmeets
  have hover := (extentCheck_iff (h.banded.1 r hr) hproper).mpr hmeets
  rw [hnone r hr] at hover
  cases hover

theorem wellFormed_singleton {r : Rect} (h : r.left < r.right ∧ r.top < r.bottom)
    : ({ type := .simpleRegion, rcBound := r, rects := [r] } : ClipRgn).WellFormed where
  banded := ⟨by simpa using h, List.pairwise_singleton _ _⟩
  bound := isBound_singleton r

theorem queriesAgree_iff_singleton
    : QueriesAgree { type := .simpleRegion, rcBound := ⟨0, 0, 4, 4⟩, rects := [⟨0, 0, 4, 4⟩] } 3 3 ⟨1, 1, 9, 9⟩
      ↔ [(⟨0, 0, 4, 4⟩ : Rect)] ≠ []
        ∧ (((1 : Int) < 9 ∧ (1 : Int) < 9) ∨ ∀ r ∈ [(⟨0, 0, 4, 4⟩ : Rect)], extentCheck r ⟨1, 1, 9, 9⟩ = false) :=
  queriesAgree_iff (wellFormed_singleton (by decide)) 3 3 ⟨1, 1, 9, 9⟩

theorem not_queriesAgree : ¬∀ region : ClipRgn, region.WellFormed → ∀ x y rect, QueriesAgree region x y rect := by
  intro h
  have hempty := h emptyClipRgn (ClipRgn.wellFormed_of_nil rfl) 0 0 ⟨0, 0, 1, 1⟩
  rcases hempty.1 with ⟨b, hpt, _⟩
  cases hpt

end MiniGui
