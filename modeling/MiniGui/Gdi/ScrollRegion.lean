import MiniGui.Gdi.ClipCalls
import MiniGui.Gdi.ScanExact

/-!
`OffsetRegionEx`, which moves the part of an invalid region that lies in a scrolled rectangle. The function frees
rectangles of the list that it walks without taking them out of it, and calls `AddClipRect`, which builds the list anew.
-/

namespace MiniGui

open Function List

open ClipRgn

def Rect.isCovered (prc1 prc2 : Rect) : Bool :=
  if prc1.left < prc2.left || prc1.top < prc2.top || prc1.right > prc2.right || prc1.bottom > prc2.bottom then
    false
  else
    true

structure LinkedRect where
  rc : Rect
  freed : Bool

def rebuiltBy (region : ClipRgn) (rect : Rect) : Bool :=
  !isRectEmpty rect && !subsumes region (single rect)

/--
The loop of `OffsetRegionEx` with the rectangles behind `cliprect`, those before it and the bounding box. No result
stands for going on from a rectangle that has been freed by `AddClipRect`.
-/
def offsetLoop (type : RgnType) (rc : Rect) (x y : Int)
    : List LinkedRect → List Rect → Rect → Option (List LinkedRect × Rect)
  | before, [], rcBound => some (before, rcBound)
  | before, cliprect :: rest, rcBound =>
    if !doesIntersect cliprect rc then
      -- not in scroll window region
      offsetLoop type rc x y (before ++ [⟨cliprect, false⟩]) rest rcBound
    else
      let covered := Rect.isCovered cliprect rc
      let inside := if covered then cliprect else (intersectRect cliprect rc).2
      -- not covered, recalculate cliprect
      let rcArray := if covered then [] else subtractRect rc cliprect
      let region : ClipRgn := { type := type, rcBound := rcBound, rects := before.map (·.rc) ++ inside :: rest }
      if rcArray.any (rebuiltBy region) then
        none
      else
        let moved := offsetRect inside x y
        if !doesIntersect moved rc then
          -- remove current cliprect from list
          offsetLoop type rc x y (before ++ [⟨moved, true⟩]) rest rcBound
        else
          -- tune cliprect
          let tuned := if Rect.isCovered moved rc then moved else (intersectRect moved rc).2
          let region : ClipRgn := { type := type, rcBound := rcBound, rects := before.map (·.rc) ++ tuned :: rest }
          offsetLoop type rc x y (before ++ [⟨tuned, false⟩]) rest (regionSetExtents region).rcBound

/--
The list of `OffsetRegionEx` and the bounding box; a null pointer is no rectangle.
-/
def offsetRegionEx (region : ClipRgn) (rcClient rcScroll : Option Rect) (x y : Int)
    : Option (List LinkedRect × Rect) :=
  let unchanged := some (region.rects.map (fun r => ⟨r, false⟩), region.rcBound)
  match rcClient, rcScroll with
  | some rcClient, some rcScroll =>
    let common := intersectRect rcClient rcScroll
    if common.1 then offsetLoop region.type common.2 x y [] region.rects region.rcBound else unchanged
  | _, _ => unchanged

section Rects

variable {a b r rc : Rect}

theorem isCovered_iff
    : Rect.isCovered a b = true ↔ b.left ≤ a.left ∧ b.top ≤ a.top ∧ a.right ≤ b.right ∧ a.bottom ≤ b.bottom := by
  unfold Rect.isCovered
  simp only [Bool.or_eq_true, decide_eq_true_eq]
  split
  . next h =>
    simp only [Bool.false_eq_true, false_iff]
    omega
  . next h =>
    simp only [true_iff]
    omega

theorem mem_of_isCovered (h : Rect.isCovered a b = true) {u v : Int} (hm : a.Mem u v) : b.Mem u v := by
  rw [isCovered_iff] at h
  rw [Rect.Mem] at hm ⊢
  omega

theorem exists_outside (hr : r.Proper) (h : Rect.isCovered r rc = false) : ∃ u v, r.Mem u v ∧ ¬rc.Mem u v := by
  have hnot : ¬(rc.left ≤ r.left ∧ rc.top ≤ r.top ∧ r.right ≤ rc.right ∧ r.bottom ≤ rc.bottom) := by
    rw [← isCovered_iff, h]
    simp
  unfold Rect.Proper at hr
  by_cases hfirst : rc.Mem r.left r.top
  . refine ⟨r.right - 1, r.bottom - 1, ?_, ?_⟩
    . rw [Rect.Mem]
      omega
    . rw [Rect.Mem] at hfirst ⊢
      omega
  . refine ⟨r.left, r.top, ?_, hfirst⟩
    rw [Rect.Mem]
    omega

theorem intersectRect_of_isCovered (hr : r.Proper) (h : Rect.isCovered r rc = true) : (intersectRect r rc).2 = r := by
  rw [isCovered_iff] at h
  unfold Rect.Proper at hr
  unfold intersectRect
  split <;> (cases r; grind)

end Rects

def scrolledRect (rc : Rect) (x y : Int) (r : Rect) : Rect :=
  if doesIntersect r rc then (intersectRect (offsetRect (intersectRect r rc).2 x y) rc).2 else r

structure Scrolls (l : List Rect) (rc : Rect) (x y : Int) : Prop where
  inside : ∀ r ∈ l, doesIntersect r rc = true → Rect.isCovered r rc = true ∧ doesIntersect (offsetRect r x y) rc = true
  ordered : l.Pairwise fun a b =>
    doesIntersect a rc ≠ doesIntersect b rc → Follows (scrolledRect rc x y a) (scrolledRect rc x y b)

def ScrollExact (region : ClipRgn) (rc : Rect) (x y : Int) (result : Option (List LinkedRect × Rect)) : Prop :=
  ∃ cells rcBound, result = some (cells, rcBound)
    ∧ (∀ cell ∈ cells, cell.freed = false)
    ∧ let after : ClipRgn := { type := region.type, rcBound := rcBound, rects := cells.map (·.rc) }
      after.WellFormed
        ∧ after.pixels = (region.pixels \ rc.pixels) ∪ (shift x y (region.pixels ∩ rc.pixels) ∩ rc.pixels)

variable {result : List LinkedRect × Rect}

section Loop

variable {type : RgnType} {rc : Rect} {x y : Int}

def linkedRect (rc : Rect) (x y : Int) (r : Rect) : LinkedRect :=
  if !doesIntersect r rc then
    ⟨r, false⟩
  else
    let inside := if Rect.isCovered r rc then r else (intersectRect r rc).2
    let moved := offsetRect inside x y
    if !doesIntersect moved rc then
      ⟨moved, true⟩
    else
      ⟨if Rect.isCovered moved rc then moved else (intersectRect moved rc).2, false⟩

variable {rcBound : Rect} {rest : List Rect} {before : List LinkedRect}

theorem offsetLoop_cons {r : Rect}
    (h : offsetLoop type rc x y before (r :: rest) rcBound = some result)
    : offsetLoop type rc x y (before ++ [linkedRect rc x y r]) rest
        (if doesIntersect r rc = true ∧ (linkedRect rc x y r).freed = false then
          (regionSetExtents
            {
              type := type
              rcBound := rcBound
              rects := before.map (·.rc) ++ (linkedRect rc x y r).rc :: rest
            }).rcBound
        else
          rcBound) = some result := by
  rw [offsetLoop] at h
  dsimp only at h
  unfold linkedRect
  cases hmeet : doesIntersect r rc with
  | false =>
    rw [hmeet] at h
    simpa using h
  | true =>
    rw [hmeet] at h
    generalize (if Rect.isCovered r rc = true then r else (intersectRect r rc).2) = inside at h ⊢
    generalize (if Rect.isCovered r rc = true then [] else subtractRect rc r) = rcArray at h
    cases hany : rcArray.any (rebuiltBy
        { type := type, rcBound := rcBound, rects := before.map (·.rc) ++ inside :: rest }) with
    | true =>
      rw [hany] at h
      simp at h
    | false =>
      rw [hany] at h
      by_cases hmoved : doesIntersect (offsetRect inside x y) rc = true
      . simpa [hmoved] using h
      . simpa [hmoved] using h

theorem offsetLoop_cells (h : offsetLoop type rc x y before rest rcBound = some result)
    : result.1 = before ++ rest.map (linkedRect rc x y) := by
  induction rest generalizing before rcBound with
  | nil =>
    rw [offsetLoop] at h
    cases h
    simp
  | cons r rest ih =>
    rw [ih (offsetLoop_cons h), map_cons, append_assoc, singleton_append]

theorem linkedRect_out {r : Rect} (h : doesIntersect r rc = false) : linkedRect rc x y r = ⟨r, false⟩ := by
  unfold linkedRect
  simp [h]

theorem regionSetExtents_congr {rgn rgn' : ClipRgn} (h : rgn.rects = rgn'.rects)
    : (regionSetExtents rgn).rcBound = (regionSetExtents rgn').rcBound := by
  unfold regionSetExtents
  rw [h]
  split <;> rfl

theorem offsetLoop_bound (hkept : ∀ r ∈ rest, (linkedRect rc x y r).freed = false)
    (h : offsetLoop type rc x y before rest rcBound = some result)
    : (result.2 = rcBound ∧ ∀ r ∈ rest, doesIntersect r rc = false)
      ∨ result.2 = (regionSetExtents { type := type, rcBound := rcBound, rects := result.1.map (·.rc) }).rcBound := by
  induction rest generalizing before rcBound with
  | nil =>
    rw [offsetLoop] at h
    cases h
    left
    simp
  | cons r rest ih =>
    rw [forall_mem_cons] at hkept
    have hnext := offsetLoop_cons h
    have hcells := offsetLoop_cells hnext
    rcases ih hkept.2 hnext with ⟨hbound, hout⟩ | hbound
    . by_cases hmeet : doesIntersect r rc = true
      . right
        rw [hbound, if_pos ⟨hmeet, hkept.1⟩]
        apply regionSetExtents_congr
        rw [hcells, map_append, map_append, map_singleton, append_assoc, singleton_append,
          map_map]
        congr 2
        symm
        rw [map_congr_left (g := id), map_id]
        intro b hb
        rw [comp_apply, linkedRect_out (hout b hb), id]
      left
      rw [if_neg (fun hboth => hmeet hboth.1)] at hbound
      refine ⟨hbound, ?_⟩
      rw [forall_mem_cons]
      exact ⟨by simpa using hmeet, hout⟩
    . right
      rw [hbound]
      exact regionSetExtents_congr rfl

theorem offsetLoop_some {before : List LinkedRect} {rest : List Rect} {rcBound : Rect}
    (h : ∀ r ∈ rest, doesIntersect r rc = true → Rect.isCovered r rc = true)
    : ∃ result, offsetLoop type rc x y before rest rcBound = some result := by
  induction rest generalizing before rcBound with
  | nil => exact ⟨_, rfl⟩
  | cons r rest ih =>
    rw [forall_mem_cons] at h
    rw [offsetLoop]
    by_cases hmeet : doesIntersect r rc = true
    . rw [if_neg (by simp [hmeet])]
      dsimp only
      rw [if_pos (h.1 hmeet), if_pos (h.1 hmeet), any_nil, if_neg Bool.false_ne_true]
      split <;> exact ih h.2
    . rw [if_pos (by simpa using hmeet)]
      exact ih h.2

end Loop

section Scrolled

variable {rc : Rect} {x y : Int} {r : Rect}

theorem intersectRect_snd (a b : Rect) : (intersectRect a b).2
      = ⟨max a.left b.left, max a.top b.top, min a.right b.right, min a.bottom b.bottom⟩ := by
  simp only [intersectRect]
  grind

theorem linkedRect_in (hr : r.Proper) (hmeet : doesIntersect r rc = true) : linkedRect rc x y r
      = if doesIntersect (offsetRect (intersectRect r rc).2 x y) rc then
          ⟨scrolledRect rc x y r, false⟩
        else
          ⟨offsetRect (intersectRect r rc).2 x y, true⟩ := by
  have hinside : (if Rect.isCovered r rc = true then r else (intersectRect r rc).2) = (intersectRect r rc).2 := by
    split
    . next hcovered => rw [intersectRect_of_isCovered hr hcovered]
    . rfl
  unfold linkedRect scrolledRect
  rw [if_neg (by simp [hmeet]), hinside, if_pos hmeet]
  by_cases hmoved : doesIntersect (offsetRect (intersectRect r rc).2 x y) rc = true
  . rw [if_neg (by simp [hmoved]), if_pos hmoved]
    split
    . next hcovered => rw [intersectRect_of_isCovered (proper_of_doesIntersect hmoved).1 hcovered]
    . rfl
  . rw [if_pos (by simpa using hmoved), if_neg hmoved]

theorem linkedRect_rc (hr : r.Proper) (hkept : (linkedRect rc x y r).freed = false)
    : (linkedRect rc x y r).rc = scrolledRect rc x y r := by
  by_cases hmeet : doesIntersect r rc = true
  . rw [linkedRect_in hr hmeet] at hkept ⊢
    split at hkept
    . next hmoved => rw [if_pos hmoved]
    . cases hkept
  . rw [linkedRect_out (by simpa using hmeet), scrolledRect, if_neg hmeet]

theorem scrolledRect_mem (hmeet : doesIntersect r rc = true) (u v : Int)
    : (scrolledRect rc x y r).Mem u v ↔ (r.Mem (u - x) (v - y) ∧ rc.Mem (u - x) (v - y)) ∧ rc.Mem u v := by
  have hpixels := Set.ext_iff.mp (offsetRect_pixels (intersectRect r rc).2 x y) (u, v)
  have hmoved : (offsetRect (intersectRect r rc).2 x y).Mem u v ↔ (intersectRect r rc).2.Mem (u - x) (v - y) := hpixels
  rw [scrolledRect, if_pos hmeet, intersectRect_mem, hmoved, intersectRect_mem]

theorem follows_scrolled {a b : Rect} (h : Follows a b) (ha : doesIntersect a rc = true)
    (hb : doesIntersect b rc = true) : Follows (scrolledRect rc x y a) (scrolledRect rc x y b) := by
  rw [scrolledRect, scrolledRect, if_pos ha, if_pos hb]
  rw [doesIntersect_iff] at ha hb
  simp only [intersectRect_snd, offsetRect, Follows]
  rcases h with ⟨htop, hbottom, hgap⟩ | hbelow
  . left
    refine ⟨?_, ?_, ?_⟩
    . rw [htop]
    . rw [hbottom]
    have hright : min a.right rc.right = a.right := by omega
    have hleft : max b.left rc.left = b.left := by omega
    rw [hright, hleft]
    calc min (a.right + x) rc.right ≤ a.right + x := min_le_left _ _
      _ < b.left + x := by omega
      _ ≤ max (b.left + x) rc.left := le_max_left _ _
  . right
    calc min (min a.bottom rc.bottom + y) rc.bottom ≤ min a.bottom rc.bottom + y := min_le_left _ _
      _ ≤ max b.top rc.top + y := by omega
      _ ≤ max (max b.top rc.top + y) rc.top := le_max_left _ _

end Scrolled

section Exact

variable {region : ClipRgn} {rc : Rect} {x y : Int}

theorem covered_of_scrollExact (h : region.WellFormed)
    (hcells : result.1 = region.rects.map (linkedRect rc x y))
    (hexact : ScrollExact region rc x y (some result)) {r : Rect} (hr : r ∈ region.rects)
    (hmeet : doesIntersect r rc = true) : Rect.isCovered r rc = true := by
  by_contra hcovered
  rw [Bool.not_eq_true] at hcovered
  rcases exists_outside (h.banded.1 r hr) hcovered with ⟨u, v, hin, hout⟩
  rcases hexact with ⟨cells, rcBound, heq, hkept, _, hpixels⟩
  cases heq
  dsimp only at hcells
  have hlost : (u, v) ∈ (region.pixels \ rc.pixels) ∪ (shift x y (region.pixels ∩ rc.pixels) ∩ rc.pixels) := by
    left
    exact ⟨⟨r, hr, hin⟩, hout⟩
  rw [← hpixels, mem_pixels] at hlost
  rcases hlost with ⟨s, hs, hmem⟩
  rw [hcells, map_map, mem_map] at hs
  rcases hs with ⟨b, hb, rfl⟩
  rw [comp_apply] at hmem
  have hfreed : (linkedRect rc x y b).freed = false := by
    apply hkept
    rw [hcells]
    exact mem_map_of_mem hb
  rw [linkedRect_rc (h.banded.1 b hb) hfreed] at hmem
  by_cases hmeetb : doesIntersect b rc = true
  . rw [scrolledRect_mem hmeetb] at hmem
    exact hout hmem.2
  . rw [scrolledRect, if_neg hmeetb] at hmem
    rw [h.banded.eq_of_mem hb hr hmem hin] at hmeetb
    exact hmeetb hmeet

theorem scrolls_of_scrollExact (h : region.WellFormed)
    (hexact : ScrollExact region rc x y (offsetLoop region.type rc x y [] region.rects region.rcBound))
    : Scrolls region.rects rc x y := by
  have hresult := hexact
  rcases hresult with ⟨cells, rcBound, heq, hkept, hwf, _⟩
  have hcells : cells = region.rects.map (linkedRect rc x y) := offsetLoop_cells heq
  rw [heq] at hexact
  have hfreed : ∀ r ∈ region.rects, (linkedRect rc x y r).freed = false := by
    intro r hr
    apply hkept
    rw [hcells]
    exact mem_map_of_mem hr
  have hbanded := hwf.banded
  rw [hcells, map_map] at hbanded
  constructor
  . intro r hr hmeet
    have hcovered := covered_of_scrollExact h hcells hexact hr hmeet
    have hproper := h.banded.1 r hr
    have hfalse := hfreed r hr
    rw [linkedRect_in hproper hmeet, intersectRect_of_isCovered hproper hcovered] at hfalse
    split at hfalse
    . next hmoved => exact ⟨hcovered, hmoved⟩
    . cases hfalse
  have hpairs := pairwise_map.mp hbanded.2
  apply hpairs.imp_of_mem
  intro a b ha hb hab _
  rwa [comp_apply, comp_apply, linkedRect_rc (h.banded.1 a ha) (hfreed a ha),
    linkedRect_rc (h.banded.1 b hb) (hfreed b hb)] at hab

theorem freed_of_scrolls (h : region.WellFormed) (hscrolls : Scrolls region.rects rc x y) {r : Rect}
    (hr : r ∈ region.rects) : (linkedRect rc x y r).freed = false := by
  by_cases hmeet : doesIntersect r rc = true
  . have hproper := h.banded.1 r hr
    have hin := hscrolls.inside r hr hmeet
    rw [linkedRect_in hproper hmeet, intersectRect_of_isCovered hproper hin.1, if_pos hin.2]
  . rw [linkedRect_out (by simpa using hmeet)]

theorem banded_scrolled (h : region.WellFormed) (hscrolls : Scrolls region.rects rc x y)
    : Banded (region.rects.map (scrolledRect rc x y)) := by
  have hmoved : ∀ r ∈ region.rects, doesIntersect r rc = true
      → doesIntersect (offsetRect (intersectRect r rc).2 x y) rc = true := by
    intro r hr hmeet
    have hin := hscrolls.inside r hr hmeet
    rw [intersectRect_of_isCovered (h.banded.1 r hr) hin.1]
    exact hin.2
  constructor
  . intro s hs
    rw [mem_map] at hs
    rcases hs with ⟨r, hr, rfl⟩
    rw [scrolledRect]
    split
    . next hmeet =>
      have hproper := intersectRect_proper.mp ((intersectRect_fst _ _).trans (hmoved r hr hmeet))
      exact hproper
    . exact h.banded.1 r hr
  rw [pairwise_map]
  apply (h.banded.2.and hscrolls.ordered).imp_of_mem
  rintro a b ha hb ⟨hab, hmixed⟩
  by_cases hma : doesIntersect a rc = true
  . by_cases hmb : doesIntersect b rc = true
    . exact follows_scrolled hab hma hmb
    . exact hmixed (by simp [hma, hmb])
  . by_cases hmb : doesIntersect b rc = true
    . exact hmixed (by simp [hma, hmb])
    . rwa [scrolledRect, scrolledRect, if_neg hma, if_neg hmb]

theorem covers_scrolled (hscrolls : Scrolls region.rects rc x y) (u v : Int)
    : Covers (region.rects.map (scrolledRect rc x y)) u v
      ↔ (Covers region.rects u v ∧ ¬rc.Mem u v)
        ∨ ((Covers region.rects (u - x) (v - y) ∧ rc.Mem (u - x) (v - y)) ∧ rc.Mem u v) := by
  constructor
  . rintro ⟨s, hs, hmem⟩
    rw [mem_map] at hs
    rcases hs with ⟨r, hr, rfl⟩
    by_cases hmeet : doesIntersect r rc = true
    . rw [scrolledRect_mem hmeet] at hmem
      exact .inr ⟨⟨⟨r, hr, hmem.1.1⟩, hmem.1.2⟩, hmem.2⟩
    . rw [scrolledRect, if_neg hmeet] at hmem
      exact .inl ⟨⟨r, hr, hmem⟩, fun hrc => hmeet (doesIntersect_of_mem hmem hrc)⟩
  rintro (⟨⟨r, hr, hmem⟩, hout⟩ | ⟨⟨⟨r, hr, hmem⟩, hrc⟩, hin⟩)
  . refine ⟨_, mem_map_of_mem hr, ?_⟩
    rw [scrolledRect, if_neg]
    . exact hmem
    . intro hmeet
      exact hout (mem_of_isCovered (hscrolls.inside r hr hmeet).1 hmem)
  . refine ⟨_, mem_map_of_mem hr, ?_⟩
    rw [scrolledRect_mem (doesIntersect_of_mem hmem hrc)]
    exact ⟨⟨hmem, hrc⟩, hin⟩

theorem scrollExact_of_scrolls (h : region.WellFormed) (hscrolls : Scrolls region.rects rc x y)
    : ScrollExact region rc x y (offsetLoop region.type rc x y [] region.rects region.rcBound) := by
  have hfreed : ∀ r ∈ region.rects, (linkedRect rc x y r).freed = false := fun r hr => freed_of_scrolls h hscrolls hr
  rcases @offsetLoop_some region.type rc x y [] region.rects region.rcBound
    (fun r hr hmeet => (hscrolls.inside r hr hmeet).1) with ⟨⟨cells, rcBound⟩, heq⟩
  have hcells : cells = region.rects.map (linkedRect rc x y) := offsetLoop_cells heq
  have hrects : cells.map (·.rc) = region.rects.map (scrolledRect rc x y) := by
    rw [hcells, map_map]
    apply map_congr_left
    intro r hr
    exact linkedRect_rc (h.banded.1 r hr) (hfreed r hr)
  have hbanded := banded_scrolled h hscrolls
  rw [← hrects] at hbanded
  refine ⟨cells, rcBound, heq, ?_, ⟨hbanded, ?_⟩, ?_⟩
  . intro cell hcell
    rw [hcells, mem_map] at hcell
    rcases hcell with ⟨r, hr, rfl⟩
    exact hfreed r hr
  . rcases offsetLoop_bound hfreed heq with ⟨hbound, hout⟩ | hbound
    . have hsame : cells.map (·.rc) = region.rects := by
        rw [hrects, map_congr_left (g := id), map_id]
        intro r hr
        rw [scrolledRect, if_neg (by simp [hout r hr]), id]
      dsimp only at hbound ⊢
      rw [hbound, hsame]
      exact h.bound
    . dsimp only at hbound ⊢
      rw [hbound]
      exact regionSetExtents_bound _ hbanded
  . ext p
    rw [mem_pixels]
    rw [hrects, covers_scrolled hscrolls]
    rfl

/--
`OffsetRegionEx` scrolls a region if and only if each rectangle that meets the scrolled one lies in it, stays in it in
part, and keeps its place in the order.
-/
theorem offsetRegionEx_exact_iff (h : region.WellFormed) (rcClient rcScroll : Rect) (x y : Int)
    : ScrollExact region (intersectRect rcClient rcScroll).2 x y
        (offsetRegionEx region (some rcClient) (some rcScroll) x y)
      ↔ Scrolls region.rects (intersectRect rcClient rcScroll).2 x y := by
  rw [offsetRegionEx]
  by_cases hcommon : (intersectRect rcClient rcScroll).1 = true
  . rw [if_pos hcommon]
    exact ⟨scrolls_of_scrollExact h, scrollExact_of_scrolls h⟩
  rw [if_neg hcommon]
  have hnone : ¬(intersectRect rcClient rcScroll).2.Proper := fun hp => hcommon (intersectRect_proper.mpr hp)
  have hout : ∀ r, doesIntersect r (intersectRect rcClient rcScroll).2 = false := by
    intro r
    rw [Bool.eq_false_iff]
    intro hmeet
    exact hnone (proper_of_doesIntersect hmeet).2
  apply iff_of_true
  . refine ⟨_, _, rfl, ?_, ?_⟩
    . intro cell hcell
      rw [mem_map] at hcell
      rcases hcell with ⟨r, _, rfl⟩
      rfl
    have hsame : (region.rects.map fun r => (⟨r, false⟩ : LinkedRect)).map (·.rc) = region.rects := by
      rw [map_map]
      exact map_id _
    rw [hsame, Rect.pixels_eq_empty hnone, Set.sdiff_empty, Set.inter_empty, Set.union_empty]
    exact ⟨h, rfl⟩
  constructor
  . intro r _ hmeet
    rw [hout r] at hmeet
    cases hmeet
  apply h.banded.2.imp
  intro a b _ hmixed
  rw [hout a, hout b] at hmixed
  exact absurd rfl hmixed

theorem offsetRegionEx_exact_iff_single : ScrollExact (single ⟨0, 0, 2, 2⟩) ⟨0, 0, 4, 4⟩ 1 1
        (offsetRegionEx (single ⟨0, 0, 2, 2⟩) (some ⟨0, 0, 4, 4⟩) (some ⟨0, 0, 4, 4⟩) 1 1)
      ↔ Scrolls [⟨0, 0, 2, 2⟩] ⟨0, 0, 4, 4⟩ 1 1 :=
  offsetRegionEx_exact_iff (wellFormed_single ⟨by decide, by decide⟩) ⟨0, 0, 4, 4⟩ ⟨0, 0, 4, 4⟩ 1 1

theorem not_offsetRegionEx_exact
    : ¬∀ (region : ClipRgn) (rcClient rcScroll : Rect) (x y : Int), region.WellFormed
        → ScrollExact region (intersectRect rcClient rcScroll).2 x y
            (offsetRegionEx region (some rcClient) (some rcScroll) x y) := by
  intro h
  rcases h (single ⟨0, 0, 2, 2⟩) ⟨0, 0, 4, 4⟩ ⟨0, 0, 4, 4⟩ 9 0 (wellFormed_single ⟨by decide, by decide⟩)
    with ⟨cells, rcBound, heq, hkept, _⟩
  have hfreed : offsetRegionEx (single ⟨0, 0, 2, 2⟩) (some ⟨0, 0, 4, 4⟩) (some ⟨0, 0, 4, 4⟩) 9 0
      = some ([⟨⟨9, 0, 11, 2⟩, true⟩], ⟨0, 0, 2, 2⟩) := rfl
  rw [hfreed] at heq
  cases heq
  have hfalse := hkept _ (mem_singleton_self _)
  cases hfalse

end Exact

end MiniGui
