import MiniGui.Gdi.RegionAlgebra

namespace MiniGui

namespace Rect

def pixels (r : Rect) : Set (Int × Int) :=
  { p | r.Mem p.1 p.2 }

theorem mem_pixels {r : Rect} {p : Int × Int} : p ∈ r.pixels ↔ r.Mem p.1 p.2 := by
  rfl

def Proper (r : Rect) : Prop :=
  r.left < r.right ∧ r.top < r.bottom

theorem pixels_eq_empty {r : Rect} (h : ¬r.Proper) : r.pixels = ∅ := by
  rw [Set.eq_empty_iff_forall_notMem]
  intro p hp
  rw [mem_pixels, Mem] at hp
  apply h
  unfold Proper
  omega

end Rect

theorem proper_of_doesIntersect {a b : Rect} (h : doesIntersect a b = true) : a.Proper ∧ b.Proper := by
  rw [doesIntersect_iff] at h
  unfold Rect.Proper
  omega

namespace ClipRgn

def single (r : Rect) : ClipRgn :=
  { type := .simpleRegion, rcBound := r, rects := [r] }

def Sound (rgn : ClipRgn) : Prop :=
  rgn.WellFormed ∨ ∃ r, ¬r.Proper ∧ rgn = single r

theorem wellFormed_single {r : Rect} (h : r.Proper) : (single r).WellFormed := by
  constructor
  . unfold single Banded
    simp [h.1, h.2]
  . apply isBound_singleton

theorem pixels_single (r : Rect) : (single r).pixels = r.pixels := by
  ext p
  rw [mem_pixels, Rect.mem_pixels]
  unfold single
  simp

theorem sound_single (r : Rect) : (single r).Sound := by
  by_cases h : r.Proper
  . left
    apply wellFormed_single h
  . right
    exact ⟨r, h, rfl⟩

theorem sound_empty : emptyClipRgn.Sound := by
  left
  apply wellFormed_of_nil
  rfl

end ClipRgn

open ClipRgn

theorem setClipRgn_eq (rgn : ClipRgn) (rc : Rect)
    : (setClipRgn rgn rc).2 = if isRectEmpty rc then rgn else single rc := by
  unfold setClipRgn
  split <;> rfl

theorem setClipRgn_sound {rgn : ClipRgn} {rc : Rect} (h : rgn.Sound) : (setClipRgn rgn rc).2.Sound := by
  rw [setClipRgn_eq]
  split
  . exact h
  . apply sound_single

section Subtract

variable {rgn : ClipRgn} {rc : Rect}

theorem not_doesIntersect_of_not_proper (h : ¬rgn.rcBound.Proper) : doesIntersect rgn.rcBound rc = false := by
  rw [Bool.eq_false_iff]
  intro hmeet
  exact h (proper_of_doesIntersect hmeet).1

theorem subtractClipRect_wellFormed (h : rgn.WellFormed)
    : (subtractClipRect rgn rc).2.WellFormed ∧ (subtractClipRect rgn rc).2.pixels = rgn.pixels \ rc.pixels := by
  unfold subtractClipRect
  split
  . next hreject =>
    refine ⟨h, ?_⟩
    have hdisjoint : Disjoint rgn.pixels rc.pixels := by
      rw [Set.disjoint_left]
      intro p hp hrc
      rw [mem_pixels] at hp
      rw [Rect.mem_pixels] at hrc
      have hmeet := doesIntersect_of_mem (h.mem_bound hp) hrc
      rw [hmeet, Bool.or_eq_true] at hreject
      rcases hreject with hempty | hfalse
      . exact isRectEmpty_not_mem hempty _ _ hrc
      . simp at hfalse
    rw [hdisjoint.sdiff_eq_left]
  rename_i hmeet
  rw [Bool.not_eq_true, Bool.or_eq_false_iff, Bool.not_eq_false'] at hmeet
  have hproper := (proper_of_doesIntersect hmeet.2).2
  have hcomputes := subtractRegion_computes (clipRectStore rgn rc) .region .region .myRegion h
    (wellFormed_single hproper)
  refine ⟨hcomputes.wellFormed, ?_⟩
  rw [hcomputes.pixels, ← pixels_single rc]
  rfl

theorem subtractClipRect_inverted {r : Rect} (h : ¬r.Proper) : (subtractClipRect (single r) rc).2 = single r := by
  unfold subtractClipRect
  rw [if_pos]
  rw [not_doesIntersect_of_not_proper h, Bool.not_false, Bool.or_true]

theorem subtractClipRect_sound (h : rgn.Sound) : (subtractClipRect rgn rc).2.Sound := by
  rcases h with hwf | ⟨r, hr, heq⟩
  . left
    exact (subtractClipRect_wellFormed hwf).1
  . right
    rw [heq, subtractClipRect_inverted hr]
    exact ⟨r, hr, rfl⟩

theorem subtractClipRect_pixels (h : rgn.Sound) : (subtractClipRect rgn rc).2.pixels = rgn.pixels \ rc.pixels := by
  rcases h with hwf | ⟨r, hr, heq⟩
  . exact (subtractClipRect_wellFormed hwf).2
  . rw [heq, subtractClipRect_inverted hr, pixels_single, Rect.pixels_eq_empty hr, Set.empty_sdiff]

theorem foldl_subtract {α : Type} {f : ClipRgn → α → ClipRgn} {s : α → Set (Int × Int)}
    (hf : ∀ rgn a, rgn.Sound → (f rgn a).Sound ∧ (f rgn a).pixels = rgn.pixels \ s a) (l : List α)
    (h : rgn.Sound)
    : (l.foldl f rgn).Sound ∧ (l.foldl f rgn).pixels = rgn.pixels \ { p | ∃ a ∈ l, p ∈ s a } := by
  induction l generalizing rgn with
  | nil => simp [h]
  | cons a l ih =>
    have ha := hf rgn a h
    have hrest := ih ha.1
    rw [List.foldl_cons]
    refine ⟨hrest.1, ?_⟩
    rw [hrest.2, ha.2]
    ext p
    simp only [Set.mem_sdiff, Set.mem_ofPred_eq, List.exists_mem_cons_iff, not_or]
    tauto

end Subtract

/--
The pieces above and below the second rectangle are as wide as the first; the ones beside it are as high as the common
part.
-/
def subtractPieces (a b : Rect) : List Rect :=
  [
    { a with bottom := b.top },
    { a with top := b.bottom },
    ⟨a.left, max a.top b.top, b.left, min a.bottom b.bottom⟩,
    ⟨b.right, max a.top b.top, a.right, min a.bottom b.bottom⟩
  ]

theorem subtractRect_eq {a b : Rect} (h : doesIntersect a b = true)
    : subtractRect a b = (subtractPieces a b).filter fun r => r.left < r.right ∧ r.top < r.bottom := by
  have hone : ∀ (c : Prop) [Decidable c] (r : Rect), (r.left < r.right ∧ r.top < r.bottom ↔ c) →
      (if c then [r] else []) = [r].filter fun r => r.left < r.right ∧ r.top < r.bottom := by
    intro c _ r hr
    simp [List.filter_cons, hr]
  have htop : (if b.top > a.top then b.top else a.top) = max a.top b.top := by omega
  have hbottom : (if b.bottom < a.bottom then b.bottom else a.bottom) = min a.bottom b.bottom := by omega
  unfold subtractRect
  rw [h, Bool.not_true, if_neg Bool.false_ne_true]
  dsimp only
  rw [doesIntersect_iff] at h
  rw [htop, hbottom, hone _ _ (by dsimp only; omega), hone _ _ (by dsimp only; omega), hone _ _ (by dsimp only; omega),
    hone _ _ (by dsimp only; omega), ← List.filter_append, ← List.filter_append, ← List.filter_append]
  rfl

/--
The pieces that `SubtractRect` leaves are at most four, and they cover the first rectangle outside the second once.
-/
theorem subtractRect_pieces (a b : Rect) (ha : a.Proper)
    : (subtractRect a b).length ≤ 4 ∧ (∀ r ∈ subtractRect a b, r.Proper)
        ∧ (subtractRect a b).Pairwise (fun r s => Disjoint r.pixels s.pixels)
        ∧ { p | ∃ r ∈ subtractRect a b, p ∈ r.pixels } = a.pixels \ b.pixels := by
  simp only [Set.disjoint_left, Set.ext_iff, Rect.pixels, Set.mem_ofPred_eq, Set.mem_sdiff, Prod.forall, Rect.Mem]
  unfold Rect.Proper at ha ⊢
  have hmeet := doesIntersect_iff a b
  by_cases h : doesIntersect a b = true
  . have hin := hmeet.mp h
    rw [subtractRect_eq h]
    refine ⟨List.length_filter_le _ _, ?_, List.Pairwise.filter _ ?_, ?_⟩
    . intro r hr
      exact of_decide_eq_true (List.mem_filter.mp hr).2
    . simp only [subtractPieces, List.pairwise_cons, List.forall_mem_cons, List.not_mem_nil, false_implies, implies_true,
        List.Pairwise.nil, and_true]
      refine ⟨⟨?_, ?_, ?_⟩, ⟨?_, ?_⟩, ?_⟩ <;> intro x y <;> omega
    . intro x y
      simp only [List.mem_filter, and_assoc, decide_eq_true_eq, subtractPieces, List.exists_mem_cons_iff, List.not_mem_nil,
        false_and, exists_false, or_false]
      omega
  . have hself : subtractRect a b = [a] := by
      simp [subtractRect, h]
    have hout := mt hmeet.mpr h
    rw [hself]
    simp only [List.length_singleton, List.pairwise_singleton, List.mem_singleton, forall_eq, exists_eq_left]
    refine ⟨by decide, ha, trivial, ?_⟩
    intro x y
    omega

theorem subtractRect_pieces_hole
    : { p | ∃ r ∈ subtractRect ⟨0, 0, 9, 9⟩ ⟨3, 3, 6, 6⟩, p ∈ r.pixels } = Rect.pixels ⟨0, 0, 9, 9⟩ \ Rect.pixels ⟨3, 3, 6, 6⟩ :=
  (subtractRect_pieces ⟨0, 0, 9, 9⟩ ⟨3, 3, 6, 6⟩ ⟨by decide, by decide⟩).2.2.2

end MiniGui
