import MiniGui.Gdi.CellStore

namespace MiniGui

open Function List

section Rename

variable {ι κ : Type} [DecidableEq ι] [DecidableEq κ] {f : ι → κ} (hf : Injective f) (m : RgnStore κ)

include hf

theorem clipRgnCopy_comp (dst src : ι)
    : (clipRgnCopy m (f dst) (f src)).2 ∘ f = (clipRgnCopy (m ∘ f) dst src).2 := by
  unfold clipRgnCopy
  simp only [hf.eq_iff]
  split
  . rfl
  next hne =>
    have hupdate := update_comp_eq_of_injective m hf dst emptyClipRgn
    have hsrc : update m (f dst) emptyClipRgn (f src) = update (m ∘ f) dst emptyClipRgn src := by
      rw [← hupdate]
      rfl
    simp only [hsrc]
    split
    . exact hupdate
    . rw [update_idem, update_idem]
      exact update_comp_eq_of_injective m hf dst _

theorem regionOp_comp (overlapFunc : OverlapFunc) (nonOverlap1Func nonOverlap2Func : Option NonOverlapFunc)
    (dst src1 src2 : ι)
    : regionOp overlapFunc nonOverlap1Func nonOverlap2Func m (f dst) (f src1) (f src2) ∘ f
        = regionOp overlapFunc nonOverlap1Func nonOverlap2Func (m ∘ f) dst src1 src2 := by
  have hupdate := update_comp_eq_of_injective m hf dst emptyClipRgn
  unfold regionOp
  simp only [hf.eq_iff]
  rw [update_comp_eq_of_injective _ hf]
  split
  . rfl
  have hget : ∀ i, update m (f dst) emptyClipRgn (f i) = update (m ∘ f) dst emptyClipRgn i := by
    intro i
    rw [← hupdate]
    rfl
  simp only [hget, hupdate]
  rfl

theorem finishRegion_comp (dst : ι) : finishRegion m (f dst) ∘ f = finishRegion (m ∘ f) dst := by
  unfold finishRegion
  rw [update_comp_eq_of_injective _ hf]
  rfl

theorem clipRgnIntersect_comp (dst src1 src2 : ι)
    : (clipRgnIntersect m (f dst) (f src1) (f src2)).2 ∘ f = (clipRgnIntersect (m ∘ f) dst src1 src2).2 := by
  unfold clipRgnIntersect
  dsimp only [comp_apply]
  split
  . exact update_comp_eq_of_injective _ hf _ _
  . dsimp only
    rw [finishRegion_comp hf, regionOp_comp hf]

theorem subtractRegion_comp (rgnD rgnM rgnS : ι)
    : (subtractRegion m (f rgnD) (f rgnM) (f rgnS)).2 ∘ f = (subtractRegion (m ∘ f) rgnD rgnM rgnS).2 := by
  unfold subtractRegion
  dsimp only [comp_apply]
  split
  . exact clipRgnCopy_comp hf m rgnD rgnM
  . dsimp only
    rw [finishRegion_comp hf, regionOp_comp hf]

theorem copyUnless_comp (dst src : ι)
    : (if f dst ≠ f src then (clipRgnCopy m (f dst) (f src)).2 else m) ∘ f
        = if dst ≠ src then (clipRgnCopy (m ∘ f) dst src).2 else m ∘ f := by
  simp only [ne_eq, hf.eq_iff]
  split
  . exact clipRgnCopy_comp hf m dst src
  . rfl

theorem unionRegion_comp (dst src1 src2 : ι)
    : (unionRegion m (f dst) (f src1) (f src2)).2 ∘ f = (unionRegion (m ∘ f) dst src1 src2).2 := by
  unfold unionRegion
  dsimp only [comp_apply]
  simp only [hf.eq_iff]
  split
  . exact copyUnless_comp hf m dst src2
  split
  . exact copyUnless_comp hf m dst src1
  split
  . exact copyUnless_comp hf m dst src1
  split
  . exact copyUnless_comp hf m dst src2
  . dsimp only
    rw [finishRegion_comp hf, regionOp_comp hf]

end Rename

section Frame

variable {ι : Type} [DecidableEq ι] (m : RgnStore ι) {dst i : ι} (hi : i ≠ dst)
include hi

theorem clipRgnCopy_of_ne (src : ι) : (clipRgnCopy m dst src).2 i = m i := by
  unfold clipRgnCopy
  split
  . rfl
  dsimp only
  split
  . exact update_of_ne hi _ _
  . dsimp only
    rw [update_of_ne hi, update_of_ne hi]

theorem finished_of_ne (overlapFunc : OverlapFunc)
    (nonOverlap1Func nonOverlap2Func : Option NonOverlapFunc) (src1 src2 : ι)
    : finishRegion (regionOp overlapFunc nonOverlap1Func nonOverlap2Func m dst src1 src2) dst i = m i := by
  obtain ⟨m', hframe, heq⟩ := regionOp_eq overlapFunc nonOverlap1Func nonOverlap2Func m dst src1 src2
  unfold finishRegion
  rw [heq, update_of_ne hi, update_of_ne hi]
  exact hframe i hi

theorem clipRgnIntersect_of_ne (src1 src2 : ι) : (clipRgnIntersect m dst src1 src2).2 i = m i := by
  unfold clipRgnIntersect
  split
  . exact update_of_ne hi _ _
  . exact finished_of_ne m hi _ _ _ _ _

theorem subtractRegion_of_ne (src1 src2 : ι) : (subtractRegion m dst src1 src2).2 i = m i := by
  unfold subtractRegion
  split
  . exact clipRgnCopy_of_ne m hi _
  . exact finished_of_ne m hi _ _ _ _ _

theorem copyUnless_of_ne (src : ι)
    : (if dst ≠ src then (clipRgnCopy m dst src).2 else m) i = m i := by
  split
  . exact clipRgnCopy_of_ne m hi _
  . rfl

theorem unionRegion_of_ne (src1 src2 : ι) : (unionRegion m dst src1 src2).2 i = m i := by
  unfold unionRegion
  split
  . exact copyUnless_of_ne m hi _
  split
  . exact copyUnless_of_ne m hi _
  split
  . exact copyUnless_of_ne m hi _
  . split
    . exact copyUnless_of_ne m hi _
    . exact finished_of_ne m hi _ _ _ _ _

end Frame

namespace Cells

open DList

section Objects

variable {ι : Type} [DecidableEq ι] {heap : BlockHeap} (s : Store ι) {dst i : ι} (hi : i ≠ dst)
include hi

theorem emptyClipRgn_rgn : (emptyClipRgn s dst).rgn i = s.rgn i := by
  unfold emptyClipRgn
  rw [set_rgn_of_ne hi]

theorem clipRgnCopy_rgn (src : ι) : (clipRgnCopy heap s dst src).2.rgn i = s.rgn i := by
  unfold clipRgnCopy
  split
  . rfl
  dsimp only
  split
  . exact emptyClipRgn_rgn s hi
  . dsimp only
    rw [set_rgn_of_ne hi, emptyClipRgn_rgn s hi]

theorem finished_rgn (overlapFunc : OverlapFunc)
    (nonOverlap1Func nonOverlap2Func : Option NonOverlapFunc) (src1 src2 : ι)
    : (finishRegion (regionOp overlapFunc nonOverlap1Func nonOverlap2Func s dst src1 src2) dst).rgn i = s.rgn i := by
  have hext : ∀ t : Store ι, (regionSetExtents t dst).rgn i = t.rgn i := by
    intro t
    unfold regionSetExtents
    dsimp only
    split
    . rw [set_rgn_of_ne hi]
    . rw [set_rgn_of_ne hi]
  unfold finishRegion
  rw [set_rgn_of_ne hi, hext]
  unfold regionOp
  dsimp only
  split
  . rw [set_rgn_of_ne hi, emptyClipRgn_rgn _ hi]
  . rw [set_rgn_of_ne hi, emptyClipRgn_rgn _ hi]

theorem clipRgnIntersect_rgn (src1 src2 : ι)
    : (clipRgnIntersect heap s dst src1 src2).2.rgn i = s.rgn i := by
  unfold clipRgnIntersect
  split
  . exact emptyClipRgn_rgn s hi
  . exact finished_rgn s hi _ _ _ _ _

theorem subtractRegion_rgn (src1 src2 : ι)
    : (subtractRegion heap s dst src1 src2).2.rgn i = s.rgn i := by
  unfold subtractRegion
  split
  . exact clipRgnCopy_rgn s hi _
  . exact finished_rgn s hi _ _ _ _ _

theorem copyUnless_rgn (src : ι)
    : (if dst ≠ src then (clipRgnCopy heap s dst src).2 else s).rgn i = s.rgn i := by
  split
  . exact clipRgnCopy_rgn s hi _
  . rfl

theorem unionRegion_rgn (src1 src2 : ι) : (unionRegion heap s dst src1 src2).2.rgn i = s.rgn i := by
  unfold unionRegion
  split
  . exact copyUnless_rgn s hi _
  split
  . exact copyUnless_rgn s hi _
  split
  . exact copyUnless_rgn s hi _
  . split
    . exact copyUnless_rgn s hi _
    . exact finished_rgn s hi _ _ _ _ _

end Objects

section MyRegion

variable {ι : Type} [DecidableEq ι] {heap : BlockHeap} {s : Store ι} {m : RgnStore ι}

def withSingle (m : RgnStore ι) (rect : Rect) : RgnStore (Option ι)
  | some i => m i
  | none => ClipRgn.single rect

omit [DecidableEq ι] in
theorem withMyRegion_refines (h : Refines s m) (rect : Rect) (op : Store (Option ι) → Store (Option ι))
    (op' : RgnStore (Option ι) → RgnStore (Option ι)) (hop : ∀ s m, Refines s m → Refines (op s) (op' m))
    (hframe : ∀ s, (op s).rgn none = s.rgn none)
    : Refines (withMyRegion heap s rect op) (fun i => op' (withSingle m rect) (some i)) := by
  obtain ⟨⟨cells, hsep⟩, hm⟩ := h
  have hall : ∀ a ∈ { a | ∃ j, a ∈ cells j }, a ∈ s.mem.used := by
    rintro a ⟨j, ha⟩
    exact (hsep.rep j).used a ha
  obtain ⟨c, hbuilt⟩ := @newClipRect_building heap _ _ _ _ _ (building_empty hall) rect
  unfold withMyRegion
  dsimp only
  generalize newClipRect heap { mem := s.mem, head := 0, tail := 0 } rect = d at hbuilt ⊢
  have hrep : ∀ j, Rep d.mem (s.rgn j).head (s.rgn j).tail (cells j) := by
    intro j
    apply (hsep.rep j).congr
    intro a ha
    have hkept := hbuilt.kept a ⟨j, ha⟩
    exact ⟨hkept.1, hkept.2.2.1, hkept.2.2.2⟩
  generalize hs1 : (Store.mk d.mem fun
    | some i => s.rgn i
    | none => { type := .simpleRegion, rcBound := rect, head := d.head, tail := d.tail } : Store (Option ι)) = s1
  have hnone : s1.rgn none = { type := .simpleRegion, rcBound := rect, head := d.head, tail := d.tail } := by
    rw [← hs1]
  have href : Refines s1 (withSingle m rect) := by
    rw [← hs1]
    refine ⟨⟨fun | some j => cells j | none => [c], ?_, ?_⟩, ?_⟩
    . intro j
      cases j with
      | some j => exact hrep j
      | none => exact hbuilt.rep
    . intro j k hjk a ha hak
      cases j with
      | some j =>
        cases k with
        | some k => exact hsep.apart j k (fun heq => hjk (by rw [heq])) a ha hak
        | none => exact hbuilt.apart a hak ⟨j, ha⟩
      | none =>
        cases k with
        | some k => exact hbuilt.apart a ha ⟨k, hak⟩
        | none => contradiction
    funext j
    cases j with
    | some j =>
      show ClipRgn.mk _ _ (d.mem.rects (s.rgn j).head) = m j
      rw [← hm, (hrep j).rects_eq]
      unfold Store.view
      rw [(hsep.rep j).rects_eq]
      congr 1
      apply map_congr_left
      intro a ha
      exact (hbuilt.kept a ⟨j, ha⟩).2.1
    | none =>
      show ClipRgn.mk _ _ (d.mem.rects d.head) = _
      rw [hbuilt.rep.rects_eq, hbuilt.rects_eq]
      rfl
  have hafter := hop s1 _ href
  have hhead := hframe s1
  generalize op s1 = s2 at hafter hhead ⊢
  obtain ⟨⟨cells', hsep'⟩, hm'⟩ := hafter
  have hmine := hsep'.rep none
  rw [hhead, hnone] at hmine
  -- The cell that is gone is the one of `my_region`.
  have hfirst : d.head ∈ cells' none := by
    have hne : cells' none ≠ [] := by
      intro hnil
      have hnull : d.head = 0 := hmine.head_eq_zero.mpr hnil
      rw [hbuilt.rep.head_eq_zero] at hnull
      contradiction
    generalize cells' none = l at hmine hne
    obtain ⟨x, l, rfl⟩ := exists_cons_of_ne_nil hne
    have heq : d.head = x := hmine.head_eq
    rw [heq]
    exact mem_cons_self
  have hother : ∀ j, ∀ a ∈ cells' (some j), a ≠ d.head := by
    rintro j a ha rfl
    exact hsep'.apart none (some j) (by simp) _ hfirst ha
  have hrep' : ∀ j, Rep (freeClipRect s2.mem d.head) (s2.rgn (some j)).head (s2.rgn (some j)).tail (cells' (some j)) := by
    intro j
    apply (hsep'.rep (some j)).congr
    intro a ha
    refine ⟨?_, rfl, rfl⟩
    exact Finset.mem_erase.mpr ⟨hother j a ha, (hsep'.rep (some j)).used a ha⟩
  refine ⟨⟨fun j => cells' (some j), hrep', ?_⟩, ?_⟩
  . exact fun j k hjk => hsep'.apart (some j) (some k) (fun heq => hjk (by injection heq))
  funext j
  rw [← hm']
  show ClipRgn.mk _ _ ((freeClipRect s2.mem d.head).rects (s2.rgn (some j)).head) = ClipRgn.mk _ _ (s2.mem.rects _)
  rw [(hrep' j).rects_eq, (hsep'.rep (some j)).rects_eq]
  rfl

def clipRectObj (i : ι) : ClipRectObj → Option ι
  | .region => some i
  | .myRegion => none

omit [DecidableEq ι] in
theorem clipRectObj_injective (i : ι) : Injective (clipRectObj i) := by
  intro a b h
  cases a <;> cases b <;> simp_all [clipRectObj]

omit [DecidableEq ι] in
theorem withSingle_comp (m : RgnStore ι) (rect : Rect) (i : ι)
    : withSingle m rect ∘ clipRectObj i = clipRectStore (m i) rect := by
  funext o
  cases o with
  | region => rfl
  | myRegion => rfl

variable (h : Refines s m)
include h

theorem onSingle_refines (i : ι) (rect : Rect) {op : Store (Option ι) → Store (Option ι)}
    {op' : RgnStore (Option ι) → RgnStore (Option ι)} {after : RgnStore ClipRectObj}
    (hcomp : op' (withSingle m rect) ∘ clipRectObj i = after)
    (hkept : ∀ j, j ≠ i → op' (withSingle m rect) (some j) = m j) (hop : ∀ s m, Refines s m → Refines (op s) (op' m))
    (hframe : ∀ s, (op s).rgn none = s.rgn none)
    : Refines (withMyRegion heap s rect op) (update m i (after .region)) := by
  have heq : (fun j => op' (withSingle m rect) (some j)) = update m i (after .region) := by
    funext j
    by_cases hj : j = i
    . rw [hj, update_self, ← hcomp]
      rfl
    . rw [update_of_ne hj, hkept j hj]
  rw [← heq]
  exact withMyRegion_refines h rect op op' hop hframe

theorem addClipRect_refines (i : ι) (rect : Rect) : RefinesResult (addClipRect heap s i rect)
        ((MiniGui.addClipRect (m i) rect).1, update m i (MiniGui.addClipRect (m i) rect).2) := by
  unfold addClipRect MiniGui.addClipRect
  split
  . dsimp only
    rw [update_eq_self]
    exact ⟨rfl, h⟩
  refine ⟨rfl, ?_⟩
  have hcomp := unionRegion_comp (clipRectObj_injective i) (withSingle m rect) .region .region .myRegion
  rw [withSingle_comp] at hcomp
  exact onSingle_refines h i rect hcomp (fun j hj => unionRegion_of_ne _ (by simpa using hj) _ _)
    (fun s m h => (unionRegion_refines h _ _ _).2) fun s => unionRegion_rgn s (by simp) _ _

theorem intersectClipRect_refines (i : ι) (rect : Rect)
    : RefinesResult (intersectClipRect heap s i rect)
        ((MiniGui.intersectClipRect (m i) rect).1, update m i (MiniGui.intersectClipRect (m i) rect).2) := by
  unfold intersectClipRect MiniGui.intersectClipRect
  split
  . exact ⟨rfl, emptyClipRgn_refines h i⟩
  refine ⟨rfl, ?_⟩
  have hcomp := clipRgnIntersect_comp (clipRectObj_injective i) (withSingle m rect) .region .region .myRegion
  rw [withSingle_comp] at hcomp
  exact onSingle_refines h i rect hcomp (fun j hj => clipRgnIntersect_of_ne _ (by simpa using hj) _ _)
    (fun s m h => (clipRgnIntersect_refines h _ _ _).2) fun s => clipRgnIntersect_rgn s (by simp) _ _

theorem subtractClipRect_refines (i : ι) (rect : Rect)
    : RefinesResult (subtractClipRect heap s i rect)
        ((MiniGui.subtractClipRect (m i) rect).1, update m i (MiniGui.subtractClipRect (m i) rect).2) := by
  unfold subtractClipRect MiniGui.subtractClipRect
  rw [h.rcBound_eq]
  split
  . dsimp only
    rw [update_eq_self]
    exact ⟨rfl, h⟩
  refine ⟨rfl, ?_⟩
  have hcomp := subtractRegion_comp (clipRectObj_injective i) (withSingle m rect) .region .region .myRegion
  rw [withSingle_comp] at hcomp
  exact onSingle_refines h i rect hcomp (fun j hj => subtractRegion_of_ne _ (by simpa using hj) _ _)
    (fun s m h => (subtractRegion_refines h _ _ _).2) fun s => subtractRegion_rgn s (by simp) _ _

end MyRegion

section Offset

variable {ι : Type} [DecidableEq ι] {s : Store ι} {m : RgnStore ι}

theorem foldl_setRc {l : List Nat} (hnodup : l.Nodup) (f : Rect → Rect) (mem : Mem)
    : ∃ rc, l.foldl (fun mem a => setRc mem a (f (mem.rc a))) mem = { mem with rc }
        ∧ (∀ a ∈ l, rc a = f (mem.rc a)) ∧ ∀ a, a ∉ l → rc a = mem.rc a := by
  induction l generalizing mem with
  | nil => exact ⟨mem.rc, rfl, by simp, fun _ _ => rfl⟩
  | cons b l ih =>
    rw [nodup_cons] at hnodup
    obtain ⟨rc, hfold, hin, hout⟩ := ih hnodup.2 (setRc mem b (f (mem.rc b)))
    have hset : ∀ a, a ≠ b → (setRc mem b (f (mem.rc b))).rc a = mem.rc a := by
      intro a ha
      unfold setRc
      dsimp only
      rw [update_of_ne ha]
    refine ⟨rc, hfold, ?_, ?_⟩
    . intro a ha
      rw [mem_cons] at ha
      rcases ha with heq | hmem
      . rw [heq, hout b hnodup.1]
        unfold setRc
        dsimp only
        rw [update_self]
      have hab : a ≠ b := by
        rintro rfl
        exact hnodup.1 hmem
      rw [hin a hmem, hset a hab]
    . intro a ha
      rw [mem_cons, not_or] at ha
      rw [hout a ha.2, hset a ha.1]

theorem offsetRegion_refines (h : Refines s m) (i : ι) (x y : Int)
    : Refines (offsetRegion s i x y) (update m i (MiniGui.offsetRegion (m i) x y)) := by
  have hnull := h.head_eq_zero (i := i)
  have htype := h.type_eq (i := i)
  have hbound := h.rcBound_eq (i := i)
  have hrects := h.rects_eq (i := i)
  obtain ⟨⟨cells, hsep⟩, hm⟩ := h
  have hrep := hsep.rep i
  rw [hrep.rects_eq] at hrects
  unfold offsetRegion MiniGui.offsetRegion
  dsimp only
  rw [hrep.chain_head]
  obtain ⟨rc, hfold, hin, hout⟩ := foldl_setRc hrep.valid.nodup (fun r => offsetRect r x y) s.mem
  rw [hfold]
  have hbuilt : Building s.mem (others cells i) ⟨{ s.mem with rc }, (s.rgn i).head, (s.rgn i).tail⟩ (cells i)
      ((m i).rects.map fun r => offsetRect r x y) := by
    constructor
    . exact ⟨hrep.valid, hrep.tail_eq, hrep.used⟩
    . rw [← hrects, List.map_map]
      exact map_congr_left hin
    . rintro a ha ⟨j, hj, haj⟩
      exact hsep.apart i j (Ne.symm hj) a ha haj
    . rintro a ⟨j, hj, ha⟩
      exact ⟨(hsep.rep j).used a ha, hout a (hsep.apart j i hj a ha), rfl, rfl⟩
  have hinstall := hsep.install
    { s.rgn i with
      rcBound := if (s.rgn i).head = 0 then (s.rgn i).rcBound else offsetRect (s.rgn i).rcBound x y } hm hbuilt rfl rfl
  simp only [hnull, htype, hbound] at hinstall ⊢
  exact hinstall

end Offset

end Cells

end MiniGui
