import MiniGui.Gdi.CellSweep
import MiniGui.Gdi.ClipCalls

namespace MiniGui.Cells

open Function List

open DList

variable {ι : Type}

def Store.view (s : Store ι) : RgnStore ι :=
  fun i => { type := (s.rgn i).type, rcBound := (s.rgn i).rcBound, rects := s.mem.rects (s.rgn i).head }

structure Sep (s : Store ι) (cells : ι → List Nat) : Prop where
  rep : ∀ i, Rep s.mem (s.rgn i).head (s.rgn i).tail (cells i)
  apart : ∀ i j, i ≠ j → ∀ a ∈ cells i, a ∉ cells j

def Refines (s : Store ι) (m : RgnStore ι) : Prop :=
  (∃ cells, Sep s cells) ∧ s.view = m

def RefinesResult (p : Bool × Store ι) (q : Bool × RgnStore ι) : Prop :=
  p.1 = q.1 ∧ Refines p.2 q.2

variable {j : ι}

section Reading

variable {s : Store ι} {m : RgnStore ι} {i : ι} (h : Refines s m)
include h

theorem Refines.type_eq : (s.rgn i).type = (m i).type := by
  rw [← h.2]
  rfl

theorem Refines.rcBound_eq : (s.rgn i).rcBound = (m i).rcBound := by
  rw [← h.2]
  rfl

theorem Refines.rects_eq : s.mem.rects (s.rgn i).head = (m i).rects := by
  rw [← h.2]
  rfl

theorem Refines.head_eq_zero : (s.rgn i).head = 0 ↔ (m i).rects = [] := by
  obtain ⟨cells, hsep⟩ := h.1
  rw [← h.rects_eq, (hsep.rep i).rects_eq, map_eq_nil_iff]
  exact (hsep.rep i).head_eq_zero

theorem Refines.subsumes_eq (hi : (m i).rects ≠ [])
    : subsumes (s.rgn i) (s.rgn j) = MiniGui.subsumes (m i) (m j) := by
  obtain ⟨cells, hsep⟩ := h.1
  have hone : (s.rgn i).head = (s.rgn i).tail ↔ (m i).rects.length = 1 := by
    rw [← h.rects_eq, (hsep.rep i).rects_eq, length_map]
    have hne : cells i ≠ [] := by
      intro hnil
      rw [Ne, ← h.rects_eq, (hsep.rep i).rects_eq, hnil] at hi
      exact hi rfl
    have hrep := hsep.rep i
    generalize cells i = l at hne hrep
    obtain ⟨a, l, rfl⟩ := exists_cons_of_ne_nil hne
    have hnodup := hrep.valid.nodup
    rw [hrep.head_eq, hrep.tail_eq]
    cases l with
    | nil => simp
    | cons b l =>
      constructor
      . intro heq
        rw [getLast?_cons_cons] at heq
        rw [nodup_cons] at hnodup
        cases hlast : (b :: l).getLast? with
        | none => simp at hlast
        | some z =>
          rw [hlast, Option.getD_some] at heq
          rw [heq] at hnodup
          exact absurd (mem_of_getLast? hlast) hnodup.1
      . intro heq
        simp at heq
  unfold subsumes MiniGui.subsumes
  rw [h.rcBound_eq, h.rcBound_eq]
  simp only [hone]

end Reading

section Changes

variable [DecidableEq ι] {heap : BlockHeap} {s : Store ι} {m : RgnStore ι} {i : ι}

theorem set_rgn_of_ne (hj : j ≠ i) (mem : Mem) (region : Region)
    : (s.set i mem region).rgn j = s.rgn j := by
  unfold Store.set
  dsimp only
  rw [update_of_ne hj]

def others (cells : ι → List Nat) (i : ι) : Set Nat :=
  { a | ∃ j, j ≠ i ∧ a ∈ cells j }

variable {cells : ι → List Nat} {d : Dst} {l : List Nat} {rects : List Rect}

omit [DecidableEq ι] in
theorem Sep.others_used (h : Sep s cells) : ∀ a ∈ others cells i, a ∈ s.mem.used := by
  rintro a ⟨j, _, ha⟩
  exact (h.rep j).used a ha

theorem Sep.install (region : Region)
    (h : Sep s cells) (hm : s.view = m) (hbuilt : Building s.mem (others cells i) d l rects)
    (hhead : region.head = d.head) (htail : region.tail = d.tail) : Refines (s.set i d.mem region)
        (update m i { type := region.type, rcBound := region.rcBound, rects }) := by
  have hother : ∀ j, j ≠ i → ∀ a ∈ cells j, a ∈ others cells i := by
    intro j hj a ha
    exact ⟨j, hj, ha⟩
  have hrep : ∀ j, j ≠ i → Rep d.mem (s.rgn j).head (s.rgn j).tail (cells j) := by
    intro j hj
    apply (h.rep j).congr
    intro a ha
    have hkept := hbuilt.kept a (hother j hj a ha)
    exact ⟨hkept.1, hkept.2.2.1, hkept.2.2.2⟩
  refine ⟨⟨update cells i l, ?_, ?_⟩, ?_⟩
  . intro j
    unfold Store.set
    dsimp only
    by_cases hj : j = i
    . rw [hj, update_self, update_self, hhead, htail]
      exact hbuilt.rep
    . rw [update_of_ne hj, update_of_ne hj]
      exact hrep j hj
  . intro j k hjk a ha hak
    by_cases hj : j = i
    . have hk : k ≠ i := by
        rw [← hj]
        exact Ne.symm hjk
      rw [hj, update_self] at ha
      rw [update_of_ne hk] at hak
      exact hbuilt.apart a ha (hother k hk a hak)
    rw [update_of_ne hj] at ha
    by_cases hk : k = i
    . rw [hk, update_self] at hak
      exact hbuilt.apart a hak (hother j hj a ha)
    . rw [update_of_ne hk] at hak
      exact h.apart j k hjk a ha hak
  funext j
  unfold Store.view Store.set
  dsimp only
  by_cases hj : j = i
  . rw [hj, update_self, update_self, hhead, hbuilt.rep.rects_eq, hbuilt.rects_eq]
  rw [update_of_ne hj, update_of_ne hj, ← hm, (hrep j hj).rects_eq]
  unfold Store.view
  rw [(h.rep j).rects_eq]
  congr 1
  apply map_congr_left
  intro a ha
  exact (hbuilt.kept a (hother j hj a ha)).2.1

theorem foldl_freeClipRect (l : List Nat) (mem : Mem)
    : l.foldl freeClipRect mem = { mem with used := mem.used \ l.toFinset } := by
  induction l generalizing mem with
  | nil => simp
  | cons a l ih =>
    rw [foldl_cons, ih]
    unfold freeClipRect
    congr 1
    ext x
    simp only [toFinset_cons, Finset.mem_sdiff, Finset.mem_erase, Finset.mem_insert]
    tauto

omit [DecidableEq ι] in
theorem Sep.freed (h : Sep s cells) : Building s.mem (others cells i)
        { mem := (s.mem.chain (s.rgn i).head).foldl freeClipRect s.mem, head := 0, tail := 0 } [] [] := by
  rw [(h.rep i).chain_head, foldl_freeClipRect]
  constructor
  . exact ⟨valid_nil.mpr rfl, rfl, by simp⟩
  . rfl
  . simp
  rintro a ⟨j, hj, ha⟩
  refine ⟨?_, rfl, rfl, rfl⟩
  rw [Finset.mem_sdiff, List.mem_toFinset]
  exact ⟨(h.rep j).used a ha, h.apart j i hj a ha⟩

theorem emptyClipRgn_refines (h : Refines s m) (i : ι)
    : Refines (emptyClipRgn s i) (update m i MiniGui.emptyClipRgn) := by
  obtain ⟨⟨cells, hsep⟩, hm⟩ := h
  exact hsep.install initClipRgn hm hsep.freed rfl rfl

theorem foldl_newClipRect_building {mem0 : Mem} {keep : Set Nat} {d : Dst} {l : List Nat} {rects : List Rect}
    (h : Building mem0 keep d l rects) (rs : List Rect)
    : ∃ new, Building mem0 keep (rs.foldl (newClipRect heap) d) (l ++ new) (rects ++ rs) := by
  induction rs generalizing d l rects with
  | nil =>
    rw [append_nil]
    exact building_self h
  | cons r rs ih =>
    obtain ⟨a, ha⟩ := @newClipRect_building heap _ _ _ _ _ h r
    have hrest := ih ha
    rw [append_assoc, singleton_append] at hrest
    exact exists_append hrest

theorem setClipRgn_refines (h : Refines s m) (i : ι) (rc : Rect)
    : RefinesResult (setClipRgn heap s i rc)
        ((MiniGui.setClipRgn (m i) rc).1, update m i (MiniGui.setClipRgn (m i) rc).2) := by
  unfold setClipRgn MiniGui.setClipRgn
  split
  . refine ⟨rfl, ?_⟩
    rw [update_eq_self]
    exact h
  refine ⟨rfl, ?_⟩
  obtain ⟨⟨cells, hsep⟩, hm⟩ := emptyClipRgn_refines h i
  obtain ⟨a, ha⟩ := @newClipRect_building heap _ _ _ _ _ (building_empty (hsep.others_used (i := i))) rc
  have hinstall := hsep.install ⟨.simpleRegion, rc, _, _⟩ hm ha rfl rfl
  rw [update_idem] at hinstall
  exact hinstall

theorem clipRgnCopy_refines (h : Refines s m) (pDstRgn pSrcRgn : ι)
    : RefinesResult (clipRgnCopy heap s pDstRgn pSrcRgn) (MiniGui.clipRgnCopy m pDstRgn pSrcRgn) := by
  unfold clipRgnCopy MiniGui.clipRgnCopy
  split
  . exact ⟨rfl, h⟩
  next hne =>
    have hempty := emptyClipRgn_refines h pDstRgn
    have hsrc : update m pDstRgn MiniGui.emptyClipRgn pSrcRgn = m pSrcRgn := by
      rw [update_of_ne (Ne.symm hne)]
    dsimp only
    rw [hsrc]
    by_cases hnil : (m pSrcRgn).rects = []
    . rw [if_pos (h.head_eq_zero.mpr hnil), if_pos hnil]
      exact ⟨rfl, hempty⟩
    rw [if_neg (fun hnull => hnil (h.head_eq_zero.mp hnull)), if_neg hnil]
    refine ⟨rfl, ?_⟩
    have hview := hempty.rects_eq (i := pSrcRgn)
    have hsame : (emptyClipRgn s pDstRgn).rgn pSrcRgn = s.rgn pSrcRgn := by
      unfold emptyClipRgn
      rw [set_rgn_of_ne (Ne.symm hne)]
    rw [hsrc, hsame] at hview
    obtain ⟨⟨cells, hsep⟩, hm⟩ := hempty
    rw [hview]
    obtain ⟨new, hnew⟩ := @foldl_newClipRect_building heap _ _ _ _ _
      (building_empty (hsep.others_used (i := pDstRgn))) (m pSrcRgn).rects
    rw [nil_append, nil_append] at hnew
    have hinstall := hsep.install ⟨(s.rgn pSrcRgn).type, (s.rgn pSrcRgn).rcBound, _, _⟩ hm hnew rfl rfl
    rw [update_idem] at hinstall ⊢
    rw [h.type_eq, h.rcBound_eq] at hinstall ⊢
    exact hinstall

theorem set_refines (h : Refines s m) (i : ι) (type : RgnType) (rcBound : Rect)
    : Refines (s.set i s.mem { s.rgn i with type, rcBound })
        (update m i { type, rcBound, rects := (m i).rects }) := by
  obtain ⟨⟨cells, hsep⟩, hm⟩ := h
  have hrep := hsep.rep i
  have hbuilt : Building s.mem (others cells i) ⟨s.mem, (s.rgn i).head, (s.rgn i).tail⟩ (cells i) (m i).rects := by
    constructor
    . exact hrep
    . rw [← hm]
      exact hrep.rects_eq.symm
    . rintro a ha ⟨j, hj, haj⟩
      exact hsep.apart i j (Ne.symm hj) a ha haj
    . rintro a ⟨j, hj, ha⟩
      exact ⟨(hsep.rep j).used a ha, rfl, rfl, rfl⟩
  exact hsep.install { s.rgn i with type, rcBound } hm hbuilt rfl rfl

theorem regionSetExtents_refines (h : Refines s m) (i : ι)
    : Refines (regionSetExtents s i) (update m i (MiniGui.regionSetExtents (m i))) := by
  unfold regionSetExtents
  dsimp only
  split
  next hnull =>
    have hnil := h.head_eq_zero.mp hnull
    have hset := set_refines h i (s.rgn i).type .zero
    have hext : MiniGui.regionSetExtents (m i) = { type := (m i).type, rcBound := .zero, rects := (m i).rects } := by
      unfold MiniGui.regionSetExtents
      rw [hnil]
    rw [hext, ← h.type_eq]
    exact hset
  next hnull =>
    have hrects := h.rects_eq (i := i)
    have hext : MiniGui.regionSetExtents (m i) =
        { type := (m i).type
          rcBound := (s.mem.rects (s.rgn i).head).foldl widenExtents
            ⟨(s.mem.rc (s.rgn i).head).left, (s.mem.rc (s.rgn i).head).top, (s.mem.rc (s.rgn i).tail).right,
              (s.mem.rc (s.rgn i).tail).bottom⟩
          rects := (m i).rects } := by
      obtain ⟨⟨cells, hsep⟩, hm⟩ := h
      have hrep := hsep.rep i
      have htail := hrep.tail_eq
      rw [hrep.head_eq_zero] at hnull
      rw [hrep.rects_eq] at hrects
      unfold MiniGui.regionSetExtents
      rw [hrep.rects_eq, ← hrects, getLast?_map]
      generalize cells i = l at hnull hrep htail
      obtain ⟨a, l, rfl⟩ := exists_cons_of_ne_nil hnull
      have hlast := getLast?_eq_some_getLast (cons_ne_nil a l)
      rw [hlast, Option.getD_some] at htail
      rw [hlast, hrep.head_eq, htail]
      rfl
    rw [hext, ← h.type_eq]
    exact set_refines h i (s.rgn i).type _

theorem finishRegion_refines (h : Refines s m) (i : ι)
    : Refines (finishRegion s i) (MiniGui.finishRegion m i) := by
  have hext := regionSetExtents_refines h i
  have hhead : ((regionSetExtents s i).rgn i).head = 0 ↔ (MiniGui.regionSetExtents (m i)).rects = [] := by
    rw [hext.head_eq_zero, update_self]
  have hset := set_refines hext i
    (if ((regionSetExtents s i).rgn i).head = 0 then .nullRegion else .complexRegion)
    ((regionSetExtents s i).rgn i).rcBound
  rw [update_idem, hext.rcBound_eq, update_self] at hset
  unfold finishRegion MiniGui.finishRegion
  simp only [hhead] at hset ⊢
  rw [hext.rcBound_eq, update_self]
  exact hset

section RegionOp

variable {overlapFunc' : OverlapFunc} {nonOverlap1Func' nonOverlap2Func' : Option NonOverlapFunc}
variable {overlapFunc : MiniGui.OverlapFunc} {nonOverlap1Func nonOverlap2Func : Option MiniGui.NonOverlapFunc}

omit [DecidableEq ι] in
theorem Building.free {mem0 : Mem} {keep keep' : Set Nat} {freed : List Nat}
    (h : Building mem0 keep d l rects) (hsub : ∀ a ∈ keep', a ∈ keep) (hl : ∀ a ∈ freed, a ∉ l)
    (hkeep : ∀ a ∈ freed, a ∉ keep')
    : Building mem0 keep' { d with mem := freed.foldl freeClipRect d.mem } l rects := by
  rw [foldl_freeClipRect]
  constructor
  . refine ⟨h.rep.valid, h.rep.tail_eq, ?_⟩
    intro a ha
    rw [Finset.mem_sdiff, List.mem_toFinset]
    exact ⟨h.rep.used a ha, fun hfreed => hl a hfreed ha⟩
  . exact h.rects_eq
  . exact fun a ha hk => h.apart a ha (hsub a hk)
  intro a ha
  have hkept := h.kept a (hsub a ha)
  rw [Finset.mem_sdiff, List.mem_toFinset]
  exact ⟨⟨hkept.1, fun hfreed => hkeep a hfreed ha⟩, hkept.2⟩

theorem regionOp_refines (h : Refines s m) (hf : Follows overlapFunc' overlapFunc)
    (hf1 : FollowsNonOverlap nonOverlap1Func' nonOverlap1Func)
    (hf2 : FollowsNonOverlap nonOverlap2Func' nonOverlap2Func) (newReg reg1 reg2 : ι)
    : Refines (regionOp overlapFunc' nonOverlap1Func' nonOverlap2Func' s newReg reg1 reg2)
        (MiniGui.regionOp overlapFunc nonOverlap1Func nonOverlap2Func m newReg reg1 reg2) := by
  unfold regionOp MiniGui.regionOp
  rw [h.rects_eq, h.rects_eq]
  by_cases haliased : newReg = reg1 ∨ newReg = reg2
  . simp only [if_pos haliased, h.rcBound_eq]
    generalize (if (m reg1).rcBound.top < (m reg2).rcBound.top then (m reg1).rcBound.top
      else (m reg2).rcBound.top) = ybot
    obtain ⟨⟨cells, hsep⟩, hm⟩ := h
    have hall : ∀ a ∈ { a | ∃ j, a ∈ cells j }, a ∈ s.mem.used := by
      rintro a ⟨j, ha⟩
      exact (hsep.rep j).used a ha
    obtain ⟨l, hbuilt⟩ := regionOpRects_building hall hf hf1 hf2 (m reg1).rects (m reg2).rects ybot
    generalize regionOpRects overlapFunc' nonOverlap1Func' nonOverlap2Func' s.mem (m reg1).rects (m reg2).rects ybot = d
      at hbuilt ⊢
    generalize MiniGui.regionOpRects overlapFunc nonOverlap1Func nonOverlap2Func (m reg1).rects (m reg2).rects ybot = rects
      at hbuilt ⊢
    have hold : Rep d.mem (s.rgn newReg).head (s.rgn newReg).tail (cells newReg) := by
      apply (hsep.rep newReg).congr
      intro a ha
      have hkept := hbuilt.kept a ⟨newReg, ha⟩
      exact ⟨hkept.1, hkept.2.2.1, hkept.2.2.2⟩
    have hfree : Building s.mem (others cells newReg)
        { d with mem := (cells newReg).foldl freeClipRect d.mem } l rects := by
      apply hbuilt.free
      . rintro a ⟨j, _, ha⟩
        exact ⟨j, ha⟩
      . intro a ha hal
        exact hbuilt.apart a hal ⟨newReg, ha⟩
      . rintro a ha ⟨j, hj, haj⟩
        exact hsep.apart newReg j (Ne.symm hj) a ha haj
    have hinstall := hsep.install { initClipRgn with head := d.head, tail := d.tail } hm hfree rfl rfl
    have hset : (emptyClipRgn { s with mem := d.mem } newReg).set newReg
        (emptyClipRgn { s with mem := d.mem } newReg).mem { initClipRgn with head := d.head, tail := d.tail }
          = s.set newReg ((cells newReg).foldl freeClipRect d.mem)
            { initClipRgn with head := d.head, tail := d.tail } := by
      unfold emptyClipRgn Store.set
      rw [hold.chain_head, update_idem]
    rw [hset]
    exact hinstall
  have hempty := emptyClipRgn_refines h newReg
  simp only [if_neg haliased, hempty.rcBound_eq]
  generalize (if (update m newReg MiniGui.emptyClipRgn reg1).rcBound.top
      < (update m newReg MiniGui.emptyClipRgn reg2).rcBound.top then
    (update m newReg MiniGui.emptyClipRgn reg1).rcBound.top
    else (update m newReg MiniGui.emptyClipRgn reg2).rcBound.top) = ybot
  obtain ⟨⟨cells, hsep⟩, hm⟩ := hempty
  obtain ⟨l, hbuilt⟩ := regionOpRects_building (hsep.others_used (i := newReg)) hf hf1 hf2
    (m reg1).rects (m reg2).rects ybot
  generalize regionOpRects overlapFunc' nonOverlap1Func' nonOverlap2Func' _ _ _ ybot = d at hbuilt ⊢
  have hinstall := hsep.install { initClipRgn with head := d.head, tail := d.tail } hm hbuilt rfl rfl
  rw [update_idem] at hinstall ⊢
  exact hinstall

end RegionOp

section Operations

theorem clipRgnIntersect_refines (h : Refines s m) (dst src1 src2 : ι)
    : RefinesResult (clipRgnIntersect heap s dst src1 src2) (MiniGui.clipRgnIntersect m dst src1 src2) := by
  unfold clipRgnIntersect MiniGui.clipRgnIntersect
  simp only [h.head_eq_zero, h.rcBound_eq]
  split
  . exact ⟨rfl, emptyClipRgn_refines h dst⟩
  . refine ⟨rfl, ?_⟩
    apply finishRegion_refines
    exact regionOp_refines h regionIntersectO_follows none_follows none_follows dst src1 src2

theorem subtractRegion_refines (h : Refines s m) (rgnD rgnM rgnS : ι)
    : RefinesResult (subtractRegion heap s rgnD rgnM rgnS) (MiniGui.subtractRegion m rgnD rgnM rgnS) := by
  unfold subtractRegion MiniGui.subtractRegion
  simp only [h.head_eq_zero, h.rcBound_eq]
  split
  . exact ⟨rfl, (clipRgnCopy_refines h rgnD rgnM).2⟩
  . refine ⟨rfl, ?_⟩
    apply finishRegion_refines
    exact regionOp_refines h regionSubtractO_follows regionSubtractNonO1_follows none_follows rgnD rgnM rgnS

theorem copyUnless_refines (h : Refines s m) (dst src : ι)
    : Refines (if dst ≠ src then (clipRgnCopy heap s dst src).2 else s)
        (if dst ≠ src then (MiniGui.clipRgnCopy m dst src).2 else m) := by
  split
  . exact (clipRgnCopy_refines h dst src).2
  . exact h

theorem unionRegion_refines (h : Refines s m) (dst src1 src2 : ι)
    : RefinesResult (unionRegion heap s dst src1 src2) (MiniGui.unionRegion m dst src1 src2) := by
  unfold unionRegion MiniGui.unionRegion
  simp only [h.head_eq_zero]
  split
  . exact ⟨rfl, copyUnless_refines h dst src2⟩
  next hfirst =>
    rw [Bool.or_eq_true, not_or, decide_eq_true_eq, decide_eq_true_eq] at hfirst
    split
    . exact ⟨rfl, copyUnless_refines h dst src1⟩
    next hsecond =>
      rw [h.subsumes_eq hfirst.2, h.subsumes_eq hsecond]
      split
      . exact ⟨rfl, copyUnless_refines h dst src1⟩
      split
      . exact ⟨rfl, copyUnless_refines h dst src2⟩
      . refine ⟨rfl, ?_⟩
        apply finishRegion_refines
        exact regionOp_refines h regionUnionO_follows regionUnionNonO_follows regionUnionNonO_follows dst src1 src2

omit [DecidableEq ι] in
theorem refines_comp {κ : Type} {s : Store κ} {m : RgnStore κ} (h : Refines s m) {f : ι → κ}
    (hf : Injective f)
    : Refines { mem := s.mem, rgn := fun i => s.rgn (f i) } (fun i => m (f i)) := by
  obtain ⟨⟨cells, hsep⟩, hm⟩ := h
  refine ⟨⟨fun i => cells (f i), ?_, ?_⟩, ?_⟩
  . exact fun i => hsep.rep (f i)
  . exact fun i j hij => hsep.apart (f i) (f j) (fun heq => hij (hf heq))
  . rw [← hm]
    rfl

/-- The two scratch regions of `XorRegion` beside its arguments. -/
def withScratch {β : Type} (scratch : β) (f : ι → β) : XorObj ι → β
  | .arg i => f i
  | .tmpa => scratch
  | .tmpb => scratch

theorem xorRegion_refines (h : Refines s m) (dst src1 src2 : ι)
    : RefinesResult (xorRegion heap s dst src1 src2) (MiniGui.xorRegion m dst src1 src2) := by
  let s0 : Store (XorObj ι) := { mem := s.mem, rgn := withScratch initClipRgn s.rgn }
  let m0 := xorStore m
  have hempty : Rep s.mem initClipRgn.head initClipRgn.tail [] := ⟨valid_nil.mpr rfl, rfl, by simp⟩
  have h0 : Refines s0 m0 := by
    obtain ⟨⟨cells, hsep⟩, hm⟩ := h
    refine ⟨⟨withScratch [] cells, ?_, ?_⟩, ?_⟩
    . intro i
      cases i with
      | arg i => exact hsep.rep i
      | tmpa | tmpb => exact hempty
    . intro i j hij a ha
      cases i with
      | arg i =>
        cases j with
        | arg j => exact hsep.apart i j (fun heq => hij (by rw [heq])) a ha
        | tmpa => exact not_mem_nil
        | tmpb => exact not_mem_nil
      | tmpa | tmpb => exact absurd ha not_mem_nil
    funext i
    cases i with
    | arg i =>
      show s.view i = m i
      rw [hm]
    | tmpa | tmpb =>
      show ClipRgn.mk _ _ (s.mem.rects initClipRgn.head) = _
      rw [hempty.rects_eq]
      rfl
  have ha := (@subtractRegion_refines _ _ heap _ _ h0 .tmpa (.arg src1) (.arg src2)).2
  have hb := (@subtractRegion_refines _ _ heap _ _ ha .tmpb (.arg src2) (.arg src1)).2
  have hu := (@unionRegion_refines _ _ heap _ _ hb (.arg dst) .tmpa .tmpb).2
  have hfree := emptyClipRgn_refines (emptyClipRgn_refines hu .tmpa) .tmpb
  refine ⟨rfl, ?_⟩
  have hargs := refines_comp hfree (f := XorObj.arg) (fun i j heq => by injection heq)
  have hrest : (fun i => update (update
      (MiniGui.unionRegion
        (MiniGui.subtractRegion (MiniGui.subtractRegion m0 .tmpa (.arg src1) (.arg src2)).2 .tmpb (.arg src2)
          (.arg src1)).2 (.arg dst) .tmpa .tmpb).2
      .tmpa MiniGui.emptyClipRgn) .tmpb MiniGui.emptyClipRgn (XorObj.arg i)) = (MiniGui.xorRegion m dst src1 src2).2 := by
    funext i
    rw [update_of_ne (by simp), update_of_ne (by simp)]
    rfl
  rw [hrest] at hargs
  exact hargs

end Operations

end Changes

end MiniGui.Cells
