import MiniGui.Gdi.CellMerge

namespace MiniGui.Cells

open List Option

open DList

variable {mem0 : Mem} {keep : Set Nat} {d d' : Dst} {l new : List Nat} {rects rects' : List Rect}

section

variable (h : Building mem0 keep d l rects)
include h

theorem Building.length_eq : l.length = rects.length := by
  rw [← h.rects_eq, length_map]

theorem Building.tailPos_eq : tailPos rects = if l = [] then none else some (l.length - 1) := by
  have hlen := h.length_eq
  unfold tailPos
  rw [hlen]
  by_cases hl : l = []
  . rw [if_pos hl, if_pos]
    rw [hl] at hlen
    exact eq_nil_of_length_eq_zero hlen.symm
  rw [if_neg hl, if_neg]
  intro hnil
  rw [hnil] at hlen
  exact hl (eq_nil_of_length_eq_zero hlen)

theorem Building.tail_at (new : List Nat) : AtPos (l ++ new) d.tail (tailPos rects) := by
  have htail := h.rep.tail_eq
  rw [h.tailPos_eq]
  rcases eq_nil_or_concat l with hnil | ⟨init, y, hconcat⟩
  . rw [if_pos hnil]
    exact h.rep.tail_eq_zero.mpr hnil
  rw [concat_eq_append] at hconcat
  rw [hconcat, getLast?_concat, getD_some] at htail
  rw [hconcat, if_neg (by simp), htail, length_append, length_singleton, Nat.add_sub_cancel]
  show (init ++ [y] ++ new)[init.length]? = some y
  rw [append_assoc, getElem?_append_right (Nat.le_refl _), Nat.sub_self]
  rfl

def BandAt (l : List Nat) (a : Nat) (p : Option Nat) : Prop :=
  AtPos l a p ∧ (p = none → l = [])

theorem coalesceAdded_building {b : Nat} {p : Option Nat}
    (h' : Building mem0 keep d' (l ++ new) rects') (hband : BandAt l b p)
    : ∃ l', Building mem0 keep (coalesceAdded d.tail d' b).1 l' (MiniGui.coalesceAdded (tailPos rects) rects' p).1
        ∧ BandAt l' (coalesceAdded d.tail d' b).2 (MiniGui.coalesceAdded (tailPos rects) rects' p).2 := by
  have htail := h'.rep.tail_eq
  rcases eq_nil_or_concat new with hnil | ⟨init, y, hconcat⟩
  . -- Nothing has been added.
    have hold := h.rep.tail_eq
    rw [hnil, append_nil] at h' htail
    have hsame : d'.tail = d.tail := htail.trans hold.symm
    have hpos : tailPos rects' = tailPos rects := by
      rw [h.tailPos_eq, h'.tailPos_eq]
    unfold coalesceAdded MiniGui.coalesceAdded
    rw [if_neg (fun hne => hne hsame), if_neg (fun hne => hne hpos)]
    exact ⟨l, h', hband⟩
  rw [concat_eq_append] at hconcat
  rw [hconcat, ← append_assoc, getLast?_concat, getD_some] at htail
  have hy : d'.tail ≠ d.tail := by
    intro heq
    have hnodup := h'.rep.valid.nodup
    have hyne : y ≠ 0 := h'.rep.valid.ne_nil (by rw [hconcat]; simp)
    have hold := h.rep.tail_eq
    rw [← heq, htail] at hold
    cases hlast : l.getLast? with
    | none =>
      rw [hlast] at hold
      exact hyne hold
    | some z =>
      rw [hlast, getD_some] at hold
      rw [hconcat, nodup_append] at hnodup
      exact hnodup.2.2 z (mem_of_getLast? hlast) y (by simp) hold.symm
  have hpos : tailPos rects' ≠ tailPos rects := by
    rw [h.tailPos_eq, h'.tailPos_eq, if_neg (by rw [hconcat]; simp)]
    split
    . simp
    next hl =>
      have hlpos := length_pos_iff.mpr hl
      rw [hconcat, Ne, Option.some.injEq, length_append, length_append, length_singleton]
      omega
  have hprev : AtPos (l ++ new) b p := by
    cases p with
    | none => exact hband.1
    | some i =>
      have hi : l[i]? = some b := hband.1
      show (l ++ new)[i]? = some b
      rw [getElem?_append_left (List.getElem?_eq_some_iff.mp hi).1]
      exact hi
  have hle : p.getD 0 ≤ (tailPos rects).getD 0 := by
    rw [h.tailPos_eq]
    cases p with
    | none => exact Nat.zero_le _
    | some i =>
      have hi : l[i]? = some b := hband.1
      have hlt := (List.getElem?_eq_some_iff.mp hi).1
      rw [if_neg (ne_nil_of_length_pos (by omega)), getD_some, getD_some]
      omega
  obtain ⟨l', hbuild, hat⟩ := regionCoalesce_building h' hprev (h.tail_at new) hle (by rw [hconcat]; simp)
  unfold coalesceAdded MiniGui.coalesceAdded
  rw [if_pos hy, if_pos hpos]
  refine ⟨l', hbuild, hat, ?_⟩
  intro hnone
  contradiction

end

section Sweep

variable {overlapFunc' : OverlapFunc} {nonOverlap1Func' nonOverlap2Func' : Option NonOverlapFunc}
variable {overlapFunc : MiniGui.OverlapFunc} {nonOverlap1Func nonOverlap2Func : Option MiniGui.NonOverlapFunc}

structure StateRep (mem0 : Mem) (keep : Set Nat) (s' : RegionOpState) (s : MiniGui.RegionOpState) : Prop where
  built : ∃ l, Building mem0 keep s'.pdst l s.pdst ∧ BandAt l s'.prevBand s.prevBand
  r1_eq : s'.r1 = s.r1
  r2_eq : s'.r2 = s.r2
  ybot_eq : s'.ybot = s.ybot

variable {s : MiniGui.RegionOpState} {s' : RegionOpState}

theorem nonIntersecting_building
    (h : Building mem0 keep s'.pdst l s.pdst) (h1 : s'.r1 = s.r1) (h2 : s'.r2 = s.r2) (hy : s'.ybot = s.ybot)
    (hf1 : FollowsNonOverlap nonOverlap1Func' nonOverlap1Func)
    (hf2 : FollowsNonOverlap nonOverlap2Func' nonOverlap2Func) (a b : Rect)
    : (∃ new, Building mem0 keep (nonIntersecting nonOverlap1Func' nonOverlap2Func' s' a b).1 (l ++ new)
          (MiniGui.nonIntersecting nonOverlap1Func nonOverlap2Func s a b).1)
        ∧ (nonIntersecting nonOverlap1Func' nonOverlap2Func' s' a b).2
          = (MiniGui.nonIntersecting nonOverlap1Func nonOverlap2Func s a b).2 := by
  unfold nonIntersecting MiniGui.nonIntersecting
  rw [h1, h2, hy]
  split
  . refine ⟨?_, rfl⟩
    dsimp only
    split
    . exact hf1 h _ _ _
    . exact building_self h
  split
  . refine ⟨?_, rfl⟩
    dsimp only
    split
    . exact hf2 h _ _ _
    . exact building_self h
  . exact ⟨building_self h, rfl⟩

theorem regionOpStep_rep (h : StateRep mem0 keep s' s)
    (hf : Follows overlapFunc' overlapFunc) (hf1 : FollowsNonOverlap nonOverlap1Func' nonOverlap1Func)
    (hf2 : FollowsNonOverlap nonOverlap2Func' nonOverlap2Func) (a b : Rect)
    : StateRep mem0 keep (regionOpStep overlapFunc' nonOverlap1Func' nonOverlap2Func' s' a b)
        (MiniGui.regionOpStep overlapFunc nonOverlap1Func nonOverlap2Func s a b) := by
  obtain ⟨l, hbuilt, hband⟩ := h.built
  obtain ⟨⟨new, hnon⟩, hytop⟩ := nonIntersecting_building hbuilt h.r1_eq h.r2_eq h.ybot_eq hf1 hf2 a b
  obtain ⟨l1, hbuilt1, hband1⟩ := coalesceAdded_building hbuilt hnon hband
  unfold regionOpStep MiniGui.regionOpStep
  dsimp only
  rw [hytop, h.r1_eq, h.r2_eq]
  generalize (coalesceAdded s'.pdst.tail _ s'.prevBand) = mid' at hbuilt1 hband1 ⊢
  generalize (MiniGui.coalesceAdded (tailPos s.pdst) _ s.prevBand) = mid at hbuilt1 hband1 ⊢
  have hover : ∃ new, Building mem0 keep
      (if min a.bottom b.bottom > (MiniGui.nonIntersecting nonOverlap1Func nonOverlap2Func s a b).2 then
        overlapFunc' mid'.1 (curBand s.r1) (curBand s.r2)
          (MiniGui.nonIntersecting nonOverlap1Func nonOverlap2Func s a b).2 (min a.bottom b.bottom)
      else mid'.1)
      (l1 ++ new)
      (if min a.bottom b.bottom > (MiniGui.nonIntersecting nonOverlap1Func nonOverlap2Func s a b).2 then
        overlapFunc mid.1 (curBand s.r1) (curBand s.r2)
          (MiniGui.nonIntersecting nonOverlap1Func nonOverlap2Func s a b).2 (min a.bottom b.bottom)
      else mid.1) := by
    split
    . exact hf hbuilt1 _ _ _ _
    . exact building_self hbuilt1
  obtain ⟨new2, hover⟩ := hover
  constructor
  . exact coalesceAdded_building hbuilt1 hover hband1
  . rfl
  . rfl
  . rfl

theorem regionOpLoop_rep (h : StateRep mem0 keep s' s)
    (hf : Follows overlapFunc' overlapFunc) (hf1 : FollowsNonOverlap nonOverlap1Func' nonOverlap1Func)
    (hf2 : FollowsNonOverlap nonOverlap2Func' nonOverlap2Func)
    : StateRep mem0 keep (regionOpLoop overlapFunc' nonOverlap1Func' nonOverlap2Func' s')
        (MiniGui.regionOpLoop overlapFunc nonOverlap1Func nonOverlap2Func s) := by
  fun_induction MiniGui.regionOpLoop overlapFunc nonOverlap1Func nonOverlap2Func s generalizing s' with
  | case1 s a l1 b l2 h1 h2 ih =>
    have hstep := ih (regionOpStep_rep h hf hf1 hf2 a b)
    rw [regionOpLoop]
    rw [← h.r1_eq] at h1
    rw [← h.r2_eq] at h2
    split
    next a' l1' b' l2' h1' h2' =>
      rw [h1, List.cons.injEq] at h1'
      rw [h2, List.cons.injEq] at h2'
      rw [← h1'.1, ← h2'.1]
      exact hstep
    next hnone => exact absurd h2 (hnone a l1 b l2 h1)
  | case2 s hnone =>
    rw [regionOpLoop]
    split
    next a l1 b l2 h1 h2 =>
      rw [h.r1_eq] at h1
      rw [h.r2_eq] at h2
      exact absurd h2 (hnone a l1 b l2 h1)
    next => exact h

theorem nonOverlapRest_nil (f : Option NonOverlapFunc) (ybot : Int) (d : Dst)
    : nonOverlapRest f ybot d [] = d := by
  cases f with
  | none => rfl
  | some f =>
    unfold nonOverlapRest
    dsimp only
    rw [regionOpRest]

theorem nonOverlapRest_cons (f : Option NonOverlapFunc) (ybot : Int) (d : Dst) (a : Rect) (r : List Rect)
    : nonOverlapRest f ybot d (a :: r)
        = nonOverlapRest f ybot (callNonOverlap f d (curBand (a :: r)) (max a.top ybot) a.bottom)
          (bandEnd (a :: r)) := by
  cases f with
  | none => rfl
  | some f =>
    unfold nonOverlapRest callNonOverlap
    dsimp only
    rw [regionOpRest]

theorem rest_nil (f : Option MiniGui.NonOverlapFunc) (ybot : Int) (rects : List Rect)
    : MiniGui.nonOverlapRest f ybot rects [] = rects := by
  cases f with
  | none => rfl
  | some f =>
    unfold MiniGui.nonOverlapRest
    dsimp only
    rw [MiniGui.regionOpRest]

theorem rest_cons (f : Option MiniGui.NonOverlapFunc) (ybot : Int) (rects : List Rect) (a : Rect) (r : List Rect)
    : MiniGui.nonOverlapRest f ybot rects (a :: r)
        = MiniGui.nonOverlapRest f ybot (MiniGui.callNonOverlap f rects (curBand (a :: r)) (max a.top ybot) a.bottom)
          (bandEnd (a :: r)) := by
  cases f with
  | none => rfl
  | some f =>
    unfold MiniGui.nonOverlapRest MiniGui.callNonOverlap
    dsimp only
    rw [MiniGui.regionOpRest]

theorem nonOverlapRest_building {f' : Option NonOverlapFunc} {f : Option MiniGui.NonOverlapFunc}
    (h : Building mem0 keep d l rects) (hf : FollowsNonOverlap f' f) (ybot : Int) (r : List Rect)
    : ∃ new, Building mem0 keep (nonOverlapRest f' ybot d r) (l ++ new) (MiniGui.nonOverlapRest f ybot rects r) := by
  -- The bands are dropped from the front.
  induction hn : r.length using Nat.strong_induction_on generalizing r d l rects with
  | _ n ih =>
    cases r with
    | nil =>
      rw [nonOverlapRest_nil, rest_nil]
      exact building_self h
    | cons a r =>
      obtain ⟨new, hnew⟩ := hf h (curBand (a :: r)) (max a.top ybot) a.bottom
      have hlt := bandEnd_length_lt a r
      rw [nonOverlapRest_cons, rest_cons]
      apply exists_append
      apply ih (bandEnd (a :: r)).length _ hnew _ rfl
      rw [← hn]
      exact hlt

theorem regionOpRects_building {mem : Mem} (hkeep : ∀ a ∈ keep, a ∈ mem.used)
    (hf : Follows overlapFunc' overlapFunc) (hf1 : FollowsNonOverlap nonOverlap1Func' nonOverlap1Func)
    (hf2 : FollowsNonOverlap nonOverlap2Func' nonOverlap2Func) (r1 r2 : List Rect) (ybot : Int)
    : ∃ l, Building mem keep (regionOpRects overlapFunc' nonOverlap1Func' nonOverlap2Func' mem r1 r2 ybot) l
        (MiniGui.regionOpRects overlapFunc nonOverlap1Func nonOverlap2Func r1 r2 ybot) := by
  have hinit : StateRep mem keep
      { r1, r2, pdst := { mem, head := 0, tail := 0 }, prevBand := 0, ybot }
      { r1, r2, pdst := [], prevBand := none, ybot } := by
    constructor
    . exact ⟨[], building_empty hkeep, rfl, fun _ => rfl⟩
    . rfl
    . rfl
    . rfl
  have hloop := regionOpLoop_rep hinit hf hf1 hf2
  unfold regionOpRects MiniGui.regionOpRects
  dsimp only
  generalize regionOpLoop overlapFunc' nonOverlap1Func' nonOverlap2Func' _ = s' at hloop ⊢
  generalize MiniGui.regionOpLoop overlapFunc nonOverlap1Func nonOverlap2Func _ = s at hloop ⊢
  obtain ⟨l, hbuilt, hband⟩ := hloop.built
  rw [hloop.r1_eq, hloop.r2_eq, hloop.ybot_eq]
  split
  . obtain ⟨new, hnew⟩ := nonOverlapRest_building hbuilt hf1 s.ybot s.r1
    obtain ⟨l', hres, _⟩ := coalesceAdded_building hbuilt hnew hband
    exact ⟨l', hres⟩
  . obtain ⟨new, hnew⟩ := nonOverlapRest_building hbuilt hf2 s.ybot s.r2
    obtain ⟨l', hres, _⟩ := coalesceAdded_building hbuilt hnew hband
    exact ⟨l', hres⟩

end Sweep

end MiniGui.Cells
