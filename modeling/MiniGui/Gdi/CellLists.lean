import MiniGui.Gdi.ClipCells

namespace MiniGui.Cells

open Function List

open DList Chain

structure Rep (mem : Mem) (head tail : Nat) (l : List Nat) : Prop where
  valid : Valid 0 mem.next mem.prev head l
  tail_eq : tail = l.getLast?.getD 0
  used : ∀ a ∈ l, a ∈ mem.used

structure Building (mem0 : Mem) (keep : Set Nat) (d : Dst) (l : List Nat) (rects : List Rect) : Prop where
  rep : Rep d.mem d.head d.tail l
  rects_eq : l.map d.mem.rc = rects
  apart : ∀ a ∈ l, a ∉ keep
  kept : ∀ a ∈ keep, a ∈ d.mem.used ∧ d.mem.rc a = mem0.rc a ∧ d.mem.next a = mem0.next a ∧ d.mem.prev a = mem0.prev a

section Walk

variable {mem : Mem} {head tail a : Nat} {l l1 l2 : List Nat}

theorem walk_eq {next : Nat → Nat} {n : Nat} (h : Linked (fun a => link 0 (next a)) (link 0 a) l)
    (hn : l.length ≤ n) : walk next n a = l := by
  induction l generalizing a n with
  | nil =>
    have hnil := linked_nil.mp h
    rw [link_eq_none] at hnil
    cases n with
    | zero => rfl
    | succ n => exact if_pos hnil
  | cons b l ih =>
    rw [linked_cons, link_eq_some] at h
    cases n with
    | zero => contradiction
    | succ n =>
      rw [length_cons] at hn
      rw [walk, h.1.1, if_neg h.1.2, ih h.2 (by omega)]

theorem Rep.length_le (h : Rep mem head tail l) : l.length ≤ mem.used.card := by
  rw [← toFinset_card_of_nodup h.valid.nodup]
  apply Finset.card_le_card
  intro a ha
  exact h.used a (List.mem_toFinset.mp ha)

theorem Rep.chain_head (h : Rep mem head tail l) : mem.chain head = l :=
  walk_eq h.valid.forward h.length_le

theorem Rep.chain_eq (h : Rep mem head tail (l1 ++ a :: l2)) : mem.chain a = a :: l2 := by
  have hlen := h.length_le
  have hf := h.valid.forward
  rw [Linked, seg_append] at hf
  obtain ⟨mid, _, hm⟩ := hf
  apply walk_eq
  . have hne : a ≠ 0 := h.valid.ne_nil (by simp)
    rw [linked_cons]
    exact ⟨link_eq_some.mpr ⟨rfl, hne⟩, hm.2⟩
  . rw [length_append] at hlen
    omega

theorem Rep.rects_eq (h : Rep mem head tail l) : mem.rects head = l.map mem.rc := by
  unfold Mem.rects
  rw [h.chain_head]

theorem Rep.head_eq_zero (h : Rep mem head tail l) : head = 0 ↔ l = [] := by
  constructor
  . intro heq
    rw [Linked.eq_nil_iff h.valid.forward, link_eq_none]
    exact heq
  intro heq
  have hvalid := h.valid
  rw [heq] at hvalid
  exact valid_nil.mp hvalid

theorem Rep.tail_eq_zero (h : Rep mem head tail l) : tail = 0 ↔ l = [] := by
  rw [h.tail_eq]
  constructor
  . intro heq
    cases hlast : l.getLast? with
    | none => exact getLast?_eq_none_iff.mp hlast
    | some y =>
      rw [hlast] at heq
      exact absurd heq (h.valid.ne_nil (mem_of_getLast? hlast))
  . intro heq
    rw [heq]
    rfl

theorem Rep.head_eq (h : Rep mem head tail (a :: l)) : head = a := by
  have hf := h.valid.forward
  rw [linked_cons, link_eq_some] at hf
  exact hf.1.1

theorem Rep.congr {mem' : Mem} (h : Rep mem head tail l)
    (hmem : ∀ a ∈ l, a ∈ mem'.used ∧ mem'.next a = mem.next a ∧ mem'.prev a = mem.prev a)
    : Rep mem' head tail l := by
  constructor
  . exact h.valid.congr (fun a ha => (hmem a ha).2.1) (fun a ha => (hmem a ha).2.2)
  . exact h.tail_eq
  . exact fun a ha => (hmem a ha).1

end Walk

section Build

variable {heap : BlockHeap} {mem0 : Mem} {keep : Set Nat} {d : Dst} {l : List Nat} {rects : List Rect}

theorem building_empty {mem : Mem} (h : ∀ a ∈ keep, a ∈ mem.used)
    : Building mem keep { mem, head := 0, tail := 0 } [] [] := by
  constructor
  . exact ⟨valid_nil.mpr rfl, rfl, by simp⟩
  . rfl
  . simp
  . intro a ha
    exact ⟨h a ha, rfl, rfl, rfl⟩

theorem newClipRect_building (h : Building mem0 keep d l rects) (rect : Rect)
    : ∃ a, Building mem0 keep (newClipRect heap d rect) (l ++ [a]) (rects ++ [rect]) := by
  have hfresh := heap.fresh d.mem.used
  have hnull := heap.ne_null d.mem.used
  generalize ha : heap.alloc d.mem.used = a at hfresh hnull
  have hnew : a ∉ l := fun hmem => hfresh (h.rep.used a hmem)
  have hkeep : a ∉ keep := fun hmem => hfresh (h.kept a hmem).1
  have htail := h.rep.tail_eq
  refine ⟨a, ?_, ?_, ?_, ?_⟩
  . constructor
    . have hhead : (newClipRect heap d rect).head = if l = [] then a else d.head := by
        unfold newClipRect
        dsimp only
        rw [ha]
        by_cases hl : l = []
        . rw [if_pos hl, if_pos (h.rep.head_eq_zero.mpr hl)]
        . rw [if_neg hl, if_neg (fun heq => hl (h.rep.head_eq_zero.mp heq))]
      rw [hhead]
      apply h.rep.valid.concat hnull hnew
      . intro b
        unfold newClipRect
        dsimp only
        rw [ha]
        cases hlast : l.getLast? with
        | none =>
          rw [hlast] at htail
          rw [if_neg (by simpa using htail)]
          by_cases hb : b = a
          . rw [if_pos hb, hb, update_self]
          . rw [if_neg hb, if_neg (by simp), update_of_ne hb]
        | some y =>
          rw [hlast, Option.getD_some] at htail
          have hy : y ∈ l := mem_of_getLast? hlast
          have hya : y ≠ a := fun heq => hnew (heq ▸ hy)
          rw [if_pos (by rw [htail]; exact h.rep.valid.ne_nil hy), htail]
          by_cases hb : b = a
          . rw [if_pos hb, hb, update_of_ne (Ne.symm hya), update_self]
          rw [if_neg hb]
          by_cases hby : b = y
          . rw [hby, update_self, if_pos rfl]
          . rw [update_of_ne hby, update_of_ne hb, if_neg]
            rw [Option.some.injEq]
            exact Ne.symm hby
      intro b
      unfold newClipRect
      dsimp only
      rw [ha]
      by_cases hb : b = a
      . rw [if_pos hb, hb, update_self, htail]
      . rw [if_neg hb, update_of_ne hb]
    . rw [getLast?_concat]
      exact ha
    intro b hb
    unfold newClipRect
    rw [ha, Finset.mem_insert]
    rw [mem_append, mem_singleton] at hb
    rcases hb with hb | hb
    . exact .inr (h.rep.used b hb)
    . exact .inl hb
  . unfold newClipRect
    dsimp only
    rw [ha, map_append, map_singleton, update_self, ← h.rects_eq]
    congr 1
    apply map_congr_left
    intro b hb
    rw [update_of_ne]
    exact fun heq => hnew (heq ▸ hb)
  . intro b hb
    rw [mem_append, mem_singleton] at hb
    rcases hb with hb | hb
    . exact h.apart b hb
    . rw [hb]
      exact hkeep
  intro b hb
  have hba : b ≠ a := fun heq => hkeep (heq ▸ hb)
  have hkept := h.kept b hb
  unfold newClipRect
  dsimp only
  rw [ha, update_of_ne hba, update_of_ne hba, Finset.mem_insert]
  refine ⟨.inr hkept.1, hkept.2.1, ?_, hkept.2.2.2⟩
  rw [← hkept.2.2.1]
  split
  next hne =>
    have hbt : b ≠ d.tail := by
      intro heq
      apply h.apart b _ hb
      rw [heq, htail]
      cases hlast : l.getLast? with
      | none =>
        rw [hlast] at htail
        exact absurd htail hne
      | some y => exact mem_of_getLast? hlast
    rw [update_of_ne hbt, update_of_ne hba]
  next => rw [update_of_ne hba]

theorem setRc_building (h : Building mem0 keep d l rects) {a : Nat} (ha : a ∈ l) (rc : Rect)
    : Building mem0 keep { d with mem := setRc d.mem a rc } l (l.map (update d.mem.rc a rc)) := by
  constructor
  . exact ⟨h.rep.valid, h.rep.tail_eq, h.rep.used⟩
  . rfl
  . exact h.apart
  intro b hb
  have hba : b ≠ a := fun heq => h.apart a ha (heq ▸ hb)
  have hkept := h.kept b hb
  refine ⟨hkept.1, ?_, hkept.2.2⟩
  show update d.mem.rc a rc b = _
  rw [update_of_ne hba, hkept.2.1]

theorem mergeRect_building (h : Building mem0 keep d l rects) (r : Rect) (top bottom : Int)
    : ∃ new, Building mem0 keep (mergeRect heap d r top bottom) (l ++ new) (MiniGui.mergeRect rects r top bottom) := by
  have htail := h.rep.tail_eq
  have hhead := h.rep.head_eq_zero
  have hnew := @newClipRect_building heap _ _ _ _ _ h ⟨r.left, top, r.right, bottom⟩
  unfold mergeRect MiniGui.mergeRect
  rcases eq_nil_or_concat l with hnil | ⟨init, y, hconcat⟩
  . have hrects : rects = [] := by
      rw [← h.rects_eq, hnil]
      rfl
    rw [if_neg (fun hand => hand.1 (hhead.mpr hnil)), hrects]
    obtain ⟨a, ha⟩ := hnew
    rw [hrects] at ha
    exact ⟨[a], ha⟩
  rw [concat_eq_append] at hconcat
  rw [hconcat, getLast?_concat, Option.getD_some] at htail
  rw [← htail] at hconcat
  have hy : d.tail ∈ l := by
    rw [hconcat]
    simp
  have hrects : rects = init.map d.mem.rc ++ [d.mem.rc d.tail] := by
    rw [← h.rects_eq, hconcat, map_append]
    rfl
  have hlast : rects.getLast? = some (d.mem.rc d.tail) := by
    rw [hrects, getLast?_concat]
  have hne : d.head ≠ 0 := by
    intro heq
    rw [hhead.mp heq] at hy
    contradiction
  rw [hlast]
  dsimp only
  by_cases hfit : (d.mem.rc d.tail).top = top ∧ (d.mem.rc d.tail).bottom = bottom
      ∧ (d.mem.rc d.tail).right ≥ r.left
  . rw [if_pos ⟨hne, hfit⟩, if_pos hfit]
    split
    . refine ⟨[], ?_⟩
      have hset := setRc_building h hy { d.mem.rc d.tail with right := r.right }
      have hmap : l.map (update d.mem.rc d.tail { d.mem.rc d.tail with right := r.right }) =
          rects.dropLast ++ [{ d.mem.rc d.tail with right := r.right }] := by
        have hnodup := h.rep.valid.nodup
        rw [hconcat, nodup_append] at hnodup
        rw [hrects, dropLast_concat, hconcat, map_append, map_singleton, update_self]
        congr 1
        apply map_congr_left
        intro b hb
        rw [update_of_ne]
        exact hnodup.2.2 b hb d.tail (by simp)
      rw [hmap] at hset
      rw [append_nil]
      exact hset
    . refine ⟨[], ?_⟩
      rw [append_nil]
      exact h
  . rw [if_neg (fun hand => hfit hand.2), if_neg hfit]
    obtain ⟨a, ha⟩ := hnew
    exact ⟨[a], ha⟩

end Build

section Callbacks

def Follows (f' : OverlapFunc) (f : MiniGui.OverlapFunc) : Prop :=
  ∀ {mem0 keep d l rects}, Building mem0 keep d l rects → ∀ r1 r2 top bottom,
    ∃ new, Building mem0 keep (f' d r1 r2 top bottom) (l ++ new) (f rects r1 r2 top bottom)

def FollowsNonOverlap (f' : Option NonOverlapFunc) (f : Option MiniGui.NonOverlapFunc) : Prop :=
  ∀ {mem0 keep d l rects}, Building mem0 keep d l rects → ∀ r top bottom,
    ∃ new, Building mem0 keep (callNonOverlap f' d r top bottom) (l ++ new)
      (MiniGui.callNonOverlap f rects r top bottom)

variable {heap : BlockHeap} {mem0 : Mem} {keep : Set Nat} {d : Dst} {l : List Nat} {rects : List Rect}

theorem exists_append {d' : Dst} {rects' : List Rect} {new1 : List Nat}
    (h : ∃ new, Building mem0 keep d' (l ++ new1 ++ new) rects')
    : ∃ new, Building mem0 keep d' (l ++ new) rects' := by
  obtain ⟨new, hnew⟩ := h
  rw [append_assoc] at hnew
  exact ⟨_, hnew⟩

theorem emit_building (h : Building mem0 keep d l rects) (rect : Rect) (p : Prop) [Decidable p]
    : ∃ new, Building mem0 keep (if p then newClipRect heap d rect else d) (l ++ new)
        (if p then MiniGui.newClipRect rects rect else rects) := by
  split
  . obtain ⟨a, ha⟩ := @newClipRect_building heap _ _ _ _ _ h rect
    exact ⟨[a], ha⟩
  . refine ⟨[], ?_⟩
    rw [append_nil]
    exact h

theorem add_building (h : Building mem0 keep d l rects) (rect : Rect)
    : ∃ new, Building mem0 keep (newClipRect heap d rect) (l ++ new) (MiniGui.newClipRect rects rect) := by
  obtain ⟨a, ha⟩ := @newClipRect_building heap _ _ _ _ _ h rect
  exact ⟨[a], ha⟩

theorem building_self (h : Building mem0 keep d l rects)
    : ∃ new, Building mem0 keep d (l ++ new) rects := by
  refine ⟨[], ?_⟩
  rw [append_nil]
  exact h

theorem regionIntersectO_follows : Follows (regionIntersectO heap) MiniGui.regionIntersectO := by
  intro mem0 keep d l rects h r1 r2 top bottom
  fun_induction MiniGui.regionIntersectO rects r1 r2 top bottom generalizing d l with
  | case1 rects a r1 b r2 _ _ _ =>
    rename_i hlt ih
    obtain ⟨new, hnew⟩ := @emit_building heap _ _ _ _ _ h
      ⟨max a.left b.left, top, min a.right b.right, bottom⟩ (max a.left b.left < min a.right b.right) _
    rw [regionIntersectO, if_pos hlt]
    exact exists_append (ih hnew)
  | case2 rects a r1 b r2 _ _ _ =>
    rename_i hle hlt ih
    obtain ⟨new, hnew⟩ := @emit_building heap _ _ _ _ _ h
      ⟨max a.left b.left, top, min a.right b.right, bottom⟩ (max a.left b.left < min a.right b.right) _
    rw [regionIntersectO, if_neg hle, if_pos hlt]
    exact exists_append (ih hnew)
  | case3 rects a r1 b r2 _ _ _ =>
    rename_i hle hge ih
    obtain ⟨new, hnew⟩ := @emit_building heap _ _ _ _ _ h
      ⟨max a.left b.left, top, min a.right b.right, bottom⟩ (max a.left b.left < min a.right b.right) _
    rw [regionIntersectO, if_neg hle, if_neg hge]
    exact exists_append (ih hnew)
  | case4 rects r1 r2 hnone =>
    have hdone : regionIntersectO heap d r1 r2 top bottom = d := by
      rw [regionIntersectO]
      exact hnone
    rw [hdone]
    exact building_self h

theorem regionUnionNonO_follows
    : FollowsNonOverlap (some (regionUnionNonO heap)) (some MiniGui.regionUnionNonO) := by
  intro mem0 keep d l rects h r top bottom
  unfold callNonOverlap MiniGui.callNonOverlap
  induction r generalizing d l rects with
  | nil => exact building_self h
  | cons a r ih =>
    obtain ⟨new, hnew⟩ := @add_building heap _ _ _ _ _ h ⟨a.left, top, a.right, bottom⟩
    exact exists_append (ih hnew)

theorem regionSubtractNonO1_follows
    : FollowsNonOverlap (some (regionSubtractNonO1 heap)) (some MiniGui.regionSubtractNonO1) := by
  intro mem0 keep d l rects h r top bottom
  unfold callNonOverlap MiniGui.callNonOverlap
  induction r generalizing d l rects with
  | nil => exact building_self h
  | cons a r ih =>
    obtain ⟨new, hnew⟩ := @add_building heap _ _ _ _ _ h ⟨a.left, top, a.right, bottom⟩
    exact exists_append (ih hnew)

theorem none_follows : FollowsNonOverlap none none := by
  intro mem0 keep d l rects h r top bottom
  exact building_self h

theorem regionUnionO_follows : Follows (regionUnionO heap) MiniGui.regionUnionO := by
  intro mem0 keep d l rects h r1 r2 top bottom
  fun_induction MiniGui.regionUnionO rects r1 r2 top bottom generalizing d l with
  | case1 rects a r1 b r2 hlt ih =>
    obtain ⟨new, hnew⟩ := @mergeRect_building heap _ _ _ _ _ h a top bottom
    rw [regionUnionO, if_pos hlt]
    exact exists_append (ih hnew)
  | case2 rects a r1 b r2 hle ih =>
    obtain ⟨new, hnew⟩ := @mergeRect_building heap _ _ _ _ _ h b top bottom
    rw [regionUnionO, if_neg hle]
    exact exists_append (ih hnew)
  | case3 rects a r1 ih =>
    obtain ⟨new, hnew⟩ := @mergeRect_building heap _ _ _ _ _ h a top bottom
    rw [regionUnionO]
    exact exists_append (ih hnew)
  | case4 rects b r2 ih =>
    obtain ⟨new, hnew⟩ := @mergeRect_building heap _ _ _ _ _ h b top bottom
    rw [regionUnionO]
    exact exists_append (ih hnew)
  | case5 rects =>
    rw [regionUnionO]
    exact building_self h

theorem advance_eq (left : Int) (r : List Rect)
    : regionSubtractO.advance left r = MiniGui.regionSubtractO.advance left r := by
  cases r with
  | nil => rfl
  | cons a r => rfl

theorem regionSubtractO_go_follows (left : Int) (h : Building mem0 keep d l rects) (r1 r2 : List Rect)
    (top bottom : Int)
    : ∃ new, Building mem0 keep (regionSubtractO.go heap top bottom left d r1 r2) (l ++ new)
        (MiniGui.regionSubtractO.go top bottom left rects r1 r2) := by
  fun_induction MiniGui.regionSubtractO.go top bottom left rects r1 r2 generalizing d l with
  | case1 left rects r2 =>
    rw [regionSubtractO.go]
    exact building_self h
  | case2 left rects a r1 ih =>
    obtain ⟨new, hnew⟩ := @add_building heap _ _ _ _ _ h ⟨left, top, a.right, bottom⟩
    rw [regionSubtractO.go, advance_eq]
    exact exists_append (ih hnew)
  | case3 left rects a r1 b r2 hmissed ih =>
    rw [regionSubtractO.go, if_pos hmissed]
    exact ih h
  | case4 left rects a r1 b r2 hmissed hprecedes hcovers ih =>
    rw [regionSubtractO.go, if_neg hmissed, if_pos hprecedes, if_pos hcovers, advance_eq]
    exact ih h
  | case5 left rects a r1 b r2 hmissed hprecedes hcovers ih =>
    rw [regionSubtractO.go, if_neg hmissed, if_pos hprecedes, if_neg hcovers]
    exact ih h
  | case6 left rects a r1 b r2 hmissed hprecedes hleft _ =>
    rename_i hcovers ih
    obtain ⟨new, hnew⟩ := @add_building heap _ _ _ _ _ h ⟨left, top, b.left, bottom⟩
    rw [regionSubtractO.go, if_neg hmissed, if_neg hprecedes, if_pos hleft]
    rw [if_pos hcovers, advance_eq]
    exact exists_append (ih hnew)
  | case7 left rects a r1 b r2 hmissed hprecedes hleft _ =>
    rename_i hcovers ih
    obtain ⟨new, hnew⟩ := @add_building heap _ _ _ _ _ h ⟨left, top, b.left, bottom⟩
    rw [regionSubtractO.go, if_neg hmissed, if_neg hprecedes, if_pos hleft]
    rw [if_neg hcovers]
    exact exists_append (ih hnew)
  | case8 left rects a r1 b r2 hmissed hprecedes hleft _ =>
    rename_i ih
    obtain ⟨new, hnew⟩ := @emit_building heap _ _ _ _ _ h ⟨left, top, a.right, bottom⟩ (a.right > left) _
    rw [regionSubtractO.go, if_neg hmissed, if_neg hprecedes, if_neg hleft, advance_eq]
    exact exists_append (ih hnew)

theorem regionSubtractO_follows : Follows (regionSubtractO heap) MiniGui.regionSubtractO := by
  intro mem0 keep d l rects h r1 r2 top bottom
  cases r1 with
  | nil => exact building_self h
  | cons a r1 => exact regionSubtractO_go_follows a.left h (a :: r1) r2 top bottom

end Callbacks

end MiniGui.Cells
