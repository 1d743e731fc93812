import MiniGui.Gdi.Polygon

namespace MiniGui

open List

variable {e : PolygonEdge} {list activeEdges inactiveEdges : List PolygonEdge}
  {enter : Int → List PolygonEdge} {c y : Int} {rcOutput : Rect}

section Place

variable {before : PolygonEdge → Bool} {edge : PolygonEdge}

theorem placeEdge_perm (list : List PolygonEdge) : (placeEdge edge before list).Perm (edge :: list) := by
  induction list with
  | nil => exact List.Perm.refl _
  | cons pos next ih =>
    unfold placeEdge
    split
    . exact (ih.cons pos).trans (List.Perm.swap edge pos next)
    . exact List.Perm.refl _

theorem mem_placeEdge : e ∈ placeEdge edge before list ↔ e = edge ∨ e ∈ list := by
  rw [(placeEdge_perm list).mem_iff, mem_cons]

theorem placeEdge_pairwise {R : PolygonEdge → PolygonEdge → Prop} (htrans : ∀ a b c, R a b → R b c → R a c) (hbefore : ∀ pos ∈ list, before pos = true → R pos edge)
    (hafter : ∀ pos ∈ list, before pos = false → R edge pos) (h : list.Pairwise R)
    : (placeEdge edge before list).Pairwise R := by
  induction list with
  | nil => exact pairwise_singleton R edge
  | cons pos next ih =>
    rw [pairwise_cons] at h
    unfold placeEdge
    split
    next hpos =>
      rw [pairwise_cons]
      constructor
      . intro e he
        cases mem_placeEdge.mp he with
        | inl heq =>
          rw [heq]
          exact hbefore pos (mem_cons_self) hpos
        | inr hmem => exact h.1 e hmem
      apply ih
      . intro e he
        exact hbefore e (mem_cons_of_mem pos he)
      . intro e he
        exact hafter e (mem_cons_of_mem pos he)
      . exact h.2
    next hpos =>
      have hedge : R edge pos := hafter pos mem_cons_self (Bool.eq_false_iff.mpr hpos)
      rw [pairwise_cons]
      constructor
      . intro e he
        cases mem_cons.mp he with
        | inl heq =>
          rw [heq]
          exact hedge
        | inr hmem => exact htrans edge pos e hedge (h.1 e hmem)
      . rw [pairwise_cons]
        exact h

end Place

namespace PolygonEdge

def onRow (edge : PolygonEdge) (c : Int) : PolygonEdge :=
  edge.advance (c - edge.top)

variable (edge : PolygonEdge)

@[simp]
theorem advance_bottom (rows : Int) : (edge.advance rows).bottom = edge.bottom := rfl

@[simp]
theorem onRow_bottom (c : Int) : (edge.onRow c).bottom = edge.bottom := rfl

theorem onRow_top : edge.onRow edge.top = edge := by
  unfold onRow advance
  rw [Int.sub_self, Int.mul_zero, Int.add_zero]

theorem onRow_advance (c : Int) : (edge.onRow c).advance 1 = edge.onRow (c + 1) := by
  unfold onRow advance
  have hx : edge.x + edge.dx * (c - edge.top) + edge.dx * 1 = edge.x + edge.dx * (c + 1 - edge.top) := by
    ring
  rw [hx]

end PolygonEdge

structure SortedEdges (edges : List PolygonEdge) : Prop where
  sorted : edges.Pairwise fun e f => e.top ≤ f.top
  nonempty : ∀ e ∈ edges, e.top ≤ e.bottom

namespace EdgeTable

structure Filled (table : EdgeTable) : Prop where
  edges : SortedEdges table.inactiveEdges
  top : ∀ e ∈ table.inactiveEdges, table.top ≤ e.top
  bottom : ∀ e ∈ table.inactiveEdges, e.bottom ≤ table.bottom

variable {table : EdgeTable}

theorem enter_filled (h : table.Filled) (i1 i2 : Int × Int) : (table.enter i1 i2).Filled := by
  unfold enter
  split
  . dsimp only
    generalize PolygonEdge.fillEdgeStructure i1 i2 = edge
    split
    next hedge =>
      refine ⟨⟨?_, ?_⟩, ?_, ?_⟩
      . apply placeEdge_pairwise (R := fun e f => e.top ≤ f.top) (fun a b c hab hbc => Int.le_trans hab hbc)
        . intro pos _ hpos
          simp at hpos
          omega
        . intro pos _ hpos
          simp at hpos
          omega
        . exact h.edges.sorted
      . intro e he
        cases mem_placeEdge.mp he with
        | inl heq =>
          rw [heq]
          exact hedge
        | inr hmem => exact h.edges.nonempty e hmem
      . intro e he
        cases mem_placeEdge.mp he with
        | inl heq =>
          rw [heq]
          dsimp only
          split <;> omega
        | inr hmem =>
          have htop := h.top e hmem
          dsimp only
          split <;> omega
      intro e he
      cases mem_placeEdge.mp he with
      | inl heq =>
        rw [heq]
        dsimp only
        split <;> omega
      | inr hmem =>
        have hbottom := h.bottom e hmem
        dsimp only
        split <;> omega
    next => exact h
  . exact h

theorem fill_filled {points : List (Int × Int)} (h : table.Filled) (i2 : Int × Int)
    : (table.fill i2 points).Filled := by
  induction points generalizing table i2 with
  | nil => exact h
  | cons i1 points ih =>
    unfold fill
    exact ih (enter_filled h i1 i2) i1

end EdgeTable

theorem edgeTable_filled (points : List (Int × Int)) : (edgeTable points).Filled := by
  apply EdgeTable.fill_filled
  refine ⟨⟨List.Pairwise.nil, ?_⟩, ?_, ?_⟩ <;> intro e he <;> cases he

def edgesAbove (edges : List PolygonEdge) (c : Int) : List PolygonEdge :=
  (edges.filter fun e => e.top < c ∧ c ≤ e.bottom).map fun e => e.onRow c

def addEdges (list edges : List PolygonEdge) : List PolygonEdge :=
  edges.foldl (fun list e => addEdge list e true) list

def activeAfter (enter : Int → List PolygonEdge) (c : Int) : Nat → List PolygonEdge → List PolygonEdge
  | 0, activeEdges => activeEdges
  | rows + 1, activeEdges =>
    activeAfter enter (c + 1) rows (updateEdges c [] (addEdges activeEdges (enter c)))

theorem activeAfter_add (enter : Int → List PolygonEdge) (j k : Nat) (c : Int) (activeEdges : List PolygonEdge)
    : activeAfter enter c (j + k) activeEdges = activeAfter enter (c + j) k (activeAfter enter c j activeEdges) := by
  induction j generalizing c activeEdges with
  | zero =>
    rw [Nat.zero_add, Int.natCast_zero, Int.add_zero]
    rfl
  | succ j ih =>
    rw [Nat.add_right_comm]
    simp only [activeAfter]
    rw [ih]
    congr 1
    omega

theorem activeAfter_congr {enter' : Int → List PolygonEdge} (k : Nat) (c : Int) (activeEdges : List PolygonEdge)
    (h : ∀ y, c ≤ y → y < c + k → enter y = enter' y)
    : activeAfter enter c k activeEdges = activeAfter enter' c k activeEdges := by
  induction k generalizing c activeEdges with
  | zero => rfl
  | succ k ih =>
    simp only [activeAfter]
    rw [h c (by omega) (by omega)]
    apply ih
    intro y hcy hyk
    exact h y (by omega) (by omega)

theorem activeAfter_nil (k : Nat) (c : Int) (h : ∀ y, c ≤ y → y < c + k → enter y = [])
    : activeAfter enter c k [] = [] := by
  induction k generalizing c with
  | zero => rfl
  | succ k ih =>
    simp only [activeAfter]
    rw [h c (by omega) (by omega)]
    apply ih
    intro y hcy hyk
    exact h y (by omega) (by omega)

def starting (edges : List PolygonEdge) (c : Int) : List PolygonEdge :=
  edges.filter fun e => e.top = c

variable {edges : List PolygonEdge}

theorem activateEdges_spec (hsorted : edges.Pairwise fun e f => e.top ≤ f.top)
    (hbelow : ∀ e ∈ edges, c ≤ e.top) (activeEdges : List PolygonEdge)
    : activateEdges c edges activeEdges
        = (edges.filter fun e => c + 1 ≤ e.top, addEdges activeEdges (starting edges c)) := by
  induction edges generalizing activeEdges with
  | nil => rfl
  | cons edge next ih =>
    rw [pairwise_cons] at hsorted
    have hhead := hbelow edge mem_cons_self
    unfold activateEdges
    split
    next htop =>
      rw [ih hsorted.2 fun e he => hbelow e (mem_cons_of_mem edge he)]
      unfold starting
      rw [filter_cons_of_neg (by simp; omega), filter_cons_of_pos (by simp [htop])]
      rfl
    next htop =>
      have hlower : ∀ e ∈ edge :: next, c + 1 ≤ e.top := by
        intro e he
        cases mem_cons.mp he with
        | inl heq =>
          rw [heq]
          omega
        | inr hmem =>
          have hle := hsorted.1 e hmem
          omega
      have hkept : (edge :: next).filter (fun e => c + 1 ≤ e.top) = edge :: next := by
        rw [filter_eq_self]
        intro e he
        exact decide_eq_true (hlower e he)
      have hnone : starting (edge :: next) c = [] := by
        unfold starting
        rw [filter_eq_nil_iff]
        intro e he
        have hle := hlower e he
        simp
        omega
      rw [hkept, hnone]
      rfl

theorem filter_starting {kept : PolygonEdge → Bool} {d : Int} (hd : c ≤ d)
    : starting (edges.filter fun e => c ≤ e.top ∧ kept e) d = starting (edges.filter kept) d := by
  unfold starting
  rw [filter_filter, filter_filter]
  apply filter_congr
  intro e _
  by_cases he : e.top = d
  . simp [he, hd]
  . simp [he]

theorem drawEdges_row (c : Int) (list : List PolygonEdge) : ∀ span ∈ drawEdges c list, span.y = c := by
  fun_induction drawEdges c list with
  | case1 edge next rest ih =>
    intro span hmem
    cases mem_cons.mp hmem with
    | inl heq => rw [heq]
    | inr hrest => exact ih span hrest
  | case2 =>
    intro span hmem
    cases hmem

theorem scanRows_below (rows : Nat) (c : Int) (inactiveEdges activeEdges : List PolygonEdge)
    : ∀ span ∈ scanRows rows c inactiveEdges activeEdges, c ≤ span.y := by
  induction rows generalizing c inactiveEdges activeEdges with
  | zero =>
    intro span hmem
    cases hmem
  | succ rows ih =>
    intro span hmem
    unfold scanRows at hmem
    cases mem_append.mp hmem with
    | inl hdraw => exact Int.le_of_eq (drawEdges_row c _ span hdraw).symm
    | inr hrest =>
      have hbelow := ih _ _ _ span hrest
      omega

theorem spansOn_scanRows (h : SortedEdges edges) (kept : PolygonEdge → Bool) (rows : Nat) (c : Int)
    (activeEdges : List PolygonEdge) {k : Nat} (hk : k < rows)
    : spansOn (c + k) (scanRows rows c (edges.filter fun e => c ≤ e.top ∧ kept e) activeEdges)
        = drawEdges (c + k) (addEdges (activeAfter (starting (edges.filter kept)) c k activeEdges)
            (starting (edges.filter kept) (c + k))) := by
  induction rows generalizing c activeEdges k with
  | zero => omega
  | succ rows ih =>
    unfold scanRows
    rw [activateEdges_spec (h.sorted.filter _) (by intro e he; simp at he; exact he.2.1)]
    rw [filter_starting (Int.le_refl c)]
    have hnext : (edges.filter fun e => c ≤ e.top ∧ kept e).filter (fun e => c + 1 ≤ e.top)
        = edges.filter fun e => c + 1 ≤ e.top ∧ kept e := by
      rw [filter_filter]
      apply filter_congr
      intro e _
      by_cases he : c + 1 ≤ e.top
      . have hle : c ≤ e.top := by omega
        simp [he, hle]
      . simp [he]
    rw [hnext]
    unfold spansOn
    rw [filter_append]
    cases k with
    | zero =>
      have hdrawn : (drawEdges c (addEdges activeEdges (starting (edges.filter kept) c))).filter
            (fun span => span.y = c + (0 : Nat))
          = drawEdges c (addEdges activeEdges (starting (edges.filter kept) c)) := by
        rw [filter_eq_self]
        intro span hmem
        have hrow := drawEdges_row c _ span hmem
        simp [hrow]
      have hrest : (scanRows rows (c + 1) (edges.filter fun e => c + 1 ≤ e.top ∧ kept e)
            (updateEdges c [] (addEdges activeEdges (starting (edges.filter kept) c)))).filter
          (fun span => span.y = c + (0 : Nat)) = [] := by
        rw [filter_eq_nil_iff]
        intro span hmem
        have hbelow := scanRows_below _ _ _ _ span hmem
        simp
        omega
      rw [hdrawn, hrest, append_nil, Int.natCast_zero, Int.add_zero]
      rfl
    | succ k =>
      have hdrawn : (drawEdges c (addEdges activeEdges (starting (edges.filter kept) c))).filter
          (fun span => span.y = c + ((k + 1 : Nat) : Int)) = [] := by
        rw [filter_eq_nil_iff]
        intro span hmem
        have hrow := drawEdges_row c _ span hmem
        simp
        omega
      rw [hdrawn, nil_append]
      have hrow : c + ((k + 1 : Nat) : Int) = c + 1 + (k : Int) := by omega
      rw [hrow]
      have hrest := @ih (c + 1) (updateEdges c [] (addEdges activeEdges (starting (edges.filter kept) c))) k (by omega)
      unfold spansOn at hrest
      rw [hrest]
      rfl

theorem addEdges_perm (list edges : List PolygonEdge) : (addEdges list edges).Perm (edges ++ list) := by
  unfold addEdges
  induction edges generalizing list with
  | nil => exact List.Perm.refl _
  | cons edge next ih =>
    rw [foldl_cons]
    apply (ih _).trans
    apply (List.Perm.append_left next (placeEdge_perm list)).trans
    exact perm_middle

theorem updateEdges_perm (c : Int) (done list : List PolygonEdge)
    : (updateEdges c done list).Perm (done ++ (list.filter fun e => c < e.bottom).map fun e => e.advance 1) := by
  induction list generalizing done with
  | nil =>
    unfold updateEdges
    rw [filter_nil, map_nil, append_nil]
    exact reverse_perm done
  | cons edge next ih =>
    unfold updateEdges
    split
    next hdead =>
      rw [filter_cons_of_neg (by simp; omega)]
      exact ih done
    next halive =>
      rw [filter_cons_of_pos (by simp; omega), map_cons]
      apply (ih _).trans
      apply (List.Perm.append_right _ (placeEdge_perm done)).trans
      exact perm_middle.symm

theorem updateEdges_sorted (c : Int) {done : List PolygonEdge} (h : done.Pairwise fun a b => b.sortKey ≤ a.sortKey)
    (list : List PolygonEdge) : (updateEdges c done list).Pairwise fun a b => a.sortKey ≤ b.sortKey := by
  induction list generalizing done with
  | nil =>
    unfold updateEdges
    exact pairwise_reverse.mpr h
  | cons edge next ih =>
    unfold updateEdges
    split
    . exact ih h
    apply ih
    apply placeEdge_pairwise (R := fun a b => b.sortKey ≤ a.sortKey) (fun a b c hab hbc => Int.le_trans hbc hab)
    . intro pos _ hpos
      simp at hpos
      omega
    . intro pos _ hpos
      simp at hpos
      omega
    . exact h

theorem activeAfter_sorted (enter : Int → List PolygonEdge) (k : Nat) (c : Int)
    (h : activeEdges.Pairwise fun a b => a.sortKey ≤ b.sortKey)
    : (activeAfter enter c k activeEdges).Pairwise fun a b => a.sortKey ≤ b.sortKey := by
  induction k generalizing c activeEdges with
  | zero => exact h
  | succ k ih =>
    unfold activeAfter
    exact ih (c + 1) (updateEdges_sorted c List.Pairwise.nil _)

theorem edgesAbove_starting (h : SortedEdges edges) (c : Int)
    : (starting edges c ++ edgesAbove edges c).Perm
        ((edges.filter fun e => e.top ≤ c ∧ c ≤ e.bottom).map fun e => e.onRow c) := by
  have hparts := (filter_append_perm (fun e : PolygonEdge => e.top = c)
    (edges.filter fun e => e.top ≤ c ∧ c ≤ e.bottom)).map fun e => e.onRow c
  rw [map_append, filter_filter, filter_filter] at hparts
  have hstart : (edges.filter fun e => (e.top = c : Bool) && (e.top ≤ c ∧ c ≤ e.bottom : Bool)).map (fun e => e.onRow c)
      = starting edges c := by
    unfold starting
    have hfilter : (edges.filter fun e => (e.top = c : Bool) && (e.top ≤ c ∧ c ≤ e.bottom : Bool))
        = edges.filter fun e => e.top = c := by
      apply filter_congr
      intro e he
      have hnonempty := h.nonempty e he
      by_cases htop : e.top = c
      . simp [htop]
        omega
      . simp [htop]
    rw [hfilter]
    have hsame : ∀ e ∈ edges.filter (fun e => e.top = c), e.onRow c = id e := by
      intro e he
      have htop : e.top = c := of_decide_eq_true (mem_filter.mp he).2
      rw [← htop, PolygonEdge.onRow_top]
      rfl
    rw [map_congr_left hsame, map_id]
  have habove : (edges.filter fun e => (!(e.top = c : Bool)) && (e.top ≤ c ∧ c ≤ e.bottom : Bool))
      = edges.filter fun e => e.top < c ∧ c ≤ e.bottom := by
    apply filter_congr
    intro e _
    by_cases htop : e.top = c
    . simp [htop]
    . have hlt : e.top ≤ c ↔ e.top < c := by omega
      simp [htop, hlt]
  rw [hstart, habove] at hparts
  exact hparts

theorem edgesAbove_succ (h : SortedEdges edges) (hactive : activeEdges.Perm (edgesAbove edges c))
    : (updateEdges c [] (addEdges activeEdges (starting edges c))).Perm (edgesAbove edges (c + 1)) := by
  have hrow := (addEdges_perm activeEdges (starting edges c)).trans
    ((hactive.append_left (starting edges c)).trans (edgesAbove_starting h c))
  apply (updateEdges_perm c [] _).trans
  rw [nil_append]
  apply ((hrow.filter _).map _).trans
  rw [filter_map, map_map, filter_filter]
  unfold edgesAbove
  have hedges : (edges.filter fun e => ((fun e : PolygonEdge => (c < e.bottom : Bool)) ∘ fun e => e.onRow c) e
        && (e.top ≤ c ∧ c ≤ e.bottom : Bool))
      = edges.filter fun e => e.top < c + 1 ∧ c + 1 ≤ e.bottom := by
    apply filter_congr
    intro e _
    rw [Bool.eq_iff_iff, Bool.and_eq_true, Function.comp_apply, decide_eq_true_iff, decide_eq_true_iff,
      decide_eq_true_iff, PolygonEdge.onRow_bottom]
    omega
  rw [hedges]
  apply List.Perm.of_eq
  apply map_congr_left
  intro e _
  exact PolygonEdge.onRow_advance e c

theorem activeAfter_perm {edges : List PolygonEdge} (h : SortedEdges edges) (k : Nat) {c : Int}
    {activeEdges : List PolygonEdge} (hactive : activeEdges.Perm (edgesAbove edges c))
    : (activeAfter (starting edges) c k activeEdges).Perm (edgesAbove edges (c + k)) := by
  induction k generalizing c activeEdges with
  | zero =>
    rw [Int.natCast_zero, Int.add_zero]
    exact hactive
  | succ k ih =>
    unfold activeAfter
    have hrow : c + ((k + 1 : Nat) : Int) = c + 1 + (k : Int) := by omega
    rw [hrow]
    exact ih (edgesAbove_succ h hactive)

def PolygonEdge.Crosses (c : Int) (edge : PolygonEdge) : Prop :=
  edge.top < c ∧ edge.bottom > c

instance (c : Int) : DecidablePred (PolygonEdge.Crosses c) :=
  fun edge => inferInstanceAs (Decidable (edge.top < c ∧ edge.bottom > c))

def SeedsAfter (c : Int) (moved next : PolygonEdge) : Prop :=
  moved.sortKey ≠ (next.onRow c).sortKey ∧ (moved.addKey < next.addKey ↔ moved.sortKey < (next.onRow c).sortKey)

def SeedsInOrder (edges : List PolygonEdge) (rcOutput : Rect) : Prop :=
  rcOutput.top ≤ rcOutput.bottom →
    (∀ e ∈ edges, e.top < rcOutput.top → e.bottom ≠ rcOutput.top)
    ∧ (edges.filter (PolygonEdge.Crosses rcOutput.top)).Pairwise fun e f => SeedsAfter rcOutput.top (e.onRow rcOutput.top) f

instance (c : Int) (moved next : PolygonEdge) : Decidable (SeedsAfter c moved next) :=
  inferInstanceAs (Decidable (_ ∧ _))

instance (edges : List PolygonEdge) (rcOutput : Rect) : Decidable (SeedsInOrder edges rcOutput) :=
  inferInstanceAs (Decidable (_ → _ ∧ _))

theorem seedEdges_inactive (hnonempty : ∀ e ∈ edges, e.top ≤ e.bottom)
    (hend : ∀ e ∈ edges, e.top < rcOutput.top → e.bottom ≠ rcOutput.top) (activeEdges : List PolygonEdge)
    : (seedEdges rcOutput edges activeEdges).1
        = edges.filter fun e => rcOutput.top ≤ e.top ∧ (e.top ≤ rcOutput.bottom : Bool) := by
  induction edges generalizing activeEdges with
  | nil => rfl
  | cons edge next ih =>
    have hedge := hnonempty edge mem_cons_self
    have hedgeEnd := hend edge mem_cons_self
    have hnext := ih (fun e he => hnonempty e (mem_cons_of_mem edge he)) fun e he => hend e (mem_cons_of_mem edge he)
    unfold seedEdges
    split
    . rw [filter_cons_of_neg (by simp; omega)]
      exact hnext _
    split
    . rw [filter_cons_of_neg (by simp; omega)]
      exact hnext _
    . rw [filter_cons_of_pos (by simp; omega)]
      dsimp only
      rw [hnext]

theorem seedEdges_active {rcOutput : Rect} {edges : List PolygonEdge} {activeEdges : List PolygonEdge}
    (hsorted : activeEdges.Pairwise fun a b => a.sortKey < b.sortKey)
    (hactive : ∀ pos ∈ activeEdges, ∀ e ∈ edges, e.Crosses rcOutput.top → SeedsAfter rcOutput.top pos e)
    (horder : (edges.filter (PolygonEdge.Crosses rcOutput.top)).Pairwise
      fun e f => SeedsAfter rcOutput.top (e.onRow rcOutput.top) f)
    : (seedEdges rcOutput edges activeEdges).2.Pairwise (fun a b => a.sortKey < b.sortKey)
      ∧ (seedEdges rcOutput edges activeEdges).2.Perm
          (activeEdges ++ (edges.filter (PolygonEdge.Crosses rcOutput.top)).map fun e => e.onRow rcOutput.top) := by
  induction edges generalizing activeEdges with
  | nil =>
    refine ⟨hsorted, ?_⟩
    simp [seedEdges]
  | cons edge next ih =>
    unfold seedEdges
    split
    next hcross =>
      have hcrosses : edge.Crosses rcOutput.top := hcross
      rw [filter_cons_of_pos (by simpa using hcrosses), pairwise_cons] at horder
      have hplaced : (placeEdge (edge.onRow rcOutput.top) (fun pos => pos.addKey < edge.addKey) activeEdges).Pairwise
          fun a b => a.sortKey < b.sortKey := by
        apply placeEdge_pairwise (R := fun a b => a.sortKey < b.sortKey) (fun a b c hab hbc => Int.lt_trans hab hbc)
        . intro pos hpos hbefore
          exact (hactive pos hpos edge mem_cons_self hcrosses).2.mp (of_decide_eq_true hbefore)
        . intro pos hpos hafter
          have hseeds := hactive pos hpos edge mem_cons_self hcrosses
          have hnot : ¬pos.sortKey < (edge.onRow rcOutput.top).sortKey := fun hlt =>
            of_decide_eq_false hafter (hseeds.2.mpr hlt)
          have hne := hseeds.1
          omega
        . exact hsorted
      have hrest := ih hplaced (by
        intro pos hpos e he hcrossesNext
        cases mem_placeEdge.mp hpos with
        | inl heq =>
          rw [heq]
          apply horder.1
          rw [mem_filter]
          exact ⟨he, decide_eq_true hcrossesNext⟩
        | inr hmem => exact hactive pos hmem e (mem_cons_of_mem edge he) hcrossesNext) horder.2
      refine ⟨hrest.1, ?_⟩
      rw [filter_cons_of_pos (by simpa using hcrosses), map_cons]
      apply hrest.2.trans
      apply (List.Perm.append_right _ (placeEdge_perm activeEdges)).trans
      exact perm_middle.symm
    next hcross =>
      have hcrosses : ¬edge.Crosses rcOutput.top := hcross
      rw [filter_cons_of_neg (by simpa using hcrosses)] at horder ⊢
      have hrest := ih hsorted (fun pos hpos e he => hactive pos hpos e (mem_cons_of_mem edge he)) horder
      split
      . exact hrest
      . exact hrest

theorem sorted_unique (h : list.Pairwise fun a b => a.sortKey < b.sortKey) {a b : PolygonEdge}
    (ha : a ∈ list) (hb : b ∈ list) (heq : a.sortKey = b.sortKey) : a = b := by
  have hkeys : (list.map PolygonEdge.sortKey).Nodup := by
    apply List.Pairwise.map PolygonEdge.sortKey _ h
    intro a b hlt
    exact Int.ne_of_lt hlt
  exact inj_on_of_nodup_map hkeys ha hb heq

theorem seedEdges_eq (hend : ∀ e ∈ edges, e.top < rcOutput.top → e.bottom ≠ rcOutput.top)
    (horder : (edges.filter (PolygonEdge.Crosses rcOutput.top)).Pairwise
      fun e f => SeedsAfter rcOutput.top (e.onRow rcOutput.top) f)
    {scanned : List PolygonEdge} (hsorted : scanned.Pairwise fun a b => a.sortKey ≤ b.sortKey)
    (hscanned : scanned.Perm (edgesAbove edges rcOutput.top))
    : (seedEdges rcOutput edges []).2 = scanned := by
  have hseeds := @seedEdges_active rcOutput edges [] List.Pairwise.nil (fun pos hpos => nomatch hpos) horder
  have hcrossing : edges.filter (PolygonEdge.Crosses rcOutput.top)
      = edges.filter fun e => e.top < rcOutput.top ∧ rcOutput.top ≤ e.bottom := by
    apply filter_congr
    intro e he
    have hnotEnd := hend e he
    rw [Bool.eq_iff_iff, decide_eq_true_iff, decide_eq_true_iff]
    unfold PolygonEdge.Crosses
    omega
  have hperm := hseeds.2
  rw [nil_append, hcrossing] at hperm
  have hsame := hperm.trans hscanned.symm
  have hweak : (seedEdges rcOutput edges []).2.Pairwise fun a b => a.sortKey ≤ b.sortKey :=
    hseeds.1.imp fun hlt => Int.le_of_lt hlt
  refine List.Perm.eq_of_pairwise ?_ hweak hsorted hsame
  intro a b ha hb hab hba
  exact sorted_unique hseeds.1 ha (hsame.mem_iff.mpr hb) (Int.le_antisymm hab hba)

theorem activateEdges_fst
    (h : e ∈ (activateEdges c inactiveEdges activeEdges).1) : e ∈ inactiveEdges := by
  induction inactiveEdges generalizing activeEdges with
  | nil => cases h
  | cons edge next ih =>
    unfold activateEdges at h
    split at h
    . exact mem_cons_of_mem edge (ih h)
    . exact h

theorem activateEdges_snd
    (h : e ∈ (activateEdges c inactiveEdges activeEdges).2) : e ∈ activeEdges ∨ (e ∈ inactiveEdges ∧ e.top = c) := by
  induction inactiveEdges generalizing activeEdges with
  | nil => exact .inl h
  | cons edge next ih =>
    unfold activateEdges at h
    split at h
    next htop =>
      cases ih h with
      | inl hadded =>
        cases mem_placeEdge.mp hadded with
        | inl heq =>
          rw [heq]
          exact .inr ⟨mem_cons_self, htop⟩
        | inr hmem => exact .inl hmem
      | inr hmem => exact .inr ⟨mem_cons_of_mem edge hmem.1, hmem.2⟩
    . exact .inl h

theorem drawEdges_nonempty {span : PolygonSpan} (h : span ∈ drawEdges c list) : ∃ e, e ∈ list := by
  cases list with
  | nil => cases h
  | cons edge next => exact ⟨edge, mem_cons_self⟩

theorem scanRows_inside {first last : Int} {rows : Nat}
    (hinactive : ∀ e ∈ inactiveEdges, first ≤ e.top ∧ e.top ≤ e.bottom ∧ e.bottom ≤ last)
    (hactive : ∀ e ∈ activeEdges, first ≤ c ∧ c ≤ e.bottom ∧ e.bottom ≤ last)
    : ∀ span ∈ scanRows rows c inactiveEdges activeEdges, first ≤ span.y ∧ span.y ≤ last := by
  induction rows generalizing c inactiveEdges activeEdges with
  | zero =>
    intro span hmem
    cases hmem
  | succ rows ih =>
    have hrow : ∀ e ∈ (activateEdges c inactiveEdges activeEdges).2, first ≤ c ∧ c ≤ e.bottom ∧ e.bottom ≤ last := by
      intro e he
      cases activateEdges_snd he with
      | inl hmem => exact hactive e hmem
      | inr hmem =>
        have hrange := hinactive e hmem.1
        omega
    intro span hmem
    unfold scanRows at hmem
    cases mem_append.mp hmem with
    | inl hdraw =>
      obtain ⟨e, he⟩ := drawEdges_nonempty hdraw
      have hy := drawEdges_row c _ span hdraw
      have hrange := hrow e he
      omega
    | inr hrest =>
      apply ih _ _ span hrest
      . intro e he
        exact hinactive e (activateEdges_fst he)
      intro e he
      have hmoved := (updateEdges_perm c [] _).mem_iff.mp he
      rw [nil_append, mem_map] at hmoved
      obtain ⟨prev, hprev, heq⟩ := hmoved
      rw [mem_filter] at hprev
      have hrange := hrow prev hprev.1
      have halive : c < prev.bottom := of_decide_eq_true hprev.2
      rw [← heq, PolygonEdge.advance_bottom]
      omega

theorem seedEdges_fst {edges : List PolygonEdge}
    (h : e ∈ (seedEdges rcOutput edges activeEdges).1) : e ∈ edges := by
  induction edges generalizing activeEdges with
  | nil => cases h
  | cons edge next ih =>
    unfold seedEdges at h
    split at h
    . exact mem_cons_of_mem edge (ih h)
    split at h
    . exact mem_cons_of_mem edge (ih h)
    cases mem_cons.mp h with
    | inl heq =>
      rw [heq]
      exact mem_cons_self
    | inr hrest => exact mem_cons_of_mem edge (ih hrest)

theorem seedEdges_snd {first last : Int} {edges : List PolygonEdge}
    (hedges : ∀ e ∈ edges, first ≤ e.top ∧ e.bottom ≤ last)
    (hactive : ∀ e ∈ activeEdges, first ≤ rcOutput.top ∧ rcOutput.top ≤ e.bottom ∧ e.bottom ≤ last)
    : ∀ e ∈ (seedEdges rcOutput edges activeEdges).2, first ≤ rcOutput.top ∧ rcOutput.top ≤ e.bottom ∧ e.bottom ≤ last := by
  induction edges generalizing activeEdges with
  | nil => exact hactive
  | cons edge next ih =>
    have hnext : ∀ e ∈ next, first ≤ e.top ∧ e.bottom ≤ last := fun e he => hedges e (mem_cons_of_mem edge he)
    unfold seedEdges
    split
    next hcross =>
      apply ih hnext
      intro e he
      cases mem_placeEdge.mp he with
      | inl heq =>
        have hrange := hedges edge mem_cons_self
        rw [heq, PolygonEdge.advance_bottom]
        omega
      | inr hmem => exact hactive e hmem
    . split
      . exact ih hnext hactive
      . exact ih hnext hactive

def ClipsRows (points : List (Int × Int)) (rcOutput : Rect) : Prop :=
  (∀ y, rcOutput.top ≤ y → y ≤ rcOutput.bottom → (edgeTable points).top ≤ y → y ≤ (edgeTable points).bottom →
    (spansOn y (polygonGeneratorEx points (some rcOutput))).Perm (spansOn y (polygonGeneratorEx points none)))
  ∧ ∀ span ∈ polygonGeneratorEx points (some rcOutput),
      (edgeTable points).top ≤ span.y ∧ span.y ≤ (edgeTable points).bottom

theorem polygonGeneratorEx_inside (points : List (Int × Int)) (rcOutput : Rect)
    : ∀ span ∈ polygonGeneratorEx points (some rcOutput),
        (edgeTable points).top ≤ span.y ∧ span.y ≤ (edgeTable points).bottom := by
  have h := edgeTable_filled points
  apply scanRows_inside
  . intro e he
    have hmem := seedEdges_fst he
    exact ⟨h.top e hmem, h.edges.nonempty e hmem, h.bottom e hmem⟩
  apply seedEdges_snd
  . intro e he
    exact ⟨h.top e he, h.bottom e he⟩
  . intro e he
    cases he

theorem spansOn_whole (points : List (Int × Int)) (htop : (edgeTable points).top ≤ y)
    (hbottom : y ≤ (edgeTable points).bottom) : spansOn y (polygonGeneratorEx points none)
        = drawEdges y (addEdges (activeAfter (starting (edgeTable points).inactiveEdges) (edgeTable points).top
            (y - (edgeTable points).top).toNat []) (starting (edgeTable points).inactiveEdges y)) := by
  have h := edgeTable_filled points
  unfold polygonGeneratorEx
  generalize edgeTable points = table at *
  have hall : table.inactiveEdges = table.inactiveEdges.filter fun e => table.top ≤ e.top ∧ (fun _ => true) e := by
    symm
    rw [filter_eq_self]
    intro e he
    simpa using h.top e he
  have hy : y = table.top + ((y - table.top).toNat : Int) := by omega
  have hrow := spansOn_scanRows h.edges (fun _ => true) (table.bottom - table.top + 1).toNat table.top []
    (k := (y - table.top).toNat) (by omega)
  rw [← hall, ← hy, filter_true] at hrow
  exact hrow

theorem spansOn_clipped (points : List (Int × Int))
    (hend : ∀ e ∈ (edgeTable points).inactiveEdges, e.top < rcOutput.top → e.bottom ≠ rcOutput.top) (htop : rcOutput.top ≤ y) (hbottom : y ≤ rcOutput.bottom)
    : spansOn y (polygonGeneratorEx points (some rcOutput))
        = drawEdges y (addEdges (activeAfter (starting (edgeTable points).inactiveEdges) rcOutput.top
            (y - rcOutput.top).toNat (seedEdges rcOutput (edgeTable points).inactiveEdges []).2)
            (starting (edgeTable points).inactiveEdges y)) := by
  have h := edgeTable_filled points
  unfold polygonGeneratorEx
  generalize edgeTable points = table at *
  dsimp only
  rw [seedEdges_inactive h.edges.nonempty hend]
  have hy : y = rcOutput.top + ((y - rcOutput.top).toNat : Int) := by omega
  have hrow := spansOn_scanRows h.edges (fun e => e.top ≤ rcOutput.bottom) (rcOutput.bottom - rcOutput.top + 1).toNat
    rcOutput.top (seedEdges rcOutput table.inactiveEdges []).2 (k := (y - rcOutput.top).toNat) (by omega)
  rw [← hy] at hrow
  -- an edge that was dropped starts below the last row
  have hstarting : ∀ c, c ≤ rcOutput.bottom →
      starting (table.inactiveEdges.filter fun e => e.top ≤ rcOutput.bottom) c = starting table.inactiveEdges c := by
    intro c hc
    unfold starting
    rw [filter_filter]
    apply filter_congr
    intro e _
    by_cases he : e.top = c
    . simp [he, hc]
    . simp [he]
  rw [hrow, hstarting y hbottom]
  congr 2
  apply activeAfter_congr
  intro c _ hc
  exact hstarting c (by omega)

theorem edgesAbove_top (h : ∀ e ∈ edges, c ≤ e.top) : edgesAbove edges c = [] := by
  unfold edgesAbove
  rw [filter_eq_nil_iff.mpr, map_nil]
  intro e he
  have hle := h e he
  simp
  omega

/--
The clipped polygon has the rows of the whole one when the scan starts with the edges that it would
have found on its first row.
-/
theorem polygonGeneratorEx_rows (points : List (Int × Int)) (rcOutput : Rect)
    (horder : SeedsInOrder (edgeTable points).inactiveEdges rcOutput) : ClipsRows points rcOutput := by
  refine ⟨?_, polygonGeneratorEx_inside points rcOutput⟩
  intro y htop hbottom hfirst hlast
  have hseeds := horder (Int.le_trans htop hbottom)
  have h := edgeTable_filled points
  rw [spansOn_whole points hfirst hlast, spansOn_clipped points hseeds.1 htop hbottom]
  generalize edgeTable points = table at *
  apply List.Perm.of_eq
  congr 2
  by_cases hstart : rcOutput.top ≤ table.top
  . -- the scan passes the rows above the polygon with no edge
    have hnone : (seedEdges rcOutput table.inactiveEdges []).2 = [] := by
      apply seedEdges_eq hseeds.1 hseeds.2 List.Pairwise.nil
      rw [edgesAbove_top fun e he => Int.le_trans hstart (h.top e he)]
    have hsplit : (y - rcOutput.top).toNat = (table.top - rcOutput.top).toNat + (y - table.top).toNat := by omega
    have hreached : rcOutput.top + ((table.top - rcOutput.top).toNat : Int) = table.top := by omega
    rw [hnone, hsplit, activeAfter_add, hreached, activeAfter_nil]
    intro c _ hc
    unfold starting
    rw [filter_eq_nil_iff]
    intro e he
    have hle := h.top e he
    simp
    omega
  have hsplit : (y - table.top).toNat = (rcOutput.top - table.top).toNat + (y - rcOutput.top).toNat := by omega
  have hreached : table.top + ((rcOutput.top - table.top).toNat : Int) = rcOutput.top := by omega
  rw [hsplit, activeAfter_add, hreached]
  congr 1
  apply seedEdges_eq hseeds.1 hseeds.2
  . exact activeAfter_sorted _ _ _ List.Pairwise.nil
  have hperm := @activeAfter_perm _ h.edges (rcOutput.top - table.top).toNat table.top []
    (by rw [edgesAbove_top h.top])
  rw [hreached] at hperm
  exact hperm

theorem polygonGeneratorEx_rows_triangle : ClipsRows [(0, 0), (4, 4), (0, 8)] ⟨0, 2, 100, 100⟩ :=
  polygonGeneratorEx_rows [(0, 0), (4, 4), (0, 8)] ⟨0, 2, 100, 100⟩ (by decide)

theorem polygonGeneratorEx_rows_lost : ¬ClipsRows [(0, 0), (4, 4), (0, 8)] ⟨0, 3, 100, 100⟩ := by
  intro hclips
  have hlength := (hclips.1 3 (by decide) (by decide) (by decide) (by decide)).length_eq
  revert hlength
  decide

end MiniGui
