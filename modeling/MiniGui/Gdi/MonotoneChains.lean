import MiniGui.Gdi.Monotone

namespace MiniGui.Monotone

variable {pts : Nat → Int × Int} {vertices : Nat}

theorem topAndBottom_spec (pts : Nat → Int × Int) (i : Nat)
    : (∀ k < i, (pts (topAndBottom pts i).1).2 ≤ (pts k).2 ∧ (pts k).2 ≤ (pts (topAndBottom pts i).2).2)
      ∧ (0 < i → (topAndBottom pts i).1 < i ∧ (topAndBottom pts i).2 < i)
      ∧ (pts (topAndBottom pts i).1).2 ≤ (pts (topAndBottom pts i).2).2 := by
  induction i with
  | zero => exact ⟨fun k hk => absurd hk (Nat.not_lt_zero k), fun h => absurd h (lt_irrefl 0), le_refl _⟩
  | succ i ih =>
    rcases ih with ⟨hbounds, hlt, horder⟩
    have hzero : i = 0 → topAndBottom pts i = (0, 0) := by
      intro hi
      rw [hi]
      rfl
    rw [topAndBottom]
    have hall : ∀ {top bottom : Nat}, (pts top).2 ≤ (pts (topAndBottom pts i).1).2
        → (pts (topAndBottom pts i).2).2 ≤ (pts bottom).2 → (pts top).2 ≤ (pts i).2 → (pts i).2 ≤ (pts bottom).2
        → ∀ k < i + 1, (pts top).2 ≤ (pts k).2 ∧ (pts k).2 ≤ (pts bottom).2 := by
      intro top bottom htop hbottom hi hi' k hk
      rcases Nat.lt_or_ge k i with hki | hki
      . have hk' := hbounds k hki
        omega
      . have heq : k = i := by omega
        rw [heq]
        exact ⟨hi, hi'⟩
    have hin : (topAndBottom pts i).1 < i + 1 ∧ (topAndBottom pts i).2 < i + 1 := by
      rcases Nat.eq_zero_or_pos i with hi | hi
      . rw [hzero hi]
        omega
      . have := hlt hi
        omega
    split
    . next hup =>
      have hbelow := le_of_lt (lt_of_lt_of_le hup horder)
      exact ⟨hall (le_of_lt hup) (le_refl _) (le_refl _) hbelow, fun _ => ⟨Nat.lt_succ_self i, hin.2⟩, hbelow⟩
    rename_i hnotup
    split
    . next hdown =>
      exact ⟨hall (le_refl _) (le_of_lt hdown) (not_lt.mp hnotup) (le_refl _), fun _ => ⟨hin.1, Nat.lt_succ_self i⟩,
        not_lt.mp hnotup⟩
    . exact ⟨hall (le_refl _) (le_refl _) (by omega) (by omega), fun _ => hin, horder⟩

section Chain

variable {edgeX : Int × Int → Int × Int → Int → Int}

theorem scanEdge_eq {p q : Int × Int} (h : p.2 ≤ q.2) (hlines : Nat)
    : (scanEdge edgeX p q hlines).1.map Prod.fst = List.range' hlines (q.2 - p.2).toNat
      ∧ (scanEdge edgeX p q hlines).2 = hlines + (q.2 - p.2).toNat := by
  rw [scanEdge]
  split
  . have hzero : (q.2 - p.2).toNat = 0 := by omega
    rw [hzero]
    exact ⟨rfl, rfl⟩
  . refine ⟨?_, rfl⟩
    rw [List.map_map, List.range'_eq_map_range]
    rfl

theorem scanChain_eq {move : Nat → Nat} {maxIndex m : Nat} (hm : 0 < m) {fuel start : Nat} (hfuel : m ≤ fuel)
    (hend : move^[m] start = maxIndex)
    (hdown : ∀ j, (∀ i, 0 < i → i ≤ j → move^[i] start ≠ maxIndex)
      → (pts (move^[j] start)).2 ≤ (pts (move^[j + 1] start)).2) (hlines : Nat)
    : ∃ written, scanChain edgeX pts move maxIndex fuel start hlines = some written
      ∧ written.map Prod.fst = List.range' hlines ((pts maxIndex).2 - (pts start).2).toNat
      ∧ (pts start).2 ≤ (pts maxIndex).2 := by
  induction m generalizing fuel start hlines with
  | zero => exact absurd hm (lt_irrefl 0)
  | succ m ih =>
    cases fuel with
    | zero => omega
    | succ fuel =>
      have hfirst : (pts start).2 ≤ (pts (move start)).2 := hdown 0 fun i hi hle => by omega
      rcases @scanEdge_eq edgeX _ _ hfirst hlines with ⟨hentries, hnext⟩
      rw [scanChain]
      split
      . next hreached =>
        rw [hreached] at hentries hfirst
        refine ⟨_, rfl, ?_, hfirst⟩
        rw [hreached]
        exact hentries
      rename_i hreached
      have hmpos : 0 < m := by
        rcases Nat.eq_zero_or_pos m with hzero | hpos
        . rw [hzero] at hend
          exact absurd hend hreached
        . exact hpos
      have hrest := @ih hmpos fuel (move start) (by omega) hend ?_
        (hlines + ((pts (move start)).2 - (pts start).2).toNat)
      . rcases hrest with ⟨written, hchain, hwritten, hle⟩
        rw [hnext, hchain]
        refine ⟨_, rfl, ?_, le_trans hfirst hle⟩
        rw [List.map_append, hentries, hwritten]
        have hsum : ((pts maxIndex).2 - (pts start).2).toNat
            = ((pts (move start)).2 - (pts start).2).toNat + ((pts maxIndex).2 - (pts (move start)).2).toNat := by
          omega
        rw [hsum, ← List.range'_append_1]
      intro j hj
      refine hdown (j + 1) fun i hi hle => ?_
      cases i with
      | zero => omega
      | succ i =>
        rcases Nat.eq_zero_or_pos i with hzero | hpos
        . rw [hzero]
          exact hreached
        . exact hj i hpos (by omega)

theorem iterate_step (d start j : Nat) (hstart : start < vertices)
    : (fun index => (index + d) % vertices)^[j] start = (start + d * j) % vertices := by
  induction j with
  | zero => rw [Function.iterate_zero, id, Nat.mul_zero, Nat.add_zero, Nat.mod_eq_of_lt hstart]
  | succ j ih =>
    rw [Function.iterate_succ_apply', ih, Nat.mod_add_mod, Nat.mul_succ, Nat.add_assoc]

theorem iterate_forward {start j : Nat} (hstart : start < vertices) (hj : j ≤ vertices)
    : (indexForward vertices)^[j] start = if start + j < vertices then start + j else start + j - vertices := by
  have hiter := iterate_step 1 start j hstart
  rw [Nat.one_mul] at hiter
  show (fun index => (index + 1) % vertices)^[j] start = _
  rw [hiter]
  split
  . next hlt => exact Nat.mod_eq_of_lt hlt
  . next hge =>
    rw [Nat.mod_eq_sub_mod (not_lt.mp hge)]
    exact Nat.mod_eq_of_lt (by omega)

theorem iterate_backward {start j : Nat} (hstart : start < vertices) (hj : j ≤ vertices)
    : (indexBackward vertices)^[j] start = if j ≤ start then start - j else start + vertices - j := by
  induction j with
  | zero => simp
  | succ j ih =>
    rw [Function.iterate_succ_apply', ih (by omega), indexBackward]
    split
    . next hle =>
      split
      . next hlt =>
        have hsum : start - j + (vertices - 1) = start - (j + 1) + vertices := by omega
        rw [hsum, Nat.add_mod_right]
        exact Nat.mod_eq_of_lt (by omega)
      rename_i hlt
      have hzero : start - j = 0 := by omega
      rw [hzero, Nat.zero_add, Nat.mod_eq_of_lt (by omega)]
      omega
    . next hgt =>
      have hsum : start + vertices - j + (vertices - 1) = start + vertices - (j + 1) + vertices := by omega
      rw [if_neg (by omega), hsum, Nat.add_mod_right]
      exact Nat.mod_eq_of_lt (by omega)

end Chain

section Climb

theorem no_zigzag (hw : ¬Winds pts vertices) {p0 p1 p2 p3 p4 : Nat}
    (hle : p0 ≤ p1 ∧ p1 ≤ p2 ∧ p2 ≤ p3 ∧ p3 ≤ p4 ∧ p4 ≤ vertices - 1)
    : ¬((pts p0).2 < (pts p1).2 ∧ (pts p2).2 < (pts p1).2 ∧ (pts p2).2 < (pts p3).2 ∧ (pts p4).2 < (pts p3).2)
      ∧ ¬((pts p1).2 < (pts p0).2 ∧ (pts p1).2 < (pts p2).2 ∧ (pts p3).2 < (pts p2).2 ∧ (pts p3).2 < (pts p4).2) := by
  have hmoves : ∀ s, (s = 1 ∨ s = -1) → 0 < s * ((pts p0).2 - (pts p1).2) → 0 < -s * ((pts p1).2 - (pts p2).2)
      → 0 < s * ((pts p2).2 - (pts p3).2) → 0 < -s * ((pts p3).2 - (pts p4).2) → False := by
    intro s hs h1 h2 h3 h4
    apply hw
    refine ⟨s, hs, p0, p1, Nat.zero_le _, hle.1, by omega, h1, p1, p2, le_refl _, hle.2.1, by omega, h2, p2, p3,
      le_refl _, hle.2.2.1, by omega, ?_, p3, p4, le_refl _, hle.2.2.2.1, hle.2.2.2.2, ?_, trivial⟩
    . rw [neg_neg]
      exact h3
    . rw [neg_neg]
      exact h4
  constructor
  . intro h
    exact hmoves (-1) (Or.inr rfl) (by omega) (by omega) (by omega) (by omega)
  . intro h
    exact hmoves 1 (Or.inl rfl) (by omega) (by omega) (by omega) (by omega)

theorem climbs (hclosed : pts 0 = pts (vertices - 1)) (hw : ¬Winds pts vertices) {top bottom : Nat}
    (htop : top < vertices) (hbottom : bottom < vertices)
    (hbounds : ∀ k < vertices, (pts top).2 ≤ (pts k).2 ∧ (pts k).2 ≤ (pts bottom).2) {k : Nat} (hk : k + 1 < vertices)
    : ((top < bottom → top ≤ k ∧ k < bottom) → (bottom < top → k < bottom ∨ top ≤ k) → (pts k).2 ≤ (pts (k + 1)).2)
      ∧ ((bottom < top → bottom ≤ k ∧ k < top) → (top < bottom → k < top ∨ bottom ≤ k)
        → (pts (k + 1)).2 ≤ (pts k).2) := by
  have hk0 := hbounds k (by omega)
  have hk1 := hbounds (k + 1) hk
  have hlast : (pts 0).2 = (pts (vertices - 1)).2 := by rw [← hclosed]
  rcases Nat.lt_trichotomy top bottom with horder | horder | horder
  . constructor
    . intro hbetween _
      have hb := hbetween horder
      by_contra hlt
      have hz1 := (@no_zigzag pts vertices hw 0 top k (k + 1) bottom (by omega)).2
      have hz2 := (@no_zigzag pts vertices hw top k (k + 1) bottom (vertices - 1) (by omega)).1
      omega
    intro _ hout
    by_contra hlt
    rcases hout horder with hout | hout
    . have hz1 := (@no_zigzag pts vertices hw 0 k (k + 1) top bottom (by omega)).2
      have hz2 := (@no_zigzag pts vertices hw k (k + 1) top bottom (vertices - 1) (by omega)).1
      omega
    . have hz1 := (@no_zigzag pts vertices hw 0 top bottom k (k + 1) (by omega)).2
      have hz2 := (@no_zigzag pts vertices hw top bottom k (k + 1) (vertices - 1) (by omega)).1
      omega
  . rw [horder] at hbounds
    rw [horder] at hk0 hk1
    exact ⟨fun _ _ => by omega, fun _ _ => by omega⟩
  constructor
  . intro _ hout
    by_contra hlt
    rcases hout horder with hout | hout
    . have hz1 := (@no_zigzag pts vertices hw 0 k (k + 1) bottom top (by omega)).1
      have hz2 := (@no_zigzag pts vertices hw k (k + 1) bottom top (vertices - 1) (by omega)).2
      omega
    . have hz1 := (@no_zigzag pts vertices hw 0 bottom top k (k + 1) (by omega)).1
      have hz2 := (@no_zigzag pts vertices hw bottom top k (k + 1) (vertices - 1) (by omega)).2
      omega
  intro hbetween _
  have hb := hbetween horder
  by_contra hlt
  have hz1 := (@no_zigzag pts vertices hw 0 bottom k (k + 1) top (by omega)).1
  have hz2 := (@no_zigzag pts vertices hw bottom k (k + 1) top (vertices - 1) (by omega)).2
  omega

def ChainsOk (pts : Nat → Int × Int) (vertices : Nat) : Prop :=
  vertices = 3 ∨ pts 0 = pts (vertices - 1) ∧ ¬Winds pts vertices

variable {top bottom : Nat}

def Climbs (pts : Nat → Int × Int) (next : Nat → Nat) (vertices top bottom : Nat) : Prop :=
  ∃ m, 0 < m ∧ m ≤ vertices ∧ next^[m] top = bottom
    ∧ ∀ j, (∀ i, 0 < i → i ≤ j → next^[i] top ≠ bottom) → (pts (next^[j] top)).2 ≤ (pts (next^[j + 1] top)).2

theorem climbs_of_between {next : Nat → Nat} {m : Nat}
    (hbounds : ∀ k < vertices, (pts top).2 ≤ (pts k).2 ∧ (pts k).2 ≤ (pts bottom).2) (hmle : 0 < m ∧ m ≤ vertices)
    (hend : next^[m] top = bottom) (hlt : ∀ j ≤ m, next^[j] top < vertices)
    (hbetween : ∀ j, 0 < j → j + 1 < m → (pts (next^[j] top)).2 ≤ (pts (next^[j + 1] top)).2)
    : Climbs pts next vertices top bottom := by
  refine ⟨m, hmle.1, hmle.2, hend, ?_⟩
  intro j hj
  have hjm : j < m := by
    by_contra hge
    exact hj m hmle.1 (by omega) hend
  by_cases hlast : j + 1 = m
  . rw [hlast, hend]
    exact (hbounds _ (hlt j (by omega))).2
  rcases Nat.eq_zero_or_pos j with hzero | hpos
  . rw [hzero]
    exact (hbounds _ (hlt 1 (by omega))).1
  . exact hbetween j hpos (by omega)

variable (hok : ChainsOk pts vertices) (htop : top < vertices) (hbottom : bottom < vertices) (hne : top ≠ bottom)
  (hbounds : ∀ k < vertices, (pts top).2 ≤ (pts k).2 ∧ (pts k).2 ≤ (pts bottom).2)

include hok htop hbottom hne hbounds

theorem forward_climbs : Climbs pts (indexForward vertices) vertices top bottom := by
  generalize hm : (if top < bottom then bottom - top else bottom + vertices - top) = m
  have hmle : 0 < m ∧ m ≤ vertices := by
    rw [← hm]
    split <;> omega
  have hend : (indexForward vertices)^[m] top = bottom := by
    rw [iterate_forward htop hmle.2, ← hm]
    split <;> split <;> omega
  refine climbs_of_between hbounds hmle hend ?_ ?_
  . intro j hj
    rw [iterate_forward htop (by omega)]
    split <;> omega
  intro j hpos hlast
  rcases hok with hthree | ⟨hclosed, hw⟩
  . split at hm <;> omega
  rw [iterate_forward htop (by omega), iterate_forward htop (by omega)]
  by_cases hwrap : top + j + 1 = vertices
  . have hfirst : top + j = vertices - 1 := by omega
    have hzero : top + (j + 1) - vertices = 0 := by omega
    rw [if_pos (by omega), if_neg (by omega), hfirst, hzero, hclosed]
  by_cases hbefore : top + j < vertices
  . rw [if_pos hbefore, if_pos (by omega)]
    refine (climbs hclosed hw htop hbottom hbounds (by omega)).1 ?_ ?_
    . intro horder
      rw [if_pos horder] at hm
      omega
    . intro horder
      exact .inr (by omega)
  rw [if_neg hbefore, if_neg (by omega)]
  have hsucc : top + (j + 1) - vertices = top + j - vertices + 1 := by omega
  rw [hsucc]
  refine (climbs hclosed hw htop hbottom hbounds (by omega)).1 ?_ ?_
  . intro horder
    rw [if_pos horder] at hm
    omega
  . intro horder
    rw [if_neg (by omega)] at hm
    exact .inl (by omega)

theorem backward_climbs : Climbs pts (indexBackward vertices) vertices top bottom := by
  generalize hm : (if bottom < top then top - bottom else top + vertices - bottom) = m
  have hmle : 0 < m ∧ m ≤ vertices := by
    rw [← hm]
    split <;> omega
  have hend : (indexBackward vertices)^[m] top = bottom := by
    rw [iterate_backward htop hmle.2, ← hm]
    split <;> split <;> omega
  refine climbs_of_between hbounds hmle hend ?_ ?_
  . intro j hj
    rw [iterate_backward htop (by omega)]
    split <;> omega
  intro j hpos hlast
  rcases hok with hthree | ⟨hclosed, hw⟩
  . split at hm <;> omega
  rw [iterate_backward htop (by omega), iterate_backward htop (by omega)]
  by_cases hwrap : j = top
  . have hzero : top - j = 0 := by omega
    have hnext : top + vertices - (j + 1) = vertices - 1 := by omega
    rw [if_pos (by omega), if_neg (by omega), hzero, hnext, hclosed]
  by_cases hbefore : j ≤ top
  . rw [if_pos hbefore, if_pos (by omega)]
    have hsucc : top - j = top - (j + 1) + 1 := by omega
    rw [hsucc]
    refine (climbs hclosed hw htop hbottom hbounds (by omega)).2 ?_ ?_
    . intro horder
      rw [if_pos horder] at hm
      omega
    . intro horder
      exact .inl (by omega)
  rw [if_neg hbefore, if_neg (by omega)]
  have hsucc : top + vertices - j = top + vertices - (j + 1) + 1 := by omega
  rw [hsucc]
  refine (climbs hclosed hw htop hbottom hbounds (by omega)).2 ?_ ?_
  . intro horder
    rw [if_pos horder] at hm
    omega
  . intro horder
    rw [if_neg (by omega)] at hm
    exact .inr (by omega)

end Climb

section Path

variable {edgeX : Int × Int → Int × Int → Int → Int}

def Height (pts : Nat → Int × Int) (vertices rows : Nat) : Prop :=
  ∃ top < vertices, ∃ bottom < vertices,
    (∀ k < vertices, (pts top).2 ≤ (pts k).2 ∧ (pts k).2 ≤ (pts bottom).2)
      ∧ rows = ((pts bottom).2 - (pts top).2).toNat

def ChainsExact (edgeX : Int × Int → Int × Int → Int → Int) (pts : Nat → Int × Int) (vertices : Nat) : Prop :=
  ∃ rows first second, monotoneVerticalPolygonGenerator edgeX pts vertices = some (rows, first, second)
    ∧ Height pts vertices rows ∧ first.map Prod.fst = List.range rows ∧ second.map Prod.fst = List.range rows

theorem chainsExact_of_ok (hn : 3 ≤ vertices) (hok : ChainsOk pts vertices) : ChainsExact edgeX pts vertices := by
  rcases topAndBottom_spec pts vertices with ⟨hbounds, hlt, _⟩
  rcases hlt (by omega) with ⟨htop, hbottom⟩
  rw [ChainsExact, monotoneVerticalPolygonGenerator]
  generalize (topAndBottom pts vertices).1 = top at *
  generalize (topAndBottom pts vertices).2 = bottom at *
  split
  . next hflat =>
    have hzero : 0 = ((pts bottom).2 - (pts top).2).toNat := by omega
    exact ⟨0, [], [], rfl, ⟨top, htop, bottom, hbottom, hbounds, hzero⟩, rfl, rfl⟩
  rename_i hhigh
  have hne : top ≠ bottom := by
    intro heq
    rw [heq, sub_self] at hhigh
    exact hhigh (le_refl 0)
  rcases backward_climbs hok htop hbottom hne hbounds with ⟨m, hm, hmle, hend, hclimb⟩
  rcases @scanChain_eq pts edgeX _ _ _ hm _ _ hmle hend hclimb 0 with ⟨first, hfirst, hrows, _⟩
  rcases forward_climbs hok htop hbottom hne hbounds with ⟨m', hm', hmle', hend', hclimb'⟩
  rcases @scanChain_eq pts edgeX _ _ _ hm' _ _ hmle' hend' hclimb' 0 with ⟨second, hsecond, hrows', _⟩
  refine ⟨((pts bottom).2 - (pts top).2).toNat, first, second, ?_, ⟨top, htop, bottom, hbottom, hbounds, rfl⟩, ?_, ?_⟩
  . rw [hfirst, hsecond]
    rfl
  . rw [hrows, List.range_eq_range']
  . rw [hrows', List.range_eq_range']

def SafePath (edgeX : Int × Int → Int × Int → Int → Int) (pts : Nat → Int × Int) (vertices : Nat) : Prop :=
  ReadsInside pts vertices
    ∧ ((polygonIsMonotoneVertical pts vertices).1 = true → ChainsExact edgeX pts vertices)

/--
The chains are always safe; the test reads behind the last vertex unless it leaves early.
-/
theorem safePath_iff (edgeX : Int × Int → Int × Int → Int → Int) (pts : Nat → Int × Int) (hn : 3 ≤ vertices)
    : SafePath edgeX pts vertices ↔ LeavesEarly pts vertices := by
  rcases @polygonIsMonotoneVertical_spec pts _ hn with ⟨hreads, htrue⟩
  constructor
  . intro hsafe
    exact hreads.mp hsafe.1
  . intro hearly
    exact ⟨hreads.mpr hearly, fun h => chainsExact_of_ok hn (htrue h)⟩

theorem safePath_iff_triangle
    : SafePath (fun p _ _ => p.1) (fun k => (k, k)) 3 ↔ LeavesEarly (fun k => (k, k)) 3 :=
  safePath_iff (fun p _ _ => p.1) (fun k => (k, k)) (le_refl 3)

def square (k : Nat) : Int × Int :=
  [(0, 0), (4, 0), (4, 4), (0, 4), (0, 0)].getD k (9, 9)

theorem not_safePath_square : ¬SafePath (fun p _ _ => p.1) square 5 := by
  intro h
  have hread : 5 ∈ (polygonIsMonotoneVertical square 5).2 := by decide
  exact absurd (h.1 5 hread) (lt_irrefl 5)

end Path

end MiniGui.Monotone
