import MiniGui.Gdi.Polygon

namespace MiniGui.Monotone

section Test

def signum (a : Int) : Int :=
  if a > 0 then 1 else if a < 0 then -1 else 0

variable (pts : Nat → Int × Int)

def deltaY (i : Nat) : Int :=
  signum ((pts i).2 - (pts (i + 1)).2)

def firstEdge (left : Nat) (prevDeltaY : Int) (i : Nat) : Int × Nat × List Nat :=
  match left with
  | 0 => (prevDeltaY, i, [])
  | left + 1 =>
    if prevDeltaY = 0 then
      let found := firstEdge left (deltaY pts i) (i + 1)
      (found.1, found.2.1, i :: (i + 1) :: found.2.2)
    else
      (prevDeltaY, i, [])

def countReversals (left : Nat) (nrYreversals : Nat) (prevDeltaY : Int) (i : Nat) : Bool × List Nat :=
  let reversed := deltaY pts i ≠ 0 ∧ deltaY pts i ≠ prevDeltaY
  if reversed ∧ nrYreversals + 1 > 2 then
    (false, [i, i + 1])
  else
    match left with
    | 0 => (true, [i, i + 1])
    | left + 1 =>
      let next :=
        if reversed then
          countReversals left (nrYreversals + 1) (deltaY pts i) (i + 1)
        else
          countReversals left nrYreversals prevDeltaY (i + 1)
      (next.1, i :: (i + 1) :: next.2)

def polygonIsMonotoneVertical (vertices : Nat) : Bool × List Nat :=
  if vertices < 4 then
    (true, [])
  else if pts 0 ≠ pts (vertices - 1) then
    (false, [0, vertices - 1])
  else
    let first := firstEdge pts (vertices - 1) (signum ((pts (vertices - 1)).2 - (pts 0).2)) 0
    let reads := 0 :: (vertices - 1) :: first.2.2
    if first.2.1 = vertices - 1 then
      (true, reads)
    else
      let counted := countReversals pts (vertices - 1 - first.2.1) 0 first.1 first.2.1
      (counted.1, reads ++ counted.2)

end Test

section Generator

-- The rounded place of an edge in a row.
variable (edgeX : Int × Int → Int × Int → Int → Int)

def scanEdge (p q : Int × Int) (hlines : Nat) : List (Nat × Int) × Nat :=
  if q.2 - p.2 ≤ 0 then
    ([], hlines)
  else
    let deltaY := (q.2 - p.2).toNat
    ((List.range deltaY).map fun i => (hlines + i, edgeX p q (p.2 + i)), hlines + deltaY)

variable (pts : Nat → Int × Int) (vertices : Nat)

def indexForward (index : Nat) : Nat :=
  (index + 1) % vertices

def indexBackward (index : Nat) : Nat :=
  (index + (vertices - 1)) % vertices

def scanChain (move : Nat → Nat) (maxIndex fuel prevIndex hlines : Nat) : Option (List (Nat × Int)) :=
  match fuel with
  | 0 => none
  | fuel + 1 =>
    let curIndex := move prevIndex
    let scanned := scanEdge edgeX (pts prevIndex) (pts curIndex) hlines
    if curIndex = maxIndex then
      some scanned.1
    else
      (scanChain move maxIndex fuel curIndex scanned.2).map (scanned.1 ++ ·)

def topAndBottom : Nat → Nat × Nat
  | 0 => (0, 0)
  | i + 1 =>
    let found := topAndBottom i
    if (pts i).2 < (pts found.1).2 then (i, found.2)
    else if (pts i).2 > (pts found.2).2 then (found.1, i)
    else found

def monotoneVerticalPolygonGenerator : Option (Nat × List (Nat × Int) × List (Nat × Int)) :=
  let found := topAndBottom pts vertices
  let nrHlines := (pts found.2).2 - (pts found.1).2
  if nrHlines ≤ 0 then
    some (0, [], [])
  else do
    let first ← scanChain edgeX pts (indexBackward vertices) found.2 vertices found.1 0
    let second ← scanChain edgeX pts (indexForward vertices) found.2 vertices found.1 0
    return (nrHlines.toNat, first, second)

end Generator

section Zigzag

def Zigzag (y : Nat → Int) (last : Nat) (m : Nat) (s : Int) (i : Nat) : Prop :=
  match m with
  | 0 => True
  | m + 1 => ∃ p q, i ≤ p ∧ p ≤ q ∧ q ≤ last ∧ 0 < s * (y p - y q) ∧ Zigzag y last m (-s) q

variable {y : Nat → Int} {last m : Nat} {s : Int} {i j : Nat}

theorem Zigzag.start (h : Zigzag y last m s j) (hle : i ≤ j) : Zigzag y last m s i := by
  cases m with
  | zero => exact trivial
  | succ m =>
    rcases h with ⟨p, q, hp, hpq, hq, hmove, hrest⟩
    exact ⟨p, q, le_trans hle hp, hpq, hq, hmove, hrest⟩

theorem Zigzag.shorter (h : Zigzag y last (m + 1) s i) : Zigzag y last m s i := by
  induction m generalizing s i with
  | zero => exact trivial
  | succ m ih =>
    rcases h with ⟨p, q, hp, hpq, hq, hmove, hrest⟩
    exact ⟨p, q, hp, hpq, hq, hmove, ih hrest⟩

theorem Zigzag.skip (h : Zigzag y last (m + 1) s i) (hedge : s * (y i - y (i + 1)) ≤ 0)
    : Zigzag y last (m + 1) s (i + 1) := by
  rcases h with ⟨p, q, hp, hpq, hq, hmove, hrest⟩
  rcases Nat.lt_or_ge i p with hlt | hge
  . exact ⟨p, q, hlt, hpq, hq, hmove, hrest⟩
  have heq : p = i := le_antisymm hge hp
  rw [heq] at hmove hpq
  have hne : i ≠ q := by
    intro hiq
    rw [← hiq, sub_self, mul_zero] at hmove
    exact lt_irrefl _ hmove
  refine ⟨i + 1, q, le_refl _, by omega, hq, ?_, hrest⟩
  have hsum : s * (y (i + 1) - y q) = s * (y i - y q) - s * (y i - y (i + 1)) := by ring
  omega

theorem zigzag_succ_iff (hedge : 0 < s * (y i - y (i + 1))) (hi : i + 1 ≤ last)
    : Zigzag y last (m + 1) s i ↔ Zigzag y last m (-s) (i + 1) := by
  constructor
  . rintro ⟨p, q, hp, hpq, hq, hmove, hrest⟩
    have hne : p ≠ q := by
      intro heq
      rw [heq, sub_self, mul_zero] at hmove
      exact lt_irrefl _ hmove
    exact hrest.start (by omega)
  . intro h
    exact ⟨i, i + 1, le_refl i, Nat.le_succ i, hi, hedge, h⟩

theorem not_zigzag_last : ¬Zigzag y last (m + 1) s last := by
  rintro ⟨p, q, hp, hpq, hq, hmove, _⟩
  have heq : p = q := by omega
  rw [heq, sub_self, mul_zero] at hmove
  exact lt_irrefl _ hmove

theorem signum_cases (a : Int) : (signum a = 1 ∧ 0 < a) ∨ (signum a = -1 ∧ a < 0) ∨ (signum a = 0 ∧ a = 0) := by
  rw [signum]
  split
  . omega
  . split
    . omega
    . omega

theorem reversed_iff {pts : Nat → Int × Int} {prev : Int} (hprev : prev = 1 ∨ prev = -1) (i : Nat)
    : deltaY pts i ≠ 0 ∧ deltaY pts i ≠ prev ↔ deltaY pts i = -prev ∧ 0 < -prev * ((pts i).2 - (pts (i + 1)).2) := by
  rw [deltaY]
  rcases signum_cases ((pts i).2 - (pts (i + 1)).2) with ⟨hsign, hpos⟩ | ⟨hsign, hneg⟩ | ⟨hsign, hzero⟩
  . rw [hsign]
    rcases hprev with hprev | hprev <;> rw [hprev] <;> omega
  . rw [hsign]
    rcases hprev with hprev | hprev <;> rw [hprev] <;> omega
  . rw [hsign, hzero]
    omega

end Zigzag

section Counting

variable {pts : Nat → Int × Int}

theorem countReversals_reads {left nr i last : Nat} {prev : Int} (hprev : prev = 1 ∨ prev = -1) (hnr : nr ≤ 2)
    (hlast : i + left = last)
    : (last + 1 ∈ (countReversals pts left nr prev i).2 ↔ ¬Zigzag (fun k => (pts k).2) last (3 - nr) (-prev) i)
      ∧ ((countReversals pts left nr prev i).1 = true → last + 1 ∈ (countReversals pts left nr prev i).2)
      ∧ ∀ k ∈ (countReversals pts left nr prev i).2, k ≤ last + 1 := by
  have hmoves : 3 - nr = (2 - nr) + 1 := by omega
  induction left generalizing nr prev i with
  | zero =>
    have hi : i = last := hlast
    have hnot : ¬Zigzag (fun k => (pts k).2) last (3 - nr) (-prev) last := by
      rw [hmoves]
      exact not_zigzag_last
    have hreads : (countReversals pts 0 nr prev i).2 = [last, last + 1] := by
      rw [countReversals, hi]
      split <;> rfl
    rw [hreads, hi]
    refine ⟨by simp [hnot], by simp, ?_⟩
    simp
  | succ left ih =>
    rw [countReversals]
    have hmem : ∀ reads : List Nat, last + 1 ∈ i :: (i + 1) :: reads ↔ last + 1 ∈ reads := by
      intro reads
      have hi : last + 1 ≠ i := by omega
      have hnext : last + 1 ≠ i + 1 := by omega
      rw [List.mem_cons, List.mem_cons, or_iff_right hi, or_iff_right hnext]
    have hle : ∀ reads : List Nat, (∀ k ∈ reads, k ≤ last + 1) → ∀ k ∈ i :: (i + 1) :: reads, k ≤ last + 1 := by
      intro reads hreads k hk
      rcases List.mem_cons.mp hk with hk | hk
      . omega
      . rcases List.mem_cons.mp hk with hk | hk
        . omega
        . exact hreads k hk
    by_cases hrev : deltaY pts i ≠ 0 ∧ deltaY pts i ≠ prev
    . have hedge := (reversed_iff hprev i).mp hrev
      have hstep : Zigzag (fun k => (pts k).2) last (3 - nr) (-prev) i
          ↔ Zigzag (fun k => (pts k).2) last (2 - nr) (- -prev) (i + 1) := by
        rw [hmoves]
        exact zigzag_succ_iff hedge.2 (by omega)
      by_cases hmany : nr + 1 > 2
      . rw [if_pos ⟨hrev, hmany⟩]
        have htwo : 2 - nr = 0 := by omega
        have hzig : Zigzag (fun k => (pts k).2) last (3 - nr) (-prev) i := by
          rw [hstep, htwo]
          exact trivial
        refine ⟨?_, ?_, hle [] (by simp)⟩
        . rw [hmem []]
          simp [hzig]
        . intro hfalse
          cases hfalse
      rw [if_neg (fun hand => hmany hand.2)]
      rw [if_pos hrev]
      have hnext := @ih (nr + 1) (i + 1) (deltaY pts i) (by rw [hedge.1]; omega) (by omega) (by omega) (by omega)
      rw [hedge.1] at hnext ⊢
      have hthree : 3 - (nr + 1) = 2 - nr := by omega
      rw [hthree] at hnext
      exact ⟨by rw [hmem, hnext.1, hstep], fun htrue => (hmem _).mpr (hnext.2.1 htrue), hle _ hnext.2.2⟩
    have hnot : ¬(deltaY pts i = -prev ∧ 0 < -prev * ((pts i).2 - (pts (i + 1)).2)) :=
      mt (reversed_iff hprev i).mpr hrev
    have hflat : -prev * ((pts i).2 - (pts (i + 1)).2) ≤ 0 := by
      by_contra hlt
      have hpos := not_le.mp hlt
      apply hnot
      refine ⟨?_, hpos⟩
      rw [deltaY]
      rcases signum_cases ((pts i).2 - (pts (i + 1)).2) with ⟨hsign, _⟩ | ⟨hsign, _⟩ | ⟨hsign, hzero⟩
      . rcases hprev with hprev | hprev <;> rw [hprev] at hpos ⊢ <;> omega
      . rcases hprev with hprev | hprev <;> rw [hprev] at hpos ⊢ <;> omega
      . rw [hzero, mul_zero] at hpos
        exact absurd hpos (lt_irrefl _)
    have hstep : Zigzag (fun k => (pts k).2) last (3 - nr) (-prev) i
        ↔ Zigzag (fun k => (pts k).2) last (3 - nr) (-prev) (i + 1) := by
      rw [hmoves]
      exact ⟨fun h => h.skip hflat, fun h => h.start (Nat.le_succ i)⟩
    rw [if_neg (fun hand => hrev hand.1)]
    rw [if_neg hrev]
    have hnext := @ih nr (i + 1) prev hprev hnr (by omega) hmoves
    exact ⟨by rw [hmem, hnext.1, hstep], fun htrue => (hmem _).mpr (hnext.2.1 htrue), hle _ hnext.2.2⟩

theorem firstEdge_spec {left i last : Nat} {prev : Int} (hlast : i + left = last)
    (hflat : ∀ k ≤ i, prev = 0 → (pts k).2 = (pts 0).2)
    (hprev : prev ≠ 0 → 0 < i ∧ prev = deltaY pts (i - 1) ∧ ∀ k ≤ i - 1, (pts k).2 = (pts 0).2)
    : let found := firstEdge pts left prev i
      (∀ k ∈ found.2.2, k ≤ last) ∧ found.2.1 ≤ last
        ∧ (found.1 = 0 → found.2.1 = last ∧ ∀ k ≤ last, (pts k).2 = (pts 0).2)
        ∧ (found.1 ≠ 0 → 0 < found.2.1 ∧ found.1 = deltaY pts (found.2.1 - 1)
          ∧ ∀ k ≤ found.2.1 - 1, (pts k).2 = (pts 0).2) := by
  induction left generalizing i prev with
  | zero =>
    rw [firstEdge]
    dsimp only
    refine ⟨by simp, by omega, ?_, hprev⟩
    intro hzero
    exact ⟨by omega, fun k hk => hflat k (by omega) hzero⟩
  | succ left ih =>
    rw [firstEdge]
    split
    . next hzero =>
      have hflat' : ∀ k ≤ i, (pts k).2 = (pts 0).2 := fun k hk => hflat k hk hzero
      have hnext := @ih (i + 1) (deltaY pts i) (by omega) ?_ ?_
      . dsimp only at hnext ⊢
        refine ⟨?_, hnext.2⟩
        intro k hk
        rcases List.mem_cons.mp hk with hk | hk
        . omega
        . rcases List.mem_cons.mp hk with hk | hk
          . omega
          . exact hnext.1 k hk
      . intro k hk hdelta
        rcases Nat.lt_or_ge i k with hlt | hge
        . have heq : k = i + 1 := by omega
          have hi := hflat' i (le_refl i)
          rw [deltaY] at hdelta
          rcases signum_cases ((pts i).2 - (pts (i + 1)).2) with hsign | hsign | hsign
          . omega
          . omega
          . rw [heq]
            omega
        . exact hflat' k hge
      . intro _
        exact ⟨Nat.succ_pos i, rfl, fun k hk => hflat' k (by omega)⟩
    rename_i hne
    dsimp only
    refine ⟨?_, by omega, fun hzero => absurd hzero hne, hprev⟩
    intro k hk
    cases hk

def Winds (pts : Nat → Int × Int) (vertices : Nat) : Prop :=
  ∃ s, (s = 1 ∨ s = -1) ∧ Zigzag (fun k => (pts k).2) (vertices - 1) 4 s 0

theorem winds_iff {vertices i : Nat} {prev : Int} (hi : i ≤ vertices - 1) (hpos : 0 < i)
    (hprev : prev = deltaY pts (i - 1)) (hne : prev ≠ 0) (hflat : ∀ k ≤ i - 1, (pts k).2 = (pts 0).2)
    : Winds pts vertices ↔ Zigzag (fun k => (pts k).2) (vertices - 1) 3 (-prev) i := by
  have hsucc : i - 1 + 1 = i := by omega
  have hedge : 0 < prev * ((pts (i - 1)).2 - (pts i).2) ∧ (prev = 1 ∨ prev = -1) := by
    rw [hprev, deltaY, hsucc] at hne ⊢
    rcases signum_cases ((pts (i - 1)).2 - (pts i).2) with ⟨hsign, hlt⟩ | ⟨hsign, hlt⟩ | ⟨hsign, _⟩
    . rw [hsign]
      omega
    . rw [hsign]
      omega
    . exact absurd hsign hne
  have hbehind : ∀ {s : Int} {p q : Nat}, p ≤ q → 0 < s * ((pts p).2 - (pts q).2) → i ≤ q := by
    intro s p q hpq hmove
    by_contra hlt
    rw [hflat p (by omega), hflat q (by omega), sub_self, mul_zero] at hmove
    exact lt_irrefl _ hmove
  constructor
  . rintro ⟨s, hs, hzig⟩
    have hcases : s = prev ∨ s = -prev := by
      rcases hs with hs | hs <;> rcases hedge.2 with hp | hp <;> omega
    rcases hcases with hcases | hcases
    . rw [hcases] at hzig
      rcases hzig with ⟨p, q, _, hpq, _, hmove, hrest⟩
      exact hrest.start (hbehind hpq hmove)
    rw [hcases] at hzig
    rcases hzig.shorter with ⟨p, q, _, hpq, hq, hmove, hrest⟩
    have hiq := hbehind hpq hmove
    rcases Nat.lt_or_ge p i with hlt | hge
    . refine ⟨i, q, le_refl i, hiq, hq, ?_, hrest⟩
      dsimp only at hmove ⊢
      have hp : (pts p).2 = (pts (i - 1)).2 := by
        rw [hflat p (by omega), hflat (i - 1) (le_refl _)]
      have hsum : -prev * ((pts i).2 - (pts q).2)
          = -prev * ((pts p).2 - (pts q).2) + prev * ((pts (i - 1)).2 - (pts i).2) := by
        rw [hp]
        ring
      omega
    . exact ⟨p, q, hge, hpq, hq, hmove, hrest⟩
  . intro hzig
    exact ⟨prev, hedge.2, i - 1, i, Nat.zero_le _, by omega, hi, hedge.1, hzig⟩

def ReadsInside (pts : Nat → Int × Int) (vertices : Nat) : Prop :=
  ∀ k ∈ (polygonIsMonotoneVertical pts vertices).2, k < vertices

def LeavesEarly (pts : Nat → Int × Int) (vertices : Nat) : Prop :=
  vertices = 3 ∨ pts 0 ≠ pts (vertices - 1) ∨ (∀ k < vertices, (pts k).2 = (pts 0).2) ∨ Winds pts vertices

theorem not_winds_of_flat {vertices : Nat} (hflat : ∀ k ≤ vertices - 1, (pts k).2 = (pts 0).2)
    : ¬Winds pts vertices := by
  rintro ⟨s, _, p, q, _, hpq, hq, hmove, _⟩
  dsimp only at hmove
  rw [hflat p (by omega), hflat q hq, sub_self, mul_zero] at hmove
  exact lt_irrefl _ hmove

theorem polygonIsMonotoneVertical_spec {vertices : Nat} (hn : 3 ≤ vertices)
    : (ReadsInside pts vertices ↔ LeavesEarly pts vertices)
      ∧ ((polygonIsMonotoneVertical pts vertices).1 = true
        → vertices = 3 ∨ pts 0 = pts (vertices - 1) ∧ ¬Winds pts vertices) := by
  rw [ReadsInside, LeavesEarly, polygonIsMonotoneVertical]
  split
  . next hlt =>
    have hthree : vertices = 3 := by omega
    exact ⟨iff_of_true (by simp) (.inl hthree), fun _ => .inl hthree⟩
  rename_i hge
  split
  . next hopen =>
    refine ⟨iff_of_true ?_ (.inr (.inl hopen)), ?_⟩
    . simp
      omega
    . intro hfalse
      cases hfalse
  rename_i hclosed
  have hclosed' := not_not.mp hclosed
  have hzero : signum ((pts (vertices - 1)).2 - (pts 0).2) = 0 := by
    rw [hclosed', sub_self]
    rfl
  rw [hzero]
  have hfirst := @firstEdge_spec pts (vertices - 1) 0 (vertices - 1) 0
    (by omega) (fun k hk _ => by rw [Nat.le_zero.mp hk]) (fun h => absurd rfl h)
  dsimp only at hfirst ⊢
  generalize firstEdge pts (vertices - 1) 0 0 = found at hfirst
  rcases hfirst with ⟨hreads, hle, hflat, hedge⟩
  have hfront : ∀ k ∈ 0 :: (vertices - 1) :: found.2.2, k < vertices := by
    intro k hk
    rcases List.mem_cons.mp hk with hk | hk
    . omega
    rcases List.mem_cons.mp hk with hk | hk
    . omega
    . have := hreads k hk
      omega
  split
  . next hall =>
    -- All edges are horizontal, as the polygon is closed.
    have hline : ∀ k ≤ vertices - 1, (pts k).2 = (pts 0).2 := by
      by_cases hprev : found.1 = 0
      . exact (hflat hprev).2
      rcases hedge hprev with ⟨_, hdelta, hbefore⟩
      rw [hall] at hbefore hdelta
      intro k hk
      rcases Nat.lt_or_ge k (vertices - 1) with hlt | hge'
      . exact hbefore k (by omega)
      . have heq : k = vertices - 1 := by omega
        rw [heq, hclosed']
    refine ⟨iff_of_true hfront (.inr (.inr (.inl fun k hk => hline k (by omega)))), ?_⟩
    exact fun _ => .inr ⟨hclosed', not_winds_of_flat hline⟩
  rename_i hnotall
  have hprev : found.1 ≠ 0 := fun h => hnotall (hflat h).1
  rcases hedge hprev with ⟨hpos, hdelta, hbefore⟩
  have hunit : found.1 = 1 ∨ found.1 = -1 := by
    rw [hdelta] at hprev ⊢
    rw [deltaY] at hprev ⊢
    rcases signum_cases ((pts (found.2.1 - 1)).2 - (pts (found.2.1 - 1 + 1)).2) with h | h | h <;> omega
  have hcount := @countReversals_reads pts (vertices - 1 - found.2.1) 0 found.2.1 (vertices - 1) found.1 hunit
    (by omega) (by omega)
  have hwinds := winds_iff hle hpos hdelta hprev hbefore
  have hlast : vertices - 1 + 1 = vertices := by omega
  rw [Nat.sub_zero, ← hwinds, hlast] at hcount
  have hnotflat : ¬∀ k < vertices, (pts k).2 = (pts 0).2 := by
    intro hline
    have hsucc : found.2.1 - 1 + 1 = found.2.1 := by omega
    rw [deltaY, hsucc, hline (found.2.1 - 1) (by omega), hline found.2.1 (by omega), sub_self] at hdelta
    exact hprev hdelta
  constructor
  . constructor
    . intro hinside
      refine .inr (.inr (.inr ?_))
      by_contra hnot
      exact lt_irrefl _ (hinside vertices (List.mem_append_right _ (hcount.1.mpr hnot)))
    rintro (hthree | hopen | hline | hwind)
    . omega
    . exact absurd hclosed' hopen
    . exact absurd hline hnotflat
    intro k hk
    rcases List.mem_append.mp hk with hk | hk
    . exact hfront k hk
    have hle' := hcount.2.2 k hk
    have hne : k ≠ vertices := by
      intro heq
      rw [heq] at hk
      exact hcount.1.mp hk hwind
    omega
  . intro htrue
    exact .inr ⟨hclosed', hcount.1.mp (hcount.2.1 htrue)⟩

end Counting

end MiniGui.Monotone
