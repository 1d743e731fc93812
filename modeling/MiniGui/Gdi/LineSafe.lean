import MiniGui.Gdi.LinePath

namespace MiniGui

def Outcode.axes (code : Outcode) : Nat :=
  (code.left || code.right).toNat + (code.top || code.bottom).toNat

def Between (s o k : Int) : Prop :=
  (s ≤ k ∧ k ≤ o) ∨ (o ≤ k ∧ k ≤ s)

section Sides

variable {cliprc : Rect} {x y x' y' : Int}

theorem Outcode.shares_comm (first last : Outcode) : first.shares last = last.shares first := by
  unfold Outcode.shares
  rw [Bool.and_comm first.left, Bool.and_comm first.right, Bool.and_comm first.top, Bool.and_comm first.bottom]

theorem shares_iff : (outcode cliprc x y).shares (outcode cliprc x' y') = true
      ↔ (x < cliprc.left ∧ x' < cliprc.left)
        ∨ ((¬x < cliprc.left ∧ x ≥ cliprc.right) ∧ ¬x' < cliprc.left ∧ x' ≥ cliprc.right)
        ∨ (y < cliprc.top ∧ y' < cliprc.top)
        ∨ ((¬y < cliprc.top ∧ y ≥ cliprc.bottom) ∧ ¬y' < cliprc.top ∧ y' ≥ cliprc.bottom) := by
  unfold outcode Outcode.shares
  simp only [Bool.or_eq_true, Bool.and_eq_true, decide_eq_true_eq, or_assoc]

theorem axes_eq : (outcode cliprc x y).axes
        = (if cliprc.left ≤ x ∧ x < cliprc.right then 0 else 1)
          + (if cliprc.top ≤ y ∧ y < cliprc.bottom then 0 else 1) := by
  have hx : (decide (x < cliprc.left) || decide (¬x < cliprc.left ∧ x ≥ cliprc.right)) = true
      ↔ ¬(cliprc.left ≤ x ∧ x < cliprc.right) := by
    rw [Bool.or_eq_true, decide_eq_true_eq, decide_eq_true_eq]
    omega
  have hy : (decide (y < cliprc.top) || decide (¬y < cliprc.top ∧ y ≥ cliprc.bottom)) = true
      ↔ ¬(cliprc.top ≤ y ∧ y < cliprc.bottom) := by
    rw [Bool.or_eq_true, decide_eq_true_eq, decide_eq_true_eq]
    omega
  unfold Outcode.axes outcode
  rw [Bool.toNat, Bool.toNat, Bool.cond_eq_ite, Bool.cond_eq_ite]
  congr 1
  . rw [if_congr hx rfl rfl, ite_not]
  . rw [if_congr hy rfl rfl, ite_not]

theorem axes_pos (h : ¬cliprc.Mem x y) : 0 < (outcode cliprc x y).axes := by
  unfold Rect.Mem at h
  rw [axes_eq]
  split <;> split <;> omega

theorem axes_lt_of_column (hout : ¬(cliprc.left ≤ x ∧ x < cliprc.right)) (hin : cliprc.left ≤ x' ∧ x' < cliprc.right)
    (hrow : cliprc.top ≤ y ∧ y < cliprc.bottom → cliprc.top ≤ y' ∧ y' < cliprc.bottom)
    : (outcode cliprc x' y').axes < (outcode cliprc x y).axes := by
  rw [axes_eq, axes_eq, if_neg hout, if_pos hin]
  split <;> split <;> omega

theorem axes_lt_of_row (hout : ¬(cliprc.top ≤ y ∧ y < cliprc.bottom)) (hin : cliprc.top ≤ y' ∧ y' < cliprc.bottom)
    (hcolumn : cliprc.left ≤ x ∧ x < cliprc.right → cliprc.left ≤ x' ∧ x' < cliprc.right)
    : (outcode cliprc x' y').axes < (outcode cliprc x y).axes := by
  rw [axes_eq, axes_eq, if_neg hout, if_pos hin]
  split <;> split <;> omega

end Sides

theorem Between.map {f : Int → Int} {s o k : Int} (hf : Monotone f ∨ Antitone f) (h : Between s o k)
    : Between (f s) (f o) (f k) := by
  unfold Between
  rcases hf with hf | hf
  . rcases h with ⟨h1, h2⟩ | ⟨h1, h2⟩
    . exact .inl ⟨hf h1, hf h2⟩
    . exact .inr ⟨hf h1, hf h2⟩
  . rcases h with ⟨h1, h2⟩ | ⟨h1, h2⟩
    . exact .inr ⟨hf h2, hf h1⟩
    . exact .inl ⟨hf h2, hf h1⟩

theorem Splits.cut {p : Int → Prop} {place s o : Int} (h : Splits p place) (hs : p s) (ho : ¬p o)
    : Between s o place ∧ ∀ k, Between s o k → ¬p k → Between place o k := by
  unfold Between
  rcases h with h | h
  . rw [h] at hs ho
    refine ⟨by omega, ?_⟩
    intro k hk hnot
    rw [h] at hnot
    omega
  rw [h] at hs ho
  refine ⟨by omega, ?_⟩
  intro k hk hnot
  rw [h] at hnot
  omega

namespace LineEnds

section Cut

variable {line : LineEnds} {px py : Int → Int} {stop : Int} {cliprc : Rect}

theorem Path.cut (h : line.Path px py stop) {s o : Int} (hout : ¬cliprc.Mem (px s) (py s))
    (hshares : ¬(outcode cliprc (px s) (py s)).shares (outcode cliprc (px o) (py o)) = true)
    : ∃ t, line.crossing cliprc (outcode cliprc (px s) (py s)) = (px t, py t)
      ∧ (∀ k, Between s o k → cliprc.Mem (px k) (py k) → Between t o k)
      ∧ ((outcode cliprc (px t) (py t)).shares (outcode cliprc (px o) (py o)) = true
        ∨ (outcode cliprc (px t) (py t)).axes < (outcode cliprc (px s) (py s)).axes) := by
  simp only [shares_iff] at hshares ⊢
  unfold Rect.Mem at hout ⊢
  by_cases hleft : px s < cliprc.left
  . obtain ⟨t, hcross, hat, hsplits⟩ := h.left cliprc (outcode cliprc (px s) (py s)) (decide_eq_true hleft)
    obtain ⟨hbetween, hrest⟩ := hsplits.cut hleft (show ¬px o < cliprc.left by omega)
    have hrow := hbetween.map h.yMono
    refine ⟨t, hcross, ?_, ?_⟩
    . intro k hk hmem
      exact hrest k hk (show ¬px k < cliprc.left by omega)
    unfold Between at hrow
    by_cases hproper : cliprc.left < cliprc.right
      ∧ (cliprc.top ≤ py s ∧ py s < cliprc.bottom → cliprc.top ≤ py t ∧ py t < cliprc.bottom)
    . exact .inr (axes_lt_of_column (by omega) (by omega) hproper.2)
    . left
      omega
  have hl : (outcode cliprc (px s) (py s)).left = false := decide_eq_false hleft
  by_cases hright : px s ≥ cliprc.right
  . obtain ⟨t, hcross, hat, hsplits⟩ := h.right cliprc _ hl (decide_eq_true ⟨hleft, hright⟩)
    by_cases hproper : cliprc.left < cliprc.right
    . obtain ⟨hbetween, hrest⟩ := hsplits.cut hright (show ¬cliprc.right ≤ px o by omega)
      have hrow := hbetween.map h.yMono
      refine ⟨t, hcross, ?_, ?_⟩
      . intro k hk hmem
        exact hrest k hk (show ¬cliprc.right ≤ px k by omega)
      unfold Between at hrow
      by_cases hkeeps : cliprc.top ≤ py s ∧ py s < cliprc.bottom → cliprc.top ≤ py t ∧ py t < cliprc.bottom
      . exact .inr (axes_lt_of_column (by omega) (by omega) hkeeps)
      . left
        omega
    refine ⟨t, hcross, ?_, ?_⟩
    . intro k hk hmem
      omega
    . left
      omega
  have hr : (outcode cliprc (px s) (py s)).right = false := decide_eq_false fun hboth => hright hboth.2
  by_cases htop : py s < cliprc.top
  . obtain ⟨t, hcross, hat, hsplits⟩ := h.top cliprc _ hl hr (decide_eq_true htop)
    obtain ⟨hbetween, hrest⟩ := hsplits.cut htop (show ¬py o < cliprc.top by omega)
    have hcolumn := hbetween.map h.xMono
    refine ⟨t, hcross, ?_, ?_⟩
    . intro k hk hmem
      exact hrest k hk (show ¬py k < cliprc.top by omega)
    unfold Between at hcolumn
    by_cases hproper : cliprc.top < cliprc.bottom
      ∧ (cliprc.left ≤ px s ∧ px s < cliprc.right → cliprc.left ≤ px t ∧ px t < cliprc.right)
    . exact .inr (axes_lt_of_row (by omega) (by omega) hproper.2)
    . left
      omega
  obtain ⟨t, hcross, hat, hsplits⟩ := h.bottom cliprc (outcode cliprc (px s) (py s)) hl hr (decide_eq_false htop)
  by_cases hproper : cliprc.top < cliprc.bottom
  . obtain ⟨hbetween, hrest⟩ :=
      hsplits.cut (show cliprc.bottom ≤ py s by omega) (show ¬cliprc.bottom ≤ py o by omega)
    have hcolumn := hbetween.map h.xMono
    refine ⟨t, hcross, ?_, ?_⟩
    . intro k hk hmem
      exact hrest k hk (show ¬cliprc.bottom ≤ py k by omega)
    unfold Between at hcolumn
    by_cases hkeeps : cliprc.left ≤ px s ∧ px s < cliprc.right → cliprc.left ≤ px t ∧ px t < cliprc.right
    . exact .inr (axes_lt_of_row (by omega) (by omega) hkeeps)
    . left
      omega
  refine ⟨t, hcross, ?_, ?_⟩
  . intro k hk hmem
    omega
  . left
    omega

end Cut

def settle (piece : LineEnds) (first last : Outcode) : Option LineEnds ⊕ LineEnds × Outcode × Outcode :=
  if first.shares last then
    .inl none
  else if first.inside ∧ last.inside then
    .inl (some piece)
  else
    .inr (piece, first, last)

def cutRound (line : LineEnds) (cliprc : Rect) (piece : LineEnds) (first last : Outcode)
    : Option LineEnds ⊕ LineEnds × Outcode × Outcode :=
  if first.inside then
    let xy := line.crossing cliprc last
    settle { piece with x1 := xy.1, y1 := xy.2 } first (outcode cliprc xy.1 xy.2)
  else
    let xy := line.crossing cliprc first
    settle { piece with x0 := xy.1, y0 := xy.2 } (outcode cliprc xy.1 xy.2) last

def ends (line : LineEnds) (cliprc : Rect) (rounds : Nat) (piece : LineEnds) (first last : Outcode) : Bool :=
  match rounds with
  | 0 => false
  | rounds + 1 =>
    (line.cutRound cliprc piece first last).elim (fun _ => true) fun s => line.ends cliprc rounds s.1 s.2.1 s.2.2

theorem cutLoop_succ (line : LineEnds) (cliprc : Rect) (rounds : Nat) (piece : LineEnds) (first last : Outcode)
    : line.cutLoop cliprc (rounds + 1) piece first last
        = (line.cutRound cliprc piece first last).elim id fun s => line.cutLoop cliprc rounds s.1 s.2.1 s.2.2 := by
  rw [cutLoop]
  unfold cutRound settle
  by_cases hfirst : first.inside = true
  . simp only [if_pos hfirst]
    split
    . rfl
    . split
      . rfl
      . rfl
  simp only [if_neg hfirst]
  split
  . rfl
  . split
    . rfl
    . rfl

structure Holds (px py : Int → Int) (stop : Int) (cliprc : Rect) (piece : LineEnds) (a b : Int) : Prop where
  first : piece.x0 = px a ∧ piece.y0 = py a
  last : piece.x1 = px b ∧ piece.y1 = py b
  rest : ∀ k, 0 ≤ k → k ≤ stop → cliprc.Mem (px k) (py k) → Between a b k

section Run

variable {line : LineEnds} {px py : Int → Int} {stop : Int} {cliprc : Rect}

def Sound (px py : Int → Int) (stop : Int) (cliprc : Rect) (result : Option LineEnds) : Prop :=
  match result with
  | some piece => cliprc.Mem piece.x0 piece.y0 ∧ cliprc.Mem piece.x1 piece.y1
  | none => ∀ k, 0 ≤ k → k ≤ stop → ¬cliprc.Mem (px k) (py k)

variable {piece : LineEnds}

theorem Path.sound_of_shares (h : line.Path px py stop) {a b : Int}
    (hpiece : Holds px py stop cliprc piece a b)
    (hshares : (outcode cliprc (px a) (py a)).shares (outcode cliprc (px b) (py b)) = true)
    : Sound px py stop cliprc none := by
  intro k hk0 hk hmem
  have hbetween := hpiece.rest k hk0 hk hmem
  have hx := hbetween.map h.xMono
  have hy := hbetween.map h.yMono
  refine @outcode_shares cliprc ⟨px a, py a, px b, py b⟩ (px k, py k) hshares ?_ hmem
  unfold Between at hx hy
  unfold InBox
  dsimp only
  omega

theorem Path.settle (h : line.Path px py stop) {a b : Int}
    (hpiece : Holds px py stop cliprc piece a b)
    : (∃ result, LineEnds.settle piece (outcode cliprc (px a) (py a)) (outcode cliprc (px b) (py b)) = .inl result
        ∧ Sound px py stop cliprc result)
      ∨ (LineEnds.settle piece (outcode cliprc (px a) (py a)) (outcode cliprc (px b) (py b))
          = .inr (piece, outcode cliprc (px a) (py a), outcode cliprc (px b) (py b))
        ∧ ¬(cliprc.Mem (px a) (py a) ∧ cliprc.Mem (px b) (py b))
        ∧ ¬(outcode cliprc (px a) (py a)).shares (outcode cliprc (px b) (py b)) = true) := by
  unfold LineEnds.settle
  by_cases hreject : (outcode cliprc (px a) (py a)).shares (outcode cliprc (px b) (py b)) = true
  . rw [if_pos hreject]
    exact .inl ⟨none, rfl, h.sound_of_shares hpiece hreject⟩
  rw [if_neg hreject]
  have haccept : ((outcode cliprc (px a) (py a)).inside = true ∧ (outcode cliprc (px b) (py b)).inside = true)
      ↔ cliprc.Mem (px a) (py a) ∧ cliprc.Mem (px b) (py b) := by
    rw [outcode_inside, outcode_inside]
  by_cases hin : cliprc.Mem (px a) (py a) ∧ cliprc.Mem (px b) (py b)
  . rw [if_pos (haccept.mpr hin)]
    refine .inl ⟨some piece, rfl, ?_⟩
    show cliprc.Mem piece.x0 piece.y0 ∧ cliprc.Mem piece.x1 piece.y1
    rw [hpiece.first.1, hpiece.first.2, hpiece.last.1, hpiece.last.2]
    exact hin
  . rw [if_neg (hin ∘ haccept.mp)]
    exact .inr ⟨rfl, hin, hreject⟩

theorem Path.round (h : line.Path px py stop) {a b : Int}
    (hpiece : Holds px py stop cliprc piece a b)
    (hin : ¬(cliprc.Mem (px a) (py a) ∧ cliprc.Mem (px b) (py b)))
    (hshares : ¬(outcode cliprc (px a) (py a)).shares (outcode cliprc (px b) (py b)) = true)
    : (∃ result, line.cutRound cliprc piece (outcode cliprc (px a) (py a)) (outcode cliprc (px b) (py b)) = .inl result
        ∧ Sound px py stop cliprc result)
      ∨ ∃ piece' a' b', line.cutRound cliprc piece (outcode cliprc (px a) (py a)) (outcode cliprc (px b) (py b))
          = .inr (piece', outcode cliprc (px a') (py a'), outcode cliprc (px b') (py b'))
        ∧ Holds px py stop cliprc piece' a' b'
        ∧ ¬(cliprc.Mem (px a') (py a') ∧ cliprc.Mem (px b') (py b'))
        ∧ ¬(outcode cliprc (px a') (py a')).shares (outcode cliprc (px b') (py b')) = true
        ∧ (outcode cliprc (px a') (py a')).axes + (outcode cliprc (px b') (py b')).axes
          < (outcode cliprc (px a) (py a)).axes + (outcode cliprc (px b) (py b)).axes := by
  unfold cutRound
  by_cases hfirst : (outcode cliprc (px a) (py a)).inside = true
  . have hlast : ¬cliprc.Mem (px b) (py b) := fun hmem => hin ⟨(outcode_inside _ _ _).mp hfirst, hmem⟩
    rw [Outcode.shares_comm] at hshares
    obtain ⟨t, hcross, hrest, hless⟩ := h.cut hlast hshares
    rw [Outcode.shares_comm] at hless
    have hnew : Holds px py stop cliprc { piece with x1 := px t, y1 := py t } a t :=
      {
        first := hpiece.first
        last := ⟨rfl, rfl⟩
        rest := fun k hk0 hk hmem => (hrest k (hpiece.rest k hk0 hk hmem).symm hmem).symm
      }
    rw [if_pos hfirst, hcross]
    rcases h.settle hnew with hdone | ⟨hmore, hin', hshares'⟩
    . exact .inl hdone
    . refine .inr ⟨_, a, t, hmore, hnew, hin', hshares', ?_⟩
      have hdec := hless.resolve_left hshares'
      omega
  have hout : ¬cliprc.Mem (px a) (py a) := fun hmem => hfirst ((outcode_inside _ _ _).mpr hmem)
  obtain ⟨t, hcross, hrest, hless⟩ := h.cut hout hshares
  have hnew : Holds px py stop cliprc { piece with x0 := px t, y0 := py t } t b :=
    {
      first := ⟨rfl, rfl⟩
      last := hpiece.last
      rest := fun k hk0 hk hmem => hrest k (hpiece.rest k hk0 hk hmem) hmem
    }
  rw [if_neg hfirst, hcross]
  rcases h.settle hnew with hdone | ⟨hmore, hin', hshares'⟩
  . exact .inl hdone
  . refine .inr ⟨_, t, b, hmore, hnew, hin', hshares', ?_⟩
    have hdec := hless.resolve_left hshares'
    omega

theorem Path.run (h : line.Path px py stop) (rounds more : Nat) {piece : LineEnds} {a b : Int}
    (hpiece : Holds px py stop cliprc piece a b)
    (hin : ¬(cliprc.Mem (px a) (py a) ∧ cliprc.Mem (px b) (py b)))
    (hshares : ¬(outcode cliprc (px a) (py a)).shares (outcode cliprc (px b) (py b)) = true)
    (haxes : (outcode cliprc (px a) (py a)).axes + (outcode cliprc (px b) (py b)).axes ≤ rounds)
    : line.ends cliprc rounds piece (outcode cliprc (px a) (py a)) (outcode cliprc (px b) (py b)) = true
      ∧ Sound px py stop cliprc (line.cutLoop cliprc (rounds + more) piece (outcode cliprc (px a) (py a))
          (outcode cliprc (px b) (py b))) := by
  induction rounds generalizing piece a b with
  | zero =>
    exfalso
    apply hin
    constructor
    . by_contra hout
      have hpos := axes_pos hout
      omega
    . by_contra hout
      have hpos := axes_pos hout
      omega
  | succ rounds ih =>
    rw [Nat.add_right_comm, cutLoop_succ, ends]
    rcases h.round hpiece hin hshares with hdone | hmore
    . obtain ⟨result, hround, hsound⟩ := hdone
      rw [hround]
      exact ⟨rfl, hsound⟩
    . obtain ⟨piece', a', b', hround, hnew, hin', hshares', hless⟩ := hmore
      rw [hround]
      exact ih hnew hin' hshares' (by omega)

end Run

section Axis

variable {cliprc : Rect} {line : LineEnds} {rounds : Nat} {p : Int × Int}

theorem lineGenerator_mem (h0 : cliprc.Mem line.x0 line.y0) (h1 : cliprc.Mem line.x1 line.y1)
    (hp : p ∈ lineGenerator line) : cliprc.Mem p.1 p.2 := by
  have hbox := lineGenerator_inBox hp
  unfold InBox at hbox
  unfold Rect.Mem at h0 h1 ⊢
  omega

theorem Ideal.inBox_of_vertical (hx : line.x0 = line.x1) (hp : line.Ideal p)
    : p.1 = line.x0 ∧ min line.y0 line.y1 ≤ p.2 ∧ p.2 ≤ max line.y0 line.y1 := by
  unfold Ideal at hp
  rw [if_neg (by omega)] at hp
  refine ⟨?_, hp.1⟩
  rw [hp.2, ← hx, sub_self, Int.cast_zero, zero_mul, zero_div, add_zero, round_intCast]

theorem Ideal.inBox_of_horizontal (hx : line.x0 ≠ line.x1) (hy : line.y0 = line.y1) (hp : line.Ideal p)
    : p.2 = line.y0 ∧ min line.x0 line.x1 ≤ p.1 ∧ p.1 ≤ max line.x0 line.x1 := by
  unfold Ideal at hp
  rw [if_pos (by omega)] at hp
  refine ⟨?_, hp.1⟩
  rw [hp.2, ← hy, sub_self, Int.cast_zero, zero_mul, zero_div, add_zero, round_intCast]

def Answers (cliprc : Rect) (line : LineEnds) (result : Option LineEnds) : Prop :=
  match result with
  | some piece => cliprc.Mem piece.x0 piece.y0 ∧ cliprc.Mem piece.x1 piece.y1
  | none => ∀ p, line.Ideal p → ¬cliprc.Mem p.1 p.2

theorem ordered_eq (a b : Int) : (if b > a then a else b) = min a b ∧ (if b > a then b else a) = max a b := by
  constructor
  . split <;> omega
  . split <;> omega

theorem clamped_eq (high a : Int) : (if a ≥ high then high - 1 else a) = min (high - 1) a := by
  split <;> omega

theorem answers_vertical (hx : line.x0 = line.x1) : Answers cliprc line (lineClipper cliprc rounds line) := by
  unfold lineClipper
  by_cases hy : line.y0 = line.y1
  . rw [if_pos ⟨hx, hy⟩]
    split
    next hin =>
      rw [ScanDc.inRect_iff] at hin
      refine ⟨hin, ?_⟩
      rw [← hx, ← hy]
      exact hin
    next hin =>
      intro p hp hmem
      have hbox := Ideal.inBox_of_vertical hx hp
      rw [ScanDc.inRect_iff] at hin
      unfold Rect.Mem at hin hmem
      omega
  rw [if_neg fun hpoint => hy hpoint.2, if_pos hx]
  simp only [(ordered_eq _ _).1, (ordered_eq _ _).2, clamped_eq]
  split
  next hout =>
    intro p hp hmem
    have hbox := Ideal.inBox_of_vertical hx hp
    unfold Rect.Mem at hmem
    omega
  next hmeet =>
    split
    next hin =>
      show cliprc.Mem line.x0 line.y0 ∧ cliprc.Mem line.x1 line.y1
      unfold Rect.Mem
      omega
    next hcut =>
      split
      next hnone =>
        intro p hp hmem
        have hbox := Ideal.inBox_of_vertical hx hp
        unfold Rect.Mem at hmem
        omega
      next hsome =>
        show cliprc.Mem line.x0 _ ∧ cliprc.Mem line.x1 _
        unfold Rect.Mem
        dsimp only
        omega

theorem answers_horizontal (hx : line.x0 ≠ line.x1) (hy : line.y0 = line.y1)
    : Answers cliprc line (lineClipper cliprc rounds line) := by
  unfold lineClipper
  rw [if_neg fun hpoint => hx hpoint.1, if_neg hx, if_pos hy]
  simp only [(ordered_eq _ _).1, (ordered_eq _ _).2, clamped_eq]
  split
  next hout =>
    intro p hp hmem
    have hbox := Ideal.inBox_of_horizontal hx hy hp
    unfold Rect.Mem at hmem
    omega
  next hmeet =>
    split
    next hin =>
      show cliprc.Mem line.x0 line.y0 ∧ cliprc.Mem line.x1 line.y1
      unfold Rect.Mem
      omega
    next hcut =>
      split
      next hnone =>
        intro p hp hmem
        have hbox := Ideal.inBox_of_horizontal hx hy hp
        unfold Rect.Mem at hmem
        omega
      next hsome =>
        show cliprc.Mem _ line.y0 ∧ cliprc.Mem _ line.y1
        unfold Rect.Mem
        dsimp only
        omega

end Axis

section Whole

variable {cliprc : Rect} {line : LineEnds}

theorem axes_le (cliprc : Rect) (x y : Int) : (outcode cliprc x y).axes ≤ 2 := by
  rw [axes_eq]
  split <;> split <;> omega

theorem answers_slanted (hx : line.x0 ≠ line.x1) (hy : line.y0 ≠ line.y1) (more : Nat)
    : (¬Uncut cliprc line
        → line.ends cliprc 4 line (outcode cliprc line.x0 line.y0) (outcode cliprc line.x1 line.y1) = true)
      ∧ Answers cliprc line (lineClipper cliprc (4 + more) line) := by
  obtain ⟨px, py, stop, hpath⟩ := exists_path hx hy
  have hwhole : Holds px py stop cliprc line 0 stop :=
    {
      first := hpath.start
      last := hpath.stop
      rest := fun k hk0 hk _ => Or.inl ⟨hk0, hk⟩
    }
  have hanswer : ∀ {result}, Sound px py stop cliprc result → Answers cliprc line result := by
    intro result hsound
    cases result with
    | some piece => exact hsound
    | none =>
      intro p hp
      obtain ⟨k, hk0, hk, heq⟩ := hpath.ideal p hp
      rw [heq]
      exact hsound k hk0 hk
  unfold lineClipper
  rw [if_neg fun hpoint => hx hpoint.1, if_neg hx, if_neg hy]
  rw [hpath.start.1, hpath.start.2, hpath.stop.1, hpath.stop.2]
  by_cases hin : cliprc.Mem (px 0) (py 0) ∧ cliprc.Mem (px stop) (py stop)
  . rw [if_pos ⟨(outcode_inside _ _ _).mpr hin.1, (outcode_inside _ _ _).mpr hin.2⟩]
    constructor
    . intro hcut
      exfalso
      apply hcut
      left
      rw [hpath.start.1, hpath.start.2, hpath.stop.1, hpath.stop.2]
      exact hin
    apply hanswer
    show cliprc.Mem line.x0 line.y0 ∧ cliprc.Mem line.x1 line.y1
    rw [hpath.start.1, hpath.start.2, hpath.stop.1, hpath.stop.2]
    exact hin
  rw [if_neg fun hboth => hin ⟨(outcode_inside _ _ _).mp hboth.1, (outcode_inside _ _ _).mp hboth.2⟩]
  by_cases hshares : (outcode cliprc (px 0) (py 0)).shares (outcode cliprc (px stop) (py stop)) = true
  . rw [if_pos hshares]
    constructor
    . intro hcut
      exfalso
      apply hcut
      right
      rw [hpath.start.1, hpath.start.2, hpath.stop.1, hpath.stop.2]
      exact hshares
    . exact hanswer (hpath.sound_of_shares hwhole hshares)
  rw [if_neg hshares]
  have hfirst := axes_le cliprc (px 0) (py 0)
  have hlast := axes_le cliprc (px stop) (py stop)
  have hrun := hpath.run 4 more hwhole hin hshares (by omega)
  exact ⟨fun _ => hrun.1, hanswer hrun.2⟩

end Whole

end LineEnds

/--
The loop of `LineClipper` ends after four rounds at most.
-/
theorem lineClipper_safe (cliprc : Rect) (line : LineEnds) (more : Nat)
    : (line.x0 ≠ line.x1 → line.y0 ≠ line.y1 → ¬Uncut cliprc line
        → line.ends cliprc 4 line (outcode cliprc line.x0 line.y0) (outcode cliprc line.x1 line.y1) = true)
      ∧ (∀ piece, lineClipper cliprc (4 + more) line = some piece →
        cliprc.Mem piece.x0 piece.y0 ∧ cliprc.Mem piece.x1 piece.y1 ∧ ∀ p ∈ lineGenerator piece, cliprc.Mem p.1 p.2)
      ∧ (lineClipper cliprc (4 + more) line = none → ∀ p, line.Ideal p → ¬cliprc.Mem p.1 p.2) := by
  have hanswer : line.Answers cliprc (lineClipper cliprc (4 + more) line) := by
    by_cases hx : line.x0 = line.x1
    . exact LineEnds.answers_vertical hx
    . by_cases hy : line.y0 = line.y1
      . exact LineEnds.answers_horizontal hx hy
      . exact (LineEnds.answers_slanted hx hy more).2
  refine ⟨?_, ?_, ?_⟩
  . intro hx hy
    exact (LineEnds.answers_slanted hx hy 0).1
  . intro piece hpiece
    rw [hpiece] at hanswer
    obtain ⟨h0, h1⟩ := hanswer
    exact ⟨h0, h1, fun p hp => LineEnds.lineGenerator_mem h0 h1 hp⟩
  . intro hnone
    rw [hnone] at hanswer
    exact hanswer

end MiniGui
