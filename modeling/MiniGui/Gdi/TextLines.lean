import MiniGui.Gdi.LineSafe

namespace MiniGui

/--
A call of `draw_text_lines` with the clip rectangles of the effective region; `mbcDescent` is 0 without such a font.
-/
structure StyleLines where
  x1 : Int
  y1 : Int
  x2 : Int
  y2 : Int
  size : Int
  sbcDescent : Int
  mbcDescent : Int
  underlineLine : Bool
  struckoutLine : Bool
  flipVert : Bool
  rects : List Rect
  disjoint : rects.Pairwise fun a b => ∀ x y, ¬(a.Mem x y ∧ b.Mem x y)

/--
The ends that `LineClipper` leaves, where the rectangle meets the output; its loop takes four rounds at most.
-/
def clipStroke (rcOutput : Rect) (line : LineEnds) (cliprect : Rect) : Option LineEnds :=
  if (intersectRect rcOutput cliprect).1 then lineClipper (intersectRect rcOutput cliprect).2 4 line else none

def strokeLoop (rcOutput : Rect) : List Rect → LineEnds → List (Int × Int) × LineEnds
  | [], line => ([], line)
  | cliprect :: rects, line =>
    match clipStroke rcOutput line cliprect with
    | none => strokeLoop rcOutput rects line
    | some piece =>
      let (pixels, line) := strokeLoop rcOutput rects piece
      (lineGenerator piece ++ pixels, line)

namespace StyleLines

variable (t : StyleLines)

def rcOutput : Rect :=
  let rc := normalizeRect ⟨t.x1, t.y1, t.x2, t.y2⟩
  ⟨rc.left - 1, rc.top - t.size, rc.right + 1, rc.bottom + 1⟩

def descent : Int :=
  max t.sbcDescent t.mbcDescent

def underline : LineEnds :=
  let dy := if t.flipVert then t.descent * 2 + 1 - t.size else 0
  ⟨t.x1, t.y1 + dy, t.x2, t.y2 + dy⟩

def struckAt (line : LineEnds) : LineEnds :=
  let dy := t.descent - t.size / 2 + (if t.flipVert then 1 else 0)
  ⟨line.x0, t.y1 + dy, line.x1, t.y2 + dy⟩

def struckout : LineEnds :=
  t.struckAt ⟨t.x1, t.y1, t.x2, t.y2⟩

/--
The pixels of the underline and of the strike-out, which starts from the columns that the underline has left.
-/
def drawTextLines : List (Int × Int) × List (Int × Int) :=
  if t.x1 = t.x2 ∧ t.y1 = t.y2 then
    ([], [])
  else
    let (under, line) :=
      if t.underlineLine then strokeLoop t.rcOutput t.rects t.underline else ([], ⟨t.x1, t.y1, t.x2, t.y2⟩)
    let struck := if t.struckoutLine then (strokeLoop t.rcOutput t.rects (t.struckAt line)).1 else []
    (under, struck)

def Shown (p : Int × Int) : Prop :=
  t.rcOutput.Mem p.1 p.2 ∧ ∃ c ∈ t.rects, c.Mem p.1 p.2

def StrokeExact (style : Bool) (line : LineEnds) (pixels : List (Int × Int)) : Prop :=
  ∀ p, p ∈ pixels ↔ style = true ∧ p ∈ lineGenerator line ∧ t.Shown p

def LinesExact : Prop :=
  if t.x1 = t.x2 ∧ t.y1 = t.y2 then
    t.drawTextLines = ([], [])
  else
    t.StrokeExact t.underlineLine t.underline t.drawTextLines.1
      ∧ t.StrokeExact t.struckoutLine t.struckout t.drawTextLines.2

/--
The first rectangle that `start` is not rejected by shows of it what it shows of the line, and no other one shows
anything of the line.
-/
def StrokeOk (line start : LineEnds) : Prop :=
  match t.rects.find? fun c => (clipStroke t.rcOutput start c).isSome with
  | none => ∀ p ∈ lineGenerator line, ¬t.Shown p
  | some c =>
    (∀ p, p ∈ ((clipStroke t.rcOutput start c).elim [] lineGenerator)
        ↔ p ∈ lineGenerator line ∧ t.rcOutput.Mem p.1 p.2 ∧ c.Mem p.1 p.2)
      ∧ ∀ p ∈ lineGenerator line, ∀ c' ∈ t.rects, c' ≠ c → ¬(t.rcOutput.Mem p.1 p.2 ∧ c'.Mem p.1 p.2)

def struckStart : LineEnds :=
  t.struckAt (if t.underlineLine then
    (t.rects.findSome? (clipStroke t.rcOutput t.underline)).getD t.underline
  else
    ⟨t.x1, t.y1, t.x2, t.y2⟩)

def LinesOk : Prop :=
  (t.x1 = t.x2 ∧ t.y1 = t.y2)
    ∨ ((t.underlineLine = true → t.StrokeOk t.underline t.underline)
      ∧ (t.struckoutLine = true → t.StrokeOk t.struckout t.struckStart))

end StyleLines

theorem lineClipper_ends {cliprc : Rect} {line piece : LineEnds} (h : lineClipper cliprc 4 line = some piece)
    : cliprc.Mem piece.x0 piece.y0 ∧ cliprc.Mem piece.x1 piece.y1 := by
  have hanswer : line.Answers cliprc (lineClipper cliprc 4 line) := by
    by_cases hx : line.x0 = line.x1
    . exact LineEnds.answers_vertical hx
    . by_cases hy : line.y0 = line.y1
      . exact LineEnds.answers_horizontal hx hy
      . exact (LineEnds.answers_slanted hx hy 0).2
  rw [h] at hanswer
  exact hanswer

theorem lineClipper_beside {rc cliprc : Rect} {line : LineEnds} (h0 : rc.Mem line.x0 line.y0)
    (h1 : rc.Mem line.x1 line.y1) (hproper : cliprc.Proper) (hdisjoint : ∀ x y, ¬(rc.Mem x y ∧ cliprc.Mem x y))
    : lineClipper cliprc 4 line = none := by
  have hsplit := hdisjoint (max rc.left cliprc.left) (max rc.top cliprc.top)
  unfold Rect.Mem at h0 h1 hsplit
  unfold Rect.Proper at hproper
  unfold lineClipper
  split
  next hpoint =>
    rw [if_neg]
    rw [ScanDc.inRect_iff]
    unfold Rect.Mem
    omega
  next =>
    split
    next =>
      rw [if_pos (by split <;> omega)]
    next =>
      split
      next =>
        rw [if_pos (by split <;> omega)]
      next =>
        rw [if_neg, if_pos]
        . unfold outcode Outcode.shares
          simp only [Bool.or_eq_true, Bool.and_eq_true, decide_eq_true_eq]
          omega
        . rw [outcode_inside, outcode_inside]
          unfold Rect.Mem
          omega

section Loop

variable {rcOutput : Rect} {line piece : LineEnds} {c : Rect} {rects : List Rect}

theorem clipStroke_eq_some (h : clipStroke rcOutput line c = some piece)
    : (intersectRect rcOutput c).2.Mem piece.x0 piece.y0 ∧ (intersectRect rcOutput c).2.Mem piece.x1 piece.y1 := by
  unfold clipStroke at h
  split at h
  . exact lineClipper_ends h
  . cases h

theorem clipStroke_beside {a : Rect} (h : clipStroke rcOutput line a = some piece)
    (hdisjoint : ∀ x y, ¬(a.Mem x y ∧ c.Mem x y)) : clipStroke rcOutput piece c = none := by
  obtain ⟨h0, h1⟩ := clipStroke_eq_some h
  unfold clipStroke
  split
  next hmeet =>
    apply lineClipper_beside h0 h1 (intersectRect_proper.mp hmeet)
    intro x y
    rw [intersectRect_mem, intersectRect_mem]
    exact fun hboth => hdisjoint x y ⟨hboth.1.2, hboth.2.2⟩
  next => rfl

theorem strokeLoop_none (h : ∀ c ∈ rects, clipStroke rcOutput line c = none)
    : strokeLoop rcOutput rects line = ([], line) := by
  induction rects with
  | nil => rfl
  | cons c rects ih =>
    rw [strokeLoop, h c List.mem_cons_self]
    exact ih fun c hc => h c (List.mem_cons_of_mem _ hc)

theorem strokeLoop_eq (hdisjoint : rects.Pairwise fun a b => ∀ x y, ¬(a.Mem x y ∧ b.Mem x y))
    : strokeLoop rcOutput rects line
        = ((rects.findSome? (clipStroke rcOutput line)).elim [] lineGenerator,
          (rects.findSome? (clipStroke rcOutput line)).getD line) := by
  induction rects with
  | nil => rfl
  | cons c rects ih =>
    rw [strokeLoop, List.findSome?_cons]
    obtain ⟨hhead, hrest⟩ := List.pairwise_cons.mp hdisjoint
    cases hclip : clipStroke rcOutput line c with
    | none => exact ih hrest
    | some piece =>
      dsimp only
      rw [strokeLoop_none fun c' hc' => clipStroke_beside hclip (hhead c' hc')]
      rw [List.append_nil]
      rfl

theorem findSome?_eq_find? : rects.findSome? (clipStroke rcOutput line)
    = (rects.find? fun c => (clipStroke rcOutput line c).isSome).bind (clipStroke rcOutput line) := by
  induction rects with
  | nil => rfl
  | cons c rects ih =>
    rw [List.findSome?_cons, List.find?_cons]
    cases hclip : clipStroke rcOutput line c with
    | none => exact ih
    | some piece => exact hclip.symm

end Loop

namespace StyleLines

variable {t : StyleLines}

theorem stroke_iff (line start : LineEnds)
    : t.StrokeExact true line (strokeLoop t.rcOutput t.rects start).1 ↔ t.StrokeOk line start := by
  rw [strokeLoop_eq t.disjoint, findSome?_eq_find?]
  unfold StrokeExact StrokeOk
  cases hfind : t.rects.find? fun c => (clipStroke t.rcOutput start c).isSome with
  | none =>
    constructor
    . intro h p hp hshown
      exact absurd ((h p).mpr ⟨rfl, hp, hshown⟩) List.not_mem_nil
    intro h p
    apply iff_of_false
    . exact List.not_mem_nil
    . exact fun hp => h p hp.2.1 hp.2.2
  | some c =>
    have hmem := List.mem_of_find?_eq_some hfind
    obtain ⟨piece, hpiece⟩ := Option.isSome_iff_exists.mp (@List.find?_some _ _ c t.rects hfind)
    have hin : ∀ p ∈ lineGenerator piece, t.rcOutput.Mem p.1 p.2 ∧ c.Mem p.1 p.2 := by
      intro p hp
      obtain ⟨h0, h1⟩ := clipStroke_eq_some hpiece
      rw [← intersectRect_mem]
      exact LineEnds.lineGenerator_mem h0 h1 hp
    dsimp only
    rw [Option.bind_some, hpiece]
    dsimp only [Option.elim]
    constructor
    . intro h
      constructor
      . intro p
        constructor
        . exact fun hp => ⟨((h p).mp hp).2.1, hin p hp⟩
        . exact fun hp => (h p).mpr ⟨rfl, hp.1, hp.2.1, c, hmem, hp.2.2⟩
      intro p hp c' hc' hne hshown
      have hc := (hin p ((h p).mpr ⟨rfl, hp, hshown.1, c', hc', hshown.2⟩)).2
      have hsymm : Std.Symm fun a b : Rect => ∀ x y, ¬(a.Mem x y ∧ b.Mem x y) :=
        ⟨fun a b hab x y hboth => hab x y hboth.symm⟩
      exact t.disjoint.forall hc' hmem hne _ _ ⟨hshown.2, hc⟩
    rintro ⟨hpiece, hother⟩ p
    rw [hpiece p]
    constructor
    . exact fun hp => ⟨rfl, hp.1, hp.2.1, c, hmem, hp.2.2⟩
    rintro ⟨-, hp, hout, c', hc', hin'⟩
    refine ⟨hp, hout, ?_⟩
    by_contra hnot
    refine hother p hp c' hc' ?_ ⟨hout, hin'⟩
    rintro rfl
    exact hnot hin'

theorem strokeExact_false (line : LineEnds) : t.StrokeExact false line [] := by
  intro p
  apply iff_of_false
  . exact List.not_mem_nil
  . exact fun h => Bool.false_ne_true h.1

/--
The lines are what the region shows of them just when each is seen in one rectangle, in which its ends do not matter.
-/
theorem linesExact_iff (t : StyleLines) : t.LinesExact ↔ t.LinesOk := by
  unfold LinesExact LinesOk drawTextLines
  by_cases hpoint : t.x1 = t.x2 ∧ t.y1 = t.y2
  . rw [if_pos hpoint, if_pos hpoint]
    exact iff_of_true rfl (Or.inl hpoint)
  rw [if_neg hpoint, if_neg hpoint, or_iff_right hpoint]
  have hline : (if t.underlineLine then strokeLoop t.rcOutput t.rects t.underline
      else ([], ⟨t.x1, t.y1, t.x2, t.y2⟩)).2 = (if t.underlineLine then
        (t.rects.findSome? (clipStroke t.rcOutput t.underline)).getD t.underline
      else ⟨t.x1, t.y1, t.x2, t.y2⟩) := by
    rw [strokeLoop_eq t.disjoint]
    split <;> rfl
  dsimp only
  rw [hline]
  apply and_congr
  . cases hunder : t.underlineLine with
    | false => exact iff_of_true (strokeExact_false _) (fun h => absurd h Bool.false_ne_true)
    | true => exact (stroke_iff _ _).trans ⟨fun h _ => h, fun h => h rfl⟩
  . cases hstruck : t.struckoutLine with
    | false => exact iff_of_true (strokeExact_false _) (fun h => absurd h Bool.false_ne_true)
    | true => exact (stroke_iff _ _).trans ⟨fun h _ => h, fun h => h rfl⟩

def twoParts : StyleLines where
  x1 := 0
  y1 := 10
  x2 := 20
  y2 := 10
  size := 16
  sbcDescent := 3
  mbcDescent := 0
  underlineLine := true
  struckoutLine := false
  flipVert := false
  rects := [⟨0, 0, 5, 20⟩, ⟨10, 0, 15, 20⟩]
  disjoint := by
    rw [List.pairwise_pair]
    unfold Rect.Mem
    dsimp only
    omega

theorem not_linesExact : ¬∀ t : StyleLines, t.LinesExact := by
  intro h
  have hexact := h twoParts
  unfold LinesExact at hexact
  rw [if_neg (by decide)] at hexact
  have hdrawn := (hexact.1 (12, 10)).mpr ⟨rfl, by decide, by decide, ⟨10, 0, 15, 20⟩, by decide, by decide⟩
  revert hdrawn
  decide

end StyleLines

end MiniGui
