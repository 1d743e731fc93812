import Mathlib

namespace MiniGui

inductive CharType where
  | zeroWidth
  | lf
  | cr
  | ht
  | other
deriving DecidableEq, Repr

/--
A device font. `glyph` is `get_char_bbox` and `get_char_advance` of a font that has them: how far the pen goes, and the
state of the fonts thereafter.
-/
structure GlyphFont (σ : Type) where
  lenFirstChar : List UInt8 → Nat
  charType : List UInt8 → CharType
  glyph : Option (σ → List UInt8 → Int × Int × σ)
  charWidth : List UInt8 → Int
  fontHeight : Int
  fontAscent : Int
  bold : Bool
  italic : Bool

structure GlyphLogFont (σ : Type) where
  sbcDevfont : GlyphFont σ
  mbcDevfont : Option (GlyphFont σ)
  start : σ
  aveWidth : Int
  size : Int
  bold : Bool
  italic : Bool
  utf16 : Bool

inductive MapMode where
  | screen
  | text
  | scaled
deriving DecidableEq, Repr

structure CoorAxis where
  dev : Int
  windowOrig : Int
  viewOrig : Int
  windowExtent : Int
  viewExtent : Int

namespace CoorAxis

variable (axis : CoorAxis)

def coorLP2SP : MapMode → Int → Int
  | .screen, x => x
  | .text, x => x + axis.dev
  | .scaled, x => axis.dev + ((x - axis.windowOrig) * axis.viewExtent).tdiv axis.windowExtent + axis.viewOrig

def coorSP2LP : MapMode → Int → Int
  | .screen, x => x
  | .text, x => x - axis.dev
  | .scaled, x =>
    ((x - axis.dev - axis.viewOrig) * axis.windowExtent).tdiv axis.viewExtent + axis.windowOrig

def extentSP2LP : MapMode → Int → Int
  | .screen, extent => extent
  | .text, extent => extent
  | .scaled, extent => (extent * axis.windowExtent).tdiv axis.viewExtent

end CoorAxis

structure TextDc (σ : Type) where
  font : GlyphLogFont σ
  cExtra : Int
  alExtra : Int
  blExtra : Int
  tabstop : Int
  mapMode : MapMode
  axisX : CoorAxis
  axisY : CoorAxis
  curTextPos : Int × Int

structure TextChar (σ : Type) where
  devfont : GlyphFont σ
  mchar : List UInt8
  type : CharType

variable {σ : Type}

def GlyphFont.firstChar (devfont : GlyphFont σ) (text : List UInt8) : Option (GlyphFont σ × Nat) :=
  if devfont.lenFirstChar text > 0 then some (devfont, devfont.lenFirstChar text) else none

def GlyphLogFont.firstChar (font : GlyphLogFont σ) (text : List UInt8) : Option (GlyphFont σ × Nat) :=
  (font.mbcDevfont.bind (·.firstChar text)).or (font.sbcDevfont.firstChar text)

theorem GlyphFont.firstChar_pos {devfont found : GlyphFont σ} {text : List UInt8} {len : Nat}
    (hfirst : devfont.firstChar text = some (found, len)) : 0 < len := by
  unfold firstChar at hfirst
  split at hfirst
  · cases hfirst
    assumption
  · cases hfirst

theorem GlyphLogFont.firstChar_pos {font : GlyphLogFont σ} {text : List UInt8} {devfont : GlyphFont σ} {len : Nat}
    (hfirst : font.firstChar text = some (devfont, len)) : 0 < len := by
  rcases Option.or_eq_some_iff.mp hfirst with hmbc | ⟨-, hsbc⟩
  · obtain ⟨mbc, -, hmbc⟩ := Option.bind_eq_some_iff.mp hmbc
    exact GlyphFont.firstChar_pos hmbc
  · exact GlyphFont.firstChar_pos hsbc

def GlyphLogFont.chars (font : GlyphLogFont σ) (text : List UInt8) : List (TextChar σ) :=
  if text = [] then
    []
  else
    match _hfirst : font.firstChar text with
    | none => []
    | some (devfont, len) => ⟨devfont, text.take len, devfont.charType text⟩ :: font.chars (text.drop len)
termination_by text.length
decreasing_by
  have := GlyphLogFont.firstChar_pos _hfirst
  have := List.length_pos_iff.mpr ‹¬text = []›
  rw [List.length_drop]
  omega

namespace TextDc

variable (pdc : TextDc σ)

def lineHeight : Int :=
  pdc.font.size + pdc.alExtra + pdc.blExtra

def tabWidth : Int :=
  pdc.font.aveWidth * pdc.tabstop

def putOneChar (ch : TextChar σ) (x y : Int) (s : σ) : Int × Int × σ :=
  let bold := if pdc.font.bold ∧ ch.devfont.bold = false then 1 else 0
  match ch.devfont.glyph with
  | some glyph =>
    let advance := glyph s ch.mchar
    (x + advance.1 + bold, y + advance.2.1, advance.2.2)
  | none => (x + (ch.devfont.charWidth ch.mchar + bold), y, s)

def widthOneChar (ch : TextChar σ) (s : σ) : Int × σ :=
  let w := match ch.devfont.glyph with
    | some glyph =>
      let advance := glyph s ch.mchar
      (advance.1, advance.2.2)
    | none => (ch.devfont.charWidth ch.mchar, s)
  if pdc.font.bold ∧ ch.devfont.bold = false then (w.1 + 1, w.2) else w

def strnwriteLoop : List (TextChar σ) → Int → Int → σ → Int × Int
  | [], x, y, _ => (x, y)
  | ch :: rest, x, y, s =>
    let put := pdc.putOneChar ch x y s
    strnwriteLoop rest (put.1 + pdc.cExtra) put.2.1 put.2.2

def baseline : Int :=
  max pdc.font.sbcDevfont.fontAscent (pdc.font.mbcDevfont.elim 0 (·.fontAscent)) + pdc.alExtra

def strnwritePen (x y : Int) (text : List UInt8) : Int × Int :=
  pdc.strnwriteLoop (pdc.font.chars text) x (y + pdc.baseline) pdc.font.start

def strnwrite (x y : Int) (text : List UInt8) : Int :=
  (pdc.strnwritePen x y text).1 - x

def tabbedLoop (xStart : Int) : List (TextChar σ) → Int → Int → Int → σ → Int × Int × Int
  | [], x, y, maxX, _ => (x, y, maxX)
  | ch :: rest, x, y, maxX, s =>
    match ch.type with
    | .zeroWidth => tabbedLoop xStart rest x y maxX s
    | .lf => tabbedLoop xStart rest xStart (y + pdc.lineHeight) (if maxX < x then x else maxX) pdc.font.start
    | .cr => tabbedLoop xStart rest xStart y (if maxX < x then x else maxX) pdc.font.start
    | .ht => tabbedLoop xStart rest (x + pdc.tabWidth) y maxX pdc.font.start
    | .other =>
      let put := pdc.putOneChar ch x y s
      tabbedLoop xStart rest (put.1 + pdc.cExtra) put.2.1 maxX put.2.2

def tabbedPen (x y : Int) (text : List UInt8) : Int × Int × Int :=
  pdc.tabbedLoop x (pdc.font.chars text) x (y + pdc.baseline) x pdc.font.start

def tabbedTextOut (x y : Int) (text : List UInt8) : Int :=
  let pen := pdc.tabbedPen x y text
  (if pen.2.2 < pen.1 then pen.1 else pen.2.2) - x

def italicExtra : Int :=
  if pdc.font.italic ∧ pdc.font.sbcDevfont.italic = false then
    (max (pdc.font.mbcDevfont.elim 0 (·.fontHeight)) pdc.font.sbcDevfont.fontHeight + 1) >>> 1
  else
    0

def extentLoop : List (TextChar σ) → Int → σ → Int
  | [], cx, _ => cx
  | ch :: rest, cx, s =>
    let width := pdc.widthOneChar ch s
    extentLoop rest (cx + width.1 + pdc.cExtra) width.2

def textOutExtent (text : List UInt8) : Int × Int :=
  (pdc.extentLoop (pdc.font.chars text) 0 pdc.font.start + pdc.italicExtra, pdc.lineHeight)

def tabbedExtentLoop (tabWidth : Int) : List (TextChar σ) → Int → Int → Int → σ → Int × Int × Int
  | [], cx, cy, lastLineWidth, _ => (cx, cy, lastLineWidth)
  | ch :: rest, cx, cy, lastLineWidth, s =>
    match ch.type with
    | .zeroWidth => tabbedExtentLoop tabWidth rest cx cy lastLineWidth s
    | .lf =>
      tabbedExtentLoop tabWidth rest (if lastLineWidth > cx then lastLineWidth else cx) (cy + pdc.lineHeight) 0
        pdc.font.start
    | .cr =>
      tabbedExtentLoop tabWidth rest (if lastLineWidth > cx then lastLineWidth else cx) cy 0 pdc.font.start
    | .ht => tabbedExtentLoop tabWidth rest cx cy (lastLineWidth + tabWidth) pdc.font.start
    | .other =>
      let width := pdc.widthOneChar ch s
      tabbedExtentLoop tabWidth rest cx cy (lastLineWidth + width.1 + pdc.cExtra) width.2

def tabbedTextOutExtent (tabWidth : Int) (text : List UInt8) : (Int × Int) × (Int × Int) :=
  let size := pdc.tabbedExtentLoop tabWidth (pdc.font.chars text) 0 pdc.lineHeight 0 pdc.font.start
  let cx := if size.2.2 > size.1 then size.2.2 else size.1
  ((cx + pdc.italicExtra, size.2.1), (size.2.2, size.2.1 - pdc.lineHeight))

def textOutLen (x y : Int) (text : List UInt8) : TextDc σ :=
  if text = [] then
    pdc
  else
    { pdc with curTextPos := (x + pdc.axisX.extentSP2LP pdc.mapMode (pdc.textOutExtent text).1, y) }

def tabbedTextOutLen (_x _y : Int) (text : List UInt8) : TextDc σ :=
  if text = [] ∨ pdc.font.utf16 = true then
    pdc
  else
    let added := (pdc.tabbedTextOutExtent pdc.tabWidth text).2
    { pdc with
      curTextPos :=
        (pdc.axisX.coorSP2LP pdc.mapMode (pdc.axisX.coorLP2SP pdc.mapMode pdc.curTextPos.1 + added.1),
          pdc.axisY.coorSP2LP pdc.mapMode (pdc.axisY.coorLP2SP pdc.mapMode pdc.curTextPos.2 + added.2)) }

section Climb

variable {σ : Type} (pdc : TextDc σ)

def rise (ch : TextChar σ) (s : σ) : Int :=
  match ch.devfont.glyph with
  | some glyph => (glyph s ch.mchar).2.1
  | none => 0

def climb : List (TextChar σ) → σ → Int
  | [], _ => 0
  | ch :: rest, s => rise ch s + climb rest (pdc.widthOneChar ch s).2

def tabbedClimb : List (TextChar σ) → σ → Int
  | [], _ => 0
  | ch :: rest, s =>
    match ch.type with
    | .zeroWidth => tabbedClimb rest s
    | .lf | .cr | .ht => tabbedClimb rest pdc.font.start
    | .other => rise ch s + tabbedClimb rest (pdc.widthOneChar ch s).2

def PenAt (x y : Int) (moved : Int × Int) (pos : Int × Int) : Prop :=
  pos = (x + pdc.axisX.extentSP2LP pdc.mapMode moved.1, y + pdc.axisY.extentSP2LP pdc.mapMode moved.2)
    ∨ pos = (pdc.axisX.coorSP2LP pdc.mapMode (pdc.axisX.coorLP2SP pdc.mapMode x + moved.1),
      pdc.axisY.coorSP2LP pdc.mapMode (pdc.axisY.coorLP2SP pdc.mapMode y + moved.2))

def strnwriteMoved (x y : Int) (text : List UInt8) : Int × Int :=
  let x := pdc.axisX.coorLP2SP pdc.mapMode x
  let y := pdc.axisY.coorLP2SP pdc.mapMode y
  ((pdc.strnwritePen x y text).1 - x, (pdc.strnwritePen x y text).2 - (y + pdc.baseline))

def tabbedMoved (x y : Int) (text : List UInt8) : Int × Int :=
  let x := pdc.axisX.coorLP2SP pdc.mapMode x
  let y := pdc.axisY.coorLP2SP pdc.mapMode y
  ((pdc.tabbedPen x y text).1 - x, (pdc.tabbedPen x y text).2.1 - (y + pdc.baseline))

end Climb

section Loops

variable {σ : Type} (pdc : TextDc σ)

theorem putOneChar_eq (ch : TextChar σ) (x y : Int) (s : σ) : pdc.putOneChar ch x y s =
        (x + (pdc.widthOneChar ch s).1, y + rise ch s, (pdc.widthOneChar ch s).2) := by
  unfold putOneChar widthOneChar rise
  cases ch.devfont.glyph with
  | none =>
    by_cases hbold : pdc.font.bold = true ∧ ch.devfont.bold = false
    · simp only [if_pos hbold, Int.add_zero]
    · simp only [if_neg hbold, Int.add_zero]
  | some glyph =>
    by_cases hbold : pdc.font.bold = true ∧ ch.devfont.bold = false
    · simp only [if_pos hbold, Int.add_assoc]
    · simp only [if_neg hbold, Int.add_zero]

theorem strnwriteLoop_eq (chars : List (TextChar σ)) (xStart cx y : Int) (s : σ)
    : pdc.strnwriteLoop chars (xStart + cx) y s =
        (xStart + pdc.extentLoop chars cx s, y + pdc.climb chars s) := by
  induction chars generalizing cx y s with
  | nil => simp [strnwriteLoop, extentLoop, climb]
  | cons ch rest ih =>
    rw [strnwriteLoop, extentLoop, climb]
    simp only [putOneChar_eq]
    have hx : xStart + cx + (pdc.widthOneChar ch s).1 + pdc.cExtra =
        xStart + (cx + (pdc.widthOneChar ch s).1 + pdc.cExtra) := by omega
    rw [hx, ih, Int.add_assoc y]

theorem tabbedLoop_eq (chars : List (TextChar σ)) (xStart cx cy lastLineWidth y : Int) (s : σ)
    : pdc.tabbedLoop xStart chars (xStart + lastLineWidth) y (xStart + cx) s =
        let size := pdc.tabbedExtentLoop pdc.tabWidth chars cx cy lastLineWidth s
        (xStart + size.2.2, y + (size.2.1 - cy) + pdc.tabbedClimb chars s, xStart + size.1) := by
  induction chars generalizing cx cy lastLineWidth y s with
  | nil => simp [tabbedLoop, tabbedExtentLoop, tabbedClimb]
  | cons ch rest ih =>
    -- `max_x` at the end of a line
    have hmax : (if xStart + cx < xStart + lastLineWidth then xStart + lastLineWidth else xStart + cx) =
        xStart + (if lastLineWidth > cx then lastLineWidth else cx) := by
      split_ifs <;> omega
    rw [tabbedLoop, tabbedExtentLoop, tabbedClimb]
    cases htype : ch.type with
    | zeroWidth => exact ih cx cy lastLineWidth y s
    | lf =>
      have hline := ih (if lastLineWidth > cx then lastLineWidth else cx) (cy + pdc.lineHeight) 0 (y + pdc.lineHeight)
        pdc.font.start
      rw [Int.add_zero] at hline
      simp only [hmax, hline, Prod.mk.injEq, true_and, and_true]
      omega
    | cr =>
      have hline := ih (if lastLineWidth > cx then lastLineWidth else cx) cy 0 y pdc.font.start
      rw [Int.add_zero] at hline
      simp only [hmax, hline]
    | ht =>
      have htab := ih cx cy (lastLineWidth + pdc.tabWidth) y pdc.font.start
      rw [← Int.add_assoc] at htab
      exact htab
    | other =>
      have hput := ih cx cy (lastLineWidth + (pdc.widthOneChar ch s).1 + pdc.cExtra) (y + rise ch s)
        (pdc.widthOneChar ch s).2
      have hx : xStart + lastLineWidth + (pdc.widthOneChar ch s).1 + pdc.cExtra =
          xStart + (lastLineWidth + (pdc.widthOneChar ch s).1 + pdc.cExtra) := by omega
      simp only [putOneChar_eq, hx, hput, Prod.mk.injEq, true_and, and_true]
      omega

end Loops

section Positions

variable {σ : Type} (pdc : TextDc σ)

theorem strnwrite_eq (x y : Int) (text : List UInt8)
    : pdc.strnwrite x y text = (pdc.textOutExtent text).1 - pdc.italicExtra := by
  have hloop := strnwriteLoop_eq pdc (pdc.font.chars text) x 0 (y + pdc.baseline) pdc.font.start
  rw [Int.add_zero] at hloop
  rw [strnwrite, strnwritePen, hloop, textOutExtent]
  omega

theorem tabbedPen_eq (x y : Int) (text : List UInt8) : pdc.tabbedPen x y text =
        let size := pdc.tabbedExtentLoop pdc.tabWidth (pdc.font.chars text) 0 pdc.lineHeight 0 pdc.font.start
        (x + size.2.2, y + pdc.baseline + (size.2.1 - pdc.lineHeight)
          + pdc.tabbedClimb (pdc.font.chars text) pdc.font.start, x + size.1) := by
  have hloop := tabbedLoop_eq pdc (pdc.font.chars text) x 0 pdc.lineHeight 0 (y + pdc.baseline) pdc.font.start
  rw [Int.add_zero] at hloop
  rw [tabbedPen, hloop]

theorem tabbedTextOut_eq (x y : Int) (text : List UInt8)
    : pdc.tabbedTextOut x y text = (pdc.tabbedTextOutExtent pdc.tabWidth text).1.1 - pdc.italicExtra := by
  rw [tabbedTextOut, tabbedPen_eq, tabbedTextOutExtent]
  dsimp only
  split_ifs <;> omega

theorem strnwriteMoved_eq (x y : Int) (text : List UInt8) : pdc.strnwriteMoved x y text =
        ((pdc.textOutExtent text).1 - pdc.italicExtra, pdc.climb (pdc.font.chars text) pdc.font.start) := by
  have hloop := strnwriteLoop_eq pdc (pdc.font.chars text) (pdc.axisX.coorLP2SP pdc.mapMode x) 0
    (pdc.axisY.coorLP2SP pdc.mapMode y + pdc.baseline) pdc.font.start
  rw [Int.add_zero] at hloop
  simp only [strnwriteMoved, strnwritePen, hloop, textOutExtent, Prod.mk.injEq]
  omega

theorem tabbedMoved_eq (x y : Int) (text : List UInt8) : pdc.tabbedMoved x y text =
        ((pdc.tabbedTextOutExtent pdc.tabWidth text).2.1,
          (pdc.tabbedTextOutExtent pdc.tabWidth text).2.2 + pdc.tabbedClimb (pdc.font.chars text) pdc.font.start) := by
  simp only [tabbedMoved, tabbedPen_eq, tabbedTextOutExtent, Prod.mk.injEq]
  omega

theorem penAt_iff (hmode : pdc.mapMode ≠ .scaled) (x y : Int) (moved pos : Int × Int)
    : pdc.PenAt x y moved pos ↔ pos = (x + moved.1, y + moved.2) := by
  unfold PenAt CoorAxis.extentSP2LP CoorAxis.coorSP2LP CoorAxis.coorLP2SP
  cases hm : pdc.mapMode with
  | screen => simp
  | text =>
    have htranslated : ∀ z d m : Int, z + d + m - d = z + m := by
      intro z d m
      omega
    simp only [htranslated, or_self]
  | scaled => exact absurd hm hmode

/--
A text that is drawn is as wide as it was measured.
-/
theorem text_measured_as_drawn :
    (∀ x y text, pdc.strnwrite x y text = (pdc.textOutExtent text).1 - pdc.italicExtra)
      ∧ (∀ x y text, pdc.tabbedTextOut x y text = (pdc.tabbedTextOutExtent pdc.tabWidth text).1.1 - pdc.italicExtra)
      ∧ (∀ x y text, text ≠ [] →
        (pdc.italicExtra = 0 ∧ pdc.climb (pdc.font.chars text) pdc.font.start = 0 →
            pdc.PenAt x y (pdc.strnwriteMoved x y text) (pdc.textOutLen x y text).curTextPos)
          ∧ (pdc.mapMode ≠ .scaled →
            (pdc.PenAt x y (pdc.strnwriteMoved x y text) (pdc.textOutLen x y text).curTextPos ↔
              pdc.italicExtra = 0 ∧ pdc.climb (pdc.font.chars text) pdc.font.start = 0)))
      ∧ ∀ x y text, text ≠ [] → pdc.font.utf16 = false →
        (pdc.curTextPos = (x, y) ∧ pdc.tabbedClimb (pdc.font.chars text) pdc.font.start = 0 →
            pdc.PenAt x y (pdc.tabbedMoved x y text) (pdc.tabbedTextOutLen x y text).curTextPos)
          ∧ (pdc.mapMode ≠ .scaled →
            (pdc.PenAt x y (pdc.tabbedMoved x y text) (pdc.tabbedTextOutLen x y text).curTextPos ↔
              pdc.curTextPos = (x, y + pdc.tabbedClimb (pdc.font.chars text) pdc.font.start))) := by
  refine ⟨pdc.strnwrite_eq, pdc.tabbedTextOut_eq, fun x y text hne => ⟨?_, ?_⟩, fun x y text hne hutf16 => ⟨?_, ?_⟩⟩
  · rintro ⟨hitalic, hclimb⟩
    rw [strnwriteMoved_eq, textOutLen, if_neg hne, hitalic, hclimb]
    refine .inl ?_
    have hzero : pdc.axisY.extentSP2LP pdc.mapMode 0 = 0 := by
      unfold CoorAxis.extentSP2LP
      cases pdc.mapMode <;> simp
    simp only [hzero, Int.add_zero, Int.sub_zero]
  · intro hmode
    rw [penAt_iff pdc hmode, strnwriteMoved_eq, textOutLen, if_neg hne]
    have hextent : pdc.axisX.extentSP2LP pdc.mapMode (pdc.textOutExtent text).1 = (pdc.textOutExtent text).1 := by
      unfold CoorAxis.extentSP2LP
      cases hm : pdc.mapMode with
      | screen => rfl
      | text => rfl
      | scaled => exact absurd hm hmode
    simp only [hextent, Prod.mk.injEq]
    omega
  · rintro ⟨hpos, hclimb⟩
    rw [tabbedMoved_eq, tabbedTextOutLen, if_neg (by simp [hne, hutf16]), hclimb, hpos]
    refine .inr ?_
    simp only [Int.add_zero]
  · intro hmode
    rw [penAt_iff pdc hmode, tabbedMoved_eq, tabbedTextOutLen, if_neg (by simp [hne, hutf16])]
    have htranslated : ∀ (axis : CoorAxis) (z m : Int),
        axis.coorSP2LP pdc.mapMode (axis.coorLP2SP pdc.mapMode z + m) = z + m := by
      intro axis z m
      unfold CoorAxis.coorSP2LP CoorAxis.coorLP2SP
      cases hm : pdc.mapMode with
      | screen => rfl
      | text =>
        dsimp only
        omega
      | scaled => exact absurd hm hmode
    simp only [htranslated, Prod.ext_iff]
    omega

def cellDc (italic : Bool) (curTextPos : Int × Int) : TextDc Unit :=
  { font :=
      { sbcDevfont := ⟨fun text => min 1 text.length, fun _ => .other, none, fun _ => 8, 16, 14, false, false⟩
        mbcDevfont := none
        start := ()
        aveWidth := 8
        size := 16
        bold := false
        italic
        utf16 := false }
    cExtra := 0
    alExtra := 0
    blExtra := 0
    tabstop := 8
    mapMode := .screen
    axisX := ⟨0, 0, 0, 1, 1⟩
    axisY := ⟨0, 0, 0, 1, 1⟩
    curTextPos }

theorem text_measured_as_drawn_cells :
    (cellDc false (3, 4)).PenAt 3 4 ((cellDc false (3, 4)).strnwriteMoved 3 4 [65])
        ((cellDc false (3, 4)).textOutLen 3 4 [65]).curTextPos
      ∧ (cellDc false (3, 4)).PenAt 3 4 ((cellDc false (3, 4)).tabbedMoved 3 4 [65])
        ((cellDc false (3, 4)).tabbedTextOutLen 3 4 [65]).curTextPos := by
  have hchars : (cellDc false (3, 4)).font.chars [65] = [⟨(cellDc false (3, 4)).font.sbcDevfont, [65], .other⟩] := by
    simp [GlyphLogFont.chars, GlyphLogFont.firstChar, GlyphFont.firstChar, cellDc]
  have hthm := text_measured_as_drawn (cellDc false (3, 4))
  refine ⟨(hthm.2.2.1 3 4 [65] (by decide)).1 ⟨rfl, ?_⟩, (hthm.2.2.2 3 4 [65] (by decide) rfl).1 ⟨rfl, ?_⟩⟩
  · rw [hchars]
    rfl
  · rw [hchars]
    rfl

theorem not_text_position :
    ¬(cellDc false (0, 0)).PenAt 100 50 ((cellDc false (0, 0)).tabbedMoved 100 50 [65])
        ((cellDc false (0, 0)).tabbedTextOutLen 100 50 [65]).curTextPos
      ∧ ¬(cellDc true (0, 0)).PenAt 100 50 ((cellDc true (0, 0)).strnwriteMoved 100 50 [65])
        ((cellDc true (0, 0)).textOutLen 100 50 [65]).curTextPos := by
  refine ⟨fun hpen => ?_, fun hpen => ?_⟩
  · rw [penAt_iff _ (by decide), tabbedMoved_eq, tabbedTextOutLen, if_neg (by decide)] at hpen
    have hx := congrArg Prod.fst hpen
    simp only [cellDc, CoorAxis.coorSP2LP, CoorAxis.coorLP2SP] at hx
    omega
  · have hextra : (cellDc true (0, 0)).italicExtra = 8 := by decide
    rw [penAt_iff _ (by decide), strnwriteMoved_eq, textOutLen, if_neg (by decide), hextra] at hpen
    have hx := congrArg Prod.fst hpen
    have hextent : ∀ z, (cellDc true (0, 0)).axisX.extentSP2LP (cellDc true (0, 0)).mapMode z = z := fun _ => rfl
    simp only [hextent] at hx
    omega

end Positions

end MiniGui.TextDc
