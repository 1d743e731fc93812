import Mathlib.Tactic

namespace MiniGui
namespace Layout

/--
The operations of a charset that the layout calls. A length that is not positive is 0, and no position stands for a
negative one.
-/
structure CharsetOps where
  lenFirstChar : List UInt8 → Nat
  posFirstChar : List UInt8 → Option Nat
  lenFirstSubstr : List UInt8 → Nat
  getNextWord : List UInt8 → Nat

structure LogFont where
  sbc : CharsetOps
  mbc : Option CharsetOps
  sbcWidth : List UInt8 → Nat
  mbcWidth : List UInt8 → Nat
  italicAdded : Nat

structure Format where
  charBreak : Bool
  wordBreak : Bool
  expandTabs : Bool

namespace LogFont

variable (font : LogFont)

def mbcLen (text : List UInt8) : Nat :=
  match font.mbc with
  | none => 0
  | some mbc => mbc.lenFirstChar text

def getFirstMCharLen (text : List UInt8) : Nat :=
  if font.mbcLen text > 0 then font.mbcLen text else font.sbc.lenFirstChar text

def firstWidth (text : List UInt8) : Nat :=
  if font.mbcLen text > 0 then
    font.mbcWidth (text.take (font.mbcLen text))
  else
    font.sbcWidth (text.take (font.sbc.lenFirstChar text))

def extentLoop (rounds : Nat) (text : List UInt8) : Nat :=
  match rounds with
  | 0 => 0
  | rounds + 1 =>
    if text = [] ∨ font.getFirstMCharLen text = 0 then
      0
    else
      font.firstWidth text + extentLoop rounds (text.drop (font.getFirstMCharLen text))

def textWidth (text : List UInt8) : Nat :=
  font.extentLoop text.length text

def extentPointLoop (maxExtent : Int) (rounds : Nat) (text : List UInt8) (cx : Nat) : Nat × Nat :=
  match rounds with
  | 0 => (0, cx)
  | rounds + 1 =>
    if text = [] ∨ font.getFirstMCharLen text = 0 then
      (0, cx)
    else if maxExtent > 0 ∧ ((cx + font.firstWidth text : Nat) : Int) > maxExtent then
      (0, cx)
    else
      let n := font.getFirstMCharLen text
      let rest := extentPointLoop maxExtent rounds (text.drop n) (cx + font.firstWidth text)
      (n + rest.1, rest.2)

def getTextExtentPoint (text : List UInt8) (maxExtent : Int) : Nat × Nat :=
  font.extentPointLoop maxExtent text.length text 0

def nextWordLen (text : List UInt8) : Nat :=
  if text = [] then
    0
  else
    match font.mbc with
    | none => font.sbc.getNextWord text
    | some mbc =>
      match mbc.posFirstChar text with
      | some 0 => mbc.getNextWord (text.take (mbc.lenFirstSubstr text))
      | some pos => font.sbc.getNextWord (text.take pos)
      | none => font.sbc.getNextWord text

def txtGetWidthOfNextWord (text : List UInt8) : Nat :=
  font.textWidth (text.take (font.nextWordLen text))

end LogFont

structure LineState where
  text : List UInt8
  nChar : Nat
  charLen : Nat
  lineWidth : Nat

inductive Round where
  | line (nChar : Nat) (width : Nat)
  | more (s : LineState)

structure LineArgs where
  nTabWidth : Nat
  maxwidth : Int
  format : Format

section Line

variable (font : LogFont) (args : LineArgs)

def LineArgs.room : Int :=
  args.maxwidth - font.italicAdded

def nextChar (ch : UInt8) (text : List UInt8) (wordLen : Nat) : Nat × Nat :=
  let blank : Nat × Nat :=
    if ch = 9 then
      (1, if args.format.expandTabs then args.nTabWidth else font.textWidth (text.take 1))
    else if ch = 32 then
      (1, font.textWidth (text.take 1))
    else
      (0, 0)
  -- ensure to eat at least one char
  if wordLen + blank.1 = 0 then
    (font.getFirstMCharLen text, font.textWidth (text.take (font.getFirstMCharLen text)))
  else
    blank

def takeChar (s : LineState) (wordLen : Nat) : Round :=
  match s.text with
  | [] => .line s.nChar (s.lineWidth + font.italicAdded)
  | ch :: _ =>
    if ch = 10 ∨ ch = 13 then
      .line (s.nChar + 1) (s.lineWidth + font.italicAdded)
    else
      let char := nextChar font args ch s.text wordLen
      if ((s.lineWidth + char.2 : Nat) : Int) > args.room font then
        .line (s.nChar + char.1) (s.lineWidth + char.2 + font.italicAdded)
      else
        .more ⟨s.text.drop char.1, s.nChar + char.1, char.1, s.lineWidth + char.2⟩

def LineState.withWord (s : LineState) : LineState :=
  {
    text := s.text.drop (font.nextWordLen s.text)
    nChar := s.nChar + font.nextWordLen s.text
    charLen := s.charLen
    lineWidth := s.lineWidth + font.txtGetWidthOfNextWord s.text
  }

def lineRound (s : LineState) : Round :=
  if args.format.charBreak then
    if (s.lineWidth : Int) > args.room font then
      let nChar := if s.nChar - s.charLen = 0 then s.nChar else s.nChar - s.charLen
      .line nChar (s.lineWidth + font.italicAdded)
    else
      takeChar font args s 0
  else if args.format.wordBreak then
    if (font.txtGetWidthOfNextWord s.text : Int) > args.room font then
      let fit := font.getTextExtentPoint (s.text.take (font.nextWordLen s.text)) (args.room font - s.lineWidth)
      if fit.1 = 0 then
        let n := font.getFirstMCharLen s.text
        .line (s.nChar + n) (s.lineWidth + (font.textWidth (s.text.take n) + font.italicAdded) + font.italicAdded)
      else
        .line (s.nChar + fit.1) (s.lineWidth + (fit.2 + font.italicAdded) + font.italicAdded)
    else if ((s.lineWidth + font.txtGetWidthOfNextWord s.text : Nat) : Int) > args.room font then
      .line s.nChar (s.lineWidth + font.italicAdded)
    else
      takeChar font args (s.withWord font) (font.nextWordLen s.text)
  else
    takeChar font args (s.withWord font) (font.nextWordLen s.text)

/--
The loop of `txtGetOneLine`. No result stands for a loop that has not come to its end after so many rounds.
-/
def lineLoop (rounds : Nat) (s : LineState) : Option (Nat × Nat) :=
  match rounds with
  | 0 => none
  | rounds + 1 =>
    match lineRound font args s with
    | .line nChar width => some (nChar, width)
    | .more s => lineLoop rounds s

def txtGetOneLine (rounds : Nat) (text : List UInt8) : Option (Nat × Nat) :=
  lineLoop font args rounds ⟨text, 0, 0, 0⟩

end Line

structure Line where
  bytes : List UInt8
  width : Nat
  maxwidth : Int

def drawLoop (font : LogFont) (format : Format) (nTabWidth rcWidth indent : Nat) (rounds : Nat) (nLines : Nat)
    (text : List UInt8) : Option (List Line) :=
  match rounds with
  | 0 => none
  | rounds + 1 =>
    if text = [] then
      some []
    else
      let maxwidth : Int := if nLines = 0 then (rcWidth : Int) - indent else rcWidth
      if nLines = 0 ∧ maxwidth ≤ 0 then
        drawLoop font format nTabWidth rcWidth indent rounds 1 text
      else
        match txtGetOneLine font ⟨nTabWidth, maxwidth, format⟩ rounds text with
        | none => none
        | some (n, width) =>
          if n = 0 then
            some []
          else
            match drawLoop font format nTabWidth rcWidth indent rounds (nLines + 1) (text.drop n) with
            | none => none
            | some lines => some (⟨text.take n, width, maxwidth⟩ :: lines)

end Layout

end MiniGui
