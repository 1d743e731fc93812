import MiniGui.Font.Charset

namespace MiniGui

abbrev Memory : Type := Nat → UInt8

def Memory.advance (mstr : Memory) (n : Nat) : Memory :=
  fun i => mstr (n + i)

theorem Memory.advance_zero (mstr : Memory) : mstr.advance 0 = mstr := by
  funext i
  unfold Memory.advance
  rw [Nat.zero_add]

theorem Memory.advance_advance (mstr : Memory) (n m : Nat) : (mstr.advance n).advance m = mstr.advance (n + m) := by
  funext i
  unfold Memory.advance
  rw [Nat.add_assoc]

structure WordInfo where
  len : Nat
  delimiter : UInt8
  nrDelimiters : Nat
deriving DecidableEq, Repr

def WordInfo.wordLen (info : WordInfo) : Nat :=
  info.len + info.nrDelimiters

def sbLenFirstChar (mstr : Memory) (len : Int) : Nat :=
  if len < 1 then
    0
  else if mstr 0 ≠ 0 then
    1
  else
    0

def jisx0201LenFirstChar (mstr : Memory) (_len : Int) : Nat :=
  if mstr 0 = 0 then
    0
  else if mstr 0 = 0x8E ∧ 0xA1 ≤ mstr 1 ∧ mstr 1 ≤ 0xDF then
    2
  else
    1

def IsDelimiter (ch : UInt8) : Prop :=
  ch = 0x20 ∨ ch = 0x09 ∨ ch = 0x0A ∨ ch = 0x0D

instance : DecidablePred IsDelimiter :=
  fun ch => inferInstanceAs (Decidable (ch = 0x20 ∨ ch = 0x09 ∨ ch = 0x0A ∨ ch = 0x0D))

def sbWordLoop : Nat → Memory → WordInfo → WordInfo
  | 0, _, info => info
  | n + 1, mstr, info =>
    if mstr 0 > 127 then
      if info.len > 0 then
        { info with delimiter := mstr 0, nrDelimiters := info.nrDelimiters + 1 }
      else
        { info with len := info.len + 1, delimiter := 0x20, nrDelimiters := info.nrDelimiters + 1 }
    else if IsDelimiter (mstr 0) then
      if info.delimiter = 0 then
        sbWordLoop n (mstr.advance 1) { info with delimiter := mstr 0, nrDelimiters := info.nrDelimiters + 1 }
      else if info.delimiter = mstr 0 then
        sbWordLoop n (mstr.advance 1) { info with nrDelimiters := info.nrDelimiters + 1 }
      else
        info
    else if info.delimiter ≠ 0 then
      -- this `break` leaves the `switch` only
      sbWordLoop n (mstr.advance 1) info
    else
      sbWordLoop n (mstr.advance 1) { info with len := info.len + 1 }

def sbGetNextWord (mstr : Memory) (mstrlen : Int) : WordInfo :=
  sbWordLoop mstrlen.toNat mstr ⟨0, 0, 0⟩

structure MbcFont where
  lenFirstChar : Memory → Int → Nat
  posFirstChar : Memory → Int → Int
  lenFirstSubstr : Memory → Int → Int
  getNextWord : Memory → Int → WordInfo
  lenFirstChar_le : ∀ mstr len, 0 ≤ len → lenFirstChar mstr len ≤ len

inductive SbcFont where
  | sb
  | jisx0201
deriving DecidableEq

def SbcFont.lenFirstChar : SbcFont → Memory → Int → Nat
  | .sb => sbLenFirstChar
  | .jisx0201 => jisx0201LenFirstChar

structure LogFont where
  sbcDevfont : SbcFont
  mbcDevfont : Option MbcFont

def LogFont.mbcLenFirstChar (font : LogFont) (mstr : Memory) (len : Int) : Nat :=
  match font.mbcDevfont with
  | none => 0
  | some mbc => mbc.lenFirstChar mstr len

section Loops

variable (logFont : LogFont)

def textMCharLoop (len : Int) : Nat → Memory → Int → Option (List Int)
  | 0, _, _ => none
  | rounds + 1, mstr, left =>
    if left > 0 then
      let mbcLen := logFont.mbcLenFirstChar mstr left
      if mbcLen > 0 then
        (textMCharLoop len rounds (mstr.advance mbcLen) (left - mbcLen)).map (List.cons (len - left))
      else
        let sbcLen := logFont.sbcDevfont.lenFirstChar mstr left
        if sbcLen > 0 then
          (textMCharLoop len rounds (mstr.advance sbcLen) (left - sbcLen)).map (List.cons (len - left))
        else
          -- the same position is written again
          textMCharLoop len rounds mstr left
    else
      some []

def getTextMCharInfo (rounds : Nat) (mstr : Memory) (len : Int) : Option (List Int) :=
  textMCharLoop logFont len rounds mstr len

def getFirstMCharLen (mstr : Memory) (len : Int) : Nat :=
  let mbcLen := logFont.mbcLenFirstChar mstr len
  if mbcLen > 0 then mbcLen else logFont.sbcDevfont.lenFirstChar mstr len

def lastMCharLoop : Nat → Memory → Int → Nat → Option Nat
  | 0, _, _, _ => none
  | rounds + 1, mstr, left, lastlen =>
    if left > 0 then
      let mbcLen := logFont.mbcLenFirstChar mstr left
      if mbcLen > 0 then
        lastMCharLoop rounds (mstr.advance mbcLen) (left - mbcLen) mbcLen
      else
        let sbcLen := logFont.sbcDevfont.lenFirstChar mstr left
        if sbcLen > 0 then
          lastMCharLoop rounds (mstr.advance sbcLen) (left - sbcLen) sbcLen
        else
          lastMCharLoop rounds mstr left lastlen
    else
      some lastlen

def getLastMCharLen (rounds : Nat) (mstr : Memory) (len : Int) : Option Nat :=
  lastMCharLoop logFont rounds mstr len 0

def wordRun (getNextWord : Memory → Int → WordInfo) (len : Int)
    : Nat → Memory → Int → Int → Option (List (Int × WordInfo) × Memory × Int)
  | 0, _, _, _ => none
  | rounds + 1, mstr, subLen, left =>
    if subLen = 0 then
      some ([], mstr, left)
    else
      let info := getNextWord mstr subLen
      let wordLen := info.wordLen
      (wordRun getNextWord len rounds (mstr.advance wordLen) (subLen - wordLen) (left - wordLen)).map fun (words, rest) =>
        ((len - left, info) :: words, rest)

def firstRun (mstr : Memory) (left : Int) : (Memory → Int → WordInfo) × Int :=
  match logFont.mbcDevfont with
  | none => (sbGetNextWord, left)
  | some mbc =>
    let mbcPos := mbc.posFirstChar mstr left
    if mbcPos = 0 then
      (mbc.getNextWord, mbc.lenFirstSubstr mstr left)
    else if mbcPos > 0 then
      (sbGetNextWord, mbcPos)
    else
      (sbGetNextWord, left)

def textWordLoop (len : Int) : Nat → Memory → Int → Option (List (Int × WordInfo))
  | 0, _, _ => none
  | rounds + 1, mstr, left =>
    if left > 0 then
      let (getNextWord, subLen) := firstRun logFont mstr left
      (wordRun getNextWord len rounds mstr subLen left).bind fun (words, rest, left') =>
        (textWordLoop len rounds rest left').map (words ++ ·)
    else
      some []

def getTextWordInfo (rounds : Nat) (mstr : Memory) (len : Int) : Option (List (Int × WordInfo)) :=
  textWordLoop logFont len rounds mstr len

end Loops

section Spec

variable (logFont : LogFont)

def AdvancesFrom (mstr : Memory) (len : Int) : Nat → List Int → Prop
  | p, [] => len ≤ p
  | p, q :: qs =>
    q = p ∧ (p : Int) < len ∧ 0 < getFirstMCharLen logFont (mstr.advance p) (len - p)
      ∧ AdvancesFrom mstr len (p + getFirstMCharLen logFont (mstr.advance p) (len - p)) qs

def Tiles : Int → List (Int × WordInfo) → Int → Prop
  | p, [], q => p = q
  | p, (pos, info) :: words, q => pos = p ∧ 0 < info.wordLen ∧ Tiles (p + info.wordLen) words q

structure Parses (mstr : Memory) (len : Nat) : Prop where
  chars : ∃ rounds posChars lastRounds lastlen, getTextMCharInfo logFont rounds mstr len = some posChars
    ∧ getLastMCharLen logFont lastRounds mstr len = some lastlen ∧ AdvancesFrom logFont mstr len 0 posChars
    ∧ ∀ p, posChars.getLast? = some p → (lastlen : Int) = len - p
  words : ∃ rounds posWords, getTextWordInfo logFont rounds mstr len = some posWords ∧ Tiles 0 posWords len

inductive CharsClean : Memory → Nat → Prop where
  | done {mstr : Memory} : CharsClean mstr 0
  | char {mstr : Memory} {left : Nat} (hpos : 0 < getFirstMCharLen logFont mstr left)
    (hle : getFirstMCharLen logFont mstr left ≤ left)
    (rest : CharsClean (mstr.advance (getFirstMCharLen logFont mstr left)) (left - getFirstMCharLen logFont mstr left))
    : CharsClean mstr left

def HighEnd : Nat → Memory → UInt8 → Prop
  | 0, _, _ => False
  | 1, mstr, _ => mstr 0 > 127
  | n + 2, mstr, delimiter =>
    IsDelimiter (mstr 0) ∧ (delimiter = 0 ∨ delimiter = mstr 0) ∧ HighEnd (n + 1) (mstr.advance 1) (mstr 0)

inductive SbcRun : Memory → Nat → Prop where
  | done {mstr : Memory} : SbcRun mstr 0
  | word {mstr : Memory} {n : Nat} (hpos : 0 < n) (hhigh : ¬HighEnd n mstr 0)
    (rest : SbcRun (mstr.advance (sbGetNextWord mstr n).wordLen) (n - (sbGetNextWord mstr n).wordLen)) : SbcRun mstr n

inductive MbcRun (getNextWord : Memory → Int → WordInfo) : Memory → Nat → Prop where
  | done {mstr : Memory} : MbcRun getNextWord mstr 0
  | word {mstr : Memory} {n : Nat} (hpos : 0 < (getNextWord mstr n).wordLen) (hle : (getNextWord mstr n).wordLen ≤ n)
    (rest : MbcRun getNextWord (mstr.advance (getNextWord mstr n).wordLen) (n - (getNextWord mstr n).wordLen))
    : MbcRun getNextWord mstr n

inductive WordsClean : Memory → Nat → Prop where
  | done {mstr : Memory} : WordsClean mstr 0
  | sbc {mstr : Memory} {left n : Nat} (hrun : firstRun logFont mstr left = (sbGetNextWord, (n : Int)))
    (hpos : 0 < n) (hle : n ≤ left)
    (run : SbcRun mstr n) (rest : WordsClean (mstr.advance n) (left - n)) : WordsClean mstr left
  | mbc {mstr : Memory} {left n : Nat} (mbc : MbcFont) (hmbc : logFont.mbcDevfont = some mbc)
    (hzero : mbc.posFirstChar mstr left = 0)
    (hlen : mbc.lenFirstSubstr mstr left = (n : Int)) (hpos : 0 < n) (hle : n ≤ left)
    (run : MbcRun mbc.getNextWord mstr n) (rest : WordsClean (mstr.advance n) (left - n)) : WordsClean mstr left

end Spec

end MiniGui
