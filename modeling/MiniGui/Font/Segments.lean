import MiniGui.Font.UnicodeChars

namespace MiniGui

def dbSubstrLoop (isChar : UInt8 → UInt8 → Bool) (mstr : List UInt8) (mstrlen : Nat)
    : Nat → Nat → Nat → Nat → Option Nat
  | 0, _, _, _ => none
  | rounds + 1, i, left, subLen =>
    if i < mstrlen then
      if left < 2 then
        some subLen
      else
        mstr[i]?.bind fun ch1 =>
          if ch1 = 0 then
            some subLen
          else
            mstr[i + 1]?.bind fun ch2 =>
              if isChar ch1 ch2 then
                dbSubstrLoop isChar mstr mstrlen rounds (i + 2) (left - 2) (subLen + 2)
              else
                some subLen
    else
      some subLen

def dbPosLoop (isChar : UInt8 → UInt8 → Bool) (mstr : List UInt8) : Nat → Nat → Nat → Option Int
  | 0, _, _ => none
  | rounds + 1, i, left =>
    if left = 0 then
      some (-1)
    else if left < 2 then
      some (-1)
    else
      mstr[i]?.bind fun ch1 =>
        if ch1 = 0 then
          some (-1)
        else
          mstr[i + 1]?.bind fun ch2 =>
            if isChar ch1 ch2 then some (i : Int) else dbPosLoop isChar mstr rounds (i + 1) (left - 1)

def gb18030SubstrLoop (mstr : List UInt8) (mstrlen : Nat) : Nat → Nat → Nat → Nat → Option Nat
  | 0, _, _, _ => none
  | rounds + 1, i, left, subLen =>
    if i < mstrlen then
      if left < 2 then
        some subLen
      else
        mstr[i]?.bind fun ch1 =>
          if ch1 = 0 then
            some subLen
          else
            mstr[i + 1]?.bind fun ch2 =>
              if isGbkChar ch1 ch2 then
                gb18030SubstrLoop mstr mstrlen rounds (i + 2) (left - 2) (subLen + 2)
              else if left ≥ 4 then
                mstr[i + 2]?.bind fun ch3 =>
                  mstr[i + 3]?.bind fun ch4 =>
                    if isGb18030Quad ch1 ch2 ch3 ch4 then
                      gb18030SubstrLoop mstr mstrlen rounds (i + 4) (left - 4) (subLen + 4)
                    else
                      gb18030SubstrLoop mstr mstrlen rounds (i + 2) left subLen
              else
                some subLen
    else
      some subLen

def gb18030PosLoop (mstr : List UInt8) : Nat → Nat → Nat → Option Int
  | 0, _, _ => none
  | rounds + 1, i, left =>
    if left = 0 then
      some (-1)
    else if left < 2 then
      some (-1)
    else
      mstr[i]?.bind fun ch1 =>
        if ch1 = 0 then
          some (-1)
        else
          mstr[i + 1]?.bind fun ch2 =>
            if isGbkChar ch1 ch2 then
              some (i : Int)
            else if left < 4 then
              some (-1)
            else
              mstr[i + 2]?.bind fun ch3 =>
                mstr[i + 3]?.bind fun ch4 =>
                  if isGb18030Quad ch1 ch2 ch3 ch4 then some (i : Int) else gb18030PosLoop mstr rounds (i + 1) (left - 1)

def utfSubstrLoop (lenFirst : List UInt8 → Nat → Option Nat) : Nat → List UInt8 → Nat → Nat → Option Nat
  | 0, _, _, _ => none
  | rounds + 1, mstr, mstrlen, subLen =>
    if mstrlen > 0 then
      (lenFirst mstr mstrlen).bind fun chLen =>
        if chLen = 0 then
          some subLen
        else
          utfSubstrLoop lenFirst rounds (mstr.drop chLen) (mstrlen - chLen) (subLen + chLen)
    else
      some subLen

def utf8PosFirstChar (mstr : List UInt8) (mstrlen : Nat) : Option Int :=
  if mstrlen > 0 then
    (utf8LenFirstChar mstr mstrlen).bind fun chLen => if chLen = 0 then some (-1) else some 0
  else
    some (-1)

def utf16PosLoop (be : Bool) : Nat → List UInt8 → Nat → Nat → Option Int
  | 0, _, _, _ => none
  | rounds + 1, mstr, mstrlen, pos =>
    if mstrlen > 0 then
      (utf16LenFirstChar be mstr mstrlen).bind fun chLen =>
        if chLen > 0 then
          some (pos : Int)
        else
          utf16PosLoop be rounds (mstr.drop chLen) (mstrlen - chLen) (pos + chLen)
    else
      some (-1)

def lenFirstSubstr (rounds : Nat) : Charset → List UInt8 → Nat → Option Nat
  | .gb2312, mstr, mstrlen => dbSubstrLoop isGb2312Char mstr mstrlen rounds 0 mstrlen 0
  | .gbk, mstr, mstrlen => dbSubstrLoop isGbkChar mstr mstrlen rounds 0 mstrlen 0
  | .gb18030, mstr, mstrlen => gb18030SubstrLoop mstr mstrlen rounds 0 mstrlen 0
  | .big5, mstr, mstrlen => dbSubstrLoop isBig5Char mstr mstrlen rounds 0 mstrlen 0
  | .jisx0208, mstr, mstrlen => dbSubstrLoop isJisx0208Char mstr mstrlen rounds 0 mstrlen 0
  | .utf8, mstr, mstrlen => utfSubstrLoop utf8LenFirstChar rounds mstr mstrlen 0
  | .utf16le, mstr, mstrlen => utfSubstrLoop (utf16LenFirstChar false) rounds mstr mstrlen 0
  | .utf16be, mstr, mstrlen => utfSubstrLoop (utf16LenFirstChar true) rounds mstr mstrlen 0

def posFirstChar (rounds : Nat) : Charset → List UInt8 → Nat → Option Int
  | .gb2312, mstr, mstrlen => dbPosLoop isGb2312Char mstr rounds 0 mstrlen
  | .gbk, mstr, mstrlen => dbPosLoop isGbkChar mstr rounds 0 mstrlen
  | .gb18030, mstr, mstrlen => gb18030PosLoop mstr rounds 0 mstrlen
  | .big5, mstr, mstrlen => dbPosLoop isBig5Char mstr rounds 0 mstrlen
  | .jisx0208, mstr, mstrlen => dbPosLoop isJisx0208Char mstr rounds 0 mstrlen
  | .utf8, mstr, mstrlen => utf8PosFirstChar mstr mstrlen
  | .utf16le, mstr, mstrlen => utf16PosLoop false rounds mstr mstrlen 0
  | .utf16be, mstr, mstrlen => utf16PosLoop true rounds mstr mstrlen 0

def Charset.charLen (charset : Charset) (text : List UInt8) : Nat :=
  (lenFirstChar charset text text.length).getD 0

section Spec

variable (charLen : List UInt8 → Nat)

def charPrefix : Nat → List UInt8 → Nat
  | 0, _ => 0
  | rounds + 1, text =>
    if text = [] ∨ charLen text = 0 then
      0
    else
      min (charLen text) text.length + charPrefix rounds (text.drop (charLen text))

def FirstAt (text : List UInt8) (i : Nat) : Prop :=
  i < text.length ∧ 0 < charLen (text.drop i) ∧ ∀ j < i, charLen (text.drop j) = 0 ∧ text[j]? ≠ some 0

def IsFirstPos (text : List UInt8) (r : Int) : Prop :=
  (∃ i : Nat, r = i ∧ FirstAt charLen text i) ∨ (r = -1 ∧ ∀ i, ¬FirstAt charLen text i)

def CharsFit : Nat → List UInt8 → Prop
  | 0, _ => True
  | rounds + 1, text =>
    text = [] ∨ charLen text = 0 ∨ (charLen text ≤ text.length ∧ CharsFit rounds (text.drop (charLen text)))

end Spec

structure Segments (charset : Charset) (text : List UInt8) : Prop where
  substr : ∃ rounds, lenFirstSubstr rounds charset text text.length = some (charPrefix charset.charLen text.length text)
  pos : ∃ rounds r, posFirstChar rounds charset text text.length = some r ∧ IsFirstPos charset.charLen text r

def QuietEnd : List UInt8 → Prop
  | [] => True
  | [ch1] => ch1 = 0
  | [ch1, _] => ch1 = 0
  | [ch1, _, _] => ch1 = 0
  | ch1 :: ch2 :: ch3 :: ch4 :: rest =>
    ch1 = 0 ∨ (isGbkChar ch1 ch2 = false ∧ isGb18030Quad ch1 ch2 ch3 ch4 = false ∧ QuietEnd (ch3 :: ch4 :: rest))

def SegmentsClean (charset : Charset) (text : List UInt8) : Prop :=
  match charset with
  | .gb18030 =>
    ((text.drop (charPrefix charset.charLen text.length text)).length < 4
      ∨ QuietEnd (text.drop (charPrefix charset.charLen text.length text)))
    ∧ (text.length ≤ 2 ∨ ¬FirstAt charset.charLen text (text.length - 2))
  | .utf8 => 0 < charset.charLen text ∨ ∀ i, ¬FirstAt charset.charLen text i
  | .utf16le | .utf16be => CharsFit charset.charLen text.length text ∧ (text = [] ∨ 0 < charset.charLen text)
  | _ => True


end MiniGui
