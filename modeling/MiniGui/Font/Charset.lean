import Mathlib.Data.Nat.Bitwise
import Mathlib.Data.List.Basic
import Mathlib.Tactic.Ring
import Mathlib.Tactic.NormNum

namespace MiniGui

inductive Charset where
  | gb2312
  | gbk
  | gb18030
  | big5
  | jisx0208
  | utf8
  | utf16le
  | utf16be
deriving DecidableEq, Repr

def isGb2312Char (ch1 ch2 : UInt8) : Bool :=
  ((ch1 ≥ 0xA1 && ch1 ≤ 0xA9) || (ch1 ≥ 0xB0 && ch1 ≤ 0xF7)) && ch2 ≥ 0xA1 && ch2 ≤ 0xFE

def isGbkChar (ch1 ch2 : UInt8) : Bool :=
  ch1 ≥ 0x81 && ch1 ≤ 0xFE && ch2 ≥ 0x40 && ch2 ≤ 0xFE && ch2 != 0x7F

def isBig5Char (ch1 ch2 : UInt8) : Bool :=
  ch1 ≥ 0xA1 && ch1 ≤ 0xFE && ((ch2 ≥ 0x40 && ch2 ≤ 0x7E) || (ch2 ≥ 0xA1 && ch2 ≤ 0xFE))

def isJisx0208Char (ch1 ch2 : UInt8) : Bool :=
  ((ch1 ≥ 0x81 && ch1 ≤ 0x9F) || (ch1 ≥ 0xE0 && ch1 ≤ 0xEF)) && ((ch2 ≥ 0x40 && ch2 ≤ 0x7E) || (ch2 ≥ 0x80 && ch2 ≤ 0xFC))

def isGb18030Quad (ch1 ch2 ch3 ch4 : UInt8) : Bool :=
  ch2 ≥ 0x30 && ch2 ≤ 0x39 && ch4 ≥ 0x30 && ch4 ≤ 0x39 && ch1 ≥ 0x81 && ch1 ≤ 0xFE && ch3 ≥ 0x81 && ch3 ≤ 0xFE

def dbLenFirstChar (isChar : UInt8 → UInt8 → Bool) (mstr : List UInt8) (len : Nat) : Option Nat :=
  if len < 2 then
    some 0
  else
    mstr[0]?.bind fun ch1 =>
      if ch1 = 0 then
        some 0
      else
        mstr[1]?.bind fun ch2 =>
          if isChar ch1 ch2 then some 2 else some 0

def gb18030LenFirstChar (mstr : List UInt8) (len : Nat) : Option Nat :=
  if len < 2 then
    some 0
  else
    mstr[0]?.bind fun ch1 =>
      if ch1 = 0 then
        some 0
      else
        mstr[1]?.bind fun ch2 =>
          if isGbkChar ch1 ch2 then
            some 2
          else if len < 4 then
            some 0
          else
            mstr[2]?.bind fun ch3 =>
              mstr[3]?.bind fun ch4 =>
                if isGb18030Quad ch1 ch2 ch3 ch4 then some 4 else some 0

def leadBits (c : Nat) : Nat → Nat → Nat
  | 0, n => n
  | rounds + 1, n => if c &&& (0x80 >>> n) ≠ 0 then leadBits c rounds (n + 1) else n

def utf8Tail (chLen : Nat) : Nat → List UInt8 → Option Nat
  | 0, _ => some chLen
  | n + 1, mstr =>
    mstr[0]?.bind fun t =>
      if t.toNat &&& 0x80 = 0 ∨ t.toNat &&& 0x40 ≠ 0 then some 0 else utf8Tail chLen n (mstr.drop 1)

def utf8LenFirstChar (mstr : List UInt8) (len : Nat) : Option Nat :=
  mstr[0]?.bind fun c =>
    if c < 0x80 then
      some 1
    else
      let n := leadBits c.toNat 8 1
      if n > len then some 0 else utf8Tail n (n - 1) (mstr.drop 1)

def makeWord (low high : UInt8) : Nat :=
  low.toNat ||| high.toNat <<< 8

def utf16Unit (be : Bool) (b0 b1 : UInt8) : Nat :=
  if be then makeWord b1 b0 else makeWord b0 b1

def utf16LenFirstChar (be : Bool) (mstr : List UInt8) (len : Nat) : Option Nat :=
  if len < 2 then
    some 0
  else
    mstr[0]?.bind fun b0 =>
      mstr[1]?.bind fun b1 =>
        let w1 := utf16Unit be b0 b1
        if w1 < 0xD800 ∨ w1 > 0xDFFF then
          some 2
        else if w1 ≥ 0xD800 ∧ w1 ≤ 0xDBFF then
          if len < 4 then
            some 0
          else
            mstr[2]?.bind fun b2 =>
              mstr[3]?.bind fun b3 =>
                let w2 := utf16Unit be b2 b3
                if w2 < 0xDC00 ∨ w2 > 0xDFFF then some 0 else some 4
        else
          -- a low surrogate in front
          some 4

def lenFirstChar : Charset → List UInt8 → Nat → Option Nat
  | .gb2312 => dbLenFirstChar isGb2312Char
  | .gbk => dbLenFirstChar isGbkChar
  | .gb18030 => gb18030LenFirstChar
  | .big5 => dbLenFirstChar isBig5Char
  | .jisx0208 => dbLenFirstChar isJisx0208Char
  | .utf8 => utf8LenFirstChar
  | .utf16le => utf16LenFirstChar false
  | .utf16be => utf16LenFirstChar true

def utf8Decode : Nat → Nat → List UInt8 → Option Nat
  | 0, wc, _ => some wc
  | n + 1, wc, mchar =>
    mchar[0]?.bind fun t => utf8Decode n (wc <<< 6 ||| t.toNat &&& 0x3F) (mchar.drop 1)

def utf8ConvToUc32 (mchar : List UInt8) : Option Nat :=
  mchar[0]?.bind fun c =>
    if c.toNat &&& 0x80 ≠ 0 then
      let n := leadBits c.toNat 8 1
      utf8Decode (n - 1) (c.toNat &&& ((1 <<< (8 - n)) - 1)) (mchar.drop 1)
    else
      some c.toNat

def utf8Encode : Nat → Nat → List UInt8 → Nat × List UInt8
  | 0, wc, mchar => (wc, mchar)
  | n + 1, wc, mchar => utf8Encode n (wc >>> 6) (UInt8.ofNat (wc &&& 0x3F ||| 0x80) :: mchar)

def utf8Class (wc : Nat) : Nat × Nat :=
  if wc < 0x80 then
    (0, 1)
  else if wc < 0x800 then
    (0xC0, 2)
  else if wc < 0x10000 then
    (0xE0, 3)
  else if wc < 0x200000 then
    (0xF0, 4)
  else if wc < 0x400000 then
    (0xF8, 5)
  else
    (0xFC, 6)

def utf8ConvFromUc32 (wc : Nat) : List UInt8 :=
  let (first, len) := utf8Class wc
  let (rest, mchar) := utf8Encode (len - 1) wc []
  UInt8.ofNat (rest ||| first) :: mchar

def utf16ConvToUc32 (be : Bool) (mchar : List UInt8) : Option Nat :=
  mchar[0]?.bind fun b0 =>
    mchar[1]?.bind fun b1 =>
      let w1 := utf16Unit be b0 b1
      if w1 < 0xD800 ∨ w1 > 0xDFFF then
        some w1
      else
        mchar[2]?.bind fun b2 =>
          mchar[3]?.bind fun b3 =>
            let w2 := utf16Unit be b2 b3
            some ((w1 <<< 10 ||| w2 &&& 0x03FF) + 0x10000)

def utf16Bytes (be : Bool) (w : Nat) : List UInt8 :=
  if be then [UInt8.ofNat (w >>> 8), UInt8.ofNat w] else [UInt8.ofNat w, UInt8.ofNat (w >>> 8)]

def utf16ConvFromUc32 (be : Bool) (wc : Nat) : List UInt8 :=
  if wc > 0x10FFFF then
    []
  else if wc < 0x10000 then
    utf16Bytes be wc
  else
    let wc := wc - 0x10000
    utf16Bytes be (0xD800 ||| wc >>> 10) ++ utf16Bytes be (0xDC00 ||| wc &&& 0x03FF)

structure Gb18030Maps where
  unicodeMap : Int → Nat
  mapUcs : Nat → List UInt8

def gb18030CharOffset (ch1 ch2 ch3 ch4 : Nat) : Int :=
  if ch2 ≥ 0x40 then
    (ch1 - 0x81 : Int) * 192 + (ch2 - 0x40)
  else
    126 * 192 + ((ch1 - 0x81 : Int) * 12600 + (ch2 - 0x30) * 1260 + (ch3 - 0x81) * 10 + (ch4 - 0x30))

def gb18030ConvToUc32 (maps : Gb18030Maps) (mchar : List UInt8) : Option Int :=
  mchar[0]?.bind fun b0 =>
    mchar[1]?.bind fun b1 =>
      if b0 ≥ 0x90 ∧ b1 < 0x40 then
        mchar[2]?.bind fun b2 =>
          mchar[3]?.bind fun b3 =>
            some ((b0.toNat - 144 : Int) * 12600 + (b1.toNat - 48 : Int) * 1260 + (b2.toNat - 129 : Int) * 10
              + (b3.toNat - 48 : Int) + 65536)
      else if b1 ≥ 0x40 then
        some (maps.unicodeMap (gb18030CharOffset b0.toNat b1.toNat 0 0))
      else
        mchar[2]?.bind fun b2 =>
          mchar[3]?.bind fun b3 =>
            some (maps.unicodeMap (gb18030CharOffset b0.toNat b1.toNat b2.toNat b3.toNat))

def gb18030ConvFromUc32 (maps : Gb18030Maps) (wc : Nat) : List UInt8 :=
  if wc > 0x10FFFF then
    []
  else if wc ≥ 0x10000 ∧ wc ≤ 0x10FFFF then
    let n1 := (wc - 65536) % 12600
    let n2 := n1 % 1260
    [UInt8.ofNat ((wc - 65536) / 12600 + 144), UInt8.ofNat (n1 / 1260 + 48), UInt8.ofNat (n2 / 10 + 129),
      UInt8.ofNat (n2 % 10 + 48)]
  else
    maps.mapUcs wc

end MiniGui
