import Mathlib

namespace MiniGui.Vcongui

abbrev Byte := BitVec 8

def ATTR_ULINE : Byte := 0x80#8
def ATTR_REVERSE : Byte := 0x40#8
def ATTR_HIGH : Byte := 0x20#8

def LATCH_S : Byte := 0x00#8
def LATCH_1 : Byte := 0x20#8
def LATCH_2 : Byte := 0x40#8
def CLEAN_S : Byte := 0x80#8

inductive SysCoding where
  | sjis
  | big5
  | gb
  | gbk
  -- `CODE_2022` and `CODE_EUC`
  | other
deriving DecidableEq, Repr

inductive Esc where
  | start
  | bracket
  | setDCodeG0
  | setSCodeG0
  | setSCodeG1
deriving DecidableEq, Repr

structure AttrStack where
  x : Int
  y : Int
  attr : Byte
  bcol : Byte
  fcol : Byte

inductive Report where
  | position (y x : Int)
  | ok
  | id
  | undefined
deriving DecidableEq, Repr

/--
`CONINFO`. The members that are `short` are integers in its range. A buffer is a function of the index, and
`inBounds` tells whether all accesses to the three buffers so far were inside of `[0, textSize)`, and those to `varg`
inside of it.
-/
structure ConInfo where
  dispxmax : Int
  dispymax : Int
  x : Int
  y : Int
  xmax : Int
  ymin : Int
  ymax : Int
  tab : Int
  saveAttr : List AttrStack
  textBuff : Int → Byte
  attrBuff : Int → Byte
  flagBuff : Int → Byte
  inBounds : Bool
  textClear : Bool
  textHead : Int
  scroll : Int
  textSize : Int
  fcol : Byte
  bcol : Byte
  attr : Byte
  sb : Byte
  db : Byte
  cursorsw : Bool
  soft : Bool
  esc : Option Esc
  trans : Nat
  g0 : Nat
  g1 : Nat
  ins : Bool
  wrap : Bool
  sysCoding : SysCoding
  varg : Nat → BitVec 16
  narg : Nat
  question : Bool
  sent : List Report

def short (n : Int) : Int :=
  n.bmod 65536

def uInt (n : Int) : Int :=
  n % 4294967296

def int32 (n : Int) : Int :=
  n.bmod 4294967296

def ConInfo.access (con : ConInfo) (addr len : Int) : ConInfo :=
  { con with inBounds := con.inBounds && (len ≤ 0 || (0 ≤ addr && addr + len ≤ con.textSize)) }

def fill (buff : Int → Byte) (addr len : Int) (value : Byte) : Int → Byte :=
  fun a => if addr ≤ a ∧ a < addr + len then value else buff a

def memmove (buff : Int → Byte) (dst src len : Int) : Int → Byte :=
  fun a => if dst ≤ a ∧ a < dst + len then buff (a - dst + src) else buff a

def latch (buff : Int → Byte) (addr len : Int) : Int → Byte :=
  fun a => if addr ≤ a ∧ a < addr + len then buff a &&& 0x7F#8 else buff a

def longs (n : Int) : Int :=
  4 * (n / 4)

def textAddress (con : ConInfo) (x y : Int) : Int :=
  uInt (con.textHead + x + y * con.dispxmax) % con.textSize

def colors (con : ConInfo) : Byte :=
  con.bcol <<< 4 ||| con.fcol

def clearCells (con : ConInfo) (addr len flagLen : Int) : ConInfo :=
  let con := (con.access addr len).access addr flagLen
  { con with
    textBuff := fill con.textBuff addr len 0x20#8
    attrBuff := fill con.attrBuff addr len (colors con)
    flagBuff := fill con.flagBuff addr flagLen 0 }

def zeroCells (con : ConInfo) (addr len : Int) : ConInfo :=
  let con := con.access addr len
  { con with
    textBuff := fill con.textBuff addr len 0
    attrBuff := fill con.attrBuff addr len 0
    flagBuff := fill con.flagBuff addr len 0 }

def moveCells (con : ConInfo) (dst src len : Int) : ConInfo :=
  let con := (con.access dst len).access src len
  { con with
    textBuff := memmove con.textBuff dst src len
    attrBuff := memmove con.attrBuff dst src len }

def latchFlags (con : ConInfo) (addr len : Int) : ConInfo :=
  let con := con.access addr len
  { con with flagBuff := latch con.flagBuff addr len }

def textDeleteChar (con : ConInfo) (n : Int) : ConInfo :=
  let addr := textAddress con con.x con.y
  let dx := uInt (con.dispxmax - con.x - n)
  let con := moveCells con addr (addr + n) dx
  let con := latchFlags con addr (int32 dx)
  let addr := textAddress con (con.dispxmax - n) con.y
  zeroCells con addr (uInt n)

def textInsertChar (con : ConInfo) (n : Int) : ConInfo :=
  let addr := textAddress con con.x con.y
  let dx := uInt (con.dispxmax - con.x - n)
  let con := moveCells con (addr + n) addr dx
  let con := latchFlags con (addr + n) (int32 dx)
  zeroCells con addr (uInt n)

def clearLine (con : ConInfo) (y : Int) : ConInfo :=
  clearCells con (textAddress con 0 y) (uInt con.dispxmax) (longs con.dispxmax)

def textClearBand (con : ConInfo) (top btm : Int) : ConInfo :=
  (List.range (btm + 1 - top).toNat).foldl (fun con (i : Nat) => clearLine con (top + i)) con

def moveLine (con : ConInfo) (dst src : Int) : ConInfo :=
  let dst := textAddress con 0 dst
  let src := textAddress con 0 src
  let con := moveCells con dst src (uInt con.dispxmax)
  let con := { con with flagBuff := memmove con.flagBuff dst src (uInt con.dispxmax) }
  latchFlags con dst (longs con.dispxmax)

def textMoveUp (con : ConInfo) (top btm line : Int) : ConInfo :=
  if btm - top - line + 1 ≤ 0 then
    textClearBand con top btm
  else
    let con := (List.range (btm - line + 1 - top).toNat).foldl
      (fun con (i : Nat) => moveLine con (top + i) (top + i + line)) con
    textClearBand con (btm - line + 1) btm

def textMoveDown (con : ConInfo) (top btm line : Int) : ConInfo :=
  if btm - top - line + 1 ≤ 0 then
    textClearBand con top btm
  else
    let con := (List.range (btm + 1 - (top + line)).toNat).foldl
      (fun con (i : Nat) => moveLine con (btm - i) (btm - i - line)) con
    textClearBand con top (top + line - 1)

def scrollUp (con : ConInfo) (line : Int) : ConInfo :=
  textMoveUp con con.ymin con.ymax line

def scrollDown (con : ConInfo) (line : Int) : ConInfo :=
  textMoveDown con con.ymin con.ymax line

def textClearAll (con : ConInfo) : ConInfo :=
  { clearCells con 0 con.textSize (longs con.textSize) with textClear := true }

def textClearEol (con : ConInfo) (mode : Byte) : ConInfo :=
  let x := if mode = 1 ∨ mode = 2 then 0 else con.x % 256
  let len := (if mode = 1 then con.x else if mode = 2 then con.dispxmax else con.dispxmax - con.x) % 256
  clearCells con (textAddress con x con.y) len len

def textClearEos (con : ConInfo) (mode : Byte) : ConInfo :=
  if mode = 2 then
    textClearAll con
  else if mode = 1 then
    let con := (List.range con.y.toNat).foldl (fun con (y : Nat) => clearLine con y) con
    clearCells con (textAddress con 0 con.y) (uInt con.x) (uInt con.x)
  else
    let con := (List.range (con.dispymax - con.y).toNat).foldl
      (fun con (i : Nat) => clearLine con (con.y + 1 + i)) con
    let len := con.dispxmax - con.x
    clearCells con (textAddress con con.x con.y) (uInt len) (uInt len)

def textClearChars (con : ConInfo) (len : Int) : ConInfo :=
  let len := if con.x + len > con.dispxmax then con.dispxmax - con.x else len
  clearCells con (textAddress con con.x con.y) (uInt len) (uInt len)

def putCell (con : ConInfo) (addr : Int) (ch flag : Byte) : ConInfo :=
  let con := con.access addr 1
  { con with
    attrBuff := fill con.attrBuff addr 1 (con.fcol ||| con.bcol <<< 4)
    textBuff := fill con.textBuff addr 1 ch
    flagBuff := fill con.flagBuff addr 1 flag }

def textWput1 (con : ConInfo) (ch : Byte) : ConInfo :=
  putCell con (textAddress con con.x con.y) ch con.db

def textWput2 (con : ConInfo) (ch : Byte) : ConInfo :=
  let addr := textAddress con con.x con.y
  let con := putCell con addr ch LATCH_2
  latchFlags con (uInt (addr - 1)) 1

def textSput (con : ConInfo) (ch : Byte) : ConInfo :=
  putCell con (textAddress con con.x con.y) ch (LATCH_S ||| con.sb)

end MiniGui.Vcongui
