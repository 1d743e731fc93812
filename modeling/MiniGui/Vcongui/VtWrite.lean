import MiniGui.Vcongui.Term

namespace MiniGui.Vcongui

def CS_LEFT : Nat := 0
def CS_RIGHT : Nat := 1
def CS_GRAPH : Nat := 2
def CS_DBCS : Nat := 3

def G1_SET : Nat := 0x80

def MAX_NARG : Nat := 8

def DF_GB2312 : Byte := 0

def saveAttr (con : ConInfo) : ConInfo :=
  { con with saveAttr := ⟨con.x, con.y, con.attr, con.bcol, con.fcol⟩ :: con.saveAttr }

def restoreAttr (con : ConInfo) : ConInfo :=
  match con.saveAttr with
  | [] => con
  | top :: rest =>
    { con with x := top.x, y := top.y, attr := top.attr, fcol := top.fcol, bcol := top.bcol, saveAttr := rest }

def table : List Byte :=
  [0, 4, 2, 6, 1, 5, 3, 7]

def swapColors (con : ConInfo) : ConInfo :=
  let swp := con.fcol &&& 7
  let swp := if con.attr &&& ATTR_ULINE ≠ 0 then swp ||| 8 else swp
  let fcol := con.bcol &&& 7
  let fcol := if con.attr &&& ATTR_HIGH ≠ 0 ∧ fcol ≠ 0 then fcol ||| 8 else fcol
  { con with fcol, bcol := swp }

def escSetAttr (con : ConInfo) (col : BitVec 16) : ConInfo :=
  if col = 0 then
    { con with bcol := 0, fcol := 7, attr := 0 }
  else if col = 1 then
    { con with attr := con.attr ||| ATTR_HIGH, fcol := con.fcol ||| 8 }
  else if col = 21 then
    { con with attr := con.attr &&& ~~~ATTR_HIGH, fcol := con.fcol &&& ~~~8#8 }
  else if col = 4 then
    { con with attr := con.attr ||| ATTR_ULINE, bcol := con.bcol ||| 8 }
  else if col = 24 then
    { con with attr := con.attr &&& ~~~ATTR_ULINE, bcol := con.bcol &&& ~~~8#8 }
  else if col = 7 then
    if con.attr &&& ATTR_REVERSE = 0 then
      swapColors { con with attr := con.attr ||| ATTR_REVERSE }
    else
      con
  else if col = 27 then
    if con.attr &&& ATTR_REVERSE ≠ 0 then
      swapColors { con with attr := con.attr &&& ~~~ATTR_REVERSE }
    else
      con
  else if 30 ≤ col.toNat ∧ col.toNat ≤ 37 then
    let swp := table.getD (col.toNat - 30) 0
    if con.attr &&& ATTR_REVERSE ≠ 0 then
      { con with bcol := if con.attr &&& ATTR_ULINE ≠ 0 then swp ||| 8 else swp }
    else
      { con with fcol := if con.attr &&& ATTR_HIGH ≠ 0 then swp ||| 8 else swp }
  else if 40 ≤ col.toNat ∧ col.toNat ≤ 47 then
    let swp := table.getD (col.toNat - 40) 0
    if con.attr &&& ATTR_REVERSE ≠ 0 then
      { con with fcol := if con.attr &&& ATTR_HIGH ≠ 0 then swp ||| 8 else swp }
    else
      { con with bcol := if con.attr &&& ATTR_ULINE ≠ 0 then swp ||| 8 else swp }
  else
    con

def vtSetMode (con : ConInfo) (mode : BitVec 16) (sw : Bool) : ConInfo :=
  let mode : Byte := mode.setWidth 8
  if mode = 4 then
    { con with ins := sw }
  else if mode = 25 then
    { con with cursorsw := sw }
  else
    con

def escReport (con : ConInfo) (mode : Byte) (arg : BitVec 16) : ConInfo :=
  let report :=
    -- 'n' and 'c'
    if mode = 0x6E then
      if arg = 6 then
        Report.position ((if con.y < con.ymax then con.y else con.ymax) + 1)
          ((if con.x < con.xmax then con.x else con.xmax) + 1)
      else if arg = 5 then
        .ok
      else
        .undefined
    else if mode = 0x63 then
      if arg = 0 then .id else .undefined
    else
      .undefined
  { con with sent := report :: con.sent }

def accessArg (con : ConInfo) (n : Nat) : ConInfo :=
  { con with inBounds := con.inBounds && n < MAX_NARG }

def orOne (arg : BitVec 16) : Int :=
  if arg = 0 then 1 else arg.toNat

def fromOne (arg : BitVec 16) (default : Int) : Int :=
  if arg = 0 then default else arg.toNat - 1

def forArgs (con : ConInfo) (f : ConInfo → BitVec 16 → ConInfo) : ConInfo :=
  (List.range (con.narg + 1)).foldl (fun con n => f (accessArg con n) (con.varg n)) con

def setCursorRow (con : ConInfo) : ConInfo :=
  { con with y := short (fromOne (con.varg 0) 0) }

def setMargins (con : ConInfo) : ConInfo :=
  let ymin := short (fromOne (con.varg 0) 0)
  let ymax := short (fromOne (con.varg 1) (con.dispymax - 1))
  { con with ymin, ymax, x := 0, y := ymin, wrap := false, soft := ymin ≠ 0 ∨ ymax ≠ con.dispymax - 1 }

def escFinal (con : ConInfo) (ch : Byte) : ConInfo :=
  -- 'K', 'J', 'X'
  if ch = 0x4B then
    textClearEol con ((con.varg 0).setWidth 8)
  else if ch = 0x4A then
    textClearEos con ((con.varg 0).setWidth 8)
  else if ch = 0x58 then
    textClearChars con (con.varg 0).toNat
  -- 'A', 'B', 'C', 'D', 'G'
  else if ch = 0x41 then
    let y := short (con.y - orOne (con.varg 0))
    if y < con.ymin then { con with scroll := con.scroll - (y - con.ymin), y := con.ymin } else { con with y }
  else if ch = 0x42 then
    let y := short (con.y + orOne (con.varg 0))
    if y > con.ymax then { con with scroll := con.scroll + (y - con.ymin), y := con.ymax } else { con with y }
  else if ch = 0x43 then
    { con with x := short (con.x + orOne (con.varg 0)), wrap := false }
  else if ch = 0x44 then
    { con with x := short (con.x - orOne (con.varg 0)), wrap := false }
  else if ch = 0x47 then
    { con with x := short (fromOne (con.varg 0) 0), wrap := false }
  -- 'P', '@', 'L', 'M'
  else if ch = 0x50 then
    textDeleteChar con (orOne (con.varg 0))
  else if ch = 0x40 then
    textInsertChar con (orOne (con.varg 0))
  else if ch = 0x4C then
    textMoveDown con con.y con.ymax (orOne (con.varg 0))
  else if ch = 0x4D then
    textMoveUp con con.y con.ymax (orOne (con.varg 0))
  -- 'H' and 'f' go on with 'd'
  else if ch = 0x48 ∨ ch = 0x66 then
    setCursorRow { con with x := short (fromOne (con.varg 1) 0), wrap := false }
  else if ch = 0x64 then
    setCursorRow con
  -- 'm', 'r', 'l', 'h'
  else if ch = 0x6D then
    forArgs con escSetAttr
  else if ch = 0x72 then
    setMargins con
  else if ch = 0x6C then
    forArgs con fun con mode => vtSetMode con mode false
  else if ch = 0x68 then
    forArgs con fun con mode => vtSetMode con mode true
  -- '?', 's', 'u', 'n' and 'c'
  else if ch = 0x3F then
    { con with question := true, esc := some .bracket }
  else if ch = 0x73 then
    saveAttr con
  else if ch = 0x75 then
    restoreAttr con
  else if ch = 0x6E ∨ ch = 0x63 then
    if con.question ≠ true then escReport con ch (con.varg 0) else con
  else
    con

def resetArgs (con : ConInfo) : ConInfo :=
  if con.esc = none then
    { con with question := false, narg := 0, varg := fun _ => 0 }
  else
    con

def escBracket (con : ConInfo) (ch : Byte) : ConInfo :=
  if 0x30 ≤ ch.toNat ∧ ch.toNat ≤ 0x39 then
    let con := accessArg con con.narg
    let digit : BitVec 16 := (ch - 0x30).setWidth 16
    { con with varg := Function.update con.varg con.narg (con.varg con.narg * 10 + digit) }
  else if ch = 0x3B then
    if con.narg < MAX_NARG then { con with narg := con.narg + 1 } else { con with esc := none }
  else
    resetArgs (escFinal { con with esc := none } ch)

def dCodingSigns : List Byte :=
  [0x41, 0x42, 0x43, 0x44, 0x30, 0x31]

def escSetDCodeG0 (con : ConInfo) (ch : Byte) : ConInfo :=
  if ch = 0x28 ∨ ch = 0x29 then
    con
  else
    let ch := if ch = 0x40 then 0x42 else ch
    let i := dCodingSigns.findIdx (· = ch)
    let con := if i < dCodingSigns.length then { con with db := BitVec.ofNat 8 i ||| LATCH_1 } else con
    { con with trans := CS_DBCS, esc := none }

def sCodingSigns : List (Byte × Byte) :=
  [(0x42, 0x41), (0x42, 0x42), (0x42, 0x43), (0x42, 0x44), (0x42, 0x4C), (0x42, 0x47), (0x42, 0x46), (0x42, 0x48),
    (0x42, 0x4D), (0x4A, 0x49)]

def escSetSCodeG0 (con : ConInfo) (ch : Byte) : ConInfo :=
  let con :=
    if ch = 0x55 then
      { con with g0 := CS_GRAPH }
    else
      let i := sCodingSigns.findIdx fun signs => signs.1 = ch ∨ signs.2 = ch
      match sCodingSigns[i]? with
      | none => con
      | some signs =>
        { con with sb := BitVec.ofNat 8 i, g0 := if signs.1 = ch then CS_LEFT else CS_RIGHT }
  { con with trans := con.g0, esc := none }

def escSetSCodeG1 (con : ConInfo) (ch : Byte) : ConInfo :=
  let con :=
    if ch = 0x55 then
      { con with g1 := CS_LEFT }
    else if ch = 0x30 then
      { con with g1 := CS_GRAPH }
    else
      con
  { con with trans := con.g1, esc := none }

def lineDown (con : ConInfo) : ConInfo :=
  if con.y = con.ymax then { con with scroll := con.scroll + 1 } else { con with y := short (con.y + 1) }

def clearScreen (con : ConInfo) : ConInfo :=
  textClearAll { con with x := 0, y := 0, wrap := false }

def escStart (con : ConInfo) (ch : Byte) : ConInfo :=
  let con := { con with esc := none }
  -- '[', '$', '(' and ',', ')'
  if ch = 0x5B then
    { con with esc := some .bracket }
  else if ch = 0x24 then
    { con with esc := some .setDCodeG0 }
  else if ch = 0x28 ∨ ch = 0x2C then
    { con with esc := some .setSCodeG0 }
  else if ch = 0x29 then
    { con with esc := some .setSCodeG1 }
  -- 'E', which goes on with 'D', 'D', 'M'
  else if ch = 0x45 then
    lineDown { con with x := 0, wrap := false }
  else if ch = 0x44 then
    lineDown con
  else if ch = 0x4D then
    if con.y = con.ymin then { con with scroll := con.scroll - 1 } else { con with y := short (con.y - 1) }
  -- 'c', which goes on with '*', '*', '7', '8'
  else if ch = 0x63 then
    clearScreen
      { con with fcol := 7, attr := 0, bcol := 0, wrap := false, trans := CS_LEFT, sb := 0, db := LATCH_1 }
  else if ch = 0x2A then
    clearScreen con
  else if ch = 0x37 then
    saveAttr con
  else if ch = 0x38 then
    { restoreAttr con with wrap := false }
  else
    con

def escHandler : Esc → ConInfo → Byte → ConInfo
  | .start => escStart
  | .bracket => escBracket
  | .setDCodeG0 => escSetDCodeG0
  | .setSCodeG0 => escSetSCodeG0
  | .setSCodeG1 => escSetSCodeG1

def between (low high : Nat) (c : Byte) : Bool :=
  low ≤ c.toNat && c.toNat ≤ high

def iskanji (coding : SysCoding) (c c1 : Byte) : Bool :=
  match coding with
  | .sjis => between 0x81 0x9F c && between 0xE0 0xFC c
  | .gb => between 0xA1 0xFE c && between 0xA1 0xFE c1
  | .gbk => between 0x81 0xFE c && between 0x40 0xFE c1
  | .big5 => between 0xA1 0xFE c && (between 0x40 0x7E c || between 0xA1 0xFE c)
  | .other => c &&& 0x80 ≠ 0

def firstOrSecondByte (con : ConInfo) : ConInfo × Byte :=
  let prevAddr :=
    if con.x = 0 then
      if con.y > con.ymin then some (textAddress con con.xmax (con.y - 1)) else none
    else
      some (textAddress con (con.x - 1) con.y)
  match prevAddr with
  | none => (con, LATCH_1)
  | some prevAddr =>
    (con.access prevAddr 1, if con.flagBuff prevAddr &&& LATCH_1 ≠ 0 then LATCH_2 else LATCH_1)

def rearrangeCell (addr : Int) (con : ConInfo × Byte) (i : Nat) : ConInfo × Byte :=
  let (con, prev) := con
  let con := con.access (addr + i) 2
  let ch := con.textBuff (addr + i)
  let ch1 := con.textBuff (addr + i + 1)
  if iskanji con.sysCoding ch ch1 then
    let flag := if prev = LATCH_1 then con.db ||| LATCH_2 else con.db ||| LATCH_1
    ({ con with flagBuff := fill con.flagBuff (addr + i) 1 flag }, LATCH_1)
  else if ch ≠ 0 then
    ({ con with flagBuff := fill con.flagBuff (addr + i) 1 (con.sb ||| LATCH_S) }, LATCH_S)
  else
    (con, LATCH_S)

def rearrangeLine (con : ConInfo) : ConInfo :=
  let addr := textAddress con con.x con.y + 1
  ((List.range (con.xmax - con.x - 1).toNat).foldl (rearrangeCell addr) (con, LATCH_S)).1

def putByte (con : ConInfo) (ch ch1 : Byte) : ConInfo :=
  let kanji := iskanji con.sysCoding ch ch1
  let con := if con.ins then textInsertChar con 1 else con
  let con :=
    if kanji then
      let (con, byte) := firstOrSecondByte con
      if byte = LATCH_1 then textWput1 con ch else textWput2 con ch
    else
      rearrangeLine (textSput con ch)
  { con with x := short (con.x + 1) }

inductive Outcome where
  | continue (con : ConInfo)
  | scroll (con : ConInfo)
  | again (con : ConInfo)

def resetCodes (con : ConInfo) : ConInfo :=
  { con with trans := CS_LEFT, sb := 0, db := LATCH_1 }

def lineFeed (con : ConInfo) : ConInfo :=
  lineDown { con with wrap := false }

def vtChar (con : ConInfo) (ch ch1 : Byte) : Outcome :=
  if ch = 0x07 ∨ ch = 0x7F then
    .scroll con
  else if ch = 0x08 then
    .scroll { con with x := if con.x ≠ 0 then short (con.x - 1) else con.x, wrap := false }
  else if ch = 0x09 then
    let x := short (con.x + (con.tab - con.x.tmod con.tab))
    if x > con.xmax then
      .scroll (lineFeed (resetCodes { con with x := short (x - (con.xmax + 1)), wrap := false }))
    else
      .scroll { con with x, wrap := false }
  else if ch = 0x0B ∨ ch = 0x0C then
    .scroll (lineFeed (resetCodes con))
  else if ch = 0x0A then
    .scroll (lineFeed con)
  else if ch = 0x0D then
    .scroll { con with x := 0, wrap := false }
  else if ch = 0x1B then
    .continue { con with esc := some .start }
  else if ch = 0x0E then
    .continue { con with trans := con.g1 ||| G1_SET }
  else if ch = 0x0F then
    .continue { con with trans := con.g0 }
  else
    let con := if con.x = con.xmax + 1 then { con with wrap := true, x := short (con.x - 1) } else con
    if con.wrap then
      .again { lineDown { con with x := short (con.x - con.xmax) } with wrap := false }
    else
      .continue (putByte con ch ch1)

def scrollStep (con : ConInfo) : ConInfo :=
  let con :=
    if con.scroll > 0 then
      scrollUp con con.scroll
    else if con.scroll < 0 then
      scrollDown con (-con.scroll)
    else
      con
  { con with scroll := 0 }

def vtOutcome (con : ConInfo) (ch ch1 : Byte) : Outcome :=
  if ch = 0 then
    .continue con
  else
    match con.esc with
    | some esc => .scroll (escHandler esc con ch)
    | none => vtChar con ch ch1

/--
`none` if the byte is taken again more often than `rounds` times.
-/
def vtRounds (ch ch1 : Byte) : Nat → ConInfo → Option ConInfo
  | 0, _ => none
  | rounds + 1, con =>
    match vtOutcome con ch ch1 with
    | .continue con => some con
    | .scroll con => some (scrollStep con)
    | .again con => vtRounds ch ch1 rounds (scrollStep con)

def vtByte (con : ConInfo) (ch ch1 : Byte) : Option ConInfo :=
  vtRounds ch ch1 3 con

def vtWrite (con : ConInfo) : List Byte → Byte → Option ConInfo
  | [], _ => some con
  | ch :: rest, behind => (vtByte con ch (rest.headD behind)).bind fun con => vtWrite con rest behind

def vtStart (cols rows : Int) (coding : SysCoding) : ConInfo where
  dispxmax := cols
  dispymax := rows
  x := 0
  y := 0
  xmax := short (cols - 1)
  ymin := 0
  ymax := short (rows - 1)
  tab := 8
  saveAttr := []
  textBuff := fun _ => 0
  attrBuff := fun _ => 0
  flagBuff := fun _ => 0
  inBounds := true
  textClear := false
  textHead := 0
  scroll := 0
  textSize := int32 (cols * rows)
  fcol := 7
  bcol := 0
  attr := 0
  sb := 0
  db := LATCH_1
  cursorsw := true
  soft := false
  esc := none
  trans := CS_LEFT
  g0 := CS_LEFT
  g1 := CS_LEFT
  ins := false
  wrap := false
  sysCoding := coding
  varg := fun _ => 0
  narg := 0
  question := false
  sent := []

def copyCells (con : ConInfo) (rows cols : Int) (buff : Int → Byte) : Int → Byte :=
  fun a =>
    if 0 ≤ a ∧ a / cols < min rows con.dispymax ∧ a % cols < min cols con.dispxmax then
      buff (a / cols * con.dispxmax + a % cols)
    else
      0

def vtChangeWindowSize (con : ConInfo) (rows cols : Int) : ConInfo :=
  let xmax := short (cols - 1)
  let ymax := short (rows - 1)
  { con with
    textSize := int32 (rows * cols)
    textBuff := copyCells con rows cols con.textBuff
    attrBuff := copyCells con rows cols con.attrBuff
    flagBuff := copyCells con rows cols con.flagBuff
    dispxmax := cols
    dispymax := rows
    xmax
    ymax
    x := if con.x > xmax then xmax else con.x
    y := if con.y > ymax then ymax else con.y }

end MiniGui.Vcongui
