import Mathlib.Data.List.Basic
import Mathlib.Tactic.Common

namespace MiniGui

structure SlEdit where
  mem : Int → UInt8
  buffsize : Int
  txtlen : Int
  editPos : Int
  selStart : Int
  selEnd : Int
  hardLimit : Int
  replace : Bool
  focused : Bool
  tmp : Bool

inductive Align where
  | default
  | left
  | center
  | right
deriving DecidableEq, Repr

structure MCharLens where
  first : List UInt8 → Nat
  last : List UInt8 → Nat
  positions : List UInt8 → List Nat
  first_le : ∀ text, first text ≤ text.length
  last_le : ∀ text, last text ≤ text.length
  positions_le : ∀ text, ∀ pos ∈ positions text, pos ≤ text.length

structure SlWindow where
  align : Align
  readonly : Bool
  password : Bool
  uppercase : Bool
  lowercase : Bool
  autoselect : Bool
  nohidesel : Bool
  chars : MCharLens
  right : Int
  bottom : Int
  visTop : Int
  visBottom : Int
  toContent : Int → Int
  extentPoint : List UInt8 → Int → Nat
  extentPoint_le : ∀ text x, extentPoint text x ≤ text.length

def slBlockSize : Int := 32

section Memory

variable (mem : Int → UInt8)

def memMove (dst src n : Int) : Int → UInt8 :=
  fun i => if dst ≤ i ∧ i < dst + n then mem (src + (i - dst)) else mem i

def memCopy (dst : Int) (text : List UInt8) (n : Int) : Int → UInt8 :=
  fun i => if dst ≤ i ∧ i < dst + n then text.getD (i - dst).toNat 0 else mem i

def memSet (pos : Int) (byte : UInt8) : Int → UInt8 :=
  fun i => if i = pos then byte else mem i

def memBytes (pos n : Int) : List UInt8 :=
  (List.range n.toNat).map fun i => mem (pos + i)

end Memory

def blockSizeOf (len : Int) : Int :=
  len + 1 + (slBlockSize - (len + 1) % slBlockSize)

namespace SlEdit

section Text

variable (s : SlEdit)

def text : List UInt8 :=
  memBytes s.mem 0 s.txtlen

def testrRealloc (len : Int) : SlEdit :=
  if len + 1 > s.buffsize ∨ len + 1 < s.buffsize - slBlockSize then
    { s with buffsize := blockSizeOf len }
  else
    s

def deleteSelected : SlEdit :=
  if s.selStart ≠ s.selEnd then
    { s with
      mem := memMove s.mem s.selStart s.selEnd (s.txtlen - s.selEnd)
      txtlen := s.txtlen - (s.selEnd - s.selStart)
      editPos := s.selStart
      selEnd := s.selStart }
  else
    s

def limited (refresh : Bool) (inserting : Int) : Option Int :=
  if s.replace = false ∧ inserting > 0 ∧ s.hardLimit ≥ 0 ∧ s.txtlen + inserting > s.hardLimit then
    if refresh then some (s.hardLimit - s.txtlen) else none
  else if s.replace = true ∧ inserting > 0 ∧ s.hardLimit ≥ 0 ∧ s.editPos + inserting > s.hardLimit then
    some (s.hardLimit - s.editPos)
  else
    some inserting

def moveText (newtext : List UInt8) (inserting : Int) : SlEdit :=
  if inserting > 0 then
    let grown := s.testrRealloc (s.txtlen + inserting)
    let moved := if s.replace then s.mem else memMove s.mem (s.editPos + inserting) s.editPos (s.txtlen + 1 - s.editPos)
    { grown with mem := memCopy moved s.editPos newtext inserting }
  else if inserting < 0 then
    { s with mem := memMove s.mem (s.editPos + inserting) s.editPos (s.txtlen + 1 - s.editPos) }.testrRealloc
      (s.txtlen + inserting)
  else
    s

def lengthen (inserting : Int) : SlEdit :=
  if inserting ≤ 0 ∨ s.replace = false then
    { s with txtlen := s.txtlen + inserting }
  else
    let addLen := inserting - s.txtlen + s.editPos
    if addLen > 0 then
      { s with txtlen := s.txtlen + addLen, mem := memSet s.mem (s.txtlen + addLen) 0 }
    else
      s

def storeText (newtext : List UInt8) (inserting : Int) : SlEdit :=
  let t := (s.moveText newtext inserting).lengthen inserting
  { t with
    editPos := t.editPos + inserting
    selStart := t.editPos + inserting
    selEnd := t.editPos + inserting }

end Text

end SlEdit

def isPrint (c : UInt8) : Bool :=
  0x20 ≤ c && c ≤ 0x7E

def checkValidPasswd (newtext : List UInt8) : List UInt8 :=
  (newtext.takeWhile (· ≠ 0)).map (fun c => if isPrint c then c else 0x2A) ++ newtext.dropWhile (· ≠ 0)

namespace SlEdit

def insertTextBy (refresh : Bool) (window : SlWindow) (s : SlEdit) (newtext : Option (List UInt8)) (inserting : Int)
    : SlEdit :=
  let newtext' := newtext.map fun text => if window.password ∧ inserting > 0 then checkValidPasswd text else text
  let t := s.deleteSelected
  let inserting := if s.selStart ≠ s.selEnd ∧ newtext = none then 0 else inserting
  match t.limited refresh inserting with
  | none => t
  | some inserting => t.storeText (newtext'.getD []) inserting

def sleInsertText : SlWindow → SlEdit → Option (List UInt8) → Int → SlEdit :=
  insertTextBy false

def sleInsertTextRefresh : SlWindow → SlEdit → Option (List UInt8) → Int → SlEdit :=
  insertTextBy true

section Messages

variable (window : SlWindow) (s : SlEdit)

def sleSetSel (selStart selEnd : Int) : SlEdit :=
  if s.txtlen ≤ 0 then
    s
  else
    let selStart := if selStart < 0 then 0 else selStart
    let selEnd := if selEnd < 0 then s.txtlen else selEnd
    if selStart = selEnd then s else { s with selStart := selStart, selEnd := selEnd }

def setCaretPos (x : Int) (bSel : Bool) : SlEdit :=
  let x := window.toContent x
  let outChars : Int := if x ≤ 0 then 0 else window.extentPoint s.text x
  if bSel then
    if outChars > s.editPos then
      { s with selStart := s.editPos, selEnd := outChars }
    else
      { s with selEnd := s.editPos, selStart := outChars }
  else
    { s with selStart := 0, selEnd := 0, editPos := outChars }

def chlenNext (pos : Int) : Int :=
  window.chars.first (s.text.drop pos.toNat)

def chlenPrev (pos : Int) : Int :=
  window.chars.last (s.text.take pos.toNat)

def sleMouseMove (mouseX mouseY : Int) : SlEdit :=
  if 0 ≤ mouseX ∧ mouseX < window.right ∧ 0 ≤ mouseY ∧ mouseY < window.bottom then
    s.setCaretPos window mouseX true
  else if mouseY < 0 then
    { s with selStart := 0, selEnd := s.editPos }
  else if mouseY ≥ window.bottom then
    { s with selStart := s.editPos, selEnd := s.txtlen }
  else if mouseX < 0 then
    if s.selEnd = s.txtlen then
      s.setCaretPos window 0 true
    else if s.selStart = 0 then
      s
    else
      { s with selStart := s.selStart - s.chlenPrev window s.selStart }
  else if mouseX ≥ window.right then
    let t := if s.selStart = 0 then s.setCaretPos window (window.right - 1) true else s
    if t.selEnd = t.txtlen then t else { t with selEnd := t.selEnd + t.chlenNext window t.selEnd }
  else
    s

def cursorLeft (shift : Bool) : SlEdit :=
  if shift then
    let t := if s.selStart = s.selEnd then { s with selStart := s.editPos, selEnd := s.editPos } else s
    if t.selStart < t.editPos ∨ t.selStart = t.selEnd then
      if t.selStart > 0 then { t with selStart := t.selStart - t.chlenPrev window t.selStart } else t
    else
      { t with selEnd := t.selEnd - t.chlenPrev window t.selEnd }
  else
    let t := if s.editPos > 0 then { s with editPos := s.editPos - s.chlenPrev window s.editPos } else s
    { t with selStart := t.editPos, selEnd := t.editPos }

def cursorRight (shift : Bool) : SlEdit :=
  if shift then
    let t := if s.selStart = s.selEnd then { s with selStart := s.editPos, selEnd := s.editPos } else s
    if t.selStart = t.selEnd ∨ t.selEnd > t.editPos then
      if t.selEnd < t.txtlen then { t with selEnd := t.selEnd + t.chlenNext window t.selEnd } else t
    else
      { t with selStart := t.selStart + t.chlenNext window t.selStart }
  else
    let t := if s.editPos < s.txtlen then { s with editPos := s.editPos + s.chlenNext window s.editPos } else s
    { t with selStart := t.editPos, selEnd := t.editPos }

def remove : SlEdit :=
  if window.readonly then
    s
  else if s.editPos = s.txtlen ∧ s.selStart = s.selEnd then
    s
  else
    let t := if s.selStart = s.selEnd ∧ s.editPos < s.txtlen then
        { s with editPos := s.editPos + s.chlenNext window s.editPos }
      else
        s
    let del := s.editPos - t.editPos
    if window.align = .right then t.sleInsertTextRefresh window none del else t.sleInsertText window none del

def backspace : SlEdit :=
  if s.editPos = 0 ∧ s.selStart = s.selEnd then
    s
  else
    let del := -s.chlenPrev window s.editPos
    if window.align = .right then s.sleInsertTextRefresh window none del else s.sleInsertText window none del

def inputChar (charBuffer : List UInt8) : SlEdit :=
  if window.align = .right ∧ s.selStart = s.selEnd then
    s.sleInsertTextRefresh window (some charBuffer) charBuffer.length
  else
    s.sleInsertText window (some charBuffer) charBuffer.length

def toUpper (c : UInt8) : UInt8 :=
  if 0x61 ≤ c ∧ c ≤ 0x7A then c - 0x20 else c

def toLower (c : UInt8) : UInt8 :=
  if 0x41 ≤ c ∧ c ≤ 0x5A then c + 0x20 else c

def caseOf (c : UInt8) : UInt8 :=
  if window.uppercase then toUpper c else if window.lowercase then toLower c else c

def charBuffer (wParam : BitVec 32) : List UInt8 :=
  let byte0 := UInt8.ofBitVec (wParam.extractLsb' 0 8)
  let byte1 := UInt8.ofBitVec (wParam.extractLsb' 8 8)
  let byte2 := UInt8.ofBitVec (wParam.extractLsb' 16 8)
  if byte2 ≠ 0 then
    [byte0, byte1, byte2]
  else if byte1 ≠ 0 then
    [byte0, byte1]
  else
    [caseOf window byte0]

def onChar (wParam : BitVec 32) : SlEdit :=
  let wParam := if wParam = 127 then 8 else wParam
  if window.readonly then
    s
  else
    let bytes := charBuffer window wParam
    if bytes.length = 1 ∧ bytes.headD 0 < 0x20 ∧ bytes.headD 0 ≠ 8 then
      s
    else if wParam = 8 then
      s.backspace window
    else
      s.inputChar window bytes

end Messages

end SlEdit

end MiniGui
