import MiniGui.Control.TextSelection

namespace MiniGui

namespace TextDoc

def extentPoint (chars : CharLengths) : Nat → List UInt8 → Nat → List Nat × Nat
  | 0, _, _ => ([], 0)
  | bytes + 1, text, pos =>
    if text = [] then
      ([], 0)
    else
      let lenCurChar := chars.getFirstMCharLen text
      if lenCurChar = 0 then
        ([pos], 0)
      else
        let rest := extentPoint chars bytes (text.drop lenCurChar) (pos + lenCurChar)
        (pos :: rest.1, rest.2 + 1)

/--
The loop of `get_limited_str` over `pos_chars`. No result means that memory outside of the two buffers, or what a cell
held before, is used.
-/
def limitLoop (posChars : List Nat) (effChars bytes : Nat) (str : List UInt8) : Nat → Option (List UInt8)
  | 0 => some []
  | i + 1 =>
    match posChars[i + 1]? with
    | none =>
      if bytes ≤ i + 1 ∨ posChars.getD i 0 < bytes then none else limitLoop posChars effChars bytes str i
    | some next =>
      if next ≤ bytes ∧ posChars.getD i 0 < bytes then
        -- `dst` has a byte for each character, and is to have a terminator
        if next < effChars then some (str.take next) else none
      else
        limitLoop posChars effChars bytes str i

def getLimitedStr (chars : CharLengths) (str : List UInt8) (bytes : Nat) : Option (List UInt8) :=
  let extent := extentPoint chars (bytes + 4) (str.take (bytes + 4)) 0
  if extent.1.length > bytes then
    none
  else
    limitLoop extent.1 extent.2 bytes str extent.2

def textNodes (line : List UInt8) : List UInt8 → List TextNode
  | [] => [.create line]
  | byte :: left =>
    if byte = lnsep then .create (line ++ [byte]) :: textNodes [] left else textNodes (line ++ [byte]) left

def strOf (content : List UInt8) : List UInt8 :=
  content.takeWhile (· ≠ 0)

def setText (chars : CharLengths) (txtdoc : TextDoc) (content : List UInt8) (bLast : Bool) : Option TextDoc :=
  let str :=
    if txtdoc.hardLimit ≠ -1 ∧ txtdoc.hardLimit < (strOf content).length then
      getLimitedStr chars content txtdoc.hardLimit.toNat
    else
      some (strOf content)
  str.map fun str =>
    let nodes := textNodes [] str
    { txtdoc with
      queue := nodes
      insert := if bLast then ⟨nodes.length - 1, (nodes.getLastD (.create [])).txtlen⟩ else ⟨0, 0⟩
      selection := none
      curlen := (nodes.map TextNode.txtlen).sum }

end TextDoc

structure TypedChar where
  bytes : List UInt8
  proper : bytes = [lnsep] ∨ (bytes ≠ [] ∧ lnsep ∉ bytes ∧ 0 ∉ bytes)

inductive TextCall where
  | setText (content : List UInt8) (bLast : Bool)
  | char (ch : TypedChar)
  | insertText (text : List UInt8) (len : Nat)
  | moveMarks (insert : TextMark) (selection : Option TextMark)

namespace TextDoc

def takesChar (txtdoc : TextDoc) (ch : TypedChar) : Prop :=
  txtdoc.hardLimit = -1 ∨ txtdoc.curlen + ch.bytes.length ≤ txtdoc.hardLimit ∨ ch.bytes = [chBs] ∨ ch.bytes = [chDel]

instance (txtdoc : TextDoc) (ch : TypedChar) : Decidable (txtdoc.takesChar ch) :=
  inferInstanceAs (Decidable (_ ∨ _))

def teOnChar (chars : CharLengths) (txtdoc : TextDoc) (ch : TypedChar) : TextDoc :=
  if txtdoc.takesChar ch then
    insertStr chars txtdoc (ch.bytes ++ [0]) ch.bytes.length
  else
    { txtdoc with maxText := txtdoc.maxText + 1 }

def lines (txtdoc : TextDoc) : List (List UInt8) :=
  txtdoc.queue.map TextNode.text

def total (txtdoc : TextDoc) : Nat :=
  (txtdoc.queue.map TextNode.txtlen).sum

def isMark (lines : List (List UInt8)) (mark : TextMark) : Prop :=
  mark.curNode < lines.length
    ∧ (mark.posLnOff < (lines.getD mark.curNode []).length
      ∨ (mark.curNode + 1 = lines.length ∧ mark.posLnOff = (lines.getD mark.curNode []).length))

instance (lines : List (List UInt8)) (mark : TextMark) : Decidable (isMark lines mark) :=
  inferInstanceAs (Decidable (_ ∧ _))

def next (chars : CharLengths) (txtdoc : TextDoc) : TextCall → Option TextDoc
  | .setText content bLast => setText chars txtdoc content bLast
  | .char ch => some (teOnChar chars txtdoc ch)
  | .insertText text len => some (if len = 0 then txtdoc else insertText chars txtdoc text len)
  | .moveMarks insert selection =>
    some (if isMark txtdoc.lines insert ∧ ∀ mark ∈ selection, isMark txtdoc.lines mark then
      { txtdoc with insert := insert, selection := selection }
    else
      txtdoc)

structure Limited (txtdoc : TextDoc) : Prop where
  curlen : txtdoc.curlen = txtdoc.total
  limit : txtdoc.hardLimit ≠ -1 → txtdoc.total ≤ txtdoc.hardLimit

inductive CharEnd (chars : CharLengths) (text : List UInt8) : Nat → Prop where
  | zero : CharEnd chars text 0
  | char {pos : Nat} (hpos : CharEnd chars text pos) (hlt : pos < text.length)
      : CharEnd chars text (pos + chars.getFirstMCharLen (text.drop pos))

structure LongestFit (chars : CharLengths) (text : List UInt8) (limit : Int) (kept : List UInt8) : Prop where
  starts : kept <+: text
  whole : CharEnd chars text kept.length
  fits : kept.length ≤ limit
  longest : ∀ pos, CharEnd chars text pos → (pos : Int) ≤ limit → pos ≤ kept.length

structure Answers (chars : CharLengths) (txtdoc : TextDoc) (call : TextCall) (txtdoc' : TextDoc) : Prop where
  refused : txtdoc'.maxText ≠ txtdoc.maxText →
    txtdoc'.lines = txtdoc.lines ∧ txtdoc'.queue.map TextNode.txtlen = txtdoc.queue.map TextNode.txtlen
      ∧ txtdoc'.insert = txtdoc.insert
  cut : ∀ content bLast, call = .setText content bLast → txtdoc.hardLimit ≠ -1 → txtdoc.hardLimit < (strOf content).length →
    LongestFit chars (strOf content) txtdoc.hardLimit txtdoc'.lines.flatten

def KeepsLimit (chars : CharLengths) : TextDoc → List TextCall → Prop
  | txtdoc, [] => txtdoc.Limited
  | txtdoc, call :: calls =>
    txtdoc.Limited ∧ ∃ txtdoc', next chars txtdoc call = some txtdoc' ∧ Answers chars txtdoc call txtdoc'
      ∧ KeepsLimit chars txtdoc' calls

def page (txtdoc : TextDoc) : TextPage where
  before := txtdoc.lines.take txtdoc.insert.curNode
  cur := txtdoc.lines.getD txtdoc.insert.curNode []
  after := txtdoc.lines.drop (txtdoc.insert.curNode + 1)
  pos := txtdoc.insert.posLnOff

def Joins (next : List UInt8) : Prop :=
  StartsSep next ∨ (next ≠ [chBs] ∧ next ≠ [chDel])

def CharOk (page : TextPage) (ch : TypedChar) : Prop :=
  (ch.bytes = [lnsep] → page.flat.rest = [])
    ∧ (ch.bytes = [chBs] → page.pos = 0 → ∀ prev, page.before.getLast? = some prev →
      prev ≠ chRn ∧ prev ≠ [chBs, lnsep] ∧ prev ≠ [chDel, lnsep])
    ∧ (ch.bytes = [chDel] → ∀ next, page.after.head? = some next →
      (page.cur.drop page.pos = chRn → StartsSep next) ∧ (StartsSep (page.cur.drop page.pos) → Joins next))

def pastedLength (newtext : List UInt8) (len : Nat) : Nat :=
  if lnsep ∈ pasted newtext len then (pasted newtext len).length + (pastedSep newtext len).length - 1 else (pasted newtext len).length

structure PasteFits (n limit : Int) (rest newtext : List UInt8) (len : Nat) : Prop where
  first : Plain newtext ((pasted newtext len).takeWhile (· ≠ lnsep))
  last : lnsep ∈ pasted newtext len →
    Plain (newtext.drop ((pasted newtext len).length - ((pasted newtext len).rtakeWhile (· ≠ lnsep)).length))
      ((pasted newtext len).rtakeWhile (· ≠ lnsep))
  atEnd : lnsep ∈ pasted newtext len → rest = []
  fits : limit = -1 ∨ n + pastedLength newtext len ≤ limit

def SelectionJoins (lines : List (List UInt8)) (markStart markEnd : TextMark) : Prop :=
  markStart.curNode < markEnd.curNode → markStart.posLnOff ≠ 0
    → Joins ((lines.getD markEnd.curNode []).drop markEnd.posLnOff)

def SelectedChar (page : TextPage) (selection : TextMark) (ch : TypedChar) : Prop :=
  SelectionJoins page.lines (page.startMark selection) (page.endMark selection)
    ∧ (ch.bytes = [lnsep] → page.lines.flatten.drop (markOffset page.lines (page.endMark selection)) = [])

structure SelectedPaste (n limit : Int) (page : TextPage) (selection : TextMark) (newtext : List UInt8) (len : Nat)
    : Prop where
  joins : SelectionJoins page.lines (page.startMark selection) (page.endMark selection)
  rest : RestJoins page.lines (page.startMark selection) (page.endMark selection)
  fits : PasteFits (n - (markOffset page.lines (page.endMark selection) - markOffset page.lines (page.startMark selection))) limit
    (page.lines.flatten.drop (markOffset page.lines (page.endMark selection))) newtext len

def CallOk (txtdoc : TextDoc) : TextCall → Prop
  | .setText content _ => txtdoc.hardLimit = -1 ∨ (strOf content).length ≤ txtdoc.hardLimit
  | .char ch =>
    txtdoc.takesChar ch →
      (txtdoc.selection = none → CharOk txtdoc.page ch) ∧ ∀ selection, txtdoc.selection = some selection
      → SelectedChar txtdoc.page selection ch
  | .insertText newtext len =>
    len ≠ 0 →
      (txtdoc.selection = none → PasteFits txtdoc.curlen txtdoc.hardLimit txtdoc.page.flat.rest newtext len)
        ∧ ∀ selection, txtdoc.selection = some selection →
          SelectedPaste txtdoc.curlen txtdoc.hardLimit txtdoc.page selection newtext len
  | .moveMarks _ _ => True

def CallsOk (chars : CharLengths) : TextDoc → List TextCall → Prop
  | _, [] => True
  | txtdoc, call :: calls => txtdoc.CallOk call ∧ ∀ txtdoc', next chars txtdoc call = some txtdoc'
    → CallsOk chars txtdoc' calls

structure Kept (txtdoc : TextDoc) : Prop where
  shows : TextDoc.Shows { txtdoc with selection := none } txtdoc.page txtdoc.curlen txtdoc.limits
  ok : txtdoc.page.Ok
  selection : ∀ mark, txtdoc.selection = some mark → MarkOk txtdoc.page.lines mark
  count : txtdoc.curlen = txtdoc.page.size
  limit : txtdoc.hardLimit = -1 ∨ txtdoc.curlen ≤ txtdoc.hardLimit

end TextDoc

end MiniGui
