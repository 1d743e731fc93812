import Mathlib

/-!
The text document of `control/textedit.c`: a list of nodes, the buffer of a line in each. Nodes are
named by their positions in the list, the line separator is the default one, and allocation does not
fail. Of a buffer the bytes are kept that the last change of it has written.
-/

namespace MiniGui

def lnsep : UInt8 := 10

def carriageReturn : UInt8 := 13

def chRn : List UInt8 := [carriageReturn, lnsep]

def chBs : UInt8 := 8

def chDel : UInt8 := 127

def isRnSep (pIns : List UInt8) : Prop :=
  pIns.take 2 = chRn

instance (pIns : List UInt8) : Decidable (isRnSep pIns) :=
  inferInstanceAs (Decidable (_ = _))

/--
`StrBuffer`, with the bytes up to the last one that is known.
-/
structure TextNode where
  string : List UInt8
  txtlen : Nat
deriving DecidableEq, Repr

namespace TextNode

def text (node : TextNode) : List UInt8 :=
  node.string.take node.txtlen

def create (line : List UInt8) : TextNode :=
  ⟨line ++ [0], line.length⟩

def charAt (node : TextNode) (pos : Nat) : UInt8 :=
  node.string.getD pos 0

end TextNode

structure TextMark where
  curNode : Nat
  posLnOff : Nat
deriving DecidableEq, Repr

structure CharLengths where
  getLastMCharLen : List UInt8 → Nat
  getFirstMCharLen : List UInt8 → Nat
  last : ∀ text ≠ [], 0 ∉ text → 1 ≤ getLastMCharLen text ∧ getLastMCharLen text ≤ text.length
  first : ∀ text ≠ [], 0 ∉ text → 1 ≤ getFirstMCharLen text ∧ getFirstMCharLen text ≤ text.length
  firstSep : ∀ text : List UInt8, text.head? ≠ some lnsep → lnsep ∉ text.take (getFirstMCharLen text)

structure TextDoc where
  queue : List TextNode
  insert : TextMark
  selection : Option TextMark
  curlen : Int
  hardLimit : Int
  /-- the notifications `EN_MAXTEXT` so far -/
  maxText : Nat
deriving DecidableEq, Repr

namespace TextDoc

def node (txtdoc : TextDoc) (i : Nat) : TextNode :=
  txtdoc.queue.getD i ⟨[0], 0⟩

def setNode (txtdoc : TextDoc) (i : Nat) (node : TextNode) : TextDoc :=
  { txtdoc with queue := txtdoc.queue.set i node }

def markAdded (i : Nat) (mark : TextMark) : TextMark :=
  if mark.curNode > i then { mark with curNode := mark.curNode + 1 } else mark

def markDeleted (i : Nat) (mark : TextMark) : TextMark :=
  if mark.curNode > i then { mark with curNode := mark.curNode - 1 } else mark

def txtAddNode (txtdoc : TextDoc) (pLine : List UInt8) (i : Nat) : TextDoc :=
  { txtdoc with
    queue := txtdoc.queue.insertIdx (i + 1) (.create pLine)
    insert := markAdded i txtdoc.insert
    selection := txtdoc.selection.map (markAdded i)
    curlen := txtdoc.curlen + pLine.length }

def txtDelNode (txtdoc : TextDoc) (i : Nat) : TextDoc :=
  { txtdoc with
    queue := txtdoc.queue.eraseIdx i
    insert := markDeleted i txtdoc.insert
    selection := txtdoc.selection.map (markDeleted i)
    curlen := txtdoc.curlen - (txtdoc.node i).txtlen }

def insertString (txtdoc : TextDoc) (curnode insertPos : Nat) (newtext : List UInt8) (len : Int) : TextDoc :=
  let strbuff := txtdoc.node curnode
  let moved := (strbuff.string.drop insertPos).take (strbuff.txtlen + 1 - insertPos)
  if len > 0 then
    let string := strbuff.string.take insertPos ++ newtext.take len.toNat ++ moved
    if txtdoc.hardLimit ≠ -1 ∧ txtdoc.curlen + len > txtdoc.hardLimit then
      -- the buffer has been changed when the text is refused
      { txtdoc.setNode curnode ⟨string, strbuff.txtlen⟩ with maxText := txtdoc.maxText + 1 }
    else
      { txtdoc.setNode curnode ⟨string, strbuff.txtlen + len.toNat⟩ with curlen := txtdoc.curlen + len }
  else
    let removed := (-len).toNat
    { txtdoc.setNode curnode ⟨strbuff.string.take (insertPos - removed) ++ moved, strbuff.txtlen - removed⟩ with
      curlen := txtdoc.curlen + len }

def insertLnSep (txtdoc : TextDoc) (curnode insertPos : Nat) (bChRn : Bool) : TextDoc :=
  let strbuff := txtdoc.node curnode
  let sep := if bChRn then chRn else [lnsep]
  let added := txtdoc.txtAddNode ((strbuff.string.drop insertPos).take (strbuff.txtlen - insertPos)) curnode
  { added.setNode curnode ⟨strbuff.string.take insertPos ++ sep ++ [0], insertPos + sep.length⟩ with
    curlen := added.curlen + sep.length }

def insertPlain (txtdoc : TextDoc) (curnode insertPos : Nat) (newtext : List UInt8) (len : Int) : TextDoc × Nat :=
  (txtdoc.insertString curnode insertPos newtext len, (insertPos + len).toNat)

def editNode (chars : CharLengths) : Nat → TextDoc → Option Nat → Nat → List UInt8 → Int → TextDoc × Nat
  | 0, txtdoc, _, insertPos, _, _ => (txtdoc, insertPos)
  | calls + 1, txtdoc, enode, insertPos, newtext, len =>
    let curnode := enode.getD txtdoc.insert.curNode
    let insertPos := if enode.isNone then txtdoc.insert.posLnOff else insertPos
    let strbuff := txtdoc.node curnode
    let pIns := strbuff.string.drop insertPos
    let first := newtext.getD 0 0
    if len = 1 ∨ (len = 2 ∧ newtext.takeWhile (· ≠ 0) = chRn) then
      if first = lnsep ∨ isRnSep newtext then
        let split := txtdoc.insertLnSep curnode insertPos (decide (len = 2))
        if enode.isNone then
          ({ split with insert.curNode := curnode + 1 }, 0)
        else
          (split, insertPos)
      else if first = chBs then
        if insertPos = 0 then
          if curnode = 0 then
            (txtdoc, insertPos)
          else
            -- the line before without its last byte goes to the head of this one
            let node := txtdoc.node (curnode - 1)
            let joined := editNode chars calls (txtdoc.txtDelNode (curnode - 1)) (enode.map (· - 1)) insertPos
              (node.text ++ [0]) (node.txtlen - 1)
            (joined.1, insertPos + joined.2)
        else
          txtdoc.insertPlain curnode insertPos newtext (-chars.getLastMCharLen (strbuff.string.take insertPos))
      else if first = chDel then
        if strbuff.charAt insertPos = 0 then
          (txtdoc, insertPos)
        else if strbuff.charAt insertPos = lnsep ∨ isRnSep pIns then
          let node := txtdoc.node (curnode + 1)
          if node.charAt 0 ≠ lnsep ∧ ¬isRnSep node.string then
            let cut := { txtdoc.setNode curnode ⟨strbuff.string.set insertPos 0, insertPos⟩ with
              curlen := txtdoc.curlen - 1 }
            let joined := editNode chars calls (cut.txtDelNode (curnode + 1)) enode insertPos (node.text ++ [0]) node.txtlen
            (joined.1, insertPos)
          else
            (txtdoc.txtDelNode (curnode + 1), insertPos)
        else
          let chlen := chars.getFirstMCharLen (pIns.take (strbuff.txtlen - insertPos))
          txtdoc.insertPlain curnode (insertPos + chlen) newtext (-chlen)
      else
        txtdoc.insertPlain curnode insertPos newtext len
    else
      txtdoc.insertPlain curnode insertPos newtext len

def insertStarts (insert selection : TextMark) : Prop :=
  insert.curNode < selection.curNode ∨ (insert.curNode = selection.curNode ∧ insert.posLnOff < selection.posLnOff)

instance (insert selection : TextMark) : Decidable (insertStarts insert selection) :=
  inferInstanceAs (Decidable (_ ∨ _))

def delNodesAfter (i : Nat) : Nat → TextDoc → TextDoc
  | 0, txtdoc => txtdoc
  | nodes + 1, txtdoc => delNodesAfter i nodes (txtdoc.txtDelNode (i + 1))

def deleteSelection (chars : CharLengths) (txtdoc : TextDoc) (selection : TextMark) : TextDoc × Nat :=
  let starts := insertStarts txtdoc.insert selection
  let markStart := if starts then txtdoc.insert else selection
  let markEnd := if starts then selection else txtdoc.insert
  let startnode := markStart.curNode
  let endnode := markEnd.curNode
  let posStart := if startnode = endnode then markStart.posLnOff else 0
  let posEnd := markEnd.posLnOff
  let posStart2 := markStart.posLnOff
  let posEnd2 := if startnode = endnode then markEnd.posLnOff else (txtdoc.node startnode).txtlen
  let head := { txtdoc with selection := none }.insertString endnode posEnd [] (posStart - posEnd)
  if startnode ≠ endnode then
    let near := delNodesAfter startnode (endnode - startnode - 1) head
    if posStart2 = 0 then
      ({ near.txtDelNode startnode with insert := ⟨startnode, 0⟩ }, posStart2)
    else
      let tail := (editNode chars near.queue.length near (some startnode) (posEnd2 - 1) [] (posStart2 - posEnd2 + 1)).1
      let joined := (editNode chars tail.queue.length tail (some startnode) posStart2 [chDel] 1).1
      ({ joined with insert.curNode := startnode }, posStart2)
  else
    (head, posStart2)

def insertStringEx (chars : CharLengths) (txtdoc : TextDoc) (newtext : List UInt8) (len : Int) : TextDoc × Nat :=
  match txtdoc.selection with
  | some selection =>
    let deleted := deleteSelection chars txtdoc selection
    if len = 1 ∧ (newtext.getD 0 0 = chBs ∨ newtext.getD 0 0 = chDel) then
      deleted
    else
      editNode chars deleted.1.queue.length { deleted.1 with insert.posLnOff := deleted.2 } none deleted.2 newtext len
  | none => editNode chars txtdoc.queue.length txtdoc none 0 newtext len

def insertStr (chars : CharLengths) (txtdoc : TextDoc) (newtext : List UInt8) (len : Int) : TextDoc :=
  let done := insertStringEx chars txtdoc newtext len
  { done.1 with insert.posLnOff := done.2 }

def insertLines (txtdoc : TextDoc) (newnode : Nat) (line : List UInt8) : List UInt8 → TextDoc × Nat × List UInt8
  | [] => (txtdoc, newnode, line)
  | byte :: left =>
    if byte = lnsep then
      insertLines (txtdoc.txtAddNode (line ++ [byte]) newnode) (newnode + 1) [] left
    else
      insertLines txtdoc newnode (line ++ [byte]) left

def setCurrentNode (txtdoc : TextDoc) (newnode : Nat) : TextDoc :=
  if newnode = txtdoc.insert.curNode then txtdoc else { txtdoc with insert := ⟨newnode, 0⟩ }

def insertText (chars : CharLengths) (txtdoc : TextDoc) (newtext : List UInt8) (len : Nat) : TextDoc :=
  let text := (newtext.take len).takeWhile (· ≠ 0)
  let line := text.takeWhile (· ≠ lnsep)
  let first := insertStr chars txtdoc newtext line.length
  if line.length = text.length then
    first
  else
    let node := first.insert.curNode
    let split :=
      if line ≠ [] ∧ isRnSep (newtext.drop (line.length - 1)) then
        insertStr chars first (chRn ++ [0]) 2
      else
        insertStr chars first [lnsep, 0] 1
    let lines := insertLines split node [] (text.drop (line.length + 1))
    let unselected := { lines.1 with selection := none }
    insertStr chars (unselected.setCurrentNode (lines.2.1 + 1)) (newtext.drop (text.length - lines.2.2.length))
      lines.2.2.length

end TextDoc

end MiniGui
