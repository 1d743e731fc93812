import MiniGui.Control.TextSelection

namespace MiniGui

structure TextFile where
  doc : TextDoc
  page : TextPage
  shows : doc.Shows page doc.curlen doc.limits
  ok : page.Ok

inductive TextOp where
  | insertString (newtext : List UInt8) (len : Nat)
  | insertLnSep (bChRn : Bool)
  | backspace
  | delete
  | insertText (newtext : List UInt8) (len : Nat)
  | deleteSelection (selection : TextMark)

namespace TextFile

def run (chars : CharLengths) (file : TextFile) : TextOp → TextDoc
  | .insertString newtext len => file.doc.insertStr chars newtext len
  | .insertLnSep bChRn => file.doc.insertStr chars ((if bChRn then chRn else [lnsep]) ++ [0]) (if bChRn then chRn else [lnsep]).length
  | .backspace => file.doc.insertStr chars [chBs, 0] 1
  | .delete => file.doc.insertStr chars [chDel, 0] 1
  | .insertText newtext len => file.doc.insertText chars newtext len
  | .deleteSelection selection => { file.doc with selection := some selection }.insertStr chars [chDel, 0] 1

def flatRun (chars : CharLengths) (file : TextFile) : TextOp → FlatText
  | .insertString newtext len => file.page.flat.insert (newtext.take len)
  | .insertLnSep bChRn => file.page.flat.insert (if bChRn then chRn else [lnsep])
  | .backspace => file.page.flat.backspace (file.page.flat.backspaceBytes chars)
  | .delete => file.page.flat.delete (file.page.flat.deleteBytes chars)
  | .insertText newtext len => file.page.flat.insert (TextDoc.pasted newtext len)
  | .deleteSelection selection => file.page.flat.cut (markOffset file.page.lines selection)

def Asked (file : TextFile) : TextOp → Prop
  | .insertString newtext len => len ≤ newtext.length ∧ lnsep ∉ newtext.take len ∧ 0 ∉ newtext.take len
  | .deleteSelection selection => MarkOk file.page.lines selection
  | _ => True

def Refines (chars : CharLengths) (file : TextFile) (op : TextOp) : Prop :=
  file.Asked op → ∃ page n limit, (file.run chars op).Shows page n limit ∧ page.Ok ∧ page.flat = file.flatRun chars op

def OpOk (file : TextFile) : TextOp → Prop
  | .insertString newtext len =>
    TextDoc.Plain newtext (newtext.take len) ∧ TextDoc.Room file.doc.curlen file.doc.hardLimit (newtext.take len)
  | .insertLnSep _ => True
  | .backspace =>
    file.page.pos = 0 → ∀ before prev, file.page.before = before ++ [prev]
      → TextDoc.JoinsBack file.doc.curlen file.doc.hardLimit prev
  | .delete => TextDoc.DelOk file.doc.curlen file.doc.hardLimit (file.page.cur.drop file.page.pos) file.page.after
  | .insertText newtext len =>
    TextDoc.PasteOk file.doc.curlen file.doc.hardLimit (file.page.cur.drop file.page.pos) newtext len
  | .deleteSelection selection =>
    TextDoc.SelectionOk file.doc.curlen file.doc.hardLimit file.page.lines (file.page.startMark selection) (file.page.endMark selection)

def singleBytes : CharLengths where
  getLastMCharLen := fun _ => 1
  getFirstMCharLen := fun _ => 1
  last := fun _ hne _ => ⟨Nat.le_refl 1, List.length_pos_iff.mpr hne⟩
  first := fun _ hne _ => ⟨Nat.le_refl 1, List.length_pos_iff.mpr hne⟩
  firstSep := by
    intro text hhead
    cases text with
    | nil => exact List.not_mem_nil
    | cons byte text =>
      intro hmem
      exact hhead (congrArg some (List.mem_singleton.mp hmem).symm)

def twoLines (sep : List UInt8) (hsep : sep = [lnsep] ∨ sep = chRn) : TextFile where
  doc := ⟨[.create (97 :: sep), .create [98]], ⟨1, 0⟩, none, sep.length + 2, -1, 0⟩
  page := ⟨[97 :: sep], [98], [], 0⟩
  shows := by
    rcases hsep with rfl | rfl
    . exact ⟨⟨.cons (.create (by decide)) (.cons (.create (by decide)) .nil), rfl, rfl⟩, rfl, rfl⟩
    . exact ⟨⟨.cons (.create (by decide)) (.cons (.create (by decide)) .nil), rfl, rfl⟩, rfl, rfl⟩
  ok := by
    rcases hsep with rfl | rfl
    . exact ⟨List.forall_mem_singleton.mpr ⟨[97], rfl, by decide⟩, (by decide : lnsep ∉ [98]), trivial, Nat.zero_le _⟩
    . exact ⟨List.forall_mem_singleton.mpr ⟨[97, carriageReturn], rfl, by decide⟩, (by decide : lnsep ∉ [98]),
        trivial, Nat.zero_le _⟩

end TextFile

end MiniGui
