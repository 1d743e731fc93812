import MiniGui.Control.TextNodes

namespace MiniGui

open List

def IsLine (line : List UInt8) : Prop :=
  ∃ body, line = body ++ [lnsep] ∧ lnsep ∉ body

def Shaped (after : List (List UInt8)) (cur : List UInt8) : Prop :=
  if after = [] then lnsep ∉ cur else IsLine cur

def LinesOk : List (List UInt8) → Prop
  | [] => True
  | cur :: after => Shaped after cur ∧ LinesOk after

theorem linesOk_cons (cur : List UInt8) (after : List (List UInt8)) : LinesOk (cur :: after) ↔ Shaped after cur
    ∧ LinesOk after :=
  Iff.rfl

variable {before : List (List UInt8)} {text line : List UInt8}

theorem linesOk_append {after : List (List UInt8)} (hafter : after ≠ [])
    : LinesOk (before ++ after) ↔ (∀ line ∈ before, IsLine line) ∧ LinesOk after := by
  induction before with
  | nil => simp
  | cons line before ih =>
    have hrest : before ++ after ≠ [] := by simp [hafter]
    have hshaped : Shaped (before ++ after) line ↔ IsLine line := by
      unfold Shaped
      rw [if_neg hrest]
    rw [cons_append, linesOk_cons, hshaped, ih, forall_mem_cons, and_assoc]

def Inside (after : List (List UInt8)) (cur : List UInt8) (pos : Nat) : Prop :=
  if after = [] then pos ≤ cur.length else pos < cur.length

theorem inside_le {after : List (List UInt8)} {cur : List UInt8} {pos : Nat} (h : Inside after cur pos)
    : pos ≤ cur.length := by
  unfold Inside at h
  split at h <;> omega

section Shapes

variable {after : List (List UInt8)} {cur : List UInt8} {pos : Nat} (h : Shaped after cur)
include h

theorem shaped_take (hpos : Inside after cur pos) : lnsep ∉ cur.take pos := by
  unfold Shaped at h
  unfold Inside at hpos
  split at h
  next =>
    intro hmem
    exact h (mem_of_mem_take hmem)
  next hafter =>
    rw [if_neg hafter] at hpos
    obtain ⟨body, hcur, hbody⟩ := h
    rw [hcur, length_append, length_singleton] at hpos
    rw [hcur, take_append_of_le_length (by omega)]
    intro hmem
    exact hbody (mem_of_mem_take hmem)

theorem shaped_drop (hpos : Inside after cur pos) : Shaped after (cur.drop pos) := by
  unfold Shaped at h ⊢
  unfold Inside at hpos
  split at h
  next hafter =>
    rw [if_pos hafter]
    intro hmem
    exact h (mem_of_mem_drop hmem)
  next hafter =>
    rw [if_neg hafter] at hpos ⊢
    obtain ⟨body, hcur, hbody⟩ := h
    rw [hcur, length_append, length_singleton] at hpos
    refine ⟨body.drop pos, ?_, ?_⟩
    . rw [hcur, drop_append_of_le_length (by omega)]
    . intro hmem
      exact hbody (mem_of_mem_drop hmem)

theorem shaped_append (htext : lnsep ∉ text) : Shaped after (text ++ cur) := by
  unfold Shaped at h ⊢
  split at h
  next hafter =>
    rw [if_pos hafter, mem_append]
    rintro (hmem | hmem)
    . exact htext hmem
    . exact h hmem
  next hafter =>
    rw [if_neg hafter]
    obtain ⟨body, hcur, hbody⟩ := h
    refine ⟨text ++ body, by rw [hcur, append_assoc], ?_⟩
    rw [mem_append]
    rintro (hmem | hmem)
    . exact htext hmem
    . exact hbody hmem

theorem inside_append (text : List UInt8) : Inside after (text ++ cur) text.length := by
  unfold Inside
  split
  . rw [length_append]
    omega
  next hafter =>
    unfold Shaped at h
    rw [if_neg hafter] at h
    obtain ⟨body, hcur, _⟩ := h
    rw [hcur, length_append, length_append, length_singleton]
    omega

end Shapes

structure FlatText where
  head : List UInt8
  rest : List UInt8
deriving DecidableEq, Repr

namespace FlatText

def insert (flat : FlatText) (text : List UInt8) : FlatText :=
  ⟨flat.head ++ text, flat.rest⟩

def backspace (flat : FlatText) (bytes : Nat) : FlatText :=
  ⟨flat.head.take (flat.head.length - bytes), flat.rest⟩

def delete (flat : FlatText) (bytes : Nat) : FlatText :=
  ⟨flat.head, flat.rest.drop bytes⟩

end FlatText

structure TextPage where
  before : List (List UInt8)
  cur : List UInt8
  after : List (List UInt8)
  pos : Nat
deriving DecidableEq, Repr

namespace TextPage

def lines (page : TextPage) : List (List UInt8) :=
  page.before ++ page.cur :: page.after

def flat (page : TextPage) : FlatText :=
  ⟨page.before.flatten ++ page.cur.take page.pos, page.cur.drop page.pos ++ page.after.flatten⟩

def size (page : TextPage) : Nat :=
  page.lines.flatten.length

theorem size_eq (page : TextPage) : page.size = page.before.flatten.length + (page.cur.length + page.after.flatten.length) := by
  unfold size lines
  rw [flatten_append, flatten_cons, length_append, length_append]

structure Ok (page : TextPage) : Prop where
  before : ∀ line ∈ page.before, IsLine line
  cur : Shaped page.after page.cur
  after : LinesOk page.after
  pos : Inside page.after page.cur page.pos

end TextPage

namespace TextDoc

structure Shows (txtdoc : TextDoc) (page : TextPage) (curlen : Int) (limit : TextLimit) : Prop where
  has : txtdoc.Has page.lines curlen limit
  insert : txtdoc.insert = ⟨page.before.length, page.pos⟩
  selection : txtdoc.selection = none

@[simp]
theorem insertString_insert (txtdoc : TextDoc) (curnode insertPos : Nat) (newtext : List UInt8) (len : Int)
    : (txtdoc.insertString curnode insertPos newtext len).insert = txtdoc.insert := by
  unfold insertString
  split
  . split <;> rfl
  . rfl

@[simp]
theorem insertString_selection (txtdoc : TextDoc) (curnode insertPos : Nat) (newtext : List UInt8) (len : Int)
    : (txtdoc.insertString curnode insertPos newtext len).selection = txtdoc.selection := by
  unfold insertString
  split
  . split <;> rfl
  . rfl

section Pages

variable (chars : CharLengths) {txtdoc : TextDoc} {page : TextPage} {n : Int} {limit : TextLimit}

theorem Shows.focus (h : txtdoc.Shows page n limit) (insertPos : Nat)
    : txtdoc.Focus none insertPos page.before.length page.pos where
  curnode := by rw [h.insert]; rfl
  pos := by rw [h.insert]; rfl

theorem Shows.length (h : txtdoc.Shows page n limit)
    : txtdoc.queue.length = page.before.length + page.after.length + 1 := by
  rw [h.has.nodes.length_eq]
  unfold TextPage.lines
  rw [length_append, length_cons]
  omega

theorem insertStr_eq (h : txtdoc.selection = none) (newtext : List UInt8) (len : Int)
    : insertStr chars txtdoc newtext len
        = { (editNode chars txtdoc.queue.length txtdoc none 0 newtext len).1 with
            insert.posLnOff := (editNode chars txtdoc.queue.length txtdoc none 0 newtext len).2 } := by
  unfold insertStr insertStringEx
  rw [h]

theorem insertStr_text (h : txtdoc.Shows page n limit) (hok : page.Ok) {newtext : List UInt8}
    (hplain : Plain newtext text) (hnul : (0 : UInt8) ∉ text) (hroom : Room n limit.hardLimit text) (hsep : lnsep ∉ text)
    : ∃ page', (insertStr chars txtdoc newtext text.length).Shows page' (n + text.length) limit ∧ page'.Ok
        ∧ page'.flat = page.flat.insert text
        ∧ page'.before = page.before ∧ page'.after = page.after ∧ page'.cur.drop page'.pos = page.cur.drop page.pos := by
  have hpos := inside_le hok.pos
  have hshape : Shaped page.after (page.cur.take page.pos ++ text ++ page.cur.drop page.pos) := by
    rw [append_assoc]
    apply shaped_append (shaped_append (shaped_drop hok.cur hok.pos) hsep) (shaped_take hok.cur hok.pos)
  refine ⟨{ page with
    cur := page.cur.take page.pos ++ text ++ page.cur.drop page.pos
    pos := page.pos + text.length }, ?_, ⟨hok.before, hshape, hok.after, ?_⟩, ?_, rfl, rfl, ?_⟩
  . rw [insertStr_eq chars h.selection, h.length, editNode_plain (h.focus 0) hplain]
    unfold insertPlain
    have hhas := has_insertString h.has hpos hplain.starts hnul hroom
    refine ⟨⟨hhas.nodes, hhas.curlen, hhas.limits⟩, ?_, ?_⟩
    . dsimp only
      rw [insertString_insert, h.insert]
      congr 1
    . dsimp only
      rw [insertString_selection, h.selection]
  . have hinside := inside_append (shaped_drop hok.cur hok.pos) (page.cur.take page.pos ++ text)
    rw [length_append, length_take_of_le hpos] at hinside
    exact hinside
  . unfold TextPage.flat FlatText.insert
    dsimp only
    have hlen : page.pos + text.length = (page.cur.take page.pos ++ text).length := by
      rw [length_append, length_take_of_le hpos]
    rw [hlen, take_left, drop_left, append_assoc]
  . have hlen : page.pos + text.length = (page.cur.take page.pos ++ text).length := by
      rw [length_append, length_take_of_le hpos]
    rw [hlen, drop_left]

end Pages

end TextDoc

namespace FlatText

def lineHead (flat : FlatText) : List UInt8 :=
  flat.head.rtakeWhile fun byte => byte ≠ lnsep

def firstLine : List UInt8 → List UInt8
  | [] => []
  | byte :: rest => if byte = lnsep then [byte] else byte :: firstLine rest

def backspaceBytes (chars : CharLengths) (flat : FlatText) : Nat :=
  if flat.lineHead ≠ [] then chars.getLastMCharLen flat.lineHead
  else if flat.head = [] then 0
  else if chRn <:+ flat.head then 2
  else 1

def lineDeleteBytes (chars : CharLengths) (tail : List UInt8) : Nat :=
  if tail = [] then 0
  else if isRnSep tail then 2
  else if tail.head? = some lnsep then 1
  else chars.getFirstMCharLen tail

def deleteBytes (chars : CharLengths) (flat : FlatText) : Nat :=
  lineDeleteBytes chars (firstLine flat.rest)

theorem firstLine_line (h : IsLine line) (more : List UInt8) : firstLine (line ++ more) = line := by
  obtain ⟨body, hline, hbody⟩ := h
  rw [hline, append_assoc]
  clear hline
  induction body with
  | nil => simp [firstLine]
  | cons byte body ih =>
    rw [mem_cons, not_or] at hbody
    have hnext := ih hbody.2
    rw [cons_append, firstLine, if_neg fun heq => hbody.1 heq.symm, hnext, cons_append]

theorem firstLine_last (h : lnsep ∉ line) : firstLine line = line := by
  induction line with
  | nil => rfl
  | cons byte line ih =>
    rw [mem_cons, not_or] at h
    rw [firstLine, if_neg fun heq => h.1 heq.symm, ih h.2]

end FlatText

namespace TextPage

variable {page : TextPage}

theorem flatten_isLine (h : ∀ line ∈ before, IsLine line) (hne : before ≠ [])
    : ∃ body, before.flatten = body ++ [lnsep] := by
  have hlast := h (before.getLast hne) (getLast_mem hne)
  obtain ⟨body, hline, _⟩ := hlast
  refine ⟨before.dropLast.flatten ++ body, ?_⟩
  conv => lhs; rw [← dropLast_append_getLast hne]
  rw [flatten_append, flatten_singleton, hline, append_assoc]

theorem rtakeWhile_lines (hbefore : ∀ line ∈ before, IsLine line) (hline : lnsep ∉ line)
    : (before.flatten ++ line).rtakeWhile (fun byte => byte ≠ lnsep) = line := by
  have hall : ∀ byte ∈ line, byte ≠ lnsep := by
    rintro byte hmem rfl
    exact hline hmem
  clear hline
  induction line using reverseRecOn with
  | nil =>
    rw [append_nil]
    by_cases hnil : before = []
    . rw [hnil]
      rfl
    . obtain ⟨body, hbody⟩ := flatten_isLine hbefore hnil
      rw [hbody]
      simp [rtakeWhile]
  | append_singleton line byte ih =>
    rw [← append_assoc, rtakeWhile_concat_pos _ _ _ (by simpa using hall byte (by simp)), ih]
    intro byte hmem
    exact hall byte (by simp [hmem])

theorem lineHead_eq (hok : page.Ok) : page.flat.lineHead = page.cur.take page.pos :=
  rtakeWhile_lines hok.before (shaped_take hok.cur hok.pos)

theorem firstLine_eq (hok : page.Ok) : FlatText.firstLine page.flat.rest = page.cur.drop page.pos := by
  have hdrop := shaped_drop hok.cur hok.pos
  unfold Shaped at hdrop
  unfold flat
  split at hdrop
  next hafter =>
    rw [hafter, flatten_nil, append_nil]
    exact FlatText.firstLine_last hdrop
  next => exact FlatText.firstLine_line hdrop _

end TextPage

namespace TextDoc

section Pages

variable (chars : CharLengths) {txtdoc : TextDoc} {page : TextPage} {n : Int} {limit : TextLimit}

theorem insertStr_sep (h : txtdoc.Shows page n limit) (hok : page.Ok) (rn : Bool)
    : ∃ page' n', (insertStr chars txtdoc ((if rn then chRn else [lnsep]) ++ [0]) (if rn then chRn else [lnsep]).length).Shows
          page' n' limit ∧ page'.Ok ∧ page'.flat = page.flat.insert (if rn then chRn else [lnsep])
        ∧ page'.before = page.before ++ [page.cur.take page.pos ++ if rn then chRn else [lnsep]]
        ∧ page'.cur = page.cur.drop page.pos ∧ page'.after = page.after ∧ page'.pos = 0
        ∧ n' = n + (page.cur.drop page.pos).length + (if rn then chRn else [lnsep]).length := by
  have hpos := inside_le hok.pos
  have hline : IsLine (page.cur.take page.pos ++ if rn then chRn else [lnsep]) := by
    have hhead := shaped_take hok.cur hok.pos
    cases rn with
    | false => exact ⟨page.cur.take page.pos, rfl, hhead⟩
    | true =>
      refine ⟨page.cur.take page.pos ++ [carriageReturn], by rw [append_assoc]; rfl, ?_⟩
      rw [mem_append]
      rintro (hmem | hmem)
      . exact hhead hmem
      . revert hmem
        decide
  have hdrop := shaped_drop hok.cur hok.pos
  refine ⟨⟨page.before ++ [page.cur.take page.pos ++ if rn then chRn else [lnsep]], page.cur.drop page.pos, page.after, 0⟩,
    _, ⟨?_, ?_, ?_⟩, ⟨?_, hdrop, hok.after, inside_append hdrop []⟩, ?_, rfl, rfl, rfl, rfl, rfl⟩
  . rw [insertStr_eq chars h.selection, h.length, editNode_sep (h.focus 0) rn]
    have hhas := has_insertLnSep h.has hpos rn
    refine ⟨?_, hhas.curlen, hhas.limits⟩
    have hnodes := hhas.nodes
    unfold TextPage.lines
    rw [append_assoc, singleton_append]
    exact hnodes
  . rw [insertStr_eq chars h.selection, h.length, editNode_sep (h.focus 0) rn]
    rw [length_append, length_singleton]
  . rw [insertStr_eq chars h.selection, h.length, editNode_sep (h.focus 0) rn]
    unfold insertLnSep txtAddNode setNode
    rw [h.selection]
    rfl
  . intro line hmem
    rw [mem_append, mem_singleton] at hmem
    cases hmem with
    | inl hbefore => exact hok.before line hbefore
    | inr heq =>
      rw [heq]
      exact hline
  . unfold TextPage.flat FlatText.insert
    rw [flatten_append, flatten_singleton, take_zero, append_nil, drop_zero, append_assoc]

theorem insertStr_bs_inside (h : txtdoc.Shows page n limit) (hok : page.Ok) (hinside : page.pos ≠ 0)
    : ∃ page', (insertStr chars txtdoc [chBs, 0] 1).Shows page' (n - page.flat.backspaceBytes chars) limit ∧ page'.Ok
        ∧ page.flat.backspaceBytes chars ≤ page.flat.head.length
        ∧ page'.flat = page.flat.backspace (page.flat.backspaceBytes chars) := by
  have hpos := inside_le hok.pos
  have hhead : page.cur.take page.pos ≠ [] := by
    intro hnil
    have hlen := congrArg List.length hnil
    rw [length_take_of_le hpos] at hlen
    exact hinside hlen
  have hbytes : page.flat.backspaceBytes chars = chars.getLastMCharLen (page.cur.take page.pos) := by
    unfold FlatText.backspaceBytes
    rw [TextPage.lineHead_eq hok, if_pos hhead]
  have hnul : (0 : UInt8) ∉ page.cur.take page.pos := fun hmem => (has_node h.has).noNul (mem_of_mem_take hmem)
  have hchar := chars.last _ hhead hnul
  rw [← hbytes, length_take_of_le hpos] at hchar
  have hnosep : lnsep ∉ page.cur.take (page.pos - page.flat.backspaceBytes chars) := by
    intro hmem
    apply shaped_take hok.cur hok.pos
    exact mem_of_mem_take (by rw [take_take, Nat.min_eq_left (Nat.sub_le _ _)]; exact hmem)
  have hdrop := shaped_drop hok.cur hok.pos
  have hlen : (page.cur.take (page.pos - page.flat.backspaceBytes chars)).length = page.pos - page.flat.backspaceBytes chars :=
    length_take_of_le (by omega)
  refine ⟨{ page with
    cur := page.cur.take (page.pos - page.flat.backspaceBytes chars) ++ page.cur.drop page.pos
    pos := page.pos - page.flat.backspaceBytes chars }, ?_,
    ⟨hok.before, shaped_append hdrop hnosep, hok.after, ?_⟩, ?_, ?_⟩
  . rw [insertStr_eq chars h.selection, h.length, editNode_bs (h.focus 0) (has_node h.has) hpos hinside, ← hbytes]
    unfold insertPlain
    have hhas := has_removeString h.has hpos hchar.2 [chBs, 0]
    refine ⟨⟨hhas.nodes, hhas.curlen, hhas.limits⟩, ?_, ?_⟩
    . dsimp only
      rw [insertString_insert, h.insert]
      congr 1
      omega
    . dsimp only
      rw [insertString_selection, h.selection]
  . have hin := inside_append hdrop (page.cur.take (page.pos - page.flat.backspaceBytes chars))
    rw [hlen] at hin
    exact hin
  . have hheadLen : page.flat.head.length = page.before.flatten.length + page.pos := by
      unfold TextPage.flat
      rw [length_append, length_take_of_le hpos]
    omega
  unfold TextPage.flat FlatText.backspace
  have hsplit : page.before.flatten.length + (page.cur.take page.pos).length - page.flat.backspaceBytes chars
      = page.before.flatten.length + (page.pos - page.flat.backspaceBytes chars) := by
    rw [length_take_of_le hpos]
    omega
  have htake : (page.before.flatten ++ page.cur.take page.pos).take
        (page.before.flatten.length + (page.cur.take page.pos).length - page.flat.backspaceBytes chars)
      = page.before.flatten ++ page.cur.take (page.pos - page.flat.backspaceBytes chars) := by
    rw [hsplit, take_length_add_append, take_take, Nat.min_eq_left (Nat.sub_le _ _)]
  have hnew : (page.cur.take (page.pos - page.flat.backspaceBytes chars) ++ page.cur.drop page.pos).take
      (page.pos - page.flat.backspaceBytes chars) = page.cur.take (page.pos - page.flat.backspaceBytes chars) := by
    conv => lhs; arg 1; rw [← hlen]
    exact take_left
  have hold : (page.cur.take (page.pos - page.flat.backspaceBytes chars) ++ page.cur.drop page.pos).drop
      (page.pos - page.flat.backspaceBytes chars) = page.cur.drop page.pos := by
    conv => lhs; arg 1; rw [← hlen]
    exact drop_left
  unfold TextPage.flat at htake hnew hold
  rw [length_append, htake, hnew, hold]

end Pages

end TextDoc

end MiniGui
