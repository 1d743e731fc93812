import MiniGui.Control.TextKeys

namespace MiniGui.TextDoc

open List

section Pages

variable (chars : CharLengths) {txtdoc : TextDoc} {page : TextPage} {n : Int} {limit : TextLimit}

theorem insertStr_del (h : txtdoc.Shows page n limit) (hok : page.Ok)
    (hnext : ∀ next, page.after.head? = some next → StartsSep (page.cur.drop page.pos) → NextOk n limit.hardLimit next)
    : ∃ page' n', (insertStr chars txtdoc [chDel, 0] 1).Shows page' n' limit ∧ page'.Ok
        ∧ (DelOk n limit.hardLimit (page.cur.drop page.pos) page.after
          → page'.flat = page.flat.delete (page.flat.deleteBytes chars))
        ∧ ((∀ next, page.after.head? = some next → page.cur.drop page.pos = chRn → StartsSep next)
          → n' - page'.size = n - page.size)
        ∧ n' ≤ n := by
  obtain ⟨cur', after', n', hhas, hpos, hdeleted, hremoved, hcount, hle, hinsert, hselection⟩ :=
    has_editNode_del chars h.has (h.focus 0) [chDel, 0] rfl (Nat.le_add_left page.after.length page.before.length)
      hok.cur hok.after hok.pos hnext
  have hinsert' := hinsert (by rw [h.insert]; exact Nat.le_succ _)
  refine ⟨⟨page.before, cur', after', page.pos⟩, n', ⟨?_, ?_, ?_⟩,
    ⟨hok.before, hdeleted.line, hdeleted.lines, hdeleted.inside⟩, ?_, ?_, hle⟩
  . rw [insertStr_eq chars h.selection, h.length]
    exact ⟨hhas.nodes, hhas.curlen, hhas.limits⟩
  . rw [insertStr_eq chars h.selection, h.length]
    dsimp only
    rw [hinsert', hpos, h.insert]
  . rw [insertStr_eq chars h.selection, h.length]
    exact hselection h.selection
  . intro hdel
    have hbytes : page.flat.deleteBytes chars = FlatText.lineDeleteBytes chars (page.cur.drop page.pos) := by
      unfold FlatText.deleteBytes
      rw [TextPage.firstLine_eq hok]
    have htail := hremoved (by
      intro next hhead hsep hnextSep
      cases hafter : page.after with
      | nil =>
        rw [hafter] at hhead
        cases hhead
      | cons line after =>
        rw [hafter] at hdel hhead
        cases hhead
        exact (hdel hsep).2 hnextSep)
    unfold Removed at htail
    unfold FlatText.delete
    rw [hbytes]
    unfold TextPage.flat
    rw [hdeleted.head, htail]
  intro hpair
  have hsize := hcount hpair
  rw [TextPage.size_eq, TextPage.size_eq]
  dsimp only
  omega

theorem has_insertLines {before after : List (List UInt8)} {newnode : Nat} {line left : List UInt8}
    (h : txtdoc.Has (before ++ after) n limit)
    (hnewnode : newnode + 1 = before.length) (hline : lnsep ∉ line) (hnul : (0 : UInt8) ∉ line ++ left)
    : ∃ doc added last, insertLines txtdoc newnode line left = (doc, newnode + added.length, last)
        ∧ doc.Has (before ++ added ++ after) (n + added.flatten.length) limit ∧ (∀ line ∈ added, IsLine line) ∧ lnsep ∉ last
        ∧ added.flatten ++ last = line ++ left
        ∧ (newnode < txtdoc.insert.curNode → doc.insert = ⟨txtdoc.insert.curNode + added.length,
          txtdoc.insert.posLnOff⟩) := by
  induction left generalizing txtdoc before newnode line n with
  | nil =>
    refine ⟨txtdoc, [], line, rfl, ?_, ?_, hline, by simp, fun _ => rfl⟩
    . rw [append_nil]
      simpa using h
    . intro line hmem
      cases hmem
  | cons byte left ih =>
    unfold insertLines
    by_cases hsep : byte = lnsep
    . rw [if_pos hsep]
      have hnul' : (0 : UInt8) ∉ line ++ [byte] := by
        intro hmem
        apply hnul
        rw [append_cons line]
        exact mem_append_left _ hmem
      have hleft : (0 : UInt8) ∉ [] ++ left := fun hmem => hnul (mem_append_right _ (mem_cons_of_mem _ hmem))
      have hadded := has_addNode h hnewnode hnul'
      rw [append_cons before] at hadded
      have hpre : newnode + 1 + 1 = (before ++ [line ++ [byte]]).length := by
        rw [length_append, length_singleton, hnewnode]
      obtain ⟨doc, added, last, hrun, hhas, hlines, hlast, hflat, hinsert⟩ := ih hadded hpre (by simp) hleft
      refine ⟨doc, (line ++ [byte]) :: added, last, ?_, ?_, ?_, hlast, ?_, ?_⟩
      . rw [hrun, length_cons]
        congr 2
        omega
      . rw [flatten_cons, length_append]
        rw [append_assoc before, singleton_append] at hhas
        have hcount : n + ((line ++ [byte]).length : Int) + added.flatten.length
            = n + (((line ++ [byte]).length + added.flatten.length : Nat) : Int) := by
          omega
        rw [hcount] at hhas
        exact hhas
      . intro line' hmem
        rcases mem_cons.mp hmem with rfl | hmem
        . exact ⟨line, by rw [hsep], hline⟩
        . exact hlines line' hmem
      . rw [flatten_cons, append_assoc, hflat, nil_append, append_assoc, singleton_append]
      intro hlt
      have hmark : (txtdoc.txtAddNode (line ++ [byte]) newnode).insert = ⟨txtdoc.insert.curNode + 1,
        txtdoc.insert.posLnOff⟩ :=
        if_pos hlt
      rw [hinsert (by rw [hmark]; exact Nat.succ_lt_succ hlt), hmark, length_cons]
      rw [Nat.add_assoc, Nat.add_comm 1]
    rw [if_neg hsep]
    have hline' : lnsep ∉ line ++ [byte] := by
      rw [mem_append, mem_singleton]
      rintro (hmem | heq)
      . exact hline hmem
      . exact hsep heq.symm
    have hnul' : (0 : UInt8) ∉ line ++ [byte] ++ left := by
      rw [append_assoc, singleton_append]
      exact hnul
    obtain ⟨doc, added, last, hrun, hhas, hlines, hlast, hflat, hinsert⟩ := ih h hnewnode hline' hnul'
    refine ⟨doc, added, last, hrun, hhas, hlines, hlast, ?_, hinsert⟩
    rw [hflat, append_assoc, singleton_append]

def pasted (newtext : List UInt8) (len : Nat) : List UInt8 :=
  (newtext.take len).takeWhile (· ≠ 0)

def pastedSep (newtext : List UInt8) (len : Nat) : List UInt8 :=
  if [carriageReturn] <:+ (pasted newtext len).takeWhile (· ≠ lnsep) then chRn else [lnsep]

structure PasteRuns (n limit : Int) (tail newtext : List UInt8) (len : Nat) : Prop where
  first : Plain newtext ((pasted newtext len).takeWhile (· ≠ lnsep))
  firstRoom : Room n limit ((pasted newtext len).takeWhile (· ≠ lnsep))
  last : lnsep ∈ pasted newtext len →
    Plain (newtext.drop ((pasted newtext len).length - ((pasted newtext len).rtakeWhile (· ≠ lnsep)).length))
      ((pasted newtext len).rtakeWhile (· ≠ lnsep))
  lastRoom : lnsep ∈ pasted newtext len → (pasted newtext len).rtakeWhile (· ≠ lnsep) = [] ∨ limit = -1
    ∨ n + tail.length + (pasted newtext len).length + (pastedSep newtext len).length ≤ limit + 1

def PasteOk (n limit : Int) (tail newtext : List UInt8) (len : Nat) : Prop :=
  PasteRuns n limit tail newtext len ∧ (lnsep ∈ pasted newtext len
    → ¬[carriageReturn] <:+ (pasted newtext len).takeWhile (· ≠ lnsep))

theorem pasted_noNul {newtext : List UInt8} {len : Nat} : (0 : UInt8) ∉ pasted newtext len := by
  intro hmem
  have hne := mem_takeWhile_imp hmem
  revert hne
  decide

theorem takeWhile_sep {text : List UInt8} (hsep : lnsep ∈ text)
    : ∃ rest, text = text.takeWhile (· ≠ lnsep) ++ lnsep :: rest
      ∧ text.drop ((text.takeWhile (· ≠ lnsep)).length + 1) = rest := by
  induction text with
  | nil => cases hsep
  | cons byte text ih =>
    by_cases heq : byte = lnsep
    . refine ⟨text, ?_, ?_⟩
      . rw [heq]
        rfl
      . rw [heq]
        rfl
    have hmem : lnsep ∈ text := by
      rcases mem_cons.mp hsep with hsame | hmem
      . exact absurd hsame.symm heq
      . exact hmem
    obtain ⟨rest, htext, hdrop⟩ := ih hmem
    have hwhile : (byte :: text).takeWhile (· ≠ lnsep) = byte :: text.takeWhile (· ≠ lnsep) :=
      takeWhile_cons_of_pos (by simpa using heq)
    refine ⟨rest, ?_, ?_⟩
    . rw [hwhile, cons_append, ← htext]
    . rw [hwhile]
      exact hdrop

theorem not_mem_takeWhile {text : List UInt8} : lnsep ∉ text.takeWhile (· ≠ lnsep) := by
  intro hmem
  have hne := mem_takeWhile_imp hmem
  revert hne
  decide

theorem isRnSep_before {newtext line more : List UInt8} (hnewtext : newtext = line ++ lnsep :: more)
    : line ≠ [] ∧ isRnSep (newtext.drop (line.length - 1)) ↔ [carriageReturn] <:+ line := by
  constructor
  . rintro ⟨hne, hrn⟩
    obtain ⟨front, byte, rfl⟩ := (eq_nil_or_concat line).resolve_left hne
    rw [concat_eq_append] at hnewtext ⊢
    rw [hnewtext, concat_eq_append, length_append, length_singleton, Nat.add_sub_cancel, append_assoc,
      drop_left] at hrn
    have heq : byte = carriageReturn := (List.cons.inj hrn).1
    rw [heq]
    exact suffix_append _ _
  rintro ⟨front, rfl⟩
  constructor
  . simp
  . rw [hnewtext, length_append, length_singleton, Nat.add_sub_cancel, append_assoc, drop_left]
    rfl

theorem pasted_split (newtext : List UInt8) (len : Nat) : ∃ more, newtext = pasted newtext len ++ more := by
  have hprefix : pasted newtext len <+: newtext := (List.takeWhile_prefix _).trans (List.take_prefix _ _)
  obtain ⟨more, hmore⟩ := hprefix
  exact ⟨more, hmore.symm⟩

theorem insertText_page {newtext : List UInt8} {len : Nat} (h : txtdoc.Shows page n limit) (hok : page.Ok)
    (hpaste : PasteRuns n limit.hardLimit (page.cur.drop page.pos) newtext len)
    : ∃ page' n' text, (insertText chars txtdoc newtext len).Shows page' n' limit ∧ page'.Ok
      ∧ page'.flat = page.flat.insert text
        ∧ ((lnsep ∈ pasted newtext len → ¬[carriageReturn] <:+ (pasted newtext len).takeWhile (· ≠ lnsep))
          → text = pasted newtext len)
        ∧ (lnsep ∉ pasted newtext len → n' = n + text.length)
        ∧ (lnsep ∈ pasted newtext len → n' = n + (page.cur.drop page.pos).length + text.length
          ∧ text.length + 1 = (pasted newtext len).length + (pastedSep newtext len).length) := by
  have hnul : (0 : UInt8) ∉ pasted newtext len := pasted_noNul
  have hlineNul : (0 : UInt8) ∉ (pasted newtext len).takeWhile (· ≠ lnsep) :=
    fun hmem => hnul ((List.takeWhile_prefix _).subset hmem)
  obtain ⟨page₁, h₁, hok₁, hflat₁, hbefore₁, hafter₁, hcur₁⟩ :=
    insertStr_text chars h hok hpaste.first hlineNul hpaste.firstRoom not_mem_takeWhile
  by_cases hsep : lnsep ∈ pasted newtext len
  . obtain ⟨rest, htext, hdrop⟩ := takeWhile_sep hsep
    obtain ⟨more, hmore⟩ := pasted_split newtext len
    have hlastPlain := hpaste.last hsep
    have hlastRoom := hpaste.lastRoom hsep
    have hlen : (pasted newtext len).length ≠ ((pasted newtext len).takeWhile (· ≠ lnsep)).length := by
      conv => lhs; rw [htext]
      rw [length_append, length_cons]
      omega
    unfold pastedSep at hlastRoom ⊢
    generalize hline : (pasted newtext len).takeWhile (· ≠ lnsep) = line at *
    have hmemory : newtext = line ++ lnsep :: (rest ++ more) := by
      conv => lhs; rw [hmore, htext]
      rw [append_assoc, cons_append]
    have hreturn := isRnSep_before hmemory
    generalize hrn : decide ([carriageReturn] <:+ line) = rn
    have hchoice : (if line ≠ [] ∧ isRnSep (newtext.drop (line.length - 1)) then
          insertStr chars (insertStr chars txtdoc newtext line.length) (chRn ++ [0]) 2
        else
          insertStr chars (insertStr chars txtdoc newtext line.length) [lnsep, 0] 1)
        = insertStr chars (insertStr chars txtdoc newtext line.length) ((if rn then chRn else [lnsep]) ++ [0])
            (if rn then chRn else [lnsep]).length := by
      cases rn with
      | false =>
        rw [if_neg (fun hand => of_decide_eq_false hrn (hreturn.mp hand))]
        rfl
      | true =>
        rw [if_pos (hreturn.mpr (of_decide_eq_true hrn))]
        rfl
    have hsepEq : (if [carriageReturn] <:+ line then chRn else [lnsep]) = if rn then chRn else [lnsep] := by
      rw [← hrn]
      simp only [decide_eq_true_eq]
    rw [hsepEq] at hlastRoom ⊢
    obtain ⟨page₂, n₂, h₂, hok₂, hflat₂, hbefore₂, hcur₂, hafter₂, hpos₂, hn₂⟩ := insertStr_sep chars h₁ hok₁ rn
    have hnode : (insertStr chars txtdoc newtext line.length).insert.curNode + 1 = page₂.before.length := by
      rw [h₁.insert, hbefore₂, length_append, length_singleton]
    have hrest : (0 : UInt8) ∉ [] ++ rest := by
      intro hmem
      rw [htext] at hnul
      exact hnul (mem_append_right _ (mem_cons_of_mem _ hmem))
    obtain ⟨doc, added, last, hrun, hhas, hlines, hlast, hflat, hinsert⟩ :=
      has_insertLines h₂.has hnode not_mem_nil hrest
    have hmark := hinsert (by rw [h₂.insert]; exact Nat.lt_of_succ_le (Nat.le_of_eq hnode))
    rw [h₂.insert] at hmark
    -- what is behind the last separator
    have hlines' : ∀ l ∈ (line ++ [lnsep]) :: added, IsLine l := by
      intro l hmem
      rcases mem_cons.mp hmem with rfl | hmem
      . exact ⟨line, rfl, by rw [← hline]; exact not_mem_takeWhile⟩
      . exact hlines l hmem
    have htext' : pasted newtext len = ((line ++ [lnsep]) :: added).flatten ++ last := by
      rw [flatten_cons, append_assoc, hflat, nil_append, append_assoc, singleton_append]
      exact htext
    have hend : (pasted newtext len).rtakeWhile (· ≠ lnsep) = last := by
      rw [htext']
      exact TextPage.rtakeWhile_lines hlines' hlast
    rw [hend] at hlastPlain hlastRoom
    have hlastNul : (0 : UInt8) ∉ last := fun hmem => hnul (by rw [htext']; exact mem_append_right _ hmem)
    have hshows : TextDoc.Shows { doc with selection := none } ⟨page₂.before ++ added, page₂.cur, page₂.after, page₂.pos⟩
        (n₂ + added.flatten.length) limit := by
      refine ⟨⟨hhas.nodes, hhas.curlen, hhas.limits⟩, ?_, rfl⟩
      rw [hmark, length_append]
    have hok₃ : TextPage.Ok ⟨page₂.before ++ added, page₂.cur, page₂.after, page₂.pos⟩ := by
      refine ⟨?_, hok₂.cur, hok₂.after, hok₂.pos⟩
      intro l hmem
      rcases mem_append.mp hmem with hmem | hmem
      . exact hok₂.before l hmem
      . exact hlines l hmem
    have hroom : Room (n₂ + added.flatten.length) limit.hardLimit last := by
      rcases hlastRoom with hnil | hnone | hle
      . exact .inl hnil
      . exact .inr (.inl hnone)
      right
      right
      have hsize := congrArg List.length htext'
      rw [flatten_cons, length_append, length_append, length_append, length_singleton] at hsize
      rw [hn₂, hcur₁]
      omega
    obtain ⟨page', h', hok', hflat', -, -, -⟩ := insertStr_text chars hshows hok₃ hlastPlain hlastNul hroom hlast
    have hcall : insertText chars txtdoc newtext len
        = insertStr chars { doc with selection := none } (newtext.drop ((pasted newtext len).length - last.length)) last.length := by
      have hfold : (newtext.take len).takeWhile (· ≠ 0) = pasted newtext len := rfl
      unfold insertText
      dsimp only
      rw [hfold, hline, if_neg hlen.symm, hchoice, hdrop, hrun]
      have hcurrent : setCurrentNode { doc with selection := none }
          ((insertStr chars txtdoc newtext line.length).insert.curNode + added.length + 1) = { doc with selection := none } := by
        unfold setCurrentNode
        rw [if_pos]
        rw [hmark, ← hnode]
        dsimp only
        omega
      exact congrArg (fun current => insertStr chars current
        (newtext.drop ((pasted newtext len).length - last.length)) last.length) hcurrent
    rw [hcall]
    have hhead : (TextPage.flat ⟨page₂.before ++ added, page₂.cur, page₂.after, page₂.pos⟩)
        = ⟨page₂.flat.head ++ added.flatten, page₂.flat.rest⟩ := by
      unfold TextPage.flat
      rw [hpos₂, take_zero, flatten_append, append_nil, append_nil]
    refine ⟨page', _, line ++ (if rn then chRn else [lnsep]) ++ added.flatten ++ last, h', hok', ?_, ?_,
      fun hnot => absurd hsep hnot, ?_⟩
    . rw [hflat', hhead, hflat₂, hflat₁]
      unfold FlatText.insert
      simp only [append_assoc]
    . intro hno
      rw [← hsepEq, if_neg (hno hsep), htext', flatten_cons]
    intro _
    have hsize := congrArg List.length htext'
    rw [flatten_cons, length_append, length_append, length_append, length_singleton] at hsize
    rw [hn₂, hcur₁, length_append, length_append, length_append]
    omega
  . have hall : (pasted newtext len).takeWhile (· ≠ lnsep) = pasted newtext len := by
      rw [takeWhile_eq_self_iff]
      intro byte hmem
      simp only [ne_eq, decide_not, Bool.not_eq_eq_eq_not, Bool.not_true, decide_eq_false_iff_not]
      rintro rfl
      exact hsep hmem
    have hcall : insertText chars txtdoc newtext len = insertStr chars txtdoc newtext ((pasted newtext len).takeWhile (· ≠ lnsep)).length := by
      unfold insertText
      exact if_pos (congrArg List.length hall)
    rw [hcall]
    rw [hall] at hflat₁
    refine ⟨page₁, _, pasted newtext len, h₁, hok₁, hflat₁, fun _ => rfl, ?_, fun hmem => absurd hmem hsep⟩
    intro _
    rw [hall]

end Pages

end MiniGui.TextDoc
