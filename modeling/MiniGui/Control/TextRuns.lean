import MiniGui.Control.TextLimit
import MiniGui.Control.TextRefine

namespace MiniGui

open List

namespace TextDoc

section Pages

variable {txtdoc : TextDoc} {page : TextPage} {n : Int} {limit : TextLimit}

theorem has_select {lines : List (List UInt8)} (h : TextDoc.Has { txtdoc with selection := none } lines n limit)
    : txtdoc.Has lines n limit :=
  ⟨h.nodes, h.curlen, h.limits⟩

theorem has_lines {lines : List (List UInt8)} (h : txtdoc.Has lines n limit) : txtdoc.lines = lines := by
  have hnodes := h.nodes
  unfold TextDoc.lines
  generalize txtdoc.queue = queue at hnodes
  clear h
  induction hnodes with
  | nil => rfl
  | cons hnode _ ih => rw [map_cons, hnode.text, ih]

theorem has_total {lines : List (List UInt8)} (h : txtdoc.Has lines n limit) : txtdoc.total = lines.flatten.length :=
  (has_txtlens h).symm

theorem getD_mid (before after : List (List UInt8)) (cur : List UInt8)
    : (before ++ cur :: after).getD before.length [] = cur := by
  rw [getD_append_right _ _ _ _ (Nat.le_refl _), Nat.sub_self]
  rfl

theorem shows_page (h : TextDoc.Shows { txtdoc with selection := none } page n limit) : txtdoc.page = page := by
  have hlines : txtdoc.lines = page.before ++ page.cur :: page.after := has_lines (has_select h.has)
  have hinsert : txtdoc.insert = ⟨page.before.length, page.pos⟩ := h.insert
  have hdrop : (page.before ++ page.cur :: page.after).drop (page.before.length + 1) = page.after := by
    rw [drop_length_add_append]
    rfl
  unfold TextDoc.page
  rw [hlines, hinsert, take_left, getD_mid, hdrop]

theorem kept_of_shows (h : TextDoc.Shows { txtdoc with selection := none } page n limit) (hok : page.Ok)
    (hcount : n = page.size)
    (hselection : ∀ mark, txtdoc.selection = some mark → MarkOk page.lines mark)
    (hlimit : limit.hardLimit = -1 ∨ n ≤ limit.hardLimit) : txtdoc.Kept := by
  have hpage := shows_page h
  obtain rfl : txtdoc.curlen = n := h.has.curlen
  obtain rfl : txtdoc.limits = limit := h.has.limits
  constructor
  . rw [hpage]
    exact h
  . rw [hpage]
    exact hok
  . rw [hpage]
    exact hselection
  . rw [hpage, hcount]
  . exact hlimit

theorem kept_of_shows_none (h : txtdoc.Shows page n limit) (hok : page.Ok) (hcount : n = page.size)
    (hlimit : limit.hardLimit = -1 ∨ n ≤ limit.hardLimit) : txtdoc.Kept := by
  have hshows : TextDoc.Shows { txtdoc with selection := none } page n limit := ⟨⟨h.has.nodes, h.has.curlen,
    h.has.limits⟩, h.insert, rfl⟩
  refine kept_of_shows hshows hok hcount ?_ hlimit
  intro mark hmark
  rw [h.selection] at hmark
  cases hmark

theorem Kept.lines (h : txtdoc.Kept) : txtdoc.lines = txtdoc.page.lines :=
  has_lines (has_select h.shows.has)

theorem Kept.limited (h : txtdoc.Kept) : txtdoc.Limited := by
  have htotal : txtdoc.total = txtdoc.page.size := has_total (has_select h.shows.has)
  constructor
  . rw [htotal, h.count]
  . intro hset
    rw [htotal, ← h.count]
    exact h.limit.resolve_left hset

theorem shows_of_markOk {lines : List (List UInt8)} (hnodes : Forall₂ TextNode.Holds txtdoc.queue lines)
    (hlines : LinesOk lines) (hmark : MarkOk lines txtdoc.insert)
    : ∃ page, TextDoc.Shows { txtdoc with selection := none } page txtdoc.curlen txtdoc.limits ∧ page.Ok
      ∧ page.lines = lines := by
  obtain ⟨before, cur, after, rfl, hnode, hinside⟩ := hmark
  obtain ⟨hbefore, hcur, hafter⟩ := (linesOk_append (cons_ne_nil _ _)).mp hlines
  refine ⟨⟨before, cur, after, txtdoc.insert.posLnOff⟩, ⟨⟨hnodes, rfl, rfl⟩, ?_, rfl⟩,
    ⟨hbefore, hcur, hafter, hinside⟩, rfl⟩
  rw [← hnode]

theorem markOk_of_isMark {lines : List (List UInt8)} {mark : TextMark} (hmark : isMark lines mark) : MarkOk lines mark := by
  obtain ⟨hlt, hpos⟩ := hmark
  have hget : lines.getD mark.curNode [] = lines[mark.curNode] := getD_eq_getElem _ _ hlt
  refine ⟨lines.take mark.curNode, lines[mark.curNode], lines.drop (mark.curNode + 1), ?_, ?_, ?_⟩
  . rw [getElem_cons_drop, take_append_drop]
  . rw [length_take_of_le (by omega)]
  rw [hget] at hpos
  unfold Inside
  split
  . omega
  next hne =>
    rcases hpos with hin | ⟨hlast, -⟩
    . exact hin
    . exact absurd (drop_eq_nil_iff.mpr (by omega)) hne

theorem size_flat (page : TextPage) : page.size = page.flat.head.length + page.flat.rest.length := by
  unfold TextPage.size
  rw [← TextPage.flat_text, length_append]

theorem textNodes_holds {line left : List UInt8} (hline : lnsep ∉ line) (hnul : (0 : UInt8) ∉ line ++ left)
    : ∃ lines, Forall₂ TextNode.Holds (textNodes line left) lines ∧ LinesOk lines ∧ lines ≠ []
      ∧ lines.flatten = line ++ left := by
  induction left generalizing line with
  | nil =>
    rw [append_nil] at hnul
    exact ⟨[line], .cons (.create hnul) .nil, ⟨hline, trivial⟩, cons_ne_nil _ _, by simp⟩
  | cons byte left ih =>
    unfold textNodes
    by_cases hsep : byte = lnsep
    . rw [if_pos hsep]
      have hleft : (0 : UInt8) ∉ [] ++ left := fun hmem => hnul (mem_append_right _ (mem_cons_of_mem _ hmem))
      obtain ⟨lines, hnodes, hlines, hne, hflat⟩ := ih not_mem_nil hleft
      have hnode : (0 : UInt8) ∉ line ++ [byte] := by
        intro hmem
        apply hnul
        rw [append_cons line]
        exact mem_append_left _ hmem
      refine ⟨(line ++ [byte]) :: lines, .cons (.create hnode) hnodes, ⟨?_, hlines⟩, cons_ne_nil _ _, ?_⟩
      . unfold Shaped
        rw [if_neg hne, hsep]
        exact ⟨line, rfl, hline⟩
      . rw [flatten_cons, hflat, nil_append, append_assoc, singleton_append]
    rw [if_neg hsep]
    have hline' : lnsep ∉ line ++ [byte] := by
      rw [mem_append, mem_singleton]
      rintro (hmem | heq)
      . exact hline hmem
      . exact hsep heq.symm
    have hnul' : (0 : UInt8) ∉ line ++ [byte] ++ left := by
      rw [append_assoc, singleton_append]
      exact hnul
    obtain ⟨lines, hnodes, hlines, hne, hflat⟩ := ih hline' hnul'
    refine ⟨lines, hnodes, hlines, hne, ?_⟩
    rw [hflat, append_assoc, singleton_append]

theorem strOf_noNul {content : List UInt8} : (0 : UInt8) ∉ strOf content := by
  intro hmem
  have hne := mem_takeWhile_imp hmem
  revert hne
  decide

theorem markOk_head {lines : List (List UInt8)} (hlines : LinesOk lines) (hne : lines ≠ []) : MarkOk lines ⟨0, 0⟩ := by
  cases lines with
  | nil => exact absurd rfl hne
  | cons cur after => exact ⟨[], cur, after, rfl, rfl, inside_append hlines.1 []⟩

theorem markOk_last {queue : List TextNode} {lines : List (List UInt8)}
    (hnodes : Forall₂ TextNode.Holds queue lines) (hne : lines ≠ [])
    : MarkOk lines ⟨queue.length - 1, (queue.getLastD (.create [])).txtlen⟩ := by
  obtain ⟨before, last, rfl⟩ := (eq_nil_or_concat lines).resolve_left hne
  rw [concat_eq_append] at hnodes ⊢
  have hlen : queue.length = before.length + 1 := by
    rw [hnodes.length_eq, length_append, length_singleton]
  have hnode := holds_getD hnodes (.create [])
  have hlast : queue.getLastD (.create []) = queue.getD before.length (.create []) := by
    rw [getLastD_eq_getLast?, getLast?_eq_getElem?, hlen, Nat.add_sub_cancel, getD_eq_getElem?_getD]
  refine ⟨before, last, [], rfl, ?_, ?_⟩
  . dsimp only
    omega
  . dsimp only
    rw [hlast, hnode.txtlen]
    exact Nat.le_refl _

theorem setText_kept {chars : CharLengths} {content : List UInt8} {bLast : Bool}
    (hfits : txtdoc.hardLimit = -1 ∨ (strOf content).length ≤ txtdoc.hardLimit)
    : ∃ txtdoc', setText chars txtdoc content bLast = some txtdoc' ∧ txtdoc'.Kept ∧ txtdoc'.maxText = txtdoc.maxText := by
  have hshort : ¬(txtdoc.hardLimit ≠ -1 ∧ txtdoc.hardLimit < (strOf content).length) := by omega
  have hnul : (0 : UInt8) ∉ [] ++ strOf content := strOf_noNul
  obtain ⟨lines, hnodes, hlines, hne, hflat⟩ := textNodes_holds not_mem_nil hnul
  unfold setText
  rw [if_neg hshort, Option.map_some]
  refine ⟨_, rfl, ?_, rfl⟩
  have htotal : ((textNodes [] (strOf content)).map TextNode.txtlen).sum = (strOf content).length := by
    have hhas : TextDoc.Has { txtdoc with queue := textNodes [] (strOf content) } lines txtdoc.curlen txtdoc.limits := ⟨hnodes, rfl, rfl⟩
    have hsum := has_total hhas
    rw [hflat] at hsum
    exact hsum
  have hmark : MarkOk lines (if bLast then ⟨(textNodes [] (strOf content)).length - 1,
      ((textNodes [] (strOf content)).getLastD (.create [])).txtlen⟩ else ⟨0, 0⟩) := by
    split
    . exact markOk_last hnodes hne
    . exact markOk_head hlines hne
  obtain ⟨page, hshows, hok, hpage⟩ := @shows_of_markOk { txtdoc with
    queue := textNodes [] (strOf content)
    insert := if bLast then ⟨(textNodes [] (strOf content)).length - 1,
      ((textNodes [] (strOf content)).getLastD (.create [])).txtlen⟩ else ⟨0, 0⟩
    selection := none
    curlen := ((textNodes [] (strOf content)).map TextNode.txtlen).sum } lines hnodes hlines hmark
  refine kept_of_shows_none hshows hok ?_ ?_
  . unfold TextPage.size
    rw [hpage, hflat]
    exact congrArg _ htotal
  . dsimp only
    rw [htotal]
    exact hfits

section Keys

variable (chars : CharLengths) {ch : TypedChar} {selection : TextMark}

structure PageKept (txtdoc : TextDoc) (page : TextPage) (n : Int) (limit : TextLimit) : Prop where
  shows : txtdoc.Shows page n limit
  ok : page.Ok
  count : n = page.size

theorem PageKept.kept (h : PageKept txtdoc page n limit) (hlimit : limit.hardLimit = -1 ∨ n ≤ limit.hardLimit)
    : txtdoc.Kept :=
  kept_of_shows_none h.shows h.ok h.count hlimit

theorem shows_maxText (h : txtdoc.Shows page n limit) : txtdoc.maxText = limit.maxText :=
  congrArg TextLimit.maxText h.has.limits

theorem plain_char (hsep : lnsep ∉ ch.bytes) (hnul : (0 : UInt8) ∉ ch.bytes) (hbs : ch.bytes ≠ [chBs])
    (hdel : ch.bytes ≠ [chDel]) : Plain (ch.bytes ++ [0]) ch.bytes where
  starts := take_left
  noSep := by
    intro heq
    rw [heq] at hsep
    exact hsep (mem_singleton_self _)
  noCommand := ⟨hbs, hdel⟩
  noReturn := by
    intro hlen hreturn
    obtain ⟨byte, heq⟩ := length_eq_one_iff.mp hlen
    rw [heq] at hreturn
    exact absurd (List.cons.inj (List.cons.inj hreturn).2).1 (by decide)
  noPair := by
    intro _ hpair
    rw [takeWhile_ne_nul hnul] at hpair
    rw [hpair] at hsep
    exact hsep (by decide)

theorem char_kept (h : PageKept txtdoc page n limit) (hlimit : limit.hardLimit = -1 ∨ n ≤ limit.hardLimit)
    (hroom : limit.hardLimit = -1 ∨ n + ch.bytes.length ≤ limit.hardLimit ∨ ch.bytes = [chBs] ∨ ch.bytes = [chDel])
    (hchar : CharOk page ch)
    : ∃ page' n', PageKept (insertStr chars txtdoc (ch.bytes ++ [0]) ch.bytes.length) page' n' limit
        ∧ (limit.hardLimit = -1 ∨ n' ≤ limit.hardLimit) := by
  obtain ⟨hshows, hok, hcount⟩ := h
  obtain ⟨hsep, hbs, hdel⟩ := hchar
  have hsize := size_flat page
  rcases ch.proper with heq | ⟨hne, hnotSep, hnul⟩
  . have hrest := hsep heq
    obtain ⟨page', n', hshows', hok', hflat', -, -, -, -, hn'⟩ := insertStr_sep chars hshows hok false
    have hdrop : page.cur.drop page.pos = [] := by
      unfold TextPage.flat at hrest
      exact (append_eq_nil_iff.mp hrest).1
    rw [hdrop] at hn'
    rw [heq] at hroom ⊢
    refine ⟨page', n', ⟨hshows', hok', ?_⟩, ?_⟩
    . rw [size_flat, hflat', hn']
      unfold FlatText.insert
      simp only [Bool.false_eq_true, if_false, length_append, List.length_nil]
      omega
    rw [hn']
    simp only [Bool.false_eq_true, if_false, List.length_nil]
    rcases hroom with hnone | hle | hcmd | hcmd
    . exact .inl hnone
    . right
      omega
    . cases hcmd
    . cases hcmd
  by_cases hback : ch.bytes = [chBs]
  . rw [hback]
    by_cases hhead : page.pos = 0
    . rcases eq_nil_or_concat page.before with hfirst | ⟨before, prev, hbefore⟩
      . obtain ⟨hcall, -⟩ := insertStr_bs_first chars hshows hhead hfirst
        have hsame : insertStr chars txtdoc ([chBs] ++ [0]) ([chBs].length : Nat) = txtdoc := hcall
        rw [hsame]
        exact ⟨page, n, ⟨hshows, hok, hcount⟩, hlimit⟩
      rw [concat_eq_append] at hbefore
      obtain ⟨hrn, hcmdBs, hcmdDel⟩ := hbs hback hhead prev (by rw [hbefore, getLast?_concat])
      obtain ⟨body, hprev, hok', hshows'⟩ :=
        insertStr_bs_join chars hshows hok hhead hbefore hrn hcmdBs hcmdDel (by omega)
      refine ⟨_, _, ⟨hshows', hok', ?_⟩, by omega⟩
      rw [TextPage.size_eq] at hcount ⊢
      rw [hbefore, hprev] at hcount
      simp only [flatten_append, flatten_cons, flatten_nil, length_append,
        length_singleton, append_nil]
        at hcount ⊢
      omega
    obtain ⟨page', hshows', hok', hle, hflat'⟩ := insertStr_bs_inside chars hshows hok hhead
    refine ⟨page', _, ⟨hshows', hok', ?_⟩, by omega⟩
    rw [size_flat, hflat']
    unfold FlatText.backspace
    dsimp only
    rw [length_take]
    omega
  by_cases hforward : ch.bytes = [chDel]
  . have hnext := hdel hforward
    rw [hforward]
    have hnextOk : ∀ next, page.after.head? = some next → StartsSep (page.cur.drop page.pos)
      → NextOk n limit.hardLimit next := by
      intro next hhead hstarts
      rcases (hnext next hhead).2 hstarts with hnextSep | ⟨hcmdBs, hcmdDel⟩
      . exact .inl hnextSep
      . exact .inr ⟨hcmdBs, hcmdDel, by omega⟩
    obtain ⟨page', n', hshows', hok', -, hcount', hless⟩ := insertStr_del chars hshows hok hnextOk
    have heq := hcount' (fun next hhead => (hnext next hhead).1)
    exact ⟨page', n', ⟨hshows', hok', by omega⟩, by omega⟩
  have hroom' : Room n limit.hardLimit ch.bytes := by
    rcases hroom with hnone | hle | hcmd | hcmd
    . exact .inr (.inl hnone)
    . exact .inr (.inr hle)
    . exact absurd hcmd hback
    . exact absurd hcmd hforward
  obtain ⟨page', hshows', hok', hflat', -, -, -⟩ :=
    insertStr_text chars hshows hok (plain_char hnotSep hnul hback hforward) hnul hroom' hnotSep
  refine ⟨page', _, ⟨hshows', hok', ?_⟩, ?_⟩
  . rw [size_flat, hflat']
    unfold FlatText.insert
    dsimp only
    rw [length_append]
    omega
  rcases hroom' with hnil | hnone | hle
  . exact absurd hnil hne
  . exact .inl hnone
  . exact .inr hle

theorem insertStr_command (hselection : txtdoc.selection = some selection) {newtext : List UInt8}
    (hcmd : newtext.getD 0 0 = chBs ∨ newtext.getD 0 0 = chDel)
    : insertStr chars txtdoc newtext 1 = unselected chars txtdoc selection := by
  unfold insertStr insertStringEx unselected
  rw [hselection]
  dsimp only
  rw [if_pos ⟨rfl, hcmd⟩]

theorem editNode_none {calls insertPos : Nat} {newtext : List UInt8} {len : Int}
    : editNode chars (calls + 1) txtdoc none insertPos newtext len = editNode chars (calls + 1) txtdoc none 0 newtext len := rfl

theorem insertStr_over (hselection : txtdoc.selection = some selection)
    (hshows : (unselected chars txtdoc selection).Shows page n limit)
    {newtext : List UInt8} {len : Int} (hcmd : ¬(len = 1 ∧ (newtext.getD 0 0 = chBs ∨ newtext.getD 0 0 = chDel)))
    : insertStr chars txtdoc newtext len = insertStr chars (unselected chars txtdoc selection) newtext len := by
  rw [insertStr_eq chars hshows.selection, hshows.length]
  have hlen : (deleteSelection chars txtdoc selection).1.queue.length = page.before.length + page.after.length + 1 := hshows.length
  unfold insertStr insertStringEx
  rw [hselection]
  dsimp only
  rw [if_neg hcmd, hlen, editNode_none]
  rfl

end Keys

section Selected

variable (chars : CharLengths) {ch : TypedChar} {selection : TextMark} {newtext : List UInt8} {len : Nat}

theorem pastedSep_pos : 1 ≤ (pastedSep newtext len).length := by
  unfold pastedSep
  split <;> decide

theorem pasted_kept (h : PageKept txtdoc page n limit) (hlimit : limit.hardLimit = -1 ∨ n ≤ limit.hardLimit)
    (hfits : PasteFits n limit.hardLimit page.flat.rest newtext len)
    : ∃ page' n', PageKept (insertText chars txtdoc newtext len) page' n' limit
      ∧ (limit.hardLimit = -1 ∨ n' ≤ limit.hardLimit) := by
  obtain ⟨hshows, hok, hcount⟩ := h
  obtain ⟨hfirst, hlast, hatEnd, hroom⟩ := hfits
  have hline : ((pasted newtext len).takeWhile (· ≠ lnsep)).length ≤ (pasted newtext len).length :=
    (List.takeWhile_prefix _).length_le
  have hsepPos : 1 ≤ (pastedSep newtext len).length := pastedSep_pos
  have hlong : (pasted newtext len).length ≤ pastedLength newtext len := by
    unfold pastedLength
    split <;> omega
  have hdrop : lnsep ∈ pasted newtext len → page.cur.drop page.pos = [] := by
    intro hsep
    have hrest := hatEnd hsep
    unfold TextPage.flat at hrest
    exact (append_eq_nil_iff.mp hrest).1
  have hruns : PasteRuns n limit.hardLimit (page.cur.drop page.pos) newtext len := by
    refine ⟨hfirst, ?_, hlast, ?_⟩
    . rcases hroom with hnone | hle
      . exact .inr (.inl hnone)
      . right
        right
        omega
    intro hsep
    have hlength : pastedLength newtext len = (pasted newtext len).length + (pastedSep newtext len).length - 1 := if_pos hsep
    rw [hdrop hsep]
    rcases hroom with hnone | hle
    . exact .inr (.inl hnone)
    right
    right
    rw [List.length_nil]
    omega
  obtain ⟨page', n', text, hshows', hok', hflat', htext, hno, hyes⟩ := insertText_page chars hshows hok hruns
  have hadded : n' = n + text.length ∧ text.length = pastedLength newtext len := by
    by_cases hsep : lnsep ∈ pasted newtext len
    . obtain ⟨hn', hlength⟩ := hyes hsep
      rw [hdrop hsep, List.length_nil] at hn'
      refine ⟨by omega, ?_⟩
      unfold pastedLength
      rw [if_pos hsep]
      omega
    . refine ⟨hno hsep, ?_⟩
      unfold pastedLength
      rw [if_neg hsep, htext (fun hmem => absurd hmem hsep)]
  refine ⟨page', n', ⟨hshows', hok', ?_⟩, ?_⟩
  . have hsize := size_flat page
    rw [size_flat, hflat', hadded.1]
    unfold FlatText.insert
    dsimp only
    rw [length_append]
    omega
  . rw [hadded.1, hadded.2]
    exact hroom

theorem unselected_kept (h : txtdoc.Kept) (hselection : txtdoc.selection = some selection)
    (hjoins : SelectionJoins txtdoc.page.lines (txtdoc.page.startMark selection) (txtdoc.page.endMark selection))
    : ∃ page' n', PageKept (unselected chars txtdoc selection) page' n' txtdoc.limits ∧ n' ≤ txtdoc.curlen
        ∧ (RestJoins txtdoc.page.lines (txtdoc.page.startMark selection) (txtdoc.page.endMark selection)
          → page'.flat.rest = txtdoc.page.lines.flatten.drop (markOffset txtdoc.page.lines (txtdoc.page.endMark selection))
            ∧ n' ≤ txtdoc.curlen - (markOffset txtdoc.page.lines (txtdoc.page.endMark selection)
              - markOffset txtdoc.page.lines (txtdoc.page.startMark selection))) := by
  have hmark := h.selection selection hselection
  have hle := startOffset_le h.ok hmark
  have hlimit := h.limit
  have hruns : SelectionRuns txtdoc.curlen txtdoc.hardLimit txtdoc.page.lines (txtdoc.page.startMark selection) (txtdoc.page.endMark selection) := by
    intro hlt hzero
    rcases hjoins hlt hzero with hstarts | ⟨hbs, hdel⟩
    . exact .inl hstarts
    . exact .inr ⟨hbs, hdel, by omega⟩
  obtain ⟨page', n', hshows, hok, hcount, hless, hhead, hrest, -⟩ := unselected_page chars h.shows h.ok hmark hruns
  have hcount' : n' = page'.size := by
    have hall := h.count
    omega
  refine ⟨page', n', ⟨⟨⟨hshows.has.nodes, hshows.has.curlen, hshows.has.limits⟩, hshows.insert, hshows.selection⟩,
    hok, hcount'⟩, hless, ?_⟩
  intro hjoin
  have htail := hrest hjoin
  refine ⟨htail, ?_⟩
  have hend := markOffset_le (endMark_ok h.ok hmark)
  have hsize := size_flat page'
  have htotal := h.count
  unfold TextPage.size at htotal
  rw [hhead, htail, length_take, length_drop] at hsize
  omega

theorem insertText_over (hselection : txtdoc.selection = some selection)
    (hshows : (unselected chars txtdoc selection).Shows page n limit)
    (hfirst : Plain newtext ((pasted newtext len).takeWhile (· ≠ lnsep)))
    : insertText chars txtdoc newtext len = insertText chars (unselected chars txtdoc selection) newtext len := by
  have hcmd : ¬((((pasted newtext len).takeWhile (· ≠ lnsep)).length : Int) = 1
      ∧ (newtext.getD 0 0 = chBs ∨ newtext.getD 0 0 = chDel)) := by
    rintro ⟨hone, hcmd⟩
    have hlen : ((pasted newtext len).takeWhile (· ≠ lnsep)).length = 1 := by omega
    obtain ⟨byte, heq⟩ := length_eq_one_iff.mp hlen
    obtain ⟨hbs, hdel⟩ := hfirst.noCommand
    have hstarts := hfirst.starts
    rw [heq] at hbs hdel hstarts
    cases newtext with
    | nil => cases hstarts
    | cons first rest =>
      have hbyte : first = byte := (List.cons.inj hstarts).1
      rw [hbyte] at hcmd
      rcases hcmd with hsame | hsame
      . exact hbs (congrArg (fun b => [b]) hsame)
      . exact hdel (congrArg (fun b => [b]) hsame)
  have hcall := insertStr_over chars hselection hshows hcmd
  have hfold : (newtext.take len).takeWhile (· ≠ 0) = pasted newtext len := rfl
  unfold insertText
  dsimp only
  rw [hfold, hcall]

end Selected

end Pages

section Run

variable (chars : CharLengths) {txtdoc : TextDoc} {call : TextCall} {calls : List TextCall}

theorem Kept.pageKept (h : txtdoc.Kept) (hnone : txtdoc.selection = none)
    : PageKept txtdoc txtdoc.page txtdoc.curlen txtdoc.limits :=
  ⟨⟨has_select h.shows.has, h.shows.insert, hnone⟩, h.ok, h.count⟩

theorem answers_of_maxText {txtdoc' : TextDoc} (hcall : ∀ content bLast, call ≠ .setText content bLast)
    (hsame : txtdoc'.maxText = txtdoc.maxText) : Answers chars txtdoc call txtdoc' where
  refused := fun hne => absurd hsame hne
  cut := fun content bLast heq => absurd heq (hcall content bLast)

variable (h : txtdoc.Kept)
include h

theorem teOnChar_kept {ch : TypedChar} (hok : txtdoc.CallOk (.char ch))
    : (teOnChar chars txtdoc ch).Kept ∧ Answers chars txtdoc (.char ch) (teOnChar chars txtdoc ch) := by
  unfold teOnChar
  by_cases htakes : txtdoc.takesChar ch
  . rw [if_pos htakes]
    obtain ⟨hplain, hselected⟩ := hok htakes
    cases hselection : txtdoc.selection with
    | none =>
      obtain ⟨page', n', hkept, hlimit⟩ := char_kept chars (h.pageKept hselection) h.limit htakes (hplain hselection)
      refine ⟨hkept.kept hlimit, answers_of_maxText chars (fun _ _ heq => nomatch heq) ?_⟩
      exact shows_maxText hkept.shows
    | some selection =>
      obtain ⟨hjoins, hsep⟩ := hselected selection hselection
      obtain ⟨page', n', hkept, hless, hrest⟩ := unselected_kept chars h hselection hjoins
      have hlimit := h.limit
      have hlimit' : txtdoc.limits.hardLimit = -1 ∨ n' ≤ txtdoc.limits.hardLimit := by
        rcases hlimit with hnone | hle
        . exact .inl hnone
        . exact .inr (Int.le_trans hless hle)
      by_cases hcmd : ch.bytes = [chBs] ∨ ch.bytes = [chDel]
      . have hcall : insertStr chars txtdoc (ch.bytes ++ [0]) ch.bytes.length = unselected chars txtdoc selection := by
          rcases hcmd with heq | heq
          . rw [heq]
            exact insertStr_command chars hselection (.inl rfl)
          . rw [heq]
            exact insertStr_command chars hselection (.inr rfl)
        rw [hcall]
        exact ⟨hkept.kept hlimit', answers_of_maxText chars (fun _ _ heq => nomatch heq) (shows_maxText hkept.shows)⟩
      have hother : ¬((ch.bytes.length : Int) = 1
        ∧ ((ch.bytes ++ [0]).getD 0 0 = chBs ∨ (ch.bytes ++ [0]).getD 0 0 = chDel)) := by
        rintro ⟨hone, hbyte⟩
        obtain ⟨byte, heq⟩ := length_eq_one_iff.mp (by omega : ch.bytes.length = 1)
        rw [heq] at hbyte hcmd
        rcases hbyte with hsame | hsame
        . exact hcmd (.inl (congrArg (fun b => [b]) hsame))
        . exact hcmd (.inr (congrArg (fun b => [b]) hsame))
      rw [insertStr_over chars hselection hkept.shows hother]
      have hchar : CharOk page' ch := by
        refine ⟨?_, fun heq => absurd (.inl heq) hcmd, fun heq => absurd (.inr heq) hcmd⟩
        intro heq
        -- nothing is behind the selection, so that nothing is joined
        have hnil := hsep heq
        have hjoin : RestJoins txtdoc.page.lines (txtdoc.page.startMark selection) (txtdoc.page.endMark selection) := by
          intro _ _ hstarts
          exfalso
          have hmark := endMark_ok h.ok (h.selection selection hselection)
          obtain ⟨before, cur, after, hlines, hnode, hinside⟩ := hmark
          rw [hlines, markOffset_eq hnode, drop_markOffset (inside_le hinside)] at hnil
          rw [hlines, hnode, getD_mid, (append_eq_nil_iff.mp hnil).1] at hstarts
          rcases hstarts with hhead | hpair
          . cases hhead
          . cases hpair
        rw [(hrest hjoin).1, hnil]
      have hroom : txtdoc.limits.hardLimit = -1 ∨ n' + ch.bytes.length ≤ txtdoc.limits.hardLimit
        ∨ ch.bytes = [chBs] ∨ ch.bytes = [chDel] := by
        rcases htakes with hnone | hle | hcommand
        . exact .inl hnone
        . right
          left
          show n' + ch.bytes.length ≤ txtdoc.hardLimit
          omega
        . exact absurd hcommand hcmd
      obtain ⟨page₂, n₂, hkept₂, hlimit₂⟩ := char_kept chars hkept hlimit' hroom hchar
      exact ⟨hkept₂.kept hlimit₂, answers_of_maxText chars (fun _ _ heq => nomatch heq) (shows_maxText hkept₂.shows)⟩
  rw [if_neg htakes]
  constructor
  . have hshows : TextDoc.Shows { txtdoc with maxText := txtdoc.maxText + 1, selection := none } txtdoc.page txtdoc.curlen
        ⟨txtdoc.hardLimit, txtdoc.maxText + 1⟩ := ⟨⟨h.shows.has.nodes, rfl, rfl⟩, h.shows.insert, rfl⟩
    exact kept_of_shows hshows h.ok h.count h.selection h.limit
  . exact ⟨fun _ => ⟨rfl, rfl, rfl⟩, fun _ _ heq => nomatch heq⟩

theorem pasteText_kept {newtext : List UInt8} {len : Nat} (hlen : len ≠ 0)
    (hok : txtdoc.CallOk (.insertText newtext len))
    : (insertText chars txtdoc newtext len).Kept ∧ (insertText chars txtdoc newtext len).maxText = txtdoc.maxText := by
  obtain ⟨hplain, hselected⟩ := hok hlen
  cases hselection : txtdoc.selection with
  | none =>
    obtain ⟨page', n', hkept, hlimit⟩ := pasted_kept chars (h.pageKept hselection) h.limit (hplain hselection)
    exact ⟨hkept.kept hlimit, shows_maxText hkept.shows⟩
  | some selection =>
    obtain ⟨hjoins, hrestJoins, hfits⟩ := hselected selection hselection
    obtain ⟨page', n', hkept, hless, hrest⟩ := unselected_kept chars h hselection hjoins
    obtain ⟨htail, hcount⟩ := hrest hrestJoins
    have hlimit := h.limit
    have hlimit' : txtdoc.limits.hardLimit = -1 ∨ n' ≤ txtdoc.limits.hardLimit := by
      rcases hlimit with hnone | hle
      . exact .inl hnone
      . exact .inr (Int.le_trans hless hle)
    have hfits' : PasteFits n' txtdoc.limits.hardLimit page'.flat.rest newtext len := by
      refine ⟨hfits.first, hfits.last, ?_, ?_⟩
      . rw [htail]
        exact hfits.atEnd
      rcases hfits.fits with hnone | hle
      . exact .inl hnone
      . right
        show n' + pastedLength newtext len ≤ txtdoc.hardLimit
        omega
    rw [insertText_over chars hselection hkept.shows hfits.first]
    obtain ⟨page₂, n₂, hkept₂, hlimit₂⟩ := pasted_kept chars hkept hlimit' hfits'
    exact ⟨hkept₂.kept hlimit₂, shows_maxText hkept₂.shows⟩

theorem moveMarks_kept {insert : TextMark} {selection : Option TextMark}
    (hinsert : isMark txtdoc.lines insert)
    (hselection : ∀ mark ∈ selection, isMark txtdoc.lines mark)
    : TextDoc.Kept { txtdoc with insert := insert, selection := selection } := by
  have hmark := markOk_of_isMark hinsert
  have hlines := h.lines
  have hlinesOk := TextPage.lines_ok h.ok
  rw [hlines] at hmark
  obtain ⟨page, hshows, hok, hpage⟩ :=
    @shows_of_markOk { txtdoc with insert := insert, selection := selection } txtdoc.page.lines h.shows.has.nodes hlinesOk hmark
  refine kept_of_shows hshows hok ?_ ?_ h.limit
  . have hcount := h.count
    unfold TextPage.size at hcount ⊢
    rw [hpage]
    exact hcount
  . intro mark heq
    rw [hpage, ← hlines]
    exact markOk_of_isMark (hselection mark heq)

theorem next_kept (hok : txtdoc.CallOk call)
    : ∃ txtdoc', next chars txtdoc call = some txtdoc' ∧ txtdoc'.Kept ∧ Answers chars txtdoc call txtdoc' := by
  cases call with
  | setText content bLast =>
    have hfits : txtdoc.hardLimit = -1 ∨ (strOf content).length ≤ txtdoc.hardLimit := hok
    obtain ⟨txtdoc', hset, hkept, hsame⟩ := @setText_kept txtdoc chars content bLast hfits
    refine ⟨txtdoc', hset, hkept, fun hne => absurd hsame hne, ?_⟩
    intro content' bLast' heq hlimit hlong
    cases heq
    omega
  | char ch =>
    obtain ⟨hkept, hanswers⟩ := teOnChar_kept chars h hok
    exact ⟨_, rfl, hkept, hanswers⟩
  | insertText newtext len =>
    show ∃ txtdoc', some (if len = 0 then txtdoc else insertText chars txtdoc newtext len) = some txtdoc' ∧ _
    by_cases hlen : len = 0
    . rw [if_pos hlen]
      exact ⟨txtdoc, rfl, h, answers_of_maxText chars (fun _ _ heq => nomatch heq) rfl⟩
    . rw [if_neg hlen]
      obtain ⟨hkept, hsame⟩ := pasteText_kept chars h hlen hok
      exact ⟨_, rfl, hkept, answers_of_maxText chars (fun _ _ heq => nomatch heq) hsame⟩
  | moveMarks insert selection =>
    by_cases hmarks : isMark txtdoc.lines insert ∧ ∀ mark ∈ selection, isMark txtdoc.lines mark
    . refine ⟨_, congrArg some (if_pos hmarks), moveMarks_kept h hmarks.1 hmarks.2, ?_⟩
      exact answers_of_maxText chars (fun _ _ heq => nomatch heq) rfl
    . refine ⟨_, congrArg some (if_neg hmarks), h, ?_⟩
      exact answers_of_maxText chars (fun _ _ heq => nomatch heq) rfl

theorem kept_run (hok : CallsOk chars txtdoc calls) : KeepsLimit chars txtdoc calls := by
  induction calls generalizing txtdoc with
  | nil => exact h.limited
  | cons call calls ih =>
    obtain ⟨hcall, hrest⟩ := hok
    obtain ⟨txtdoc', hnext, hkept, hanswers⟩ := next_kept chars h hcall
    exact ⟨h.limited, txtdoc', hnext, hanswers, ih hkept (hrest txtdoc' hnext)⟩

end Run

end TextDoc

structure TextEdit where
  doc : TextDoc
  kept : doc.Kept

namespace TextEdit

def twoLetters (pos : Nat) (hpos : pos ≤ 2) : TextEdit where
  doc := ⟨[.create [97, 98]], ⟨0, pos⟩, none, 2, -1, 0⟩
  kept := by
    have hshows : TextDoc.Shows ⟨[.create [97, 98]], ⟨0, pos⟩, none, 2, -1, 0⟩ ⟨[], [97, 98], [], pos⟩ 2 ⟨-1, 0⟩ :=
      ⟨⟨.cons (.create (by decide)) .nil, rfl, rfl⟩, rfl, rfl⟩
    have hok : TextPage.Ok ⟨[], [97, 98], [], pos⟩ :=
      ⟨fun _ hmem => (not_mem_nil hmem).elim, (by decide : lnsep ∉ [97, 98]), trivial, hpos⟩
    exact TextDoc.kept_of_shows_none hshows hok rfl (Or.inl rfl)

def enter : TypedChar :=
  ⟨[lnsep], Or.inl rfl⟩

end TextEdit

end MiniGui
