import MiniGui.Control.TextPaste

namespace MiniGui

open List

def MarkOk (lines : List (List UInt8)) (mark : TextMark) : Prop :=
  ∃ before cur after, lines = before ++ cur :: after ∧ mark.curNode = before.length ∧ Inside after cur mark.posLnOff

def markOffset (lines : List (List UInt8)) (mark : TextMark) : Nat :=
  (lines.take mark.curNode).flatten.length + mark.posLnOff

theorem markOffset_eq {before after : List (List UInt8)} {cur : List UInt8} {mark : TextMark}
    (hnode : mark.curNode = before.length)
    : markOffset (before ++ cur :: after) mark = before.flatten.length + mark.posLnOff := by
  unfold markOffset
  rw [hnode, take_left]

theorem take_markOffset {before after : List (List UInt8)} {cur : List UInt8} {pos : Nat} (hpos : pos ≤ cur.length)
    : (before ++ cur :: after).flatten.take (before.flatten.length + pos) = before.flatten ++ cur.take pos := by
  rw [flatten_append, flatten_cons, take_length_add_append, take_append_of_le_length hpos]

theorem drop_markOffset {before after : List (List UInt8)} {cur : List UInt8} {pos : Nat} (hpos : pos ≤ cur.length)
    : (before ++ cur :: after).flatten.drop (before.flatten.length + pos) = cur.drop pos ++ after.flatten := by
  rw [flatten_append, flatten_cons, drop_length_add_append, drop_append_of_le_length hpos]

namespace TextDoc

def SelectionRuns (n limit : Int) (lines : List (List UInt8)) (markStart markEnd : TextMark) : Prop :=
  markStart.curNode < markEnd.curNode → markStart.posLnOff ≠ 0 →
    NextOk (n - (markOffset lines markEnd - markOffset lines markStart) + 1) limit
      ((lines.getD markEnd.curNode []).drop markEnd.posLnOff)

def SelectionOk (n limit : Int) (lines : List (List UInt8)) (markStart markEnd : TextMark) : Prop :=
  markStart.curNode < markEnd.curNode → markStart.posLnOff ≠ 0 →
    JoinsNext (n - (markOffset lines markEnd - markOffset lines markStart) + 1) limit [lnsep]
      ((lines.getD markEnd.curNode []).drop markEnd.posLnOff)

structure Cut (lines : List (List UInt8)) (markStart : TextMark) (before : List (List UInt8)) (cur : List UInt8)
    (after : List (List UInt8)) : Prop where
  linesBefore : ∀ line ∈ before, IsLine line
  line : Shaped after cur
  linesAfter : LinesOk after
  inside : Inside after cur markStart.posLnOff
  head : before.flatten ++ cur.take markStart.posLnOff = lines.flatten.take (markOffset lines markStart)

def RestJoins (lines : List (List UInt8)) (markStart markEnd : TextMark) : Prop :=
  markStart.curNode < markEnd.curNode → markStart.posLnOff ≠ 0 →
    StartsSep ((lines.getD markEnd.curNode []).drop markEnd.posLnOff)
      → (lines.getD markEnd.curNode []).drop markEnd.posLnOff = [lnsep]

section Lines

variable (chars : CharLengths) {txtdoc : TextDoc} {before after mid : List (List UInt8)}
  {cur first last : List UInt8} {n : Int} {limit : TextLimit}

theorem has_delNodesAfter (h : txtdoc.Has (before ++ first :: (mid ++ after)) n limit)
    : (delNodesAfter before.length mid.length txtdoc).Has (before ++ first :: after) (n - mid.flatten.length) limit := by
  induction mid generalizing txtdoc n with
  | nil => simpa [delNodesAfter] using h
  | cons line mid ih =>
    have hrest := ih (has_delNext h)
    rw [flatten_cons, length_append]
    have hcount : n - (line.length : Int) - mid.flatten.length = n - ((line.length + mid.flatten.length : Nat) : Int) := by
      omega
    rw [hcount] at hrest
    exact hrest

theorem delNodesAfter_selection (i nodes : Nat) (hnone : txtdoc.selection = none)
    : (delNodesAfter i nodes txtdoc).selection = none := by
  induction nodes generalizing txtdoc with
  | zero => exact hnone
  | succ nodes ih =>
    apply ih
    show txtdoc.selection.map _ = none
    rw [hnone]
    rfl

theorem has_unselect (h : txtdoc.Has (before ++ cur :: after) n limit)
    : Has { txtdoc with selection := none } (before ++ cur :: after) n limit :=
  ⟨h.nodes, h.curlen, h.limits⟩

theorem startMark_le (insert selection : TextMark)
    : let markStart := if insertStarts insert selection then insert else selection
      let markEnd := if insertStarts insert selection then selection else insert
      markStart.curNode < markEnd.curNode ∨ (markStart.curNode = markEnd.curNode
        ∧ markStart.posLnOff ≤ markEnd.posLnOff) := by
  by_cases hstarts : insertStarts insert selection
  . rw [if_pos hstarts, if_pos hstarts]
    unfold insertStarts at hstarts
    omega
  . rw [if_neg hstarts, if_neg hstarts]
    unfold insertStarts at hstarts
    omega

theorem cut_line {p q : Nat} (hbefore : ∀ line ∈ before, IsLine line) (hcur : Shaped after cur) (hafter : LinesOk after)
    (hp : Inside after cur p) (hq : Inside after cur q)
    : Cut (before ++ cur :: after) ⟨before.length, p⟩ before (cur.take p ++ cur.drop q) after
      ∧ (cur.take p ++ cur.drop q).drop p ++ after.flatten
          = (before ++ cur :: after).flatten.drop (markOffset (before ++ cur :: after) ⟨before.length, q⟩) := by
  have hlen : (cur.take p).length = p := length_take_of_le (inside_le hp)
  have hrest := shaped_drop hcur hq
  refine ⟨⟨hbefore, shaped_append hrest (shaped_take hcur hp), hafter, ?_, ?_⟩, ?_⟩
  . have hin := inside_append hrest (cur.take p)
    rw [hlen] at hin
    exact hin
  . rw [markOffset_eq rfl, take_markOffset (inside_le hp)]
    congr 1
    conv => lhs; arg 1; rw [← hlen]
    exact take_left
  rw [markOffset_eq rfl, drop_markOffset (inside_le hq)]
  congr 1
  conv => lhs; arg 1; rw [← hlen]
  exact drop_left

theorem has_deleteLine {selection markStart markEnd : TextMark} (h : txtdoc.Has (before ++ cur :: after) n limit)
    (hbefore : ∀ line ∈ before, IsLine line) (hcur : Shaped after cur) (hafter : LinesOk after)
    (hstart : (if insertStarts txtdoc.insert selection then txtdoc.insert else selection) = markStart)
    (hend : (if insertStarts txtdoc.insert selection then selection else txtdoc.insert) = markEnd)
    (hp : markStart.curNode = before.length ∧ Inside after cur markStart.posLnOff)
    (hq : markEnd.curNode = before.length ∧ Inside after cur markEnd.posLnOff) (hle : markStart.posLnOff ≤ markEnd.posLnOff)
    : ∃ cur' n', (deleteSelection chars txtdoc selection).1.Has (before ++ cur' :: after) n' limit
        ∧ (deleteSelection chars txtdoc selection).2 = markStart.posLnOff
        ∧ (deleteSelection chars txtdoc selection).1.insert.curNode = txtdoc.insert.curNode
        ∧ (deleteSelection chars txtdoc selection).1.selection = none
        ∧ Cut (before ++ cur :: after) markStart before cur' after
        ∧ cur'.drop markStart.posLnOff ++ after.flatten
          = (before ++ cur :: after).flatten.drop (markOffset (before ++ cur :: after) markEnd)
        ∧ n' - (before ++ cur' :: after).flatten.length = n - (before ++ cur :: after).flatten.length ∧ n' ≤ n := by
  have hsame : markStart.curNode = markEnd.curNode := by rw [hp.1, hq.1]
  have hremoved : ((markStart.posLnOff : Int) - markEnd.posLnOff) = -((markEnd.posLnOff - markStart.posLnOff : Nat) : Int) := by
    omega
  have hcall : deleteSelection chars txtdoc selection
      = (insertString { txtdoc with selection := none } before.length markEnd.posLnOff []
          (-((markEnd.posLnOff - markStart.posLnOff : Nat) : Int)), markStart.posLnOff) := by
    unfold deleteSelection
    dsimp only
    rw [hstart, hend, if_neg (fun hne => hne hsame), if_pos hsame, hremoved, hq.1]
  have hhas := has_removeString (has_unselect h) (inside_le hq.2) (Nat.sub_le markEnd.posLnOff markStart.posLnOff) []
  rw [Nat.sub_sub_self hle] at hhas
  rw [hcall]
  have hstart' : markStart = ⟨before.length, markStart.posLnOff⟩ := by rw [← hp.1]
  have hend' : markEnd = ⟨before.length, markEnd.posLnOff⟩ := by rw [← hq.1]
  obtain ⟨hcut, hrest⟩ := cut_line hbefore hcur hafter hp.2 hq.2
  rw [← hstart'] at hcut
  rw [← hend'] at hrest
  refine ⟨_, _, hhas, rfl, ?_, ?_, hcut, hrest, ?_, by omega⟩
  . rw [insertString_insert]
  . rw [insertString_selection]
  have hple := inside_le hp.2
  have hqle := inside_le hq.2
  rw [flatten_append, flatten_append, flatten_cons, flatten_cons, length_append,
    length_append,
    length_append, length_append, length_append, length_take_of_le hple, length_drop]
  omega

theorem cut_lines {p : Nat} (hbefore : ∀ line ∈ before, IsLine line) (hp : p < first.length) {cur : List UInt8}
    {after' : List (List UInt8)} (hcur : Shaped after' cur) (hafter' : LinesOk after') (hin : Inside after' cur p)
    (hhead : cur.take p = first.take p)
    : Cut (before ++ first :: (mid ++ last :: after)) ⟨before.length, p⟩ before cur after' := by
  refine ⟨hbefore, hcur, hafter', hin, ?_⟩
  rw [markOffset_eq rfl, take_markOffset (Nat.le_of_lt hp), hhead]

theorem drop_lines {q : Nat} (hq : Inside after last q)
    : (before ++ first :: (mid ++ last :: after)).flatten.drop
        (markOffset (before ++ first :: (mid ++ last :: after)) ⟨before.length + 1 + mid.length, q⟩)
      = last.drop q ++ after.flatten := by
  have hsplit : before ++ first :: (mid ++ last :: after) = (before ++ first :: mid) ++ last :: after := by
    rw [append_assoc, cons_append]
  have hlen : before.length + 1 + mid.length = (before ++ first :: mid).length := by
    rw [length_append, length_cons]
    omega
  rw [hsplit, hlen, markOffset_eq rfl, drop_markOffset (inside_le hq)]

theorem editNode_remove {calls i insertPos removed : Nat}
    : editNode chars (calls + 1) txtdoc (some i) insertPos [] (-(removed : Int)) = txtdoc.insertPlain i insertPos [] (-(removed : Int)) := by
  rw [editNode_focus (⟨rfl, rfl⟩ : txtdoc.Focus (some i) insertPos i insertPos), if_neg (by omega)]

theorem has_length (h : txtdoc.Has (before ++ cur :: after) n limit)
    : txtdoc.queue.length = before.length + after.length + 1 := by
  rw [h.nodes.length_eq, length_append, length_cons]
  omega

theorem isLine_take {p : Nat} (hfirst : IsLine first) (hp : p < first.length)
    : lnsep ∉ first.take p ∧ first.drop (first.length - 1) = [lnsep] := by
  obtain ⟨body, hline, hbody⟩ := hfirst
  rw [hline, length_append, length_singleton] at hp ⊢
  constructor
  . rw [take_append_of_le_length (by omega)]
    exact fun hmem => hbody (mem_of_mem_take hmem)
  . rw [Nat.add_sub_cancel, drop_left]

theorem has_deleteLines {selection : TextMark} {p q : Nat}
    (h : txtdoc.Has (before ++ first :: (mid ++ last :: after)) n limit)
    (hbefore : ∀ line ∈ before, IsLine line) (hfirst : IsLine first) (hlast : Shaped after last) (hafter : LinesOk after)
    (hstart : (if insertStarts txtdoc.insert selection then txtdoc.insert else selection) = ⟨before.length, p⟩)
    (hend : (if insertStarts txtdoc.insert selection then selection else txtdoc.insert) = ⟨before.length + 1 + mid.length, q⟩)
    (hp : p < first.length) (hq : Inside after last q)
    (hjoins : p ≠ 0 → NextOk (n - (first.length - p + mid.flatten.length + q) + 1) limit.hardLimit (last.drop q))
    : ∃ cur' after' n', (deleteSelection chars txtdoc selection).1.Has (before ++ cur' :: after') n' limit
        ∧ (deleteSelection chars txtdoc selection).2 = p
        ∧ (deleteSelection chars txtdoc selection).1.insert.curNode = before.length
        ∧ (deleteSelection chars txtdoc selection).1.selection = none
        ∧ Cut (before ++ first :: (mid ++ last :: after)) ⟨before.length, p⟩ before cur' after'
        ∧ ((p ≠ 0 → StartsSep (last.drop q) → last.drop q = [lnsep])
          → cur'.drop p ++ after'.flatten = (before ++ first :: (mid ++ last :: after)).flatten.drop
              (markOffset (before ++ first :: (mid ++ last :: after)) ⟨before.length + 1 + mid.length, q⟩))
        ∧ n' - (before ++ cur' :: after').flatten.length = n - (before ++ first :: (mid ++ last :: after)).flatten.length
        ∧ n' ≤ n := by
  have hqle := inside_le hq
  have hne : before.length ≠ before.length + 1 + mid.length := by omega
  have hbetween : before.length + 1 + mid.length - before.length - 1 = mid.length := by omega
  have hsplit : before ++ first :: (mid ++ last :: after) = (before ++ first :: mid) ++ last :: after := by
    rw [append_assoc, cons_append]
  have hlen : (before ++ first :: mid).length = before.length + 1 + mid.length := by
    rw [length_append, length_cons]
    omega
  have hhead := has_removeString (has_unselect (hsplit ▸ h)) (inside_le hq) (Nat.le_refl q) []
  rw [Nat.sub_self, take_zero, nil_append, hlen, append_assoc, cons_append] at hhead
  have hnear := has_delNodesAfter hhead
  have hnone := delNodesAfter_selection before.length mid.length
    (insertString_selection { txtdoc with selection := none } (before.length + 1 + mid.length) q [] (-(q : Int)))
  have hrest := shaped_drop hlast hq
  by_cases hzero : p = 0
  . have hcall : deleteSelection chars txtdoc selection
        = ({ (delNodesAfter before.length mid.length (insertString { txtdoc with selection := none }
            (before.length + 1 + mid.length) q [] (-(q : Int)))).txtDelNode before.length with insert := ⟨before.length, 0⟩ }, p) := by
      unfold deleteSelection
      dsimp only
      rw [hstart, hend]
      rw [if_neg hne, if_pos hne, if_pos hzero, hbetween, Int.natCast_zero, Int.zero_sub]
    have hdeleted := has_delNode hnear
    rw [hcall]
    refine ⟨last.drop q, after, _, ⟨hdeleted.nodes, hdeleted.curlen, hdeleted.limits⟩, rfl, rfl, ?_, ?_, ?_, ?_, by omega⟩
    . show Option.map _ _ = none
      rw [hnone]
      rfl
    . refine cut_lines hbefore hp hrest hafter ?_ ?_
      . rw [hzero]
        exact inside_append hrest []
      . rw [hzero, take_zero, take_zero]
    . intro _
      rw [drop_lines hq, hzero, drop_zero]
    . simp only [flatten_append, flatten_cons, length_append, length_drop]
      omega
  obtain ⟨htake, hsep⟩ := isLine_take hfirst hp
  have hlenTake : (first.take p).length = p := length_take_of_le (Nat.le_of_lt hp)
  have htail := has_removeString hnear (Nat.sub_le first.length 1) (Nat.sub_le (first.length - 1) p) []
  rw [Nat.sub_sub_self (by omega), hsep] at htail
  have hdrop : (first.take p ++ [lnsep]).drop p = [lnsep] := by
    conv => lhs; arg 1; rw [← hlenTake]
    exact drop_left
  have hcount : n - (q : Int) - mid.flatten.length - ((first.length - 1 - p : Nat) : Int)
      = n - ((first.length : Int) - p + mid.flatten.length + q) + 1 := by
    omega
  have hnextOk : ∀ next, (last.drop q :: after).head? = some next → StartsSep ((first.take p ++ [lnsep]).drop p)
      → NextOk (n - (q : Int) - mid.flatten.length - ((first.length - 1 - p : Nat) : Int)) limit.hardLimit next := by
    intro next hnext _
    cases hnext
    rw [hcount]
    exact hjoins hzero
  have hshape : Shaped (last.drop q :: after) (first.take p ++ [lnsep]) := by
    unfold Shaped
    rw [if_neg (cons_ne_nil _ _)]
    exact ⟨first.take p, rfl, htake⟩
  have hinside : Inside (last.drop q :: after) (first.take p ++ [lnsep]) p := by
    unfold Inside
    rw [if_neg (cons_ne_nil _ _), length_append, length_singleton, hlenTake]
    omega
  obtain ⟨cur', after', n', hhas, hpos, hdeleted, hremoved, hcounts, hless, -, hselection⟩ := has_editNode_del chars htail
    (focus_some _ before.length p) [chDel] rfl (Nat.le_add_left (last.drop q :: after).length before.length) hshape
    ⟨hrest, hafter⟩ hinside hnextOk
  have hdeleted : Deleted (first.take p ++ [lnsep]) p cur' after' := hdeleted
  have hremoved : _ → Removed chars (first.take p ++ [lnsep]) (last.drop q :: after) p cur' after' := hremoved
  have hcounts := hcounts (by
    intro next _ hpair
    rw [hdrop] at hpair
    cases hpair)
  have hback : ((p : Int) - first.length + 1) = -((first.length - 1 - p : Nat) : Int) := by omega
  have hcall : deleteSelection chars txtdoc selection
      = ({ (editNode chars (before.length + (last.drop q :: after).length + 1)
          ((delNodesAfter before.length mid.length (insertString { txtdoc with selection := none }
            (before.length + 1 + mid.length) q [] (-(q : Int)))).insertString before.length (first.length - 1) []
              (-((first.length - 1 - p : Nat) : Int)))
          (some before.length) p [chDel] 1).1 with insert.curNode := before.length }, p) := by
    unfold deleteSelection
    dsimp only
    rw [hstart, hend]
    rw [if_neg hne, if_pos hne, if_neg hzero, if_neg hne, hbetween, (has_node h).txtlen, hback, Int.natCast_zero,
      Int.zero_sub,
      has_length hnear, editNode_remove chars]
    unfold insertPlain
    rw [has_length htail]
  rw [hcall]
  refine ⟨cur', after', n', ⟨hhas.nodes, hhas.curlen, hhas.limits⟩, rfl, rfl, ?_, ?_, ?_, ?_, by omega⟩
  . apply hselection
    rw [insertString_selection]
    exact hnone
  . refine cut_lines hbefore hp hdeleted.line hdeleted.lines hdeleted.inside ?_
    rw [hdeleted.head]
    conv => lhs; arg 1; rw [← hlenTake]
    exact take_left
  . intro hjoin
    have htail' := hremoved (by
      intro next hnext _ hstarts
      cases hnext
      rw [hdrop]
      exact hjoin hzero hstarts)
    unfold Removed at htail'
    rw [drop_lines hq, htail', hdrop]
    rfl
  . simp only [flatten_append, flatten_cons, length_append, length_drop,
      length_singleton, hlenTake] at hcounts ⊢
    omega

theorem split_lines {b b' a a' : List (List UInt8)} {c c' : List UInt8} (heq : b ++ c :: a = b' ++ c' :: a')
    (hlt : b.length < b'.length) : ∃ mid, b' = b ++ c :: mid ∧ a = mid ++ c' :: a' := by
  rcases append_eq_append_iff.mp heq with ⟨front, hfront, hrest⟩ | ⟨front, hfront, -⟩
  . cases front with
    | nil =>
      rw [hfront, append_nil] at hlt
      omega
    | cons line mid =>
      obtain ⟨hline, hmid⟩ := List.cons.inj hrest
      exact ⟨mid, by rw [hfront, hline], hmid⟩
  . rw [hfront, length_append] at hlt
    omega

end Lines

end TextDoc

namespace TextPage

def mark (page : TextPage) : TextMark :=
  ⟨page.before.length, page.pos⟩

def startMark (page : TextPage) (selection : TextMark) : TextMark :=
  if TextDoc.insertStarts page.mark selection then page.mark else selection

def endMark (page : TextPage) (selection : TextMark) : TextMark :=
  if TextDoc.insertStarts page.mark selection then selection else page.mark

theorem mark_ok {page : TextPage} (hok : page.Ok) : MarkOk page.lines page.mark :=
  ⟨page.before, page.cur, page.after, rfl, rfl, hok.pos⟩

theorem lines_ok {page : TextPage} (hok : page.Ok) : LinesOk page.lines :=
  (linesOk_append (cons_ne_nil _ _)).mpr ⟨hok.before, hok.cur, hok.after⟩

theorem flat_text {page : TextPage} : page.flat.head ++ page.flat.rest = page.lines.flatten := by
  unfold flat lines
  rw [append_assoc, ← append_assoc (page.cur.take page.pos), take_append_drop, flatten_append,
    flatten_cons]

theorem flat_head {page : TextPage} (hok : page.Ok) : page.flat.head.length = markOffset page.lines page.mark := by
  unfold lines
  rw [markOffset_eq rfl]
  unfold flat mark
  rw [length_append, length_take_of_le (inside_le hok.pos)]

end TextPage

def FlatText.cut (flat : FlatText) (offset : Nat) : FlatText :=
  ⟨(flat.head ++ flat.rest).take (min flat.head.length offset), (flat.head ++ flat.rest).drop (max flat.head.length offset)⟩

namespace TextDoc

section Pages

variable (chars : CharLengths) {txtdoc : TextDoc} {page : TextPage} {n : Int} {limit : TextLimit} {selection : TextMark}

theorem has_deleteSelection (h : txtdoc.Shows page n limit) (hok : page.Ok) (hmark : MarkOk page.lines selection)
    (hselection : SelectionRuns n limit.hardLimit page.lines (page.startMark selection) (page.endMark selection))
    : ∃ before cur after n', (deleteSelection chars txtdoc selection).1.Has (before ++ cur :: after) n' limit
        ∧ (deleteSelection chars txtdoc selection).2 = (page.startMark selection).posLnOff
        ∧ (deleteSelection chars txtdoc selection).1.insert.curNode = before.length
        ∧ (deleteSelection chars txtdoc selection).1.selection = none
        ∧ Cut page.lines (page.startMark selection) before cur after
        ∧ (RestJoins page.lines (page.startMark selection) (page.endMark selection)
          → cur.drop (page.startMark selection).posLnOff ++ after.flatten
              = page.lines.flatten.drop (markOffset page.lines (page.endMark selection)))
        ∧ n' - (before ++ cur :: after).flatten.length = n - page.size ∧ n' ≤ n
        ∧ markOffset page.lines (page.startMark selection) ≤ markOffset page.lines (page.endMark selection) := by
  have hinsert : txtdoc.insert = page.mark := h.insert
  have hstart : (if insertStarts txtdoc.insert selection then txtdoc.insert else selection) = page.startMark selection := by
    rw [hinsert]
    rfl
  have hend : (if insertStarts txtdoc.insert selection then selection else txtdoc.insert) = page.endMark selection := by
    rw [hinsert]
    rfl
  have horder := startMark_le txtdoc.insert selection
  rw [hstart, hend] at horder
  have hstartOk : MarkOk page.lines (page.startMark selection) := by
    unfold TextPage.startMark
    split
    . exact TextPage.mark_ok hok
    . exact hmark
  have hendOk : MarkOk page.lines (page.endMark selection) := by
    unfold TextPage.endMark
    split
    . exact hmark
    . exact TextPage.mark_ok hok
  have hlines := TextPage.lines_ok hok
  have hhas := h.has
  have hsame : (page.startMark selection).curNode = (page.endMark selection).curNode
      → txtdoc.insert.curNode = (page.startMark selection).curNode := by
    rw [← hstart, ← hend]
    split
    . exact fun _ => rfl
    . exact fun heq => heq.symm
  generalize page.startMark selection = markStart at *
  generalize page.endMark selection = markEnd at *
  obtain ⟨before, first, after, hsplit, hnode, hp⟩ := hstartOk
  obtain ⟨before', last, after', hsplit', hnode', hq⟩ := hendOk
  rw [hsplit] at hlines hhas hselection ⊢
  obtain ⟨hbefore, hfirst, hafter⟩ := (linesOk_append (cons_ne_nil _ _)).mp hlines
  rcases horder with hlt | ⟨heq, hle⟩
  . obtain ⟨mid, rfl, rfl⟩ := split_lines (hsplit.symm.trans hsplit') (by omega)
    have hne : mid ++ last :: after' ≠ [] := by simp
    have hfirstLine : IsLine first := by
      unfold Shaped at hfirst
      rw [if_neg hne] at hfirst
      exact hfirst
    have hinside : markStart.posLnOff < first.length := by
      unfold Inside at hp
      rw [if_neg hne] at hp
      exact hp
    obtain ⟨-, hlast, hafter'⟩ := (linesOk_append (cons_ne_nil _ _)).mp hafter
    have hnode'' : markEnd.curNode = before.length + 1 + mid.length := by
      rw [hnode', length_append, length_cons]
      omega
    have hstartOffset : markOffset (before ++ first :: (mid ++ last :: after')) markStart = before.flatten.length + markStart.posLnOff :=
      markOffset_eq hnode
    have hsplitEnd : before ++ first :: (mid ++ last :: after') = (before ++ first :: mid) ++ last :: after' := by
      rw [append_assoc, cons_append]
    have hendOffset : markOffset (before ++ first :: (mid ++ last :: after')) markEnd
        = before.flatten.length + first.length + mid.flatten.length + markEnd.posLnOff := by
      rw [hsplitEnd, markOffset_eq hnode', flatten_append, flatten_cons, length_append, length_append]
      omega
    have hendLine : (before ++ first :: (mid ++ last :: after')).getD markEnd.curNode [] = last := by
      rw [hsplitEnd, hnode', getD_append_right _ _ _ _ (Nat.le_refl _), Nat.sub_self]
      rfl
    have hjoins : markStart.posLnOff ≠ 0 → NextOk (n - (first.length - markStart.posLnOff + mid.flatten.length + markEnd.posLnOff) + 1)
        limit.hardLimit (last.drop markEnd.posLnOff) := by
      intro hzero
      have hjoin := hselection hlt hzero
      rw [hstartOffset, hendOffset, hendLine] at hjoin
      have hcount : n - (((before.flatten.length + first.length + mid.flatten.length + markEnd.posLnOff : Nat) : Int)
          - ((before.flatten.length + markStart.posLnOff : Nat) : Int)) + 1
          = n - ((first.length : Int) - markStart.posLnOff + mid.flatten.length + markEnd.posLnOff) + 1 := by
        omega
      rw [hcount] at hjoin
      exact hjoin
    have hmarkStart : markStart = ⟨before.length, markStart.posLnOff⟩ := by rw [← hnode]
    have hmarkEnd : markEnd = ⟨before.length + 1 + mid.length, markEnd.posLnOff⟩ := by rw [← hnode'']
    obtain ⟨cur', tail', n', hdeleted, hpos, hcur, hnone, hcut, hrest, hcount,
      hless⟩ := has_deleteLines chars hhas hbefore hfirstLine hlast
      hafter' (hstart.trans hmarkStart) (hend.trans hmarkEnd) hinside hq hjoins
    rw [← hmarkStart] at hcut
    rw [← hmarkEnd] at hrest
    refine ⟨before, cur', tail', n', hdeleted, hpos, hcur, hnone, hcut, ?_, ?_, hless, ?_⟩
    . intro hjoin
      apply hrest
      intro hzero hstarts
      have hsep := hjoin hlt hzero
      rw [hendLine] at hsep
      exact hsep hstarts
    . unfold TextPage.size
      rw [hsplit, hcount]
    . rw [hstartOffset, hendOffset]
      omega
  obtain ⟨hbefores, hrest⟩ := append_inj (hsplit.symm.trans hsplit') (by omega)
  obtain ⟨hfirsts, hafters⟩ := List.cons.inj hrest
  rw [← hfirsts, ← hafters] at hq
  rw [← hbefores] at hnode'
  obtain ⟨cur', n', hdeleted, hpos, hcur, hnone, hcut, hrest, hcount, hless⟩ :=
    has_deleteLine chars hhas hbefore hfirst hafter hstart hend ⟨hnode, hp⟩ ⟨hnode', hq⟩ hle
  refine ⟨before, cur', after, n', hdeleted, hpos, ?_, hnone, hcut, fun _ => hrest, ?_, hless, ?_⟩
  . rw [hcur, hsame heq, hnode]
  . unfold TextPage.size
    rw [hsplit, hcount]
  . rw [markOffset_eq hnode, markOffset_eq hnode']
    omega

theorem markOffset_le {lines : List (List UInt8)} {mark : TextMark} (hmark : MarkOk lines mark)
    : markOffset lines mark ≤ lines.flatten.length := by
  obtain ⟨before, cur, after, rfl, hnode, hinside⟩ := hmark
  have hle := inside_le hinside
  rw [markOffset_eq hnode, flatten_append, flatten_cons, length_append, length_append]
  omega

theorem endMark_ok (hok : page.Ok) (hmark : MarkOk page.lines selection) : MarkOk page.lines (page.endMark selection) := by
  unfold TextPage.endMark
  split
  . exact hmark
  . exact TextPage.mark_ok hok

theorem startMark_ok (hok : page.Ok) (hmark : MarkOk page.lines selection)
    : MarkOk page.lines (page.startMark selection) := by
  unfold TextPage.startMark
  split
  . exact TextPage.mark_ok hok
  . exact hmark

theorem markOffset_mono {lines : List (List UInt8)} {markStart markEnd : TextMark}
    (hstart : MarkOk lines markStart) (hend : MarkOk lines markEnd)
    (horder : markStart.curNode < markEnd.curNode
      ∨ (markStart.curNode = markEnd.curNode ∧ markStart.posLnOff ≤ markEnd.posLnOff))
    : markOffset lines markStart ≤ markOffset lines markEnd := by
  obtain ⟨before, first, after, rfl, hnode, hp⟩ := hstart
  rcases horder with hlt | ⟨heq, hle⟩
  . obtain ⟨before', last, after', hsplit, hnode', hq⟩ := hend
    have hple := inside_le hp
    obtain ⟨mid, rfl, rfl⟩ := split_lines hsplit (by omega)
    rw [markOffset_eq hnode, hsplit, markOffset_eq hnode', flatten_append, flatten_cons,
      length_append, length_append]
    omega
  . rw [markOffset_eq hnode, markOffset_eq (heq ▸ hnode)]
    omega

theorem startOffset_le (hok : page.Ok) (hmark : MarkOk page.lines selection)
    : markOffset page.lines (page.startMark selection) ≤ markOffset page.lines (page.endMark selection) :=
  markOffset_mono (startMark_ok hok hmark) (endMark_ok hok hmark) (startMark_le page.mark selection)

def unselected (chars : CharLengths) (txtdoc : TextDoc) (selection : TextMark) : TextDoc :=
  { (deleteSelection chars txtdoc selection).1 with insert.posLnOff := (deleteSelection chars txtdoc selection).2 }

theorem unselected_page (h : txtdoc.Shows page n limit) (hok : page.Ok) (hmark : MarkOk page.lines selection)
    (hselection : SelectionRuns n limit.hardLimit page.lines (page.startMark selection) (page.endMark selection))
    : ∃ page' n', (unselected chars txtdoc selection).Shows page' n' limit ∧ page'.Ok
      ∧ n' - page'.size = n - page.size ∧ n' ≤ n
        ∧ page'.flat.head = page.lines.flatten.take (markOffset page.lines (page.startMark selection))
        ∧ (RestJoins page.lines (page.startMark selection) (page.endMark selection)
          → page'.flat.rest = page.lines.flatten.drop (markOffset page.lines (page.endMark selection)))
        ∧ markOffset page.lines (page.startMark selection) ≤ markOffset page.lines (page.endMark selection) := by
  obtain ⟨before, cur, after, n', hhas, hpos, hcur, hnone, hcut, hrest, hcount, hless, hle⟩ :=
    has_deleteSelection chars h hok hmark hselection
  refine ⟨⟨before, cur, after, (page.startMark selection).posLnOff⟩, n',
    ⟨⟨hhas.nodes, hhas.curlen, hhas.limits⟩, ?_, hnone⟩,
    ⟨hcut.linesBefore, hcut.line, hcut.linesAfter, hcut.inside⟩, hcount, hless, hcut.head, hrest, hle⟩
  unfold unselected
  dsimp only
  rw [hcur, hpos]

theorem insertStr_selection (h : txtdoc.Shows page n limit) (hok : page.Ok) (hmark : MarkOk page.lines selection)
    (hselection : SelectionOk n limit.hardLimit page.lines (page.startMark selection) (page.endMark selection))
    : ∃ page' n', (insertStr chars { txtdoc with selection := some selection } [chDel, 0] 1).Shows page' n' limit ∧ page'.Ok
        ∧ page'.flat = page.flat.cut (markOffset page.lines selection) := by
  have hruns : SelectionRuns n limit.hardLimit page.lines (page.startMark selection) (page.endMark selection) :=
    fun hlt hzero => (hselection hlt hzero).1
  obtain ⟨page', n', hshows, hok', -, -, hhead, hrest, hle⟩ := unselected_page chars h hok hmark hruns
  refine ⟨page', n', hshows, hok', ?_⟩
  have htext := hrest (fun hlt hzero => (hselection hlt hzero).2)
  have hends : min (markOffset page.lines page.mark) (markOffset page.lines selection) = markOffset page.lines (page.startMark selection)
      ∧ max (markOffset page.lines page.mark) (markOffset page.lines selection) = markOffset page.lines (page.endMark selection) := by
    unfold TextPage.startMark TextPage.endMark at hle ⊢
    by_cases hstarts : insertStarts page.mark selection
    . rw [if_pos hstarts, if_pos hstarts] at hle ⊢
      exact ⟨Nat.min_eq_left hle, Nat.max_eq_right hle⟩
    . rw [if_neg hstarts, if_neg hstarts] at hle ⊢
      exact ⟨Nat.min_eq_right hle, Nat.max_eq_left hle⟩
  unfold FlatText.cut
  rw [TextPage.flat_text, TextPage.flat_head hok, hends.1, hends.2, ← hhead, ← htext]

end Pages

end TextDoc

end MiniGui
