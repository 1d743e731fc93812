import MiniGui.Control.TextPages

namespace MiniGui

open List

variable {prev line : List UInt8}

theorem suffix_lines {before : List (List UInt8)} (hbefore : ∀ line ∈ before, IsLine line)
    (hprev : IsLine prev) : chRn <:+ before.flatten ++ prev ↔ chRn <:+ prev := by
  constructor
  . intro hsuffix
    by_cases htwo : 2 ≤ prev.length
    . exact suffix_of_suffix_length_le hsuffix (suffix_append _ _) htwo
    -- the line is its separator, the line before does not end in a return
    exfalso
    obtain ⟨body, hline, -⟩ := hprev
    have hbody : body = [] := by
      rw [hline, length_append, length_singleton] at htwo
      exact eq_nil_of_length_eq_zero (by omega)
    rw [hline, hbody] at hsuffix
    obtain ⟨front, hfront⟩ := hsuffix
    have hflat : front ++ [carriageReturn] = before.flatten := by
      apply (append_left_inj [lnsep]).mp
      rw [append_assoc]
      exact hfront
    by_cases hnil : before = []
    . rw [hnil] at hflat
      simp at hflat
    obtain ⟨rest, hrest⟩ := TextPage.flatten_isLine hbefore hnil
    rw [hrest] at hflat
    have hlast := (append_inj' hflat rfl).2
    revert hlast
    decide
  . intro hsuffix
    exact hsuffix.trans (suffix_append _ _)

theorem takeWhile_ne_nul (hnul : (0 : UInt8) ∉ line) : (line ++ [0]).takeWhile (· ≠ 0) = line := by
  rw [takeWhile_append_of_pos]
  . simp
  intro byte hmem
  simp only [ne_eq, decide_not, Bool.not_eq_eq_eq_not, Bool.not_true, decide_eq_false_iff_not]
  intro heq
  exact hnul (heq ▸ hmem)

namespace TextDoc

def JoinsBack (n limit : Int) (prev : List UInt8) : Prop :=
  ¬chRn <:+ prev ∧ prev ≠ [chBs, lnsep] ∧ prev ≠ [chDel, lnsep] ∧ (prev = [lnsep] ∨ limit = -1 ∨ n - 1 ≤ limit)

section Pages

variable (chars : CharLengths) {txtdoc : TextDoc} {page : TextPage} {n : Int} {limit : TextLimit}

theorem insertStr_bs_first (h : txtdoc.Shows page n limit) (hhead : page.pos = 0) (hfirst : page.before = [])
    : insertStr chars txtdoc [chBs, 0] 1 = txtdoc ∧ page.flat.backspace (page.flat.backspaceBytes chars) = page.flat := by
  constructor
  . have hfocus := h.focus 0
    rw [hhead, hfirst] at hfocus
    rw [insertStr_eq chars h.selection, h.length, editNode_bs_first hfocus]
    have hpos : txtdoc.insert.posLnOff = 0 := by
      rw [h.insert, hhead]
    rw [← hpos]
  have hflat : page.flat.head = [] := by
    unfold TextPage.flat
    rw [hfirst, hhead]
    rfl
  unfold FlatText.backspace
  rw [hflat, take_nil, ← hflat]

theorem plain_prev {body : List UInt8} (hsep : lnsep ∉ body) (hnul : (0 : UInt8) ∉ body) (hrn : body ++ [lnsep] ≠ chRn)
    (hbs : body ++ [lnsep] ≠ [chBs, lnsep]) (hdel : body ++ [lnsep] ≠ [chDel, lnsep])
    : Plain (body ++ [lnsep] ++ [0]) body where
  starts := by
    rw [append_assoc]
    exact take_left
  noSep := by
    rintro rfl
    exact hsep (mem_singleton_self _)
  noCommand := by
    constructor
    . rintro rfl
      exact hbs rfl
    . rintro rfl
      exact hdel rfl
  noReturn := by
    intro hlen hreturn
    obtain ⟨byte, rfl⟩ := length_eq_one_iff.mp hlen
    exact hrn hreturn
  noPair := by
    intro hlen hpair
    have hnul' : (0 : UInt8) ∉ body ++ [lnsep] := by
      rw [mem_append, mem_singleton]
      rintro (hmem | hmem)
      . exact hnul hmem
      . revert hmem
        decide
    rw [takeWhile_ne_nul hnul'] at hpair
    have hlength := congrArg List.length hpair
    rw [length_append, hlen] at hlength
    cases hlength

theorem insertStr_bs_join {before : List (List UInt8)} (h : txtdoc.Shows page n limit) (hok : page.Ok)
    (hhead : page.pos = 0) (hbefore : page.before = before ++ [prev]) (hrn : prev ≠ chRn) (hbs : prev ≠ [chBs, lnsep])
    (hdel : prev ≠ [chDel, lnsep]) (hroom : prev = [lnsep] ∨ limit.hardLimit = -1 ∨ n - 1 ≤ limit.hardLimit)
    : ∃ body, prev = body ++ [lnsep] ∧ TextPage.Ok ⟨before, body ++ page.cur, page.after, body.length⟩
        ∧ (insertStr chars txtdoc [chBs, 0] 1).Shows ⟨before, body ++ page.cur, page.after, body.length⟩ (n - 1) limit := by
  have hlines : page.lines = before ++ prev :: page.cur :: page.after := by
    unfold TextPage.lines
    rw [hbefore, append_assoc, singleton_append]
  have hhas := h.has
  rw [hlines] at hhas
  have hnode := has_node hhas
  have hline : IsLine prev := hok.before prev (by rw [hbefore]; exact mem_append_right _ (mem_singleton_self _))
  have hlinesBefore : ∀ line ∈ before, IsLine line := by
    intro line hmem
    exact hok.before line (by rw [hbefore]; exact mem_append_left _ hmem)
  obtain ⟨body, hprev, hsep⟩ := hline
  have hnul : (0 : UInt8) ∉ body := fun hmem => hnode.noNul (by rw [hprev]; exact mem_append_left _ hmem)
  have hplain : Plain (prev ++ [0]) body := by
    rw [hprev] at hrn hbs hdel ⊢
    exact plain_prev hsep hnul hrn hbs hdel
  have hlength : (prev.length : Int) - 1 = body.length := by
    rw [hprev, length_append, length_singleton]
    omega
  have hroomBody : Room (n - prev.length) limit.hardLimit body := by
    rcases hroom with heq | hnone | hle
    . left
      rw [hprev] at heq
      exact (append_left_inj [lnsep]).mp heq
    . exact .inr (.inl hnone)
    . right
      right
      omega
  have hdeleted := has_delNode hhas
  have hcall : insertStr chars txtdoc [chBs, 0] 1
      = { (txtdoc.txtDelNode before.length).insertString before.length 0 (prev ++ [0]) body.length with insert.posLnOff := body.length } := by
    have hfocus := h.focus 0
    rw [hhead, hbefore, length_append, length_singleton] at hfocus
    have hinner : (txtdoc.txtDelNode before.length).Focus none 0 before.length 0 := by
      constructor
      . show (markDeleted before.length txtdoc.insert).curNode = before.length
        unfold markDeleted
        rw [h.insert, hbefore, length_append, length_singleton, if_pos (by dsimp only; omega)]
        rfl
      show (markDeleted before.length txtdoc.insert).posLnOff = 0
      unfold markDeleted
      rw [h.insert]
      split
      . exact hhead
      . exact hhead
    rw [insertStr_eq chars h.selection, h.length, editNode_bs_head hfocus hnode, hlength, hbefore,
      length_append, length_singleton,
      show before.length + 1 + page.after.length = (before.length + page.after.length) + 1 by omega,
        editNode_plain hinner hplain]
    unfold insertPlain
    simp
  have hinserted := has_insertString hdeleted (Nat.zero_le _) hplain.starts hnul hroomBody
  rw [take_zero, nil_append, drop_zero] at hinserted
  rw [show n - (prev.length : Int) + body.length = n - 1 by omega] at hinserted
  refine ⟨body, hprev, ⟨hlinesBefore, shaped_append hok.cur hsep, hok.after, inside_append hok.cur body⟩, ⟨?_, ?_, ?_⟩⟩
  . rw [hcall]
    exact ⟨hinserted.nodes, hinserted.curlen, hinserted.limits⟩
  . rw [hcall]
    dsimp only
    rw [insertString_insert]
    show { curNode := (markDeleted before.length txtdoc.insert).curNode, posLnOff := body.length : TextMark } = _
    unfold markDeleted
    rw [h.insert, hbefore, length_append, length_singleton, if_pos (by dsimp only; omega)]
    rfl
  rw [hcall]
  rw [insertString_selection]
  show txtdoc.selection.map _ = none
  rw [h.selection]
  rfl

theorem insertStr_bs_head {before : List (List UInt8)} (h : txtdoc.Shows page n limit) (hok : page.Ok)
    (hhead : page.pos = 0) (hbefore : page.before = before ++ [prev]) (hjoins : JoinsBack n limit.hardLimit prev)
    : ∃ page', (insertStr chars txtdoc [chBs, 0] 1).Shows page' (n - 1) limit ∧ page'.Ok
        ∧ page'.flat = page.flat.backspace (page.flat.backspaceBytes chars) := by
  obtain ⟨hrn, hbs, hdel, hroom⟩ := hjoins
  have hne : prev ≠ chRn := by
    rintro rfl
    exact hrn (suffix_refl _)
  obtain ⟨body, hprev, hok', hshows⟩ := insertStr_bs_join chars h hok hhead hbefore hne hbs hdel hroom
  have hlinesBefore : ∀ line ∈ before, IsLine line := hok'.before
  have hline : IsLine prev := hok.before prev (by rw [hbefore]; exact mem_append_right _ (mem_singleton_self _))
  refine ⟨_, hshows, hok', ?_⟩
  have hhead' : page.flat.head = before.flatten ++ body ++ [lnsep] := by
    unfold TextPage.flat
    rw [hbefore, hhead, flatten_append, flatten_singleton, hprev, take_zero, append_nil,
      append_assoc]
  have hbytes : page.flat.backspaceBytes chars = 1 := by
    unfold FlatText.backspaceBytes
    rw [TextPage.lineHead_eq hok, hhead, take_zero, if_neg (fun hne => hne rfl), if_neg, if_neg]
    . rw [hhead', append_assoc, ← hprev, suffix_lines hlinesBefore hline]
      exact hrn
    . rw [hhead']
      simp
  unfold FlatText.backspace
  rw [hbytes, hhead', length_append, length_singleton, Nat.add_sub_cancel, take_left]
  unfold TextPage.flat
  rw [take_left, drop_left, hhead, drop_zero]

end Pages

def StartsSep (line : List UInt8) : Prop :=
  line.head? = some lnsep ∨ isRnSep line

def NextOk (n limit : Int) (next : List UInt8) : Prop :=
  StartsSep next ∨ (next ≠ [chBs] ∧ next ≠ [chDel] ∧ (next = [] ∨ limit = -1 ∨ n - 1 ≤ limit))

def JoinsNext (n limit : Int) (tail next : List UInt8) : Prop :=
  NextOk n limit next ∧ (StartsSep next → next = tail)

def DelOk (n limit : Int) (tail : List UInt8) : List (List UInt8) → Prop
  | [] => True
  | next :: _ => StartsSep tail → JoinsNext n limit tail next

variable {tail : List UInt8}

theorem nextOk_of_delOk {n limit : Int} {after : List (List UInt8)} (hdel : DelOk n limit tail after)
    : ∀ next, after.head? = some next → StartsSep tail → NextOk n limit next := by
  intro next hnext hsep
  cases after with
  | nil => cases hnext
  | cons line after =>
    cases hnext
    exact (hdel hsep).1

section Lines

variable (chars : CharLengths) {calls : Nat} {txtdoc : TextDoc} {enode : Option Nat} {insertPos pos : Nat}
  {before after : List (List UInt8)} {cur : List UInt8} {n : Int} {limit : TextLimit}

theorem isRnSep_iff : isRnSep line ↔ chRn <+: line := by
  unfold isRnSep
  rw [prefix_iff_eq_take, eq_comm]
  rfl

variable {node : TextNode} {next : List UInt8}

theorem holds_isRnSep (h : node.Holds cur) (hpos : pos ≤ cur.length)
    : isRnSep (node.string.drop pos) ↔ isRnSep (cur.drop pos) := by
  obtain ⟨rest, hstring⟩ := h.string
  rw [hstring, drop_append_of_le_length hpos]
  generalize cur.drop pos = tail
  unfold isRnSep
  match tail with
  | [] =>
    constructor
    . intro heq
      exact absurd (List.cons.inj heq).1 (by decide)
    . intro heq
      cases heq
  | [byte] =>
    constructor
    . intro heq
      exact absurd (List.cons.inj (List.cons.inj heq).2).1 (by decide)
    . intro heq
      cases heq
  | byte :: second :: more => exact Iff.rfl

theorem holds_charAt_eq (h : node.Holds cur) (hpos : pos ≤ cur.length) (byte : UInt8) (hbyte : byte ≠ 0)
    : node.charAt pos = byte ↔ (cur.drop pos).head? = some byte := by
  rw [h.charAt hpos, head?_drop, getD_eq_getElem?_getD]
  cases hget : cur[pos]? with
  | none =>
    constructor
    . intro heq
      exact absurd heq.symm hbyte
    . intro heq
      cases heq
  | some value =>
    constructor
    . intro heq
      exact congrArg some heq
    . intro heq
      exact Option.some.inj heq

theorem holds_charAt_nul (h : node.Holds cur) (hpos : pos ≤ cur.length)
    : node.charAt pos = 0 ↔ cur.drop pos = [] := by
  rw [h.charAt hpos]
  constructor
  . intro hzero
    by_contra hne
    have hlt : pos < cur.length := by
      rw [drop_eq_nil_iff] at hne
      omega
    rw [getD_eq_getElem _ _ hlt] at hzero
    exact h.noNul (hzero ▸ getElem_mem hlt)
  . intro hnil
    rw [drop_eq_nil_iff] at hnil
    rw [getD_eq_default _ _ hnil]

theorem shaped_sep (hshape : Shaped after tail) (hsep : StartsSep tail)
    : after ≠ [] ∧ (tail = [lnsep] ∨ tail = chRn) := by
  have hmem : lnsep ∈ tail := by
    rcases hsep with hhead | hrn
    . exact mem_of_head? hhead
    . exact (isRnSep_iff.mp hrn).subset (by decide)
  have hafter : after ≠ [] := by
    intro hnil
    unfold Shaped at hshape
    rw [if_pos hnil] at hshape
    exact hshape hmem
  refine ⟨hafter, ?_⟩
  unfold Shaped at hshape
  rw [if_neg hafter] at hshape
  obtain ⟨body, hline, hbody⟩ := hshape
  rcases hsep with hhead | hrn
  . left
    cases body with
    | nil => exact hline
    | cons byte body =>
      rw [hline] at hhead
      have heq : byte = lnsep := Option.some.inj hhead
      exact absurd (heq ▸ mem_cons_self) hbody
  right
  obtain ⟨more, hmore⟩ := isRnSep_iff.mp hrn
  match body with
  | [] =>
    rw [hline] at hmore
    exact absurd (List.cons.inj hmore).1 (by decide)
  | [byte] =>
    rw [hline] at hmore ⊢
    rw [← (List.cons.inj hmore).1]
    rfl
  | byte :: second :: body =>
    rw [hline] at hmore
    have heq : lnsep = second := (List.cons.inj (List.cons.inj hmore).2).1
    exact absurd (by rw [heq]; simp) hbody

theorem plain_next (hnul : (0 : UInt8) ∉ next) (hsep : next.head? ≠ some lnsep) (hrn : ¬isRnSep next)
    (hbs : next ≠ [chBs]) (hdel : next ≠ [chDel]) : Plain (next ++ [0]) next where
  starts := take_left
  noSep := by
    rintro rfl
    exact hsep rfl
  noCommand := ⟨hbs, hdel⟩
  noReturn := by
    intro hlen hreturn
    obtain ⟨byte, rfl⟩ := length_eq_one_iff.mp hlen
    exact absurd (List.cons.inj (List.cons.inj hreturn).2).1 (by decide)
  noPair := by
    intro hlen hpair
    rw [takeWhile_ne_nul hnul] at hpair
    exact hrn (by rw [hpair]; rfl)

structure Deleted (cur : List UInt8) (pos : Nat) (cur' : List UInt8) (after' : List (List UInt8)) : Prop where
  line : Shaped after' cur'
  lines : LinesOk after'
  inside : Inside after' cur' pos
  head : cur'.take pos = cur.take pos

def Removed (chars : CharLengths) (cur : List UInt8) (after : List (List UInt8)) (pos : Nat) (cur' : List UInt8)
    (after' : List (List UInt8)) : Prop :=
  cur'.drop pos ++ after'.flatten = (cur.drop pos ++ after.flatten).drop (FlatText.lineDeleteBytes chars (cur.drop pos))

theorem deleted_char (hshape : Shaped after cur) (hafter : LinesOk after) (hpos : Inside after cur pos)
    (hnul : (0 : UInt8) ∉ cur) (htail : cur.drop pos ≠ []) (hsep : ¬StartsSep (cur.drop pos))
    : pos + chars.getFirstMCharLen (cur.drop pos) ≤ cur.length
      ∧ Deleted cur pos (cur.take pos ++ cur.drop (pos + chars.getFirstMCharLen (cur.drop pos))) after
      ∧ Removed chars cur after pos (cur.take pos ++ cur.drop (pos + chars.getFirstMCharLen (cur.drop pos))) after := by
  have hle := inside_le hpos
  have hchar := chars.first _ htail (fun hmem => hnul (mem_of_mem_drop hmem))
  have hfirstSep := chars.firstSep (cur.drop pos) (fun heq => hsep (.inl heq))
  rw [length_drop] at hchar
  have hbytes : FlatText.lineDeleteBytes chars (cur.drop pos) = chars.getFirstMCharLen (cur.drop pos) := by
    unfold FlatText.lineDeleteBytes
    rw [if_neg htail, if_neg (fun hrn => hsep (.inr hrn)), if_neg (fun heq => hsep (.inl heq))]
  generalize chars.getFirstMCharLen (cur.drop pos) = chlen at *
  have hlen : (cur.take pos).length = pos := length_take_of_le hle
  have hrest : Shaped after (cur.drop (pos + chlen)) := by
    have hdrop := shaped_drop hshape hpos
    rw [← drop_drop]
    apply shaped_drop hdrop
    unfold Inside
    unfold Shaped at hdrop
    split
    . rw [length_drop]
      omega
    next hne =>
      rw [if_neg hne] at hdrop
      obtain ⟨body, hline, -⟩ := hdrop
      by_contra hnot
      apply hfirstSep
      rw [take_of_length_le (by omega), hline]
      exact mem_append_right _ (mem_singleton_self _)
  refine ⟨by omega, ⟨shaped_append hrest (shaped_take hshape hpos), hafter, ?_, ?_⟩, ?_⟩
  . have hin := inside_append hrest (cur.take pos)
    rw [hlen] at hin
    exact hin
  . conv => lhs; arg 1; rw [← hlen]
    exact take_left
  have hdrop : (cur.take pos ++ cur.drop (pos + chlen)).drop pos = cur.drop (pos + chlen) := by
    conv => lhs; arg 1; rw [← hlen]
    exact drop_left
  unfold Removed
  rw [hdrop, hbytes, drop_append_of_le_length (by rw [length_drop]; omega), drop_drop]

theorem lineDeleteBytes_sep (hsep : cur = [lnsep] ∨ cur = chRn) : FlatText.lineDeleteBytes chars cur = cur.length := by
  unfold FlatText.lineDeleteBytes
  rcases hsep with heq | heq
  . rw [heq, if_neg (by decide), if_neg (by decide), if_pos (by rfl)]
    rfl
  . rw [heq, if_neg (by decide), if_pos (by decide)]
    rfl

theorem deleted_line (hshape : Shaped (next :: after) cur) (hafter : LinesOk (next :: after))
    (hpos : Inside (next :: after) cur pos) (hnext : StartsSep next) : Deleted cur pos cur after := by
  obtain ⟨hline, hlines⟩ := (linesOk_cons next after).mp hafter
  have hne := (shaped_sep hline hnext).1
  constructor
  . unfold Shaped at hshape ⊢
    rw [if_neg hne]
    rw [if_neg (cons_ne_nil _ _)] at hshape
    exact hshape
  . exact hlines
  . unfold Inside at hpos ⊢
    rw [if_neg hne]
    rw [if_neg (cons_ne_nil _ _)] at hpos
    exact hpos
  . rfl

theorem deleted_join (hshape : Shaped (next :: after) cur) (hafter : LinesOk (next :: after))
    (hpos : Inside (next :: after) cur pos) (htail : cur.drop pos = [lnsep] ∨ cur.drop pos = chRn)
    : Deleted cur pos (cur.take pos ++ next) after ∧ Removed chars cur
      (next :: after) pos (cur.take pos ++ next) after := by
  have hlen : (cur.take pos).length = pos := length_take_of_le (inside_le hpos)
  obtain ⟨hline, hlines⟩ := (linesOk_cons next after).mp hafter
  refine ⟨⟨shaped_append hline (shaped_take hshape hpos), hlines, ?_, ?_⟩, ?_⟩
  . have hin := inside_append hline (cur.take pos)
    rw [hlen] at hin
    exact hin
  . conv => lhs; arg 1; rw [← hlen]
    exact take_left
  have hdrop : (cur.take pos ++ next).drop pos = next := by
    conv => lhs; arg 1; rw [← hlen]
    exact drop_left
  unfold Removed
  rw [hdrop, lineDeleteBytes_sep chars htail, drop_left, flatten_cons]

theorem holds_cut (h : node.Holds cur) (hpos : pos < cur.length)
    : TextNode.Holds ⟨node.string.set pos 0, pos⟩ (cur.take pos) where
  string := by
    obtain ⟨rest, hstring⟩ := h.string
    refine ⟨(cur ++ 0 :: rest).drop (pos + 1), ?_⟩
    rw [hstring, set_eq_take_append_cons_drop, if_pos (by rw [length_append]; omega),
      take_append_of_le_length (by omega)]
  txtlen := by
    rw [length_take_of_le (by omega)]
  noNul := fun hmem => h.noNul (mem_of_mem_take hmem)

theorem has_cutLine (h : txtdoc.Has (before ++ cur :: after) n limit) (hpos : pos < cur.length)
    : (txtdoc.cutLine before.length pos).Has (before ++ cur.take pos :: after) (n - 1) limit :=
  ⟨holds_set h.nodes (holds_cut (has_node h) hpos), by rw [← h.curlen]; rfl, h.limits⟩

theorem has_delNext (h : txtdoc.Has (before ++ cur :: next :: after) n limit)
    : (txtdoc.txtDelNode (before.length + 1)).Has (before ++ cur :: after) (n - next.length) limit := by
  have hsplit : before ++ cur :: next :: after = (before ++ [cur]) ++ next :: after := by
    rw [append_assoc, singleton_append]
  have hdeleted := has_delNode (hsplit ▸ h)
  rw [length_append, length_singleton, append_assoc, singleton_append] at hdeleted
  exact hdeleted

theorem has_nextNode (h : txtdoc.Has (before ++ cur :: next :: after) n limit)
    : (txtdoc.node (before.length + 1)).Holds next := by
  have hsplit : before ++ cur :: next :: after = (before ++ [cur]) ++ next :: after := by
    rw [append_assoc, singleton_append]
  have hnode := has_node (hsplit ▸ h)
  rw [length_append, length_singleton] at hnode
  exact hnode

theorem markDeleted_le {i : Nat} {mark : TextMark} (hle : mark.curNode ≤ i) : markDeleted i mark = mark :=
  if_neg (by omega)

theorem Focus.delNext (hfocus : txtdoc.Focus enode insertPos before.length pos) (doc : TextDoc)
    (hinsert : doc.insert = txtdoc.insert)
    : (doc.txtDelNode (before.length + 1)).Focus enode pos before.length pos := by
  obtain ⟨hcur, hpos⟩ := hfocus
  cases enode with
  | some e =>
    constructor
    . exact hcur
    . rfl
  | none =>
    have hcur' : txtdoc.insert.curNode = before.length := hcur
    have hmark : (doc.txtDelNode (before.length + 1)).insert = txtdoc.insert := by
      show markDeleted (before.length + 1) doc.insert = txtdoc.insert
      rw [hinsert]
      exact markDeleted_le (by omega)
    constructor
    . rw [hmark]
      exact hcur
    . rw [hmark]
      exact hpos

theorem focus_some (txtdoc : TextDoc) (i pos : Nat) : txtdoc.Focus (some i) pos i pos :=
  ⟨rfl, rfl⟩

theorem has_editNode_del (h : txtdoc.Has (before ++ cur :: after) n limit)
    (hfocus : txtdoc.Focus enode insertPos before.length pos)
    (newtext : List UInt8) (hdel : newtext.getD 0 0 = chDel) (hcalls : after.length ≤ calls) (hshape : Shaped after cur)
    (hafter : LinesOk after) (hpos : Inside after cur pos)
    (hok : ∀ next, after.head? = some next → StartsSep (cur.drop pos) → NextOk n limit.hardLimit next)
    : ∃ cur' after' n', (editNode chars (calls + 1) txtdoc enode insertPos newtext 1).1.Has (before ++ cur' :: after') n' limit
        ∧ (editNode chars (calls + 1) txtdoc enode insertPos newtext 1).2 = pos
        ∧ Deleted cur pos cur' after'
        ∧ ((∀ next, after.head? = some next → StartsSep (cur.drop pos) → StartsSep next → next = cur.drop pos)
          → Removed chars cur after pos cur' after')
        ∧ ((∀ next, after.head? = some next → cur.drop pos = chRn → StartsSep next)
          → n' - (cur'.length + after'.flatten.length) = n - (cur.length + after.flatten.length))
        ∧ n' ≤ n
        ∧ (txtdoc.insert.curNode ≤ before.length + 1
          → (editNode chars (calls + 1) txtdoc enode insertPos newtext 1).1.insert = txtdoc.insert)
        ∧ (txtdoc.selection = none → (editNode chars (calls + 1) txtdoc enode insertPos newtext 1).1.selection = none) := by
  have hnode := has_node h
  have hle := inside_le hpos
  by_cases hend : cur.drop pos = []
  . rw [editNode_del_end hfocus hdel ((holds_charAt_nul hnode hle).mpr hend)]
    refine ⟨cur, after, n, h, rfl, ⟨hshape, hafter, hpos, rfl⟩, fun _ => ?_, fun _ => rfl, Int.le_refl n, fun _ => rfl,
      fun hnone => hnone⟩
    unfold Removed FlatText.lineDeleteBytes
    rw [if_pos hend, drop_zero]
  have hchar : (txtdoc.node before.length).charAt pos ≠ 0 := fun hzero => hend ((holds_charAt_nul hnode hle).mp hzero)
  by_cases hsep : StartsSep (cur.drop pos)
  . have hsep' : (txtdoc.node before.length).charAt pos = lnsep
      ∨ isRnSep ((txtdoc.node before.length).string.drop pos) := by
      rw [holds_charAt_eq hnode hle lnsep (by decide), holds_isRnSep hnode hle]
      exact hsep
    obtain ⟨hne, htail⟩ := shaped_sep (shaped_drop hshape hpos) hsep
    cases after with
    | nil => exact absurd rfl hne
    | cons next after =>
      have hnext := has_nextNode h
      have hstarts : StartsSep next
          ↔ (txtdoc.node (before.length + 1)).charAt 0 = lnsep ∨ isRnSep (txtdoc.node (before.length + 1)).string := by
        have hrn := holds_isRnSep hnext (Nat.zero_le _)
        rw [drop_zero, drop_zero] at hrn
        have hch := holds_charAt_eq hnext (Nat.zero_le _) lnsep (by decide)
        rw [drop_zero] at hch
        unfold StartsSep
        rw [hrn, hch]
      by_cases hnextSep : StartsSep next
      . -- the line with the mark keeps its separator
        have hboth : ¬((txtdoc.node (before.length + 1)).charAt 0 ≠ lnsep
          ∧ ¬isRnSep (txtdoc.node (before.length + 1)).string) := by
          rintro ⟨hnotSep, hnotRn⟩
          rcases hstarts.mp hnextSep with hhead | hreturn
          . exact hnotSep hhead
          . exact hnotRn hreturn
        rw [editNode_del_line hfocus hdel hchar hsep' hboth]
        refine ⟨cur, after, _, has_delNext h, rfl, deleted_line hshape hafter hpos hnextSep, ?_, ?_, by omega,
          fun hin => markDeleted_le hin, ?_⟩
        . intro hsame
          unfold Removed
          rw [lineDeleteBytes_sep chars htail, drop_left, flatten_cons, hsame next rfl hsep hnextSep]
        . intro _
          rw [flatten_cons, length_append]
          omega
        intro hnone
        show txtdoc.selection.map _ = none
        rw [hnone]
        rfl
      obtain ⟨hbs, hdel', hroom⟩ := (hok next rfl hsep).resolve_left hnextSep
      have hneither : (txtdoc.node (before.length + 1)).charAt 0 ≠ lnsep
        ∧ ¬isRnSep (txtdoc.node (before.length + 1)).string :=
        ⟨fun heq => hnextSep (hstarts.mpr (.inl heq)), fun hreturn => hnextSep (hstarts.mpr (.inr hreturn))⟩
      have hlt : pos < cur.length := by
        unfold Inside at hpos
        rw [if_neg (cons_ne_nil _ _)] at hpos
        exact hpos
      have hlen : (cur.take pos).length = pos := length_take_of_le hle
      have hcut := has_delNext (has_cutLine h hlt)
      obtain ⟨calls, rfl⟩ : ∃ k, calls = k + 1 := ⟨calls - 1, by rw [length_cons] at hcalls; omega⟩
      have hfocus' := hfocus.delNext (txtdoc.cutLine before.length pos) rfl
      have hplain := plain_next hnext.noNul (fun hhead => hnextSep (.inl hhead)) (fun hreturn => hnextSep (.inr hreturn)) hbs hdel'
      rw [editNode_del_join hfocus hdel hchar hsep' hneither hnext, editNode_plain hfocus' hplain]
      have hroom' : Room (n - 1 - next.length) limit.hardLimit next := by
        rcases hroom with hnil | hnone | hle
        . exact .inl hnil
        . exact .inr (.inl hnone)
        . exact .inr (.inr (by omega))
      have hinserted := has_insertString hcut (by rw [hlen]) hplain.starts hnext.noNul hroom'
      have htake : (cur.take pos).take pos = cur.take pos := by
        rw [take_take, Nat.min_self]
      have hdrop : (cur.take pos).drop pos = [] := by
        rw [drop_eq_nil_iff, hlen]
      rw [htake, hdrop, append_nil] at hinserted
      obtain ⟨hdeleted, hremoved⟩ := deleted_join chars hshape hafter hpos htail
      refine ⟨cur.take pos ++ next, after, _, hinserted, rfl, hdeleted, fun _ => hremoved, ?_, by omega, ?_, ?_⟩
      . intro hpair
        have hone : (cur.drop pos).length = 1 := by
          rcases htail with heq | heq
          . rw [heq]
            rfl
          . exact absurd (hpair next rfl heq) hnextSep
        rw [length_drop] at hone
        rw [length_append, hlen, flatten_cons, length_append]
        omega
      . intro hin
        unfold insertPlain
        rw [insertString_insert]
        exact markDeleted_le hin
      intro hnone
      unfold insertPlain
      rw [insertString_selection]
      show txtdoc.selection.map _ = none
      rw [hnone]
      rfl
  have hsep' : ¬((txtdoc.node before.length).charAt pos = lnsep
    ∨ isRnSep ((txtdoc.node before.length).string.drop pos)) := by
    rw [holds_charAt_eq hnode hle lnsep (by decide), holds_isRnSep hnode hle]
    exact hsep
  obtain ⟨hbound, hdeleted, hbytes⟩ := deleted_char chars hshape hafter hpos hnode.noNul hend hsep
  rw [editNode_del_char hfocus hdel hnode hle hchar hsep']
  have hremoved := has_removeString h hbound (Nat.le_add_left _ _) newtext
  rw [Nat.add_sub_cancel] at hremoved
  refine ⟨_, after, _, hremoved, ?_, hdeleted, fun _ => hbytes, ?_, by omega, ?_, ?_⟩
  . unfold insertPlain
    omega
  . intro _
    rw [length_append, length_take_of_le hle, length_drop]
    omega
  . intro _
    unfold insertPlain
    rw [insertString_insert]
  intro hnone
  unfold insertPlain
  rw [insertString_selection]
  exact hnone

end Lines

end TextDoc

end MiniGui
