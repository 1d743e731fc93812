import MiniGui.Control.TextDoc

namespace MiniGui

open List

structure TextNode.Holds (node : TextNode) (line : List UInt8) : Prop where
  string : ∃ rest, node.string = line ++ 0 :: rest
  txtlen : node.txtlen = line.length
  noNul : (0 : UInt8) ∉ line

namespace TextNode.Holds

variable {node : TextNode} {line : List UInt8}

theorem text (h : node.Holds line) : node.text = line := by
  obtain ⟨rest, hstring⟩ := h.string
  unfold TextNode.text
  rw [hstring, h.txtlen, take_left]

theorem take (h : node.Holds line) {pos : Nat} (hpos : pos ≤ line.length) : node.string.take pos = line.take pos := by
  obtain ⟨rest, hstring⟩ := h.string
  rw [hstring, take_append_of_le_length hpos]

theorem moved (h : node.Holds line) {pos : Nat} (hpos : pos ≤ line.length)
    : (node.string.drop pos).take (node.txtlen + 1 - pos) = line.drop pos ++ [0] := by
  obtain ⟨rest, hstring⟩ := h.string
  rw [hstring, h.txtlen, drop_append_of_le_length hpos]
  have hlen : line.length + 1 - pos = (line.drop pos).length + 1 := by
    rw [length_drop]
    omega
  rw [hlen, take_length_add_append]
  rfl

theorem tail (h : node.Holds line) {pos : Nat} (hpos : pos ≤ line.length)
    : (node.string.drop pos).take (node.txtlen - pos) = line.drop pos := by
  obtain ⟨rest, hstring⟩ := h.string
  rw [hstring, h.txtlen, drop_append_of_le_length hpos, ← length_drop, take_left]

theorem charAt (h : node.Holds line) {pos : Nat} (hpos : pos ≤ line.length) : node.charAt pos = line.getD pos 0 := by
  obtain ⟨rest, hstring⟩ := h.string
  unfold TextNode.charAt
  rw [hstring]
  by_cases hlt : pos < line.length
  . rw [getD_append _ _ _ _ hlt]
  . have hend : pos = line.length := by omega
    rw [hend, getD_append_right _ _ _ _ (Nat.le_refl _), getD_eq_default _ _ (Nat.le_refl _), Nat.sub_self]
    rfl

theorem create (h : (0 : UInt8) ∉ line) : (TextNode.create line).Holds line where
  string := ⟨[], rfl⟩
  txtlen := rfl
  noNul := h

theorem insert (h : node.Holds line) {pos : Nat} (hpos : pos ≤ line.length) {text : List UInt8} (htext : (0 : UInt8) ∉ text)
    : TextNode.Holds ⟨node.string.take pos ++ text ++ (node.string.drop pos).take (node.txtlen + 1 - pos),
        node.txtlen + text.length⟩ (line.take pos ++ text ++ line.drop pos) where
  string := ⟨[], by rw [h.take hpos, h.moved hpos, append_assoc _ (line.drop pos)]⟩
  txtlen := by
    have hparts := congrArg List.length (take_append_drop pos line)
    rw [length_append] at hparts
    dsimp only
    rw [h.txtlen, length_append, length_append]
    omega
  noNul := by
    rw [mem_append, mem_append]
    rintro ((hmem | hmem) | hmem)
    . exact h.noNul (mem_of_mem_take hmem)
    . exact htext hmem
    . exact h.noNul (mem_of_mem_drop hmem)

theorem remove (h : node.Holds line) {pos removed : Nat} (hpos : pos ≤ line.length) (hremoved : removed ≤ pos)
    : TextNode.Holds ⟨node.string.take (pos - removed) ++ (node.string.drop pos).take (node.txtlen + 1 - pos),
        node.txtlen - removed⟩ (line.take (pos - removed) ++ line.drop pos) where
  string := ⟨[], by rw [h.take (by omega), h.moved hpos, append_assoc]⟩
  txtlen := by
    dsimp only
    rw [h.txtlen, length_append, length_take, length_drop]
    omega
  noNul := by
    rw [mem_append]
    rintro (hmem | hmem)
    . exact h.noNul (mem_of_mem_take hmem)
    . exact h.noNul (mem_of_mem_drop hmem)

end TextNode.Holds

section Nodes

variable {queue : List TextNode} {before after : List (List UInt8)} {cur : List UInt8}

theorem holds_getD (h : Forall₂ TextNode.Holds queue (before ++ cur :: after)) (default : TextNode)
    : (queue.getD before.length default).Holds cur := by
  induction before generalizing queue with
  | nil =>
    cases h with
    | cons hnode _ => exact hnode
  | cons line before ih =>
    cases h with
    | cons _ hrest => exact ih hrest

theorem holds_set (h : Forall₂ TextNode.Holds queue (before ++ cur :: after)) {node : TextNode} {line : List UInt8}
    (hnode : node.Holds line) : Forall₂ TextNode.Holds (queue.set before.length node) (before ++ line :: after) := by
  induction before generalizing queue with
  | nil =>
    cases h with
    | cons _ hrest => exact Forall₂.cons hnode hrest
  | cons line before ih =>
    cases h with
    | cons hfirst hrest => exact Forall₂.cons hfirst (ih hrest)

theorem holds_insertIdx (h : Forall₂ TextNode.Holds queue (before ++ after)) {node : TextNode} {line : List UInt8}
    (hnode : node.Holds line)
    : Forall₂ TextNode.Holds (queue.insertIdx before.length node) (before ++ line :: after) := by
  induction before generalizing queue with
  | nil => exact Forall₂.cons hnode h
  | cons line before ih =>
    cases h with
    | cons hfirst hrest => exact Forall₂.cons hfirst (ih hrest)

theorem holds_eraseIdx (h : Forall₂ TextNode.Holds queue (before ++ cur :: after))
    : Forall₂ TextNode.Holds (queue.eraseIdx before.length) (before ++ after) := by
  induction before generalizing queue with
  | nil =>
    cases h with
    | cons _ hrest => exact hrest
  | cons line before ih =>
    cases h with
    | cons hfirst hrest => exact Forall₂.cons hfirst (ih hrest)

end Nodes

namespace TextDoc

structure TextLimit where
  hardLimit : Int
  maxText : Nat

def limits (txtdoc : TextDoc) : TextLimit :=
  ⟨txtdoc.hardLimit, txtdoc.maxText⟩

structure Has (txtdoc : TextDoc) (lines : List (List UInt8)) (curlen : Int) (limit : TextLimit) : Prop where
  nodes : Forall₂ TextNode.Holds txtdoc.queue lines
  curlen : txtdoc.curlen = curlen
  limits : txtdoc.limits = limit

def Room (curlen hardLimit : Int) (text : List UInt8) : Prop :=
  text = [] ∨ hardLimit = -1 ∨ curlen + text.length ≤ hardLimit

section Steps

variable {txtdoc : TextDoc} {before after : List (List UInt8)} {cur : List UInt8} {n : Int} {limit : TextLimit}

theorem has_txtlens {lines : List (List UInt8)} (h : txtdoc.Has lines n limit)
    : lines.flatten.length = (txtdoc.queue.map TextNode.txtlen).sum := by
  have hnodes := h.nodes
  generalize txtdoc.queue = queue at hnodes
  clear h
  induction hnodes with
  | nil => rfl
  | cons hnode _ ih => rw [flatten_cons, length_append, map_cons, sum_cons, ih, hnode.txtlen]

section

variable (h : txtdoc.Has (before ++ cur :: after) n limit)
include h

theorem has_node : (txtdoc.node before.length).Holds cur :=
  holds_getD h.nodes _

theorem has_insertString {pos : Nat} (hpos : pos ≤ cur.length)
    {newtext text : List UInt8} (hnewtext : newtext.take text.length = text) (htext : (0 : UInt8) ∉ text)
    (hroom : Room n limit.hardLimit text)
    : (txtdoc.insertString before.length pos newtext text.length).Has
        (before ++ (cur.take pos ++ text ++ cur.drop pos) :: after) (n + text.length) limit := by
  have hnode := has_node h
  unfold insertString
  by_cases hlen : (text.length : Int) > 0
  . have hfits : ¬(txtdoc.hardLimit ≠ -1 ∧ txtdoc.curlen + text.length > txtdoc.hardLimit) := by
      rw [show txtdoc.hardLimit = limit.hardLimit from congrArg TextLimit.hardLimit h.limits, h.curlen]
      rintro ⟨hlimit, hover⟩
      cases hroom with
      | inl hnil =>
        rw [hnil] at hlen
        exact absurd hlen (by decide)
      | inr hrest =>
        cases hrest with
        | inl hnone => exact hlimit hnone
        | inr hle => omega
    rw [if_pos hlen, if_neg hfits, Int.toNat_natCast, hnewtext]
    exact ⟨holds_set h.nodes (hnode.insert hpos htext), by rw [h.curlen], h.limits⟩
  have hnil : text = [] := by
    rw [← length_eq_zero_iff]
    omega
  rw [if_neg hlen, hnil]
  refine ⟨?_, by simp [h.curlen], h.limits⟩
  have hsame := hnode.remove hpos (Nat.zero_le pos)
  rw [Nat.sub_zero] at hsame
  rw [append_nil]
  exact holds_set h.nodes hsame

theorem has_removeString {pos removed : Nat} (hpos : pos ≤ cur.length)
    (hremoved : removed ≤ pos) (newtext : List UInt8)
    : (txtdoc.insertString before.length pos newtext (-removed)).Has
        (before ++ (cur.take (pos - removed) ++ cur.drop pos) :: after) (n - removed) limit := by
  have hnode := has_node h
  unfold insertString
  rw [if_neg (by omega), Int.neg_neg, Int.toNat_natCast]
  refine ⟨holds_set h.nodes (hnode.remove hpos hremoved), ?_, h.limits⟩
  rw [h.curlen]
  rfl

end

theorem has_addNode {i : Nat} (h : txtdoc.Has (before ++ after) n limit) (hi : i + 1 = before.length) {line : List UInt8}
    (hline : (0 : UInt8) ∉ line) : (txtdoc.txtAddNode line i).Has (before ++ line :: after) (n + line.length) limit := by
  unfold txtAddNode
  rw [hi]
  exact ⟨holds_insertIdx h.nodes (TextNode.Holds.create hline), by rw [h.curlen], h.limits⟩

variable (h : txtdoc.Has (before ++ cur :: after) n limit)
include h

theorem has_delNode
    : (txtdoc.txtDelNode before.length).Has (before ++ after) (n - cur.length) limit := by
  unfold txtDelNode
  refine ⟨holds_eraseIdx h.nodes, ?_, h.limits⟩
  rw [h.curlen, (has_node h).txtlen]

theorem has_insertLnSep {pos : Nat} (hpos : pos ≤ cur.length) (rn : Bool)
    : (txtdoc.insertLnSep before.length pos rn).Has
        (before ++ (cur.take pos ++ if rn then chRn else [lnsep]) :: cur.drop pos :: after)
        (n + (cur.drop pos).length + (if rn then chRn else [lnsep]).length) limit := by
  have hnode := has_node h
  unfold insertLnSep
  dsimp only
  rw [hnode.tail hpos, hnode.take hpos]
  have hsplit : before ++ cur :: after = (before ++ [cur]) ++ after := by rw [append_assoc, singleton_append]
  have hadded := @has_addNode txtdoc (before ++ [cur]) after n limit before.length (hsplit ▸ h) (by simp) (cur.drop pos)
    fun hmem => hnode.noNul (mem_of_mem_drop hmem)
  rw [append_assoc, singleton_append] at hadded
  refine ⟨?_, by dsimp only; rw [hadded.curlen], hadded.limits⟩
  apply holds_set hadded.nodes
  refine ⟨⟨[], rfl⟩, ?_, ?_⟩
  . dsimp only
    rw [length_append, length_take]
    omega
  rw [mem_append]
  rintro (hmem | hmem)
  . exact hnode.noNul (mem_of_mem_take hmem)
  . cases rn <;> revert hmem <;> decide

end Steps

structure Focus (txtdoc : TextDoc) (enode : Option Nat) (insertPos curnode pos : Nat) : Prop where
  curnode : enode.getD txtdoc.insert.curNode = curnode
  pos : (if enode.isNone then txtdoc.insert.posLnOff else insertPos) = pos

section Edit

variable {chars : CharLengths} {calls : Nat} {txtdoc : TextDoc} {enode : Option Nat} {insertPos curnode pos : Nat}

structure Plain (newtext text : List UInt8) : Prop where
  starts : newtext.take text.length = text
  noSep : text ≠ [lnsep]
  noCommand : text ≠ [chBs] ∧ text ≠ [chDel]
  noReturn : text.length = 1 → ¬isRnSep newtext
  noPair : text.length = 2 → newtext.takeWhile (· ≠ 0) ≠ chRn

def cutLine (txtdoc : TextDoc) (curnode pos : Nat) : TextDoc :=
  { txtdoc.setNode curnode ⟨(txtdoc.node curnode).string.set pos 0, pos⟩ with curlen := txtdoc.curlen - 1 }

/-- `CH_DEL` at a position of a line. -/
def deleteForward (chars : CharLengths) (calls : Nat) (txtdoc : TextDoc) (enode : Option Nat) (curnode pos : Nat)
    (newtext : List UInt8) : TextDoc × Nat :=
  if (txtdoc.node curnode).charAt pos = 0 then
    (txtdoc, pos)
  else if (txtdoc.node curnode).charAt pos = lnsep ∨ isRnSep ((txtdoc.node curnode).string.drop pos) then
    if (txtdoc.node (curnode + 1)).charAt 0 ≠ lnsep ∧ ¬isRnSep (txtdoc.node (curnode + 1)).string then
      let joined := editNode chars calls ((txtdoc.cutLine curnode pos).txtDelNode (curnode + 1)) enode pos
        ((txtdoc.node (curnode + 1)).text ++ [0]) (txtdoc.node (curnode + 1)).txtlen
      (joined.1, pos)
    else
      (txtdoc.txtDelNode (curnode + 1), pos)
  else
    txtdoc.insertPlain curnode
      (pos + chars.getFirstMCharLen
        (((txtdoc.node curnode).string.drop pos).take ((txtdoc.node curnode).txtlen - pos)))
      newtext
      (-chars.getFirstMCharLen
        (((txtdoc.node curnode).string.drop pos).take ((txtdoc.node curnode).txtlen - pos)))

theorem editNode_focus (h : txtdoc.Focus enode insertPos curnode pos) (newtext : List UInt8) (len : Int)
    : editNode chars (calls + 1) txtdoc enode insertPos newtext len
        = if len = 1 ∨ (len = 2 ∧ newtext.takeWhile (· ≠ 0) = chRn) then
            if newtext.getD 0 0 = lnsep ∨ isRnSep newtext then
              if enode.isNone then
                ({ txtdoc.insertLnSep curnode pos (decide (len = 2)) with insert.curNode := curnode + 1 }, 0)
              else
                (txtdoc.insertLnSep curnode pos (decide (len = 2)), pos)
            else if newtext.getD 0 0 = chBs then
              if pos = 0 then
                if curnode = 0 then
                  (txtdoc, pos)
                else
                  let joined := editNode chars calls (txtdoc.txtDelNode (curnode - 1)) (enode.map (· - 1)) pos
                    ((txtdoc.node (curnode - 1)).text ++ [0]) ((txtdoc.node (curnode - 1)).txtlen - 1)
                  (joined.1, pos + joined.2)
              else
                txtdoc.insertPlain curnode pos newtext
                  (-chars.getLastMCharLen ((txtdoc.node curnode).string.take pos))
            else if newtext.getD 0 0 = chDel then
              deleteForward chars calls txtdoc enode curnode pos newtext
            else
              txtdoc.insertPlain curnode pos newtext len
          else
            txtdoc.insertPlain curnode pos newtext len := by
  conv => lhs; unfold editNode
  rw [h.curnode, h.pos]
  rfl

theorem editNode_plain (h : txtdoc.Focus enode insertPos curnode pos) {newtext text : List UInt8}
    (hplain : Plain newtext text)
    : editNode chars (calls + 1) txtdoc enode insertPos newtext text.length
        = txtdoc.insertPlain curnode pos newtext text.length := by
  rw [editNode_focus h]
  by_cases hone : (text.length : Int) = 1
  . have hlen : text.length = 1 := by omega
    rw [if_pos (.inl hone)]
    obtain ⟨byte, hbyte⟩ := length_eq_one_iff.mp hlen
    have hstarts := hplain.starts
    rw [hlen, hbyte] at hstarts
    have hfirst : newtext.getD 0 0 = byte := by
      cases newtext with
      | nil => cases hstarts
      | cons first rest => simpa using hstarts
    have hnotSep : ¬(newtext.getD 0 0 = lnsep ∨ isRnSep newtext) := by
      rintro (hsep | hrn)
      . exact hplain.noSep (by rw [hbyte, ← hfirst, hsep])
      . exact hplain.noReturn hlen hrn
    rw [if_neg hnotSep, hfirst, if_neg, if_neg]
    . intro hdel
      exact hplain.noCommand.2 (by rw [hbyte, hdel])
    . intro hbs
      exact hplain.noCommand.1 (by rw [hbyte, hbs])
  . rw [if_neg]
    rintro (hlen | ⟨hlen, hrn⟩)
    . exact hone hlen
    . exact hplain.noPair (by omega) hrn

theorem editNode_sep (h : txtdoc.Focus none insertPos curnode pos) (rn : Bool)
    : editNode chars (calls + 1) txtdoc none insertPos ((if rn then chRn else [lnsep]) ++ [0])
          (if rn then chRn else [lnsep]).length
        = ({ txtdoc.insertLnSep curnode pos rn with insert.curNode := curnode + 1 }, 0) := by
  rw [editNode_focus h]
  cases rn with
  | false | true =>
    rw [if_pos (by decide), if_pos (by decide)]
    rfl

theorem editNode_bs (h : txtdoc.Focus none insertPos curnode pos) {line : List UInt8}
    (hnode : (txtdoc.node curnode).Holds line) (hpos : pos ≤ line.length) (hinside : pos ≠ 0)
    : editNode chars (calls + 1) txtdoc none insertPos [chBs, 0] 1
        = txtdoc.insertPlain curnode pos [chBs, 0] (-chars.getLastMCharLen (line.take pos)) := by
  rw [editNode_focus h, if_pos (.inl rfl), if_neg (by decide), if_pos (by rfl), if_neg hinside, hnode.take hpos]

theorem editNode_bs_first (h : txtdoc.Focus none insertPos 0 0)
    : editNode chars (calls + 1) txtdoc none insertPos [chBs, 0] 1 = (txtdoc, 0) := by
  rw [editNode_focus h, if_pos (.inl rfl), if_neg (by decide), if_pos (by rfl), if_pos rfl, if_pos rfl]

theorem editNode_bs_head (h : txtdoc.Focus none insertPos (curnode + 1) 0) {line : List UInt8}
    (hnode : (txtdoc.node curnode).Holds line)
    : editNode chars (calls + 1) txtdoc none insertPos [chBs, 0] 1
        = let joined := editNode chars calls (txtdoc.txtDelNode curnode) none 0 (line ++ [0]) (line.length - 1)
          (joined.1, 0 + joined.2) := by
  rw [editNode_focus h, if_pos (.inl rfl), if_neg (by decide), if_pos (by rfl), if_pos rfl, if_neg (by omega),
    Nat.add_sub_cancel, hnode.text, hnode.txtlen]
  rfl

variable {newtext : List UInt8}

theorem not_isSep_of_del (hdel : newtext.getD 0 0 = chDel)
    : ¬(newtext.getD 0 0 = lnsep ∨ isRnSep newtext) := by
  rw [hdel]
  rintro (hsep | hrn)
  . exact absurd hsep (by decide)
  cases newtext with
  | nil => cases hrn
  | cons first rest =>
    have hfirst : first = carriageReturn := (List.cons.inj hrn).1
    have hsame : first = chDel := hdel
    rw [hfirst] at hsame
    exact absurd hsame (by decide)

variable (h : txtdoc.Focus enode insertPos curnode pos) (hdel : newtext.getD 0 0 = chDel)

include h hdel

theorem editNode_del
    : editNode chars (calls + 1) txtdoc enode insertPos newtext 1
        = deleteForward chars calls txtdoc enode curnode pos newtext := by
  rw [editNode_focus h, if_pos (.inl rfl), if_neg (not_isSep_of_del hdel), hdel, if_neg (by decide), if_pos rfl]

theorem editNode_del_end (hend : (txtdoc.node curnode).charAt pos = 0)
    : editNode chars (calls + 1) txtdoc enode insertPos newtext 1 = (txtdoc, pos) := by
  rw [editNode_del h hdel, deleteForward, if_pos hend]

theorem editNode_del_char {line : List UInt8} (hnode : (txtdoc.node curnode).Holds line)
    (hpos : pos ≤ line.length) (hchar : (txtdoc.node curnode).charAt pos ≠ 0)
    (hnotSep : ¬((txtdoc.node curnode).charAt pos = lnsep ∨ isRnSep ((txtdoc.node curnode).string.drop pos)))
    : editNode chars (calls + 1) txtdoc enode insertPos newtext 1
        = txtdoc.insertPlain curnode (pos + chars.getFirstMCharLen (line.drop pos)) newtext
            (-chars.getFirstMCharLen (line.drop pos)) := by
  rw [editNode_del h hdel, deleteForward, if_neg hchar, if_neg hnotSep, hnode.tail hpos]

variable (hchar : (txtdoc.node curnode).charAt pos ≠ 0)
include hchar

variable (hsep : (txtdoc.node curnode).charAt pos = lnsep ∨ isRnSep ((txtdoc.node curnode).string.drop pos))
include hsep

theorem editNode_del_line
    (hnext : ¬((txtdoc.node (curnode + 1)).charAt 0 ≠ lnsep ∧ ¬isRnSep (txtdoc.node (curnode + 1)).string))
    : editNode chars (calls + 1) txtdoc enode insertPos newtext 1 = (txtdoc.txtDelNode (curnode + 1), pos) := by
  rw [editNode_del h hdel, deleteForward, if_neg hchar, if_pos hsep, if_neg hnext]

theorem editNode_del_join
    (hnext : (txtdoc.node (curnode + 1)).charAt 0 ≠ lnsep ∧ ¬isRnSep (txtdoc.node (curnode + 1)).string)
    {line : List UInt8} (hnode : (txtdoc.node (curnode + 1)).Holds line)
    : editNode chars (calls + 1) txtdoc enode insertPos newtext 1
        = ((editNode chars calls ((txtdoc.cutLine curnode pos).txtDelNode (curnode + 1)) enode pos (line ++ [0])
            line.length).1, pos) := by
  rw [editNode_del h hdel, deleteForward, if_neg hchar, if_pos hsep, if_pos hnext, hnode.text, hnode.txtlen]

end Edit

end TextDoc

end MiniGui
