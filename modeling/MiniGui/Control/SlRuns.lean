import Mathlib.Data.List.GetD
import MiniGui.Control.SlAlign

namespace MiniGui

inductive SlMessage where
  | char (wParam : BitVec 32)
  | remove
  | home (shift : Bool)
  | «end» (shift : Bool)
  | left (shift : Bool)
  | right (shift : Bool)
  | selectAll
  | cut
  | paste (clipboard : List UInt8)
  | insert
  | lButtonDown (x y : Int)
  | mouseMove (x y : Int)
  | setSel (charPos : Int)
  | setCaretPos (charPos : Int)
  | insertText (newtext : List UInt8) (len : Int)
  | setText (str : List UInt8) (fresh : Int → UInt8)
  | limitText (newLimit : Int)
  | setFocus (byTab : Bool)
  | killFocus

def beforeNul (text : List UInt8) : List UInt8 :=
  text.takeWhile (· ≠ 0)

namespace SlEdit

section Messages

variable (window : SlWindow) (s : SlEdit)

def posOf (charPos : Int) : Option Int :=
  if charPos < 0 then
    none
  else
    let posChars := window.chars.positions s.text
    if charPos > posChars.length then
      none
    else if charPos = posChars.length then
      some s.txtlen
    else
      some (posChars.getD charPos.toNat 0)

def refreshCaret : SlEdit :=
  let outchar : Int := window.extentPoint s.text 0
  { s with editPos := if window.align = .right then outchar else if window.align = .center then outchar / 2 else 0 }

def setText (fresh : Int → UInt8) (newtext : List UInt8) : SlEdit :=
  let text := beforeNul newtext
  let txtlen : Int := text.length
  if s.hardLimit ≥ 0 ∧ txtlen > s.hardLimit then
    s
  else
    let buffsize := blockSizeOf (if txtlen ≤ 0 then slBlockSize else txtlen)
    if txtlen > 0 then
      let datalen := min txtlen (buffsize - 1)
      { s with buffsize := buffsize, mem := memSet (memCopy fresh 0 text datalen) datalen 0, txtlen := datalen }
    else
      { s with buffsize := buffsize, mem := fresh, txtlen := 0 }

def resetText (fresh : Int → UInt8) (str : List UInt8) : SlEdit :=
  let buffer := if window.password then checkValidPasswd str else str
  let freed := { s with
    replace := false
    focused := false
    tmp := false
    selStart := 0
    selEnd := 0
    buffsize := 0
    txtlen := 0 }
  (freed.setText fresh buffer).refreshCaret window

def insertText (newtext : List UInt8) (len : Int) : SlEdit :=
  let realen : Int := (beforeNul newtext).length
  let len := if len > realen then realen else len
  if len ≤ 0 then
    s
  else if window.readonly then
    s
  else
    s.sleInsertText window (some (((beforeNul newtext).take len.toNat).map (caseOf window))) len

def create (window : SlWindow) (fresh : Int → UInt8) (spCaption : List UInt8) : SlEdit :=
  (setText ⟨fresh, 0, 0, 0, 0, 0, -1, false, false, false⟩ fresh spCaption).refreshCaret window

def onSetFocus (byTab : Bool) : SlEdit :=
  if s.focused then
    s
  else
    let t := { s with focused := true }
    if window.autoselect then
      let t := t.sleSetSel 0 t.txtlen
      if byTab then { t with tmp := true } else t
    else
      t

def onKillFocus : SlEdit :=
  if s.focused then
    let t := { s with focused := false }
    if s.selStart ≠ s.selEnd ∧ window.nohidesel = false then
      { t with selStart := s.editPos, selEnd := s.editPos }
    else
      t
  else
    s

def onMessage : SlMessage → SlEdit
  | .char wParam => s.onChar window wParam
  | .remove => s.remove window
  | .home shift =>
    if shift then
      { s with selStart := 0, selEnd := s.editPos }
    else
      { s with editPos := 0, selStart := 0, selEnd := 0 }
  | .«end» shift =>
    if shift then
      { s with selStart := s.editPos, selEnd := s.txtlen }
    else
      { s with editPos := s.txtlen, selStart := s.txtlen, selEnd := s.txtlen }
  | .left shift => s.cursorLeft window shift
  | .right shift => s.cursorRight window shift
  | .selectAll => s.sleSetSel 0 s.txtlen
  | .cut => if s.selEnd - s.selStart > 0 ∧ window.readonly = false then s.sleInsertText window none 0 else s
  | .paste clipboard => if window.readonly then s else s.sleInsertText window (some clipboard) clipboard.length
  | .insert => { s with replace := !s.replace }
  | .lButtonDown x y =>
    if s.tmp then
      { s with tmp := false }
    else if y < window.visTop ∨ y > window.visBottom then
      s
    else
      s.setCaretPos window x false
  | .mouseMove x y => s.sleMouseMove window x y
  | .setSel charPos => match s.posOf window charPos with
    | none => s
    | some pos => if s.editPos < pos then s.sleSetSel s.editPos pos else s.sleSetSel pos s.editPos
  | .setCaretPos charPos => match s.posOf window charPos with
    | none => s
    | some pos => { s with editPos := pos, selStart := 0, selEnd := 0 }
  | .insertText newtext len => s.insertText window newtext len
  | .setText str fresh => s.resetText window fresh str
  | .limitText newLimit =>
    if newLimit ≥ 0 then
      if s.txtlen > newLimit then s else { s with hardLimit := newLimit }
    else
      s
  | .setFocus byTab => s.onSetFocus window byTab
  | .killFocus => s.onKillFocus window

def run (messages : List (SlWindow × SlMessage)) : SlEdit :=
  messages.foldl (fun s message => s.onMessage message.1 message.2) s

structure Inv : Prop where
  selStart_nonneg : 0 ≤ s.selStart
  selStart_le : s.selStart ≤ s.selEnd
  selEnd_le : s.selEnd ≤ s.txtlen
  editPos_nonneg : 0 ≤ s.editPos
  editPos_le : s.editPos ≤ s.txtlen
  limit : s.hardLimit ≥ 0 → s.txtlen ≤ s.hardLimit
  room : s.txtlen + 1 ≤ s.buffsize
  terminated : s.mem s.txtlen = 0

def DeletionOk (newtext : Option (List UInt8)) : Prop :=
  s.selStart ≠ s.selEnd →
    let txtlen := s.txtlen - (s.selEnd - s.selStart)
    s.mem txtlen = 0
      ∨ s.replace = true ∧ (s.hardLimit ≥ 0 → txtlen < s.hardLimit)
        ∧ ∃ text, newtext = some text ∧ txtlen < s.selStart + text.length

def MessageOk : SlMessage → Prop
  | .char wParam =>
    match inserted window (.char wParam) with
    | some bytes => s.DeletionOk (some bytes)
    | none => window.readonly = false → wParam = 8 ∨ wParam = 127 → s.DeletionOk none
  | .remove | .cut => window.readonly = false → s.DeletionOk none
  | .paste clipboard => window.readonly = false → s.DeletionOk (some clipboard)
  | .insertText newtext len =>
    window.readonly = false → len > 0 → (beforeNul newtext).length > 0 →
      s.DeletionOk (some ((beforeNul newtext).take len.toNat))
  | .left true =>
    s.selStart ≠ s.selEnd → s.editPos ≤ s.selStart → s.chlenPrev window s.selEnd ≤ s.selEnd - s.selStart
  | .right true =>
    s.selStart ≠ s.selEnd → s.selEnd ≤ s.editPos → s.chlenNext window s.selStart ≤ s.selEnd - s.selStart
  | .setText str fresh =>
    (s.hardLimit ≥ 0 → (beforeNul str).length ≤ s.hardLimit) ∧ (beforeNul str = [] → fresh 0 = 0)
  | _ => True

end Messages

def RunOk : SlEdit → List (SlWindow × SlMessage) → Prop
  | _, [] => True
  | s, message :: messages => s.MessageOk message.1 message.2 ∧ RunOk (s.onMessage message.1 message.2) messages

section Insertion

variable {window : SlWindow} {s : SlEdit}

theorem le_blockSizeOf (len : Int) : len + 1 ≤ blockSizeOf len := by
  have h : (len + 1) % slBlockSize < slBlockSize := Int.emod_lt_of_pos _ (by decide)
  unfold blockSizeOf
  omega

theorem testrRealloc_eq (s : SlEdit) (len : Int)
    : s.testrRealloc len = { s with buffsize := (s.testrRealloc len).buffsize } := by
  unfold testrRealloc
  split
  . rfl
  . rfl

theorem testrRealloc_room (s : SlEdit) (len : Int) : len + 1 ≤ (s.testrRealloc len).buffsize := by
  unfold testrRealloc
  split
  . exact le_blockSizeOf len
  case isFalse h => omega

structure CanStore (s : SlEdit) (inserting : Int) : Prop where
  editPos_nonneg : 0 ≤ s.editPos
  editPos_le : s.editPos ≤ s.txtlen
  before : 0 ≤ s.editPos + inserting
  limit : s.hardLimit ≥ 0 → s.txtlen ≤ s.hardLimit
  within : s.hardLimit ≥ 0 → inserting > 0 →
    (if s.replace then s.editPos + inserting else s.txtlen + inserting) ≤ s.hardLimit
  room : s.txtlen + 1 ≤ s.buffsize
  terminated : s.mem s.txtlen = 0 ∨ s.replace = true ∧ s.txtlen < s.editPos + inserting

variable {inserting : Int}

section

variable (hcan : s.CanStore inserting)
include hcan

theorem storeText_insert_inv (hpos : inserting > 0)
    (hreplace : s.replace = false) (newtext : List UInt8) : (s.storeText newtext inserting).Inv := by
  obtain ⟨hnonneg, hle, -, hlimit, hwithin, hroom, hterm⟩ := hcan
  have hgrown := testrRealloc_room s (s.txtlen + inserting)
  have hnul : s.mem s.txtlen = 0 := by
    rcases hterm with h | ⟨h, -⟩
    . exact h
    . rw [hreplace] at h
      exact Bool.noConfusion h
  unfold storeText lengthen moveText
  rw [if_pos hpos, testrRealloc_eq, hreplace]
  rw [if_pos (.inr rfl), if_neg Bool.false_ne_true]
  rw [hreplace, if_neg Bool.false_ne_true] at hwithin
  constructor
  all_goals dsimp only
  case terminated =>
    -- the byte behind the text is moved with it, behind what is copied in
    unfold memCopy memMove
    rw [if_neg (by omega), if_pos (by omega), ← hnul]
    congr 1
    omega
  all_goals omega

theorem storeText_replace_inv (hpos : inserting > 0)
    (hreplace : s.replace = true) (newtext : List UInt8) : (s.storeText newtext inserting).Inv := by
  obtain ⟨hnonneg, hle, -, hlimit, hwithin, hroom, hterm⟩ := hcan
  have hgrown := testrRealloc_room s (s.txtlen + inserting)
  unfold storeText lengthen moveText
  rw [if_pos hpos, testrRealloc_eq, hreplace]
  rw [if_neg (by
    rintro (h | h)
    . omega
    . exact Bool.noConfusion h)]
  rw [hreplace, if_pos rfl] at hwithin
  by_cases hend : inserting - s.txtlen + s.editPos > 0
  . rw [if_pos hend]
    constructor
    all_goals dsimp only
    case terminated => exact if_pos rfl
    all_goals omega
  rw [if_neg hend]
  constructor
  all_goals dsimp only
  case terminated =>
    unfold memCopy
    rw [if_neg (by omega), if_pos rfl]
    rcases hterm with h | ⟨-, h⟩
    . exact h
    . omega
  all_goals omega

theorem storeText_delete_inv (hle : inserting ≤ 0)
    (newtext : List UInt8) : (s.storeText newtext inserting).Inv := by
  obtain ⟨hnonneg, heditPos, hbefore, hlimit, -, hroom, hterm⟩ := hcan
  have hnul : s.mem s.txtlen = 0 := by
    rcases hterm with h | ⟨-, h⟩
    . exact h
    . omega
  unfold storeText lengthen moveText
  rw [if_neg (show ¬inserting > 0 by omega)]
  by_cases hneg : inserting < 0
  . rw [if_pos hneg, testrRealloc_eq]
    have hshrunk := testrRealloc_room
      { s with mem := memMove s.mem (s.editPos + inserting) s.editPos (s.txtlen + 1 - s.editPos) } (s.txtlen + inserting)
    rw [if_pos (.inl hle)]
    constructor
    all_goals dsimp only
    case terminated =>
      unfold memMove
      rw [if_pos (by omega), ← hnul]
      congr 1
      omega
    all_goals omega
  rw [if_neg hneg, if_pos (.inl hle)]
  constructor
  all_goals dsimp only
  case terminated =>
    rw [← hnul]
    congr 1
    omega
  all_goals omega

theorem storeText_inv (newtext : List UInt8) : (s.storeText newtext inserting).Inv := by
  by_cases hpos : inserting > 0
  . cases hreplace : s.replace with
    | false => exact storeText_insert_inv hcan hpos hreplace newtext
    | true => exact storeText_replace_inv hcan hpos hreplace newtext
  . exact storeText_delete_inv hcan (by omega) newtext

end

theorem limited_canStore (refresh : Bool) (inserting : Int) (hcaret : 0 ≤ s.editPos ∧ s.editPos ≤ s.txtlen)
    (hlimit : s.hardLimit ≥ 0 → s.txtlen ≤ s.hardLimit) (hroom : s.txtlen + 1 ≤ s.buffsize)
    (hbefore : 0 ≤ s.editPos + inserting) (hterm : s.mem s.txtlen = 0
      ∨ s.replace = true ∧ (s.hardLimit ≥ 0 → s.txtlen < s.hardLimit) ∧ s.txtlen < s.editPos + inserting)
    : (∃ n, s.limited refresh inserting = some n ∧ s.CanStore n)
      ∨ s.limited refresh inserting = none ∧ s.replace = false := by
  obtain ⟨hnonneg, hle⟩ := hcaret
  unfold limited
  by_cases hover : s.replace = false ∧ inserting > 0 ∧ s.hardLimit ≥ 0 ∧ s.txtlen + inserting > s.hardLimit
  . rw [if_pos hover]
    cases refresh with
    | false => exact .inr ⟨rfl, hover.1⟩
    | true =>
      have hbelow := hlimit hover.2.2.1
      refine .inl ⟨_, rfl, hnonneg, hle, ?_, hlimit, ?_, hroom, ?_⟩
      . omega
      . intro _ _
        rw [hover.1, if_neg Bool.false_ne_true]
        omega
      rcases hterm with h | ⟨h, -⟩
      . exact .inl h
      . rw [hover.1] at h
        exact Bool.noConfusion h
  rw [if_neg hover]
  by_cases hreplace : s.replace = true ∧ inserting > 0 ∧ s.hardLimit ≥ 0 ∧ s.editPos + inserting > s.hardLimit
  . rw [if_pos hreplace]
    have hbelow := hlimit hreplace.2.2.1
    refine .inl ⟨_, rfl, hnonneg, hle, ?_, hlimit, ?_, hroom, ?_⟩
    . omega
    . intro _ _
      rw [if_pos hreplace.1]
      omega
    rcases hterm with h | ⟨h, hend, -⟩
    . exact .inl h
    . have hbelow := hend hreplace.2.2.1
      exact .inr ⟨h, by omega⟩
  rw [if_neg hreplace]
  refine .inl ⟨_, rfl, hnonneg, hle, hbefore, hlimit, ?_, hroom, ?_⟩
  . intro hlimited hpos
    cases h : s.replace with
    | false =>
      rw [if_neg Bool.false_ne_true]
      by_contra hgt
      exact hover ⟨h, hpos, hlimited, by omega⟩
    | true =>
      rw [if_pos rfl]
      by_contra hgt
      exact hreplace ⟨h, hpos, hlimited, by omega⟩
  . rcases hterm with h | ⟨h, -, hend⟩
    . exact .inl h
    . exact .inr ⟨h, hend⟩

theorem deleteSelected_some (hsel : s.selStart ≠ s.selEnd) : s.deleteSelected.editPos = s.selStart
      ∧ s.deleteSelected.selStart = s.selStart
      ∧ s.deleteSelected.selEnd = s.selStart
      ∧ s.deleteSelected.txtlen = s.txtlen - (s.selEnd - s.selStart)
      ∧ s.deleteSelected.mem s.deleteSelected.txtlen = s.mem (s.txtlen - (s.selEnd - s.selStart))
      ∧ s.deleteSelected.hardLimit = s.hardLimit
      ∧ s.deleteSelected.replace = s.replace
      ∧ s.deleteSelected.buffsize = s.buffsize := by
  unfold deleteSelected
  rw [if_pos hsel]
  refine ⟨rfl, rfl, rfl, rfl, if_neg ?_, rfl, rfl, rfl⟩
  rintro ⟨-, hlt⟩
  dsimp only at hlt
  omega

theorem deleteSelected_inv (h : s.Inv) (hsel : s.selStart ≠ s.selEnd)
    (hterm : s.mem (s.txtlen - (s.selEnd - s.selStart)) = 0) : s.deleteSelected.Inv := by
  obtain ⟨heditPos, hselStart, hselEnd, htxtlen, hmem, hlimit, -, hbuffsize⟩ := deleteSelected_some hsel
  obtain ⟨h0, h1, h2, h3, h4, h5, h6, -⟩ := h
  constructor
  case terminated => rw [hmem, hterm]
  all_goals omega

theorem Inv.canStore (h : s.Inv) (hle : inserting ≤ 0) (hbefore : 0 ≤ s.editPos + inserting)
    : s.CanStore inserting where
  editPos_nonneg := h.editPos_nonneg
  editPos_le := h.editPos_le
  before := hbefore
  limit := h.limit
  within := by
    intro _ hpos
    omega
  room := h.room
  terminated := .inl h.terminated

theorem insertTextBy_some_inv (refresh : Bool) (h : s.Inv) (text : List UInt8) (hok : s.DeletionOk (some text))
    : (insertTextBy refresh window s (some text) text.length).Inv := by
  unfold insertTextBy
  dsimp only
  rw [if_neg (fun hand => nomatch hand.2)]
  generalize (Option.map _ (some text)).getD [] = stored
  by_cases hsel : s.selStart = s.selEnd
  . rw [deleteSelected_none hsel]
    rcases limited_canStore refresh text.length ⟨h.editPos_nonneg, h.editPos_le⟩ h.limit h.room
      (by have := h.editPos_nonneg; omega) (.inl h.terminated) with ⟨n, heq, hcan⟩ | ⟨heq, -⟩
    . rw [heq]
      exact storeText_inv hcan stored
    . rw [heq]
      exact h
  have hinv := deleteSelected_inv h hsel
  obtain ⟨heditPos, -, -, htxtlen, hmem, hlimit, hreplace, hbuffsize⟩ := deleteSelected_some hsel
  obtain ⟨h0, h1, h2, h3, h4, h5, h6, -⟩ := h
  have hterm : s.deleteSelected.mem s.deleteSelected.txtlen = 0
      ∨ s.deleteSelected.replace = true
        ∧ (s.deleteSelected.hardLimit ≥ 0 → s.deleteSelected.txtlen < s.deleteSelected.hardLimit)
        ∧ s.deleteSelected.txtlen < s.deleteSelected.editPos + text.length := by
    rw [hmem, hreplace, hlimit, htxtlen, heditPos]
    rcases hok hsel with hnul | ⟨hmode, hend, newtext, heq, hlong⟩
    . exact .inl hnul
    . obtain rfl := Option.some.inj heq
      exact .inr ⟨hmode, hend, hlong⟩
  rcases limited_canStore refresh text.length (by rw [heditPos, htxtlen]; omega) (by rw [hlimit, htxtlen]; omega)
    (by rw [hbuffsize, htxtlen]; omega) (by rw [heditPos]; omega) hterm with ⟨n, heq, hcan⟩ | ⟨heq, hmode⟩
  . rw [heq]
    exact storeText_inv hcan stored
  rw [heq]
  rw [hreplace] at hmode
  refine hinv ?_
  rcases hok hsel with hnul | ⟨hmode', -⟩
  . exact hnul
  . rw [hmode] at hmode'
    exact Bool.noConfusion hmode'

theorem insertTextBy_none_inv (refresh : Bool) (h : s.Inv) {del : Int} (hle : del ≤ 0)
    (hbefore : s.selStart = s.selEnd → 0 ≤ s.editPos + del) (hok : s.DeletionOk none)
    : (insertTextBy refresh window s none del).Inv := by
  unfold insertTextBy
  dsimp only
  by_cases hsel : s.selStart = s.selEnd
  . rw [deleteSelected_none hsel, if_neg (fun hand => hand.1 hsel), limited_of_le s refresh hle]
    exact storeText_inv (h.canStore hle (hbefore hsel)) _
  rw [if_pos ⟨hsel, rfl⟩, limited_of_le _ refresh (Int.le_refl 0)]
  have hnul : s.mem (s.txtlen - (s.selEnd - s.selStart)) = 0 := by
    rcases hok hsel with hnul | ⟨-, -, text, heq, -⟩
    . exact hnul
    . exact nomatch heq
  have hinv := deleteSelected_inv h hsel hnul
  exact storeText_inv (hinv.canStore (Int.le_refl 0) (by have := hinv.editPos_nonneg; omega)) _

end Insertion

section Caret

variable {window : SlWindow} {s : SlEdit}

theorem Inv.withCaret (h : s.Inv) {selStart selEnd editPos : Int} (hstart : 0 ≤ selStart) (hle : selStart ≤ selEnd)
    (hend : selEnd ≤ s.txtlen) (hcaret : 0 ≤ editPos ∧ editPos ≤ s.txtlen)
    : Inv { s with selStart := selStart, selEnd := selEnd, editPos := editPos } where
  selStart_nonneg := hstart
  selStart_le := hle
  selEnd_le := hend
  editPos_nonneg := hcaret.1
  editPos_le := hcaret.2
  limit := h.limit
  room := h.room
  terminated := h.terminated

theorem Inv.withSel (h : s.Inv) {selStart selEnd : Int} (hstart : 0 ≤ selStart) (hle : selStart ≤ selEnd)
    (hend : selEnd ≤ s.txtlen) : Inv { s with selStart := selStart, selEnd := selEnd } :=
  h.withCaret hstart hle hend ⟨h.editPos_nonneg, h.editPos_le⟩

theorem length_text (s : SlEdit) : s.text.length = s.txtlen.toNat := by
  simp [text, memBytes]

theorem chlenNext_le (window : SlWindow) (s : SlEdit) (pos : Int) (hnonneg : 0 ≤ pos) (hle : pos ≤ s.txtlen)
    : 0 ≤ s.chlenNext window pos ∧ pos + s.chlenNext window pos ≤ s.txtlen := by
  have hfirst := window.chars.first_le (s.text.drop pos.toNat)
  rw [List.length_drop, length_text] at hfirst
  unfold chlenNext
  omega

theorem chlenPrev_le (window : SlWindow) (s : SlEdit) (pos : Int) (hnonneg : 0 ≤ pos)
    : 0 ≤ s.chlenPrev window pos ∧ s.chlenPrev window pos ≤ pos := by
  have hlast := window.chars.last_le (s.text.take pos.toNat)
  rw [List.length_take] at hlast
  unfold chlenPrev
  omega

theorem extentPoint_le (window : SlWindow) (s : SlEdit) (h : 0 ≤ s.txtlen) (x : Int)
    : (window.extentPoint s.text x : Int) ≤ s.txtlen := by
  have hle := window.extentPoint_le s.text x
  rw [length_text] at hle
  omega

variable (h : s.Inv)
include h

theorem Inv.txtlen_nonneg : 0 ≤ s.txtlen := by
  have hnonneg := h.editPos_nonneg
  have hle := h.editPos_le
  omega

theorem sleSetSel_inv (selStart selEnd : Int) (hle : selStart ≤ selEnd) (hend : selEnd ≤ s.txtlen)
    : (s.sleSetSel selStart selEnd).Inv := by
  unfold sleSetSel
  split
  . exact h
  have hstart : 0 ≤ (if selStart < 0 then 0 else selStart)
      ∧ (if selStart < 0 then 0 else selStart) ≤ (if selEnd < 0 then s.txtlen else selEnd)
      ∧ (if selEnd < 0 then s.txtlen else selEnd) ≤ s.txtlen := by
    split_ifs
    all_goals omega
  dsimp only
  generalize (if selStart < 0 then 0 else selStart) = first at hstart
  generalize (if selEnd < 0 then s.txtlen else selEnd) = last at hstart
  split
  . exact h
  . exact h.withSel hstart.1 hstart.2.1 hstart.2.2

theorem setCaretPos_inv (x : Int) (bSel : Bool) : (s.setCaretPos window x bSel).Inv := by
  have hnonneg := h.txtlen_nonneg
  have hextent : (0 : Int) ≤ (if window.toContent x ≤ 0 then 0 else window.extentPoint s.text (window.toContent x) : Int)
      ∧ (if window.toContent x ≤ 0 then 0 else window.extentPoint s.text (window.toContent x) : Int) ≤ s.txtlen := by
    split
    . exact ⟨Int.le_refl 0, hnonneg⟩
    . exact ⟨Int.natCast_nonneg _, extentPoint_le window s hnonneg _⟩
  unfold setCaretPos
  dsimp only
  generalize (if window.toContent x ≤ 0 then 0 else window.extentPoint s.text (window.toContent x) : Int) = outChars
    at hextent
  cases bSel with
  | true =>
    rw [if_pos rfl]
    split
    . exact h.withSel h.editPos_nonneg (by omega) hextent.2
    . exact h.withSel hextent.1 (by omega) h.editPos_le
  | false =>
    rw [if_neg Bool.false_ne_true]
    exact h.withCaret (Int.le_refl 0) (Int.le_refl 0) hnonneg hextent

theorem sleMouseMove_inv (mouseX mouseY : Int) : (s.sleMouseMove window mouseX mouseY).Inv := by
  unfold sleMouseMove
  split
  . exact setCaretPos_inv h mouseX true
  split
  . exact h.withSel (Int.le_refl 0) h.editPos_nonneg h.editPos_le
  split
  . exact h.withSel h.editPos_nonneg h.editPos_le (Int.le_refl _)
  split
  . split
    . exact setCaretPos_inv h 0 true
    split
    . exact h
    . have hprev := chlenPrev_le window s s.selStart h.selStart_nonneg
      have hle := h.selStart_le
      exact h.withSel (by omega) (by omega) h.selEnd_le
  split
  . have ht : (if s.selStart = 0 then s.setCaretPos window (window.right - 1) true else s).Inv := by
      split
      . exact setCaretPos_inv h (window.right - 1) true
      . exact h
    dsimp only
    generalize (if s.selStart = 0 then s.setCaretPos window (window.right - 1) true else s) = t at ht
    split
    . exact ht
    have hstart := ht.selStart_nonneg
    have hle := ht.selStart_le
    have hnext := chlenNext_le window t t.selEnd (by omega) ht.selEnd_le
    exact ht.withSel hstart (by omega) hnext.2
  . exact h

theorem cursorLeft_inv (shift : Bool) (hok : s.MessageOk window (.left shift))
    : (s.cursorLeft window shift).Inv := by
  have hstart := h.selStart_nonneg
  have hle := h.selStart_le
  have hend := h.selEnd_le
  have hcaret := h.editPos_nonneg
  have hcaretLe := h.editPos_le
  unfold cursorLeft
  cases shift with
  | true =>
    rw [if_pos rfl]
    by_cases hsel : s.selStart = s.selEnd
    . have hprev := chlenPrev_le window { s with selStart := s.editPos, selEnd := s.editPos } s.editPos hcaret
      rw [if_pos hsel, if_pos (.inr rfl)]
      dsimp only
      split
      . exact h.withSel (by omega) (by omega) hcaretLe
      . exact h.withSel hcaret (Int.le_refl _) hcaretLe
    rw [if_neg hsel]
    by_cases hbefore : s.selStart < s.editPos
    . have hprev := chlenPrev_le window s s.selStart hstart
      rw [if_pos (.inl hbefore)]
      split
      . exact h.withSel (by omega) (by omega) hend
      . exact h
    have hprev := chlenPrev_le window s s.selEnd (by omega)
    have hin : s.chlenPrev window s.selEnd ≤ s.selEnd - s.selStart := hok hsel (by omega)
    rw [if_neg (by
      rintro (h | h)
      . exact hbefore h
      . exact hsel h)]
    exact h.withSel hstart (by omega) (by omega)
  | false =>
    rw [if_neg Bool.false_ne_true]
    have hprev := chlenPrev_le window s s.editPos hcaret
    split
    . dsimp only
      exact h.withCaret (by omega) (Int.le_refl _) (by omega) (by omega)
    . exact h.withSel hcaret (Int.le_refl _) hcaretLe

theorem cursorRight_inv (shift : Bool) (hok : s.MessageOk window (.right shift))
    : (s.cursorRight window shift).Inv := by
  have hstart := h.selStart_nonneg
  have hle := h.selStart_le
  have hend := h.selEnd_le
  have hcaret := h.editPos_nonneg
  have hcaretLe := h.editPos_le
  unfold cursorRight
  cases shift with
  | true =>
    rw [if_pos rfl]
    by_cases hsel : s.selStart = s.selEnd
    . have hnext := chlenNext_le window { s with selStart := s.editPos, selEnd := s.editPos } s.editPos hcaret hcaretLe
      rw [if_pos hsel, if_pos (.inl rfl)]
      dsimp only
      split
      . exact h.withSel hcaret (by omega) hnext.2
      . exact h.withSel hcaret (Int.le_refl _) hcaretLe
    rw [if_neg hsel]
    by_cases hafter : s.selEnd > s.editPos
    . have hnext := chlenNext_le window s s.selEnd (by omega) hend
      rw [if_pos (.inr hafter)]
      split
      . exact h.withSel hstart (by omega) hnext.2
      . exact h
    have hnext := chlenNext_le window s s.selStart hstart (by omega)
    have hin : s.chlenNext window s.selStart ≤ s.selEnd - s.selStart := hok hsel (by omega)
    rw [if_neg (by
      rintro (h | h)
      . exact hsel h
      . exact hafter h)]
    exact h.withSel (by omega) (by omega) hend
  | false =>
    rw [if_neg Bool.false_ne_true]
    have hnext := chlenNext_le window s s.editPos hcaret hcaretLe
    split
    . dsimp only
      exact h.withCaret (by omega) (Int.le_refl _) (by omega) (by omega)
    . exact h.withSel hcaret (Int.le_refl _) hcaretLe

theorem posOf_le {charPos pos : Int} (hpos : s.posOf window charPos = some pos) : 0 ≤ pos ∧ pos ≤ s.txtlen := by
  have hnonneg := h.txtlen_nonneg
  unfold posOf at hpos
  dsimp only at hpos
  split_ifs at hpos with hneg hgt heq
  . obtain rfl := Option.some.inj hpos
    exact ⟨hnonneg, Int.le_refl _⟩
  obtain rfl := Option.some.inj hpos
  have hlt : charPos.toNat < (window.chars.positions s.text).length := by omega
  rw [List.getD_eq_getElem _ _ hlt]
  have hle := window.chars.positions_le s.text _ (List.getElem_mem hlt)
  rw [length_text] at hle
  omega

end Caret

section Text

variable {window : SlWindow} {s : SlEdit}

theorem length_beforeNul_checkValidPasswd (text : List UInt8)
    : (beforeNul (checkValidPasswd text)).length = (beforeNul text).length := by
  unfold beforeNul checkValidPasswd
  have hstar (c : UInt8) (hc : c ≠ 0) : (if isPrint c then c else 0x2A) ≠ 0 := by
    split
    . exact hc
    . decide
  induction text with
  | nil => rfl
  | cons c text ih =>
    by_cases hc : c = 0
    . subst hc
      rfl
    have htake : (c :: text).takeWhile (· ≠ 0) = c :: text.takeWhile (· ≠ 0) :=
      List.takeWhile_cons_of_pos (decide_eq_true hc)
    have hdrop : (c :: text).dropWhile (· ≠ 0) = text.dropWhile (· ≠ 0) :=
      List.dropWhile_cons_of_pos (decide_eq_true hc)
    have hstored (rest : List UInt8) : ((if isPrint c then c else 0x2A) :: rest).takeWhile (· ≠ 0)
        = (if isPrint c then c else 0x2A) :: rest.takeWhile (· ≠ 0) :=
      List.takeWhile_cons_of_pos (decide_eq_true (hstar c hc))
    rw [htake, hdrop, List.map_cons, List.cons_append, hstored, List.length_cons, List.length_cons, ih]

theorem setText_inv (hsel : s.selStart = 0 ∧ s.selEnd = 0) (fresh : Int → UInt8) (newtext : List UInt8)
    (hlimit : s.hardLimit ≥ 0 → (beforeNul newtext).length ≤ s.hardLimit)
    (hempty : (beforeNul newtext).length = 0 → fresh 0 = 0)
    : ((s.setText fresh newtext).refreshCaret window).Inv := by
  have hcaret (t : SlEdit) (ht : 0 ≤ t.txtlen) (hselStart : t.selStart = 0) (hselEnd : t.selEnd = 0)
      (hlimit : t.hardLimit ≥ 0 → t.txtlen ≤ t.hardLimit) (hroom : t.txtlen + 1 ≤ t.buffsize) (hterm : t.mem t.txtlen = 0)
      : (t.refreshCaret window).Inv := by
    have hextent := extentPoint_le window t ht 0
    unfold refreshCaret
    constructor
    all_goals dsimp only
    case limit => exact hlimit
    case terminated => exact hterm
    all_goals omega
  have hnonneg : 0 ≤ ((beforeNul newtext).length : Int) := Int.natCast_nonneg _
  unfold setText
  dsimp only
  rw [if_neg (by
    rintro ⟨hlimited, hover⟩
    omega)]
  split
  case isTrue hpos =>
    have hroom := le_blockSizeOf (beforeNul newtext).length
    rw [if_neg (by omega), Int.min_eq_left (by omega)]
    exact hcaret _ hnonneg hsel.1 hsel.2 hlimit hroom (if_pos rfl)
  case isFalse hzero =>
    refine hcaret _ (Int.le_refl 0) hsel.1 hsel.2 (fun h => h) ?_ (hempty (by omega))
    have hroom := le_blockSizeOf slBlockSize
    rw [if_pos (by omega)]
    have hblock : slBlockSize = 32 := rfl
    dsimp only
    omega

theorem create_inv (window : SlWindow) (fresh : Int → UInt8) (spCaption : List UInt8)
    (hempty : beforeNul spCaption = [] → fresh 0 = 0) : (create window fresh spCaption).Inv := by
  refine setText_inv ⟨rfl, rfl⟩ fresh spCaption ?_ (fun h => hempty (List.length_eq_zero_iff.mp h))
  intro h
  dsimp only at h
  omega

theorem resetText_inv (s : SlEdit) (fresh : Int → UInt8) (str : List UInt8)
    (hlimit : s.hardLimit ≥ 0 → (beforeNul str).length ≤ s.hardLimit) (hempty : beforeNul str = [] → fresh 0 = 0)
    : (s.resetText window fresh str).Inv := by
  have hlen : (beforeNul (if window.password then checkValidPasswd str else str)).length = (beforeNul str).length := by
    split
    . exact length_beforeNul_checkValidPasswd str
    . rfl
  refine setText_inv ⟨rfl, rfl⟩ fresh _ ?_ ?_
  . rw [hlen]
    exact hlimit
  . rw [hlen]
    exact fun h => hempty (List.length_eq_zero_iff.mp h)

theorem onChar_inv (h : s.Inv) (wParam : BitVec 32) (hok : s.MessageOk window (.char wParam))
    : (s.onChar window wParam).Inv := by
  change match inserted window (.char wParam) with
    | some bytes => s.DeletionOk (some bytes)
    | none => window.readonly = false → wParam = 8 ∨ wParam = 127 → s.DeletionOk none at hok
  obtain ⟨bytes, hinserted, heq⟩ | ⟨hnone, heq | ⟨⟨hreadonly, hkey⟩, heq⟩⟩ := onChar_cases window wParam
  . rw [hinserted] at hok
    obtain ⟨refresh, -, hinput⟩ := inputChar_eq window s bytes
    rw [heq s window.align]
    rw [hinput]
    exact insertTextBy_some_inv refresh h bytes hok
  . rw [heq s window.align]
    exact h
  rw [hnone] at hok
  rw [heq s window.align]
  change (s.backspace window).Inv
  have hprev := chlenPrev_le window s s.editPos h.editPos_nonneg
  unfold backspace
  split
  . exact h
  split
  . exact insertTextBy_none_inv true h (by omega) (by omega) (hok hreadonly hkey)
  . exact insertTextBy_none_inv false h (by omega) (by omega) (hok hreadonly hkey)

theorem remove_inv (h : s.Inv) (hok : s.MessageOk window .remove) : (s.remove window).Inv := by
  have hnext := chlenNext_le window s s.editPos h.editPos_nonneg h.editPos_le
  unfold remove
  by_cases hreadonly : window.readonly
  . rw [if_pos hreadonly]
    exact h
  have hdel : s.DeletionOk none := hok (Bool.eq_false_iff.mpr hreadonly)
  rw [if_neg hreadonly]
  split
  . exact h
  have ht (t : SlEdit) (hinv : t.Inv) (hdel : t.DeletionOk none) (hle : s.editPos ≤ t.editPos)
      : (if window.align = .right then t.sleInsertTextRefresh window none (s.editPos - t.editPos)
        else t.sleInsertText window none (s.editPos - t.editPos)).Inv := by
    have hnonneg := h.editPos_nonneg
    split
    . exact insertTextBy_none_inv true hinv (by omega) (by omega) hdel
    . exact insertTextBy_none_inv false hinv (by omega) (by omega) hdel
  by_cases hmove : s.selStart = s.selEnd ∧ s.editPos < s.txtlen
  . rw [if_pos hmove]
    refine ht _ ?_ hdel ?_
    . have hcaret := h.editPos_nonneg
      exact h.withCaret h.selStart_nonneg h.selStart_le h.selEnd_le ⟨by omega, hnext.2⟩
    . dsimp only
      omega
  . rw [if_neg hmove]
    exact ht s h hdel (Int.le_refl _)

theorem insertText_inv (h : s.Inv) (newtext : List UInt8) (len : Int) (hok : s.MessageOk window (.insertText newtext len))
    : (s.insertText window newtext len).Inv := by
  have hcap : (if len > (beforeNul newtext).length then ((beforeNul newtext).length : Int) else len)
      = min len (beforeNul newtext).length := by
    split
    . omega
    . omega
  unfold insertText
  dsimp only
  rw [hcap]
  split
  . exact h
  case isFalse hpos =>
    split
    . exact h
    case isFalse hreadonly =>
      have hlen : min len (beforeNul newtext).length
          = ((((beforeNul newtext).take len.toNat).map (caseOf window)).length : Int) := by
        rw [List.length_map, List.length_take]
        omega
      have htake : (beforeNul newtext).take (min len (beforeNul newtext).length).toNat
          = (beforeNul newtext).take len.toNat := by
        rcases Int.le_total len (beforeNul newtext).length with hle | hle
        . rw [Int.min_eq_left hle]
        . rw [Int.min_eq_right hle, List.take_of_length_le (by omega), List.take_of_length_le (by omega)]
      have hdel : s.DeletionOk (some ((beforeNul newtext).take len.toNat)) :=
        hok (Bool.eq_false_iff.mpr hreadonly) (by omega) (by omega)
      rw [htake, hlen]
      refine insertTextBy_some_inv false h _ ?_
      intro hsel
      rcases hdel hsel with hnul | ⟨hmode, hend, text, heq, hlong⟩
      . exact .inl hnul
      . obtain rfl := Option.some.inj heq
        exact .inr ⟨hmode, hend, _, rfl, by rwa [List.length_map]⟩

end Text

section

variable {s : SlEdit} (h : s.Inv)
include h

theorem onSetFocus_inv (window : SlWindow) (byTab : Bool) : (s.onSetFocus window byTab).Inv := by
  unfold onSetFocus
  split
  . exact h
  have hfocused : Inv { s with focused := true } := ⟨h.1, h.2, h.3, h.4, h.5, h.6, h.7, h.8⟩
  split
  . have hsel := sleSetSel_inv hfocused 0 s.txtlen h.txtlen_nonneg (Int.le_refl _)
    split
    . exact ⟨hsel.1, hsel.2, hsel.3, hsel.4, hsel.5, hsel.6, hsel.7, hsel.8⟩
    . exact hsel
  . exact hfocused

theorem onKillFocus_inv (window : SlWindow) : (s.onKillFocus window).Inv := by
  unfold onKillFocus
  split
  . dsimp only
    split
    . exact ⟨h.4, Int.le_refl _, h.5, h.4, h.5, h.6, h.7, h.8⟩
    . exact ⟨h.1, h.2, h.3, h.4, h.5, h.6, h.7, h.8⟩
  . exact h

theorem onMessage_inv (window : SlWindow) (message : SlMessage)
    (hok : s.MessageOk window message) : (s.onMessage window message).Inv := by
  have hnonneg := h.txtlen_nonneg
  have hcaret := h.editPos_nonneg
  have hcaretLe := h.editPos_le
  cases message with
  | char wParam => exact onChar_inv h wParam hok
  | remove => exact remove_inv h hok
  | home shift =>
    cases shift with
    | true => exact h.withSel (Int.le_refl 0) hcaret hcaretLe
    | false => exact h.withCaret (Int.le_refl 0) (Int.le_refl 0) hnonneg ⟨Int.le_refl 0, hnonneg⟩
  | «end» shift =>
    cases shift with
    | true => exact h.withSel hcaret hcaretLe (Int.le_refl _)
    | false => exact h.withCaret hnonneg (Int.le_refl _) (Int.le_refl _) ⟨hnonneg, Int.le_refl _⟩
  | left shift => exact cursorLeft_inv h shift hok
  | right shift => exact cursorRight_inv h shift hok
  | selectAll => exact sleSetSel_inv h _ _ hnonneg (Int.le_refl _)
  | cut =>
    unfold onMessage
    dsimp only
    split
    case isTrue hcut => exact insertTextBy_none_inv false h (Int.le_refl 0) (by omega) (hok hcut.2)
    case isFalse => exact h
  | paste clipboard =>
    unfold onMessage
    dsimp only
    split
    case isTrue => exact h
    case isFalse hreadonly =>
      exact insertTextBy_some_inv false h clipboard (hok (Bool.eq_false_iff.mpr hreadonly))
  | insert => exact ⟨h.1, h.2, h.3, h.4, h.5, h.6, h.7, h.8⟩
  | lButtonDown x y =>
    unfold onMessage
    dsimp only
    split
    . exact ⟨h.1, h.2, h.3, h.4, h.5, h.6, h.7, h.8⟩
    . split
      . exact h
      . exact setCaretPos_inv h x false
  | mouseMove x y => exact sleMouseMove_inv h x y
  | setSel charPos =>
    unfold onMessage
    dsimp only
    cases hpos : s.posOf window charPos with
    | none => exact h
    | some pos =>
      have hle := posOf_le h hpos
      dsimp only
      split
      . exact sleSetSel_inv h _ _ (by omega) hle.2
      . exact sleSetSel_inv h _ _ (by omega) hcaretLe
  | setCaretPos charPos =>
    unfold onMessage
    dsimp only
    cases hpos : s.posOf window charPos with
    | none => exact h
    | some pos => exact h.withCaret (Int.le_refl 0) (Int.le_refl 0) hnonneg (posOf_le h hpos)
  | insertText newtext len => exact insertText_inv h newtext len hok
  | setText str fresh => exact resetText_inv s fresh str hok.1 hok.2
  | limitText newLimit =>
    unfold onMessage
    dsimp only
    split
    . split
      . exact h
      . exact ⟨h.1, h.2, h.3, h.4, h.5, fun _ => by dsimp only; omega, h.7, h.8⟩
    . exact h
  | setFocus byTab => exact onSetFocus_inv h window byTab
  | killFocus => exact onKillFocus_inv h window

theorem run_inv {messages : List (SlWindow × SlMessage)} (hok : RunOk s messages)
    {before : List (SlWindow × SlMessage)} (hbefore : before <+: messages) : (s.run before).Inv := by
  induction messages generalizing s before with
  | nil =>
    obtain rfl := List.prefix_nil.mp hbefore
    exact h
  | cons message messages ih =>
    cases before with
    | nil => exact h
    | cons first before =>
      obtain ⟨rfl, hrest⟩ := List.cons_prefix_cons.mp hbefore
      exact ih (onMessage_inv h _ _ hok.1) hok.2 hrest

end

end SlEdit

end MiniGui
