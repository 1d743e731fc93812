import MiniGui.Control.SlEdit

namespace MiniGui

inductive EditKey where
  | char (wParam : BitVec 32)
  | remove

namespace SlEdit

def press (window : SlWindow) (s : SlEdit) : EditKey → SlEdit
  | .char wParam => s.onChar window wParam
  | .remove => s.remove window

def typed (window : SlWindow) (s : SlEdit) (keys : List EditKey) : SlEdit :=
  keys.foldl (press window) s

def inserted (window : SlWindow) : EditKey → Option (List UInt8)
  | .remove => none
  | .char wParam =>
    let wParam := if wParam = 127 then 8 else wParam
    let bytes := charBuffer window wParam
    if window.readonly ∨ (bytes.length = 1 ∧ bytes.headD 0 < 0x20 ∧ bytes.headD 0 ≠ 8) ∨ wParam = 8 then
      none
    else
      some bytes

structure Uniform (window : SlWindow) (s : SlEdit) (keys : List EditKey) : Prop where
  text : ∀ align, (s.typed { window with align := align } keys).text = (s.typed window keys).text
  txtlen : ∀ align, (s.typed { window with align := align } keys).txtlen = (s.typed window keys).txtlen
  editPos : ∀ align, (s.typed { window with align := align } keys).editPos = (s.typed window keys).editPos
  whole : ∀ align before key after bytes, keys = before ++ key :: after → inserted window key = some bytes →
    let t := s.typed { window with align := align } before
    (t.press { window with align := align } key).editPos = t.deleteSelected.editPos
      ∨ (t.press { window with align := align } key).editPos = t.deleteSelected.editPos + bytes.length

def RoomOk (s : SlEdit) (n : Int) : Prop :=
  s.hardLimit ≥ 0 →
    (s.replace = false → s.selStart = s.selEnd → s.txtlen + n > s.hardLimit → s.txtlen = s.hardLimit)
      ∧ (s.replace = true → s.deleteSelected.editPos + n > s.hardLimit → s.deleteSelected.editPos = s.hardLimit)

def KeyOk (window : SlWindow) (s : SlEdit) (key : EditKey) : Prop :=
  ∀ bytes, inserted window key = some bytes → s.RoomOk bytes.length

def KeysOk (window : SlWindow) : SlEdit → List EditKey → Prop
  | _, [] => True
  | s, key :: keys => s.KeyOk window key ∧ KeysOk window (s.press window key) keys

def Same (s t : SlEdit) : Prop :=
  ∃ selStart selEnd, t = { s with selStart := selStart, selEnd := selEnd }
    ∧ (selStart = s.selStart ∧ selEnd = s.selEnd ∨ selStart = selEnd ∧ s.selStart = s.selEnd)

section Same

variable {window : SlWindow} {s t : SlEdit}

theorem Same.refl (s : SlEdit) : Same s s :=
  ⟨s.selStart, s.selEnd, rfl, .inl ⟨rfl, rfl⟩⟩

theorem Same.symm (h : Same s t) : Same t s := by
  obtain ⟨a, b, rfl, h⟩ := h
  refine ⟨s.selStart, s.selEnd, rfl, ?_⟩
  dsimp only
  omega

theorem Same.trans {u : SlEdit} (hst : Same s t) (htu : Same t u) : Same s u := by
  obtain ⟨a, b, rfl, h⟩ := hst
  obtain ⟨c, d, rfl, h'⟩ := htu
  refine ⟨c, d, rfl, ?_⟩
  dsimp only at h'
  omega

theorem storeText_sel (s : SlEdit) (newtext : List UInt8) (inserting selStart selEnd : Int)
    : { s with selStart := selStart, selEnd := selEnd }.storeText newtext inserting = s.storeText newtext inserting := by
  unfold storeText moveText lengthen testrRealloc
  dsimp only
  split_ifs
  all_goals rfl

theorem storeText_zero (s : SlEdit) (newtext : List UInt8)
    : s.storeText newtext 0 = { s with selStart := s.editPos, selEnd := s.editPos } := by
  unfold storeText moveText lengthen
  simp

theorem storeText_editPos (s : SlEdit) (newtext : List UInt8) (inserting : Int)
    : (s.storeText newtext inserting).editPos = s.editPos + inserting := by
  unfold storeText moveText lengthen testrRealloc
  dsimp only
  split_ifs
  all_goals rfl

theorem deleteSelected_none (h : s.selStart = s.selEnd) : s.deleteSelected = s :=
  if_neg (fun hne => hne h)

variable {inserting n : Int} {newtext bytes : List UInt8} {key : EditKey}

theorem limited_of_le (s : SlEdit) (refresh : Bool) (h : inserting ≤ 0)
    : s.limited refresh inserting = some inserting := by
  unfold limited
  rw [if_neg (by omega), if_neg (by omega)]

theorem insertTextBy_of_le (refresh : Bool) (s : SlEdit) (newtext : Option (List UInt8))
    (h : inserting ≤ 0) : insertTextBy refresh window s newtext inserting = s.sleInsertText window newtext inserting := by
  have hle : (if s.selStart ≠ s.selEnd ∧ newtext = none then 0 else inserting) ≤ 0 := by
    split
    . exact Int.le_refl 0
    . exact h
  unfold sleInsertText insertTextBy
  dsimp only
  rw [limited_of_le _ _ hle, limited_of_le _ _ hle]

theorem refresh_same (hsel : s.selStart = s.selEnd) (hroom : s.RoomOk n)
    : Same (s.sleInsertText window (some newtext) n) (s.sleInsertTextRefresh window (some newtext) n) := by
  unfold sleInsertText sleInsertTextRefresh insertTextBy
  dsimp only
  rw [deleteSelected_none hsel, if_neg (fun hand => hand.1 hsel)]
  unfold limited
  by_cases hover : s.replace = false ∧ n > 0 ∧ s.hardLimit ≥ 0 ∧ s.txtlen + n > s.hardLimit
  . have hzero : s.hardLimit - s.txtlen = 0 := by
      have h := (hroom hover.2.2.1).1 hover.1 hsel hover.2.2.2
      omega
    rw [if_pos hover, if_pos hover, if_neg Bool.false_ne_true, if_pos rfl, hzero]
    dsimp only
    rw [storeText_zero]
    exact ⟨s.editPos, s.editPos, rfl, .inr ⟨rfl, hsel⟩⟩
  . rw [if_neg hover, if_neg hover]
    exact Same.refl _

theorem insertTextBy_same (refresh : Bool) (h : Same s t) (newtext : Option (List UInt8)) (inserting : Int)
    : Same (insertTextBy refresh window s newtext inserting) (insertTextBy refresh window t newtext inserting) := by
  obtain ⟨a, b, rfl, ⟨rfl, rfl⟩ | ⟨rfl, hsel⟩⟩ := h
  . exact Same.refl _
  unfold insertTextBy
  dsimp only
  rw [deleteSelected_none hsel, deleteSelected_none rfl, if_neg (fun hand => hand.1 hsel),
    if_neg (fun hand => hand.1 rfl)]
  have hlimited : limited { s with selStart := a, selEnd := a } refresh inserting = s.limited refresh inserting := rfl
  rw [hlimited]
  cases s.limited refresh inserting with
  | none => exact ⟨a, a, rfl, .inr ⟨rfl, hsel⟩⟩
  | some n =>
    dsimp only
    rw [storeText_sel s _ n a a]
    exact Same.refl _

theorem RoomOk.of_same (h : Same s t) (hroom : s.RoomOk n) : t.RoomOk n := by
  obtain ⟨a, b, rfl, ⟨rfl, rfl⟩ | ⟨rfl, hsel⟩⟩ := h
  . exact hroom
  intro hlimit
  have h := hroom hlimit
  rw [deleteSelected_none hsel] at h
  rw [deleteSelected_none rfl]
  exact ⟨fun hreplace _ => h.1 hreplace hsel, h.2⟩

theorem insertTextBy_refresh (hsel : s.selStart = s.selEnd) (hroom : s.RoomOk n)
    (refresh refresh' : Bool)
    : Same (insertTextBy refresh window s (some newtext) n) (insertTextBy refresh' window s (some newtext) n) := by
  cases refresh with
  | false =>
    cases refresh' with
    | false => exact Same.refl _
    | true => exact refresh_same hsel hroom
  | true =>
    cases refresh' with
    | false => exact (refresh_same hsel hroom).symm
    | true => exact Same.refl _

theorem inputChar_eq (window : SlWindow) (s : SlEdit) (bytes : List UInt8)
    : ∃ refresh, (s.selStart ≠ s.selEnd → refresh = false)
      ∧ s.inputChar window bytes = insertTextBy refresh window s (some bytes) bytes.length := by
  unfold inputChar
  by_cases h : window.align = .right ∧ s.selStart = s.selEnd
  . rw [if_pos h]
    exact ⟨true, fun hne => absurd h.2 hne, rfl⟩
  . rw [if_neg h]
    exact ⟨false, fun _ => rfl, rfl⟩

theorem inputChar_align (hroom : s.RoomOk bytes.length) (align : Align)
    : Same (s.inputChar window bytes) (s.inputChar { window with align := align } bytes) := by
  obtain ⟨refresh, hsel, heq⟩ := inputChar_eq window s bytes
  obtain ⟨refresh', hsel', heq'⟩ := inputChar_eq { window with align := align } s bytes
  rw [heq, heq']
  by_cases h : s.selStart = s.selEnd
  . exact insertTextBy_refresh h hroom refresh refresh'
  . rw [hsel h, hsel' h]
    exact Same.refl _

theorem remove_eq (window : SlWindow) (s : SlEdit) (align : Align)
    : s.remove { window with align := align } = s.remove window := by
  have hle (t : SlEdit) (h : t = s ∨ t = { s with editPos := s.editPos + s.chlenNext window s.editPos })
      : s.editPos - t.editPos ≤ 0 := by
    have hlen : 0 ≤ s.chlenNext window s.editPos := Int.natCast_nonneg _
    obtain rfl | rfl := h
    . omega
    . dsimp only
      omega
  unfold remove
  split_ifs
  all_goals first
    | rfl
    | exact insertTextBy_of_le true _ _ (hle _ (by first | exact .inl rfl | exact .inr rfl))
    | exact (insertTextBy_of_le true _ _ (hle _ (by first | exact .inl rfl | exact .inr rfl))).symm

theorem backspace_eq (window : SlWindow) (s : SlEdit) (align : Align)
    : s.backspace { window with align := align } = s.backspace window := by
  have hle : -s.chlenPrev window s.editPos ≤ 0 := Int.neg_nonpos_of_nonneg (Int.natCast_nonneg _)
  have h : s.sleInsertTextRefresh window none (-s.chlenPrev window s.editPos)
      = s.sleInsertText window none (-s.chlenPrev window s.editPos) := insertTextBy_of_le true s none hle
  unfold backspace
  split_ifs
  all_goals first
    | rfl
    | exact h
    | exact h.symm

theorem remove_same (h : Same s t) : Same (s.remove window) (t.remove window) := by
  obtain ⟨a, b, rfl, ⟨rfl, rfl⟩ | ⟨rfl, hsel⟩⟩ := h
  . exact Same.refl _
  have hmid : Same s { s with selStart := a, selEnd := a } := ⟨a, a, rfl, .inr ⟨rfl, hsel⟩⟩
  have hnext : Same { s with editPos := s.editPos + s.chlenNext window s.editPos }
      { s with editPos := s.editPos + s.chlenNext window s.editPos, selStart := a, selEnd := a } :=
    ⟨a, a, rfl, .inr ⟨rfl, hsel⟩⟩
  unfold remove
  by_cases hreadonly : window.readonly
  . rw [if_pos hreadonly, if_pos hreadonly]
    exact hmid
  rw [if_neg hreadonly, if_neg hreadonly]
  by_cases hend : s.editPos = s.txtlen
  . rw [if_pos ⟨hend, hsel⟩, if_pos ⟨hend, rfl⟩]
    exact hmid
  rw [if_neg (show ¬ (s.editPos = s.txtlen ∧ s.selStart = s.selEnd) from fun hand => hend hand.1),
    if_neg (show ¬ (s.editPos = s.txtlen ∧ a = a) from fun hand => hend hand.1)]
  by_cases hlt : s.editPos < s.txtlen
  . dsimp only
    rw [if_pos (show s.selStart = s.selEnd ∧ s.editPos < s.txtlen from ⟨hsel, hlt⟩),
      if_pos (show a = a ∧ s.editPos < s.txtlen from ⟨rfl, hlt⟩)]
    split
    . exact insertTextBy_same true hnext none _
    . exact insertTextBy_same false hnext none _
  rw [if_neg (show ¬ (s.selStart = s.selEnd ∧ s.editPos < s.txtlen) from fun hand => hlt hand.2),
    if_neg (show ¬ (a = a ∧ s.editPos < s.txtlen) from fun hand => hlt hand.2)]
  split
  . exact insertTextBy_same true hmid none _
  . exact insertTextBy_same false hmid none _

theorem backspace_same (h : Same s t) : Same (s.backspace window) (t.backspace window) := by
  obtain ⟨a, b, rfl, ⟨rfl, rfl⟩ | ⟨rfl, hsel⟩⟩ := h
  . exact Same.refl _
  have hmid : Same s { s with selStart := a, selEnd := a } := ⟨a, a, rfl, .inr ⟨rfl, hsel⟩⟩
  unfold backspace
  by_cases hfirst : s.editPos = 0
  . rw [if_pos ⟨hfirst, hsel⟩, if_pos ⟨hfirst, rfl⟩]
    exact hmid
  rw [if_neg (show ¬ (s.editPos = 0 ∧ s.selStart = s.selEnd) from fun hand => hfirst hand.1),
    if_neg (show ¬ (s.editPos = 0 ∧ a = a) from fun hand => hfirst hand.1)]
  split
  . exact insertTextBy_same true hmid none _
  . exact insertTextBy_same false hmid none _

theorem inputChar_same (h : Same s t) (bytes : List UInt8) : Same (s.inputChar window bytes) (t.inputChar window bytes) := by
  have heq : s.selStart = s.selEnd ↔ t.selStart = t.selEnd := by
    obtain ⟨a, b, rfl, h⟩ := h
    dsimp only
    omega
  unfold inputChar
  simp only [heq]
  split
  . exact insertTextBy_same true h _ _
  . exact insertTextBy_same false h _ _

theorem onChar_cases (window : SlWindow) (wParam : BitVec 32)
    : (∃ bytes, inserted window (.char wParam) = some bytes
        ∧ ∀ (s : SlEdit) align, s.onChar { window with align := align } wParam
          = s.inputChar { window with align := align } bytes)
      ∨ inserted window (.char wParam) = none
        ∧ ((∀ (s : SlEdit) align, s.onChar { window with align := align } wParam = s)
          ∨ (window.readonly = false ∧ (wParam = 8 ∨ wParam = 127))
            ∧ ∀ (s : SlEdit) align, s.onChar { window with align := align } wParam
              = s.backspace { window with align := align }) := by
  unfold inserted onChar
  dsimp only
  generalize hparam : (if wParam = 127 then 8 else wParam) = param
  have hbytes (align : Align) : charBuffer { window with align := align } param = charBuffer window param := rfl
  by_cases hreadonly : window.readonly
  . refine .inr ⟨if_pos (.inl hreadonly), .inl fun s align => ?_⟩
    rw [if_pos hreadonly]
  by_cases hcontrol : (charBuffer window param).length = 1 ∧ (charBuffer window param).headD 0 < 0x20
      ∧ (charBuffer window param).headD 0 ≠ 8
  . refine .inr ⟨if_pos (.inr (.inl hcontrol)), .inl fun s align => ?_⟩
    rw [if_neg hreadonly, hbytes, if_pos hcontrol]
  by_cases hback : param = 8
  . have hkey : wParam = 8 ∨ wParam = 127 := by
      by_cases h : wParam = 127
      . exact .inr h
      . rw [if_neg h] at hparam
        exact .inl (hparam.trans hback)
    refine .inr ⟨if_pos (.inr (.inr hback)),
      .inr ⟨⟨Bool.eq_false_iff.mpr hreadonly, hkey⟩, fun s align => ?_⟩⟩
    rw [if_neg hreadonly, hbytes, if_neg hcontrol, if_pos hback]
  refine .inl ⟨_, if_neg ?_, fun s align => ?_⟩
  . rintro (h | h | h)
    . exact hreadonly h
    . exact hcontrol h
    . exact hback h
  . rw [if_neg hreadonly, hbytes, if_neg hcontrol, if_neg hback]

theorem press_align (hok : s.KeyOk window key) (align : Align)
    : Same (s.press window key) (s.press { window with align := align } key) := by
  cases key with
  | remove =>
    unfold press
    rw [remove_eq window s align]
    exact Same.refl _
  | char wParam =>
    unfold press
    dsimp only
    obtain ⟨bytes, hinserted, heq⟩ | ⟨-, heq | ⟨-, heq⟩⟩ := onChar_cases window wParam
    . rw [heq s align, heq s window.align]
      exact inputChar_align (hok bytes hinserted) align
    . rw [heq s align, heq s window.align]
      exact Same.refl _
    . rw [heq s align, heq s window.align, backspace_eq window s align]
      exact Same.refl _

theorem press_same (h : Same s t) (key : EditKey) : Same (s.press window key) (t.press window key) := by
  cases key with
  | remove => exact remove_same h
  | char wParam =>
    unfold press
    dsimp only
    obtain ⟨bytes, -, heq⟩ | ⟨-, heq | ⟨-, heq⟩⟩ := onChar_cases window wParam
    . rw [heq s window.align, heq t window.align]
      exact inputChar_same h bytes
    . rw [heq s window.align, heq t window.align]
      exact h
    . rw [heq s window.align, heq t window.align]
      exact backspace_same h

theorem typed_same {keys : List EditKey} (hok : KeysOk window s keys) (h : Same s t) (align : Align)
    : Same (s.typed window keys) (t.typed { window with align := align } keys) := by
  induction keys generalizing s t with
  | nil => exact h
  | cons key keys ih => exact ih hok.2 ((press_align hok.1 align).trans (press_same h key))

theorem keysOk_at {before : List EditKey} {after : List EditKey}
    (hok : KeysOk window s (before ++ key :: after))
    : KeysOk window s before ∧ (s.typed window before).KeyOk window key := by
  induction before generalizing s with
  | nil => exact ⟨trivial, hok.1⟩
  | cons first before ih =>
    obtain ⟨hbefore, hkey⟩ := ih hok.2
    exact ⟨⟨hok.1, hbefore⟩, hkey⟩

theorem insertTextBy_whole {refresh : Bool} (hroom : s.RoomOk bytes.length)
    (hrefresh : s.selStart ≠ s.selEnd → refresh = false)
    : (insertTextBy refresh window s (some bytes) bytes.length).editPos = s.deleteSelected.editPos
      ∨ (insertTextBy refresh window s (some bytes) bytes.length).editPos = s.deleteSelected.editPos + bytes.length := by
  have hparam : s.deleteSelected.hardLimit = s.hardLimit ∧ s.deleteSelected.replace = s.replace := by
    unfold deleteSelected
    split
    . exact ⟨rfl, rfl⟩
    . exact ⟨rfl, rfl⟩
  unfold insertTextBy
  dsimp only
  rw [if_neg (fun hand => nomatch hand.2)]
  unfold limited
  rw [hparam.1, hparam.2]
  generalize (Option.map _ (some bytes)).getD [] = stored
  by_cases hover : s.replace = false ∧ (bytes.length : Int) > 0 ∧ s.hardLimit ≥ 0
      ∧ s.deleteSelected.txtlen + bytes.length > s.hardLimit
  . rw [if_pos hover]
    cases refresh with
    | false => exact .inl rfl
    | true =>
      -- the refreshing function has no selection here
      have hsel : s.selStart = s.selEnd := by
        by_contra hne
        exact Bool.noConfusion (hrefresh hne)
      rw [deleteSelected_none hsel] at hover ⊢
      have hfull := (hroom hover.2.2.1).1 hover.1 hsel hover.2.2.2
      rw [if_pos rfl]
      rw [storeText_editPos]
      left
      omega
  rw [if_neg hover]
  by_cases hreplace : s.replace = true ∧ (bytes.length : Int) > 0 ∧ s.hardLimit ≥ 0
      ∧ s.deleteSelected.editPos + bytes.length > s.hardLimit
  . rw [if_pos hreplace]
    have hfull := (hroom hreplace.2.2.1).2 hreplace.1 hreplace.2.2.2
    rw [storeText_editPos]
    left
    omega
  . rw [if_neg hreplace]
    rw [storeText_editPos]
    exact .inr rfl

theorem press_whole (hinserted : inserted window key = some bytes)
    (hroom : s.RoomOk bytes.length) (align : Align)
    : (s.press { window with align := align } key).editPos = s.deleteSelected.editPos
      ∨ (s.press { window with align := align } key).editPos = s.deleteSelected.editPos + bytes.length := by
  cases key with
  | remove => exact nomatch hinserted
  | char wParam =>
    obtain ⟨bytes', hinserted', heq⟩ | ⟨hnone, -⟩ := onChar_cases window wParam
    . rw [hinserted] at hinserted'
      obtain rfl := Option.some.inj hinserted'
      unfold press
      dsimp only
      rw [heq s align]
      obtain ⟨refresh, hrefresh, heq⟩ := inputChar_eq { window with align := align } s bytes
      rw [heq]
      exact insertTextBy_whole hroom hrefresh
    . rw [hinserted] at hnone
      exact nomatch hnone

end Same

/--
Where each key either has the room that it needs or finds none at all, typing does not depend on the alignment.
-/
theorem uniform_of_ok (window : SlWindow) (s : SlEdit) (keys : List EditKey) (hok : KeysOk window s keys)
    : Uniform window s keys := by
  have hsame (align : Align) := typed_same hok (Same.refl s) align
  constructor
  case text =>
    intro align
    obtain ⟨a, b, heq, -⟩ := hsame align
    rw [heq]
    rfl
  case txtlen =>
    intro align
    obtain ⟨a, b, heq, -⟩ := hsame align
    rw [heq]
  case editPos =>
    intro align
    obtain ⟨a, b, heq, -⟩ := hsame align
    rw [heq]
  case whole =>
    rintro align before key after bytes rfl hinserted
    obtain ⟨hbefore, hkey⟩ := keysOk_at hok
    exact press_whole hinserted ((hkey bytes hinserted).of_same (typed_same hbefore (Same.refl s) align)) align

def gbChars : MCharLens where
  first text := match text with
    | byte0 :: _ :: _ => if byte0 ≥ 0xA1 then 2 else 1
    | text => text.length
  last text := match text.reverse with
    | _ :: byte0 :: _ => if byte0 ≥ 0xA1 then 2 else 1
    | text => text.length
  positions text := List.range (text.length + 1)
  first_le text := by
    split
    . split
      . simp
      . simp
    . exact Nat.le_refl _
  last_le text := by
    rw [← text.length_reverse]
    split
    . rename_i heq
      rw [heq]
      split
      . simp
      . simp
    . rename_i heq
      exact Nat.le_refl _
  positions_le text pos h := Nat.le_of_lt_succ (List.mem_range.mp h)

def gbWindow (align : Align) : SlWindow where
  align := align
  readonly := false
  password := false
  uppercase := false
  lowercase := false
  autoselect := false
  nohidesel := false
  chars := gbChars
  right := 80
  bottom := 20
  visTop := 0
  visBottom := 20
  toContent x := x
  extentPoint text x := min text.length (x / 8).toNat
  extentPoint_le _ _ := Nat.min_le_left _ _

def twoLetters : SlEdit where
  mem i := if i = 0 then 0x61 else if i = 1 then 0x62 else 0
  buffsize := 32
  txtlen := 2
  editPos := 2
  selStart := 2
  selEnd := 2
  hardLimit := 3
  replace := false
  focused := true
  tmp := false

theorem uniform_of_ok_letter : KeysOk (gbWindow .left) twoLetters [.char 0x63, .char 8, .remove]
      ∧ Uniform (gbWindow .left) twoLetters [.char 0x63, .char 8, .remove] := by
  have hok : KeysOk (gbWindow .left) twoLetters [.char 0x63, .char 8, .remove] := by
    refine ⟨?_, ?_, ?_, trivial⟩
    . intro bytes hbytes
      have hlen : bytes = [0x63] := Option.some.inj (hbytes.symm.trans (by decide))
      rw [hlen]
      exact fun _ => ⟨by decide, by decide⟩
    . intro bytes hbytes
      exact nomatch hbytes.symm.trans (by decide : inserted (gbWindow .left) (.char 8) = none)
    . intro bytes hbytes
      exact nomatch hbytes
  exact ⟨hok, uniform_of_ok (gbWindow .left) twoLetters _ hok⟩

theorem not_uniform_half : ¬ ∀ window s keys, Uniform window s keys := by
  intro h
  have htext := (h (gbWindow .left) twoLetters [.char 0xA1B0]).txtlen .right
  exact absurd htext (by decide)

end SlEdit

end MiniGui
