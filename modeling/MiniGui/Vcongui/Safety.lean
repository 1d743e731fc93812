import MiniGui.Vcongui.Bounds
import MiniGui.Vcongui.VtSplit

namespace MiniGui.Vcongui

variable {con' : ConInfo} {ch : Byte}

section Ready

structure Ready (con : ConInfo) : Prop where
  screen : Screen con
  xmax : con.xmax = con.dispxmax - 1
  x : 0 ≤ con.x ∧ con.x ≤ con.xmax + 1
  y : 0 ≤ con.y ∧ con.y ≤ con.ymax
  margins : 0 ≤ con.ymin ∧ con.ymin ≤ con.ymax ∧ con.ymax < con.dispymax
  tab : con.tab = 8
  wrap : con.wrap = false
  narg : con.narg < MAX_NARG
  inBounds : con.inBounds = true

structure Safe (con : ConInfo) : Prop where
  ready : Ready con
  scroll : con.scroll = 0

def frame (con : ConInfo) : (Int × Int × Int × Int × Int × Int × Int) × Int × Bool × Nat × Bool :=
  ((con.dispxmax, con.dispymax, con.textHead, con.textSize, con.xmax, con.ymin, con.ymax), con.tab, con.wrap, con.narg,
    con.inBounds)

theorem Ready.of_frame {con : ConInfo} (h : Ready con) (hframe : frame con' = frame con)
    (hx : 0 ≤ con'.x ∧ con'.x ≤ con.xmax + 1) (hy : 0 ≤ con'.y ∧ con'.y ≤ con.ymax)
    : Ready con' := by
  simp only [frame, Prod.mk.injEq] at hframe
  rcases hframe with ⟨⟨hcols, hrows, hhead, hsize, hxmax, hymin, hymax⟩, htab, hwrap, hnarg, hbounds⟩
  have hscreen : Screen con' := by
    refine ⟨?_, ?_, ?_, ?_⟩
    . rw [hcols]; exact h.screen.cols
    . rw [hrows]; exact h.screen.rows
    . rw [hhead]; exact h.screen.textHead
    . rw [hsize, hcols, hrows]; exact h.screen.textSize
  refine ⟨hscreen, ?_, ?_, ?_, ?_, ?_, ?_, ?_, ?_⟩
  . rw [hxmax, hcols]; exact h.xmax
  . rw [hxmax]; exact hx
  . rw [hymax]; exact hy
  . rw [hymin, hymax, hrows]; exact h.margins
  . rw [htab]; exact h.tab
  . rw [hwrap]; exact h.wrap
  . rw [hnarg]; exact h.narg
  . rw [hbounds]; exact h.inBounds

theorem Ready.of_textOnly {con : ConInfo} (h : Ready con) (htext : TextOnly con con') : Ready con' := by
  have hx : con'.x = con.x := htext.field ConInfo.x
  have hy : con'.y = con.y := htext.field ConInfo.y
  have hframe : frame { con' with inBounds := true } = frame { con with inBounds := true } :=
    htext.field frame
  apply h.of_frame
  . simp only [frame, Prod.mk.injEq] at hframe ⊢
    exact ⟨hframe.1, hframe.2.1, hframe.2.2.1, hframe.2.2.2.1, htext.inBounds⟩
  . rw [hx]
    exact h.x
  . rw [hy]
    exact h.y

variable {con : ConInfo}

theorem Ready.cursor (h : Ready con)
    : (0 ≤ con.x ∧ con.x ≤ con.dispxmax) ∧ (0 ≤ con.y ∧ con.y < con.dispymax) := by
  have hx := h.x
  have hy := h.y
  have hxmax := h.xmax
  have hmargins := h.margins
  omega

theorem Safe.of_textOnly {con : ConInfo} (h : Safe con) (htext : TextOnly con con') : Safe con' :=
  ⟨h.ready.of_textOnly htext, (htext.field ConInfo.scroll).trans h.scroll⟩

theorem scrollStep_safe (h : Ready con) : Safe (scrollStep con) := by
  have hmargins := h.margins
  have htext : TextOnly con
      (if con.scroll > 0 then scrollUp con con.scroll
        else if con.scroll < 0 then scrollDown con (-con.scroll)
        else con) := by
    by_cases hup : con.scroll > 0
    . rw [if_pos hup]
      exact textOnly_textMoveUp h.screen hmargins.1 hmargins.2.2 hup
    rw [if_neg hup]
    by_cases hdown : con.scroll < 0
    . rw [if_pos hdown]
      exact textOnly_textMoveDown h.screen hmargins.1 hmargins.2.2 (by omega)
    . rw [if_neg hdown]
      exact TextOnly.refl con
  have hready := h.of_textOnly htext
  rw [scrollStep]
  exact ⟨hready.of_frame rfl hready.x hready.y, rfl⟩

theorem lineDown_ready (h : Ready con) : Ready (lineDown con) := by
  have hy := h.y
  have hmargins := h.margins
  have hrows := h.screen.rows
  rw [lineDown]
  by_cases hlast : con.y = con.ymax
  . rw [if_pos hlast]
    exact h.of_frame rfl h.x h.y
  rw [if_neg hlast, short_of_range ⟨by omega, by omega⟩]
  refine h.of_frame rfl h.x ⟨?_, ?_⟩
  . show 0 ≤ con.y + 1
    omega
  . show con.y + 1 ≤ con.ymax
    omega

end Ready

def onLine (con : ConInfo) (x : Int) : Prop :=
  0 ≤ x ∧ x ≤ con.xmax + 1

def onScreen (con : ConInfo) (y : Int) : Prop :=
  0 ≤ y ∧ y ≤ con.ymax

def restoreFits (con : ConInfo) : Prop :=
  match con.saveAttr with
  | [] => True
  | top :: _ => onLine con top.x ∧ onScreen con top.y

def finalFits (con : ConInfo) (ch : Byte) : Prop :=
  let n := orOne (con.varg 0)
  -- 'A', 'B', 'C', 'D', 'G'
  if ch = 0x41 then
    short (con.y - n) ≤ con.ymax
  else if ch = 0x42 then
    0 ≤ short (con.y + n)
  else if ch = 0x43 then
    onLine con (short (con.x + n))
  else if ch = 0x44 then
    onLine con (short (con.x - n))
  else if ch = 0x47 then
    onLine con (short (fromOne (con.varg 0) 0))
  -- 'P' and '@'
  else if ch = 0x50 ∨ ch = 0x40 then
    con.x + n ≤ con.dispxmax
  -- 'H' and 'f', 'd'
  else if ch = 0x48 ∨ ch = 0x66 then
    onLine con (short (fromOne (con.varg 1) 0)) ∧ onScreen con (short (fromOne (con.varg 0) 0))
  else if ch = 0x64 then
    onScreen con (short (fromOne (con.varg 0) 0))
  -- 'r', 'u'
  else if ch = 0x72 then
    let ymin := short (fromOne (con.varg 0) 0)
    let ymax := short (fromOne (con.varg 1) (con.dispymax - 1))
    0 ≤ ymin ∧ ymin ≤ ymax ∧ ymax < con.dispymax
  else if ch = 0x75 then
    restoreFits con
  else
    True

def byteFits (con : ConInfo) (ch : Byte) : Prop :=
  match con.esc with
  | none => ch = 0x09 → con.x + (con.tab - con.x.tmod con.tab) ≤ 32767
  | some .bracket =>
    if 0x30 ≤ ch.toNat ∧ ch.toNat ≤ 0x39 then
      True
    else if ch = 0x3B then
      con.narg + 1 < MAX_NARG
    else
      finalFits con ch
  | some .start => (ch = 0x4D → con.y = con.ymin ∨ con.y ≠ 0) ∧ (ch = 0x38 → restoreFits con)
  | some _ => True

section Escapes

variable {con : ConInfo}

def place (con : ConInfo) : ((Int × Int × Int × Int × Int × Int × Int) × Int × Bool × Nat × Bool) × Int × Int :=
  (frame con, con.x, con.y)

theorem Ready.of_place {con : ConInfo} (h : Ready con) (hplace : place con' = place con) : Ready con' := by
  have hx : con'.x = con.x := congrArg (fun placed => placed.2.1) hplace
  have hy : con'.y = con.y := congrArg (fun placed => placed.2.2) hplace
  apply h.of_frame (congrArg Prod.fst hplace)
  . rw [hx]
    exact h.x
  . rw [hy]
    exact h.y

theorem place_escSetAttr (con : ConInfo) (col : BitVec 16) : place (escSetAttr con col) = place con := by
  unfold escSetAttr
  repeat' apply field_ite place
  all_goals rfl

theorem place_vtSetMode (con : ConInfo) (mode : BitVec 16) (sw : Bool) : place (vtSetMode con mode sw) = place con := by
  unfold vtSetMode
  repeat' apply field_ite place
  all_goals rfl

theorem orOne_range (arg : BitVec 16) : 1 ≤ orOne arg ∧ orOne arg ≤ 65535 := by
  rw [orOne]
  split
  . omega
  rename_i hne
  have hpos : arg.toNat ≠ 0 := by
    intro hzero
    exact hne (BitVec.eq_of_toNat_eq hzero)
  omega

section

variable (h : Ready con)
include h

theorem restoreAttr_ready (hfit : restoreFits con) : Ready (restoreAttr con) := by
  rw [restoreFits] at hfit
  rw [restoreAttr]
  split
  . exact h
  . next top rest hstack =>
    rw [hstack] at hfit
    exact h.of_frame rfl hfit.1 hfit.2

theorem setCursorRow_ready (hfit : onScreen con (short (fromOne (con.varg 0) 0)))
    : Ready (setCursorRow con) :=
  h.of_frame rfl h.x hfit

theorem forArgs_ready {f : ConInfo → BitVec 16 → ConInfo}
    (hf : ∀ con arg, Ready con → Ready (f con arg)) : Ready (forArgs con f) := by
  have hfold : ∀ (l : List Nat) (con : ConInfo), Ready con → (∀ n ∈ l, n < MAX_NARG)
      → Ready (l.foldl (fun con n => f (accessArg con n) (con.varg n)) con) := by
    intro l
    induction l with
    | nil => intro con h _; exact h
    | cons n l ih =>
      intro con h hl
      rw [List.foldl_cons]
      apply ih
      . apply hf
        have hn : (n < MAX_NARG : Bool) = true := decide_eq_true (hl n List.mem_cons_self)
        refine h.of_frame ?_ h.x h.y
        rw [frame, frame, accessArg, hn, Bool.and_true]
      . intro m hm
        exact hl m (List.mem_cons_of_mem n hm)
  apply hfold _ con h
  intro n hn
  have hlt := List.mem_range.mp hn
  have hnarg := h.narg
  omega

theorem escFinal_ready (hfit : finalFits con ch) : Ready (escFinal con ch) := by
  have hcursor := h.cursor
  have hxmax := h.xmax
  have hy := h.y
  have hmargins := h.margins
  have hcount := orOne_range (con.varg 0)
  rw [finalFits] at hfit
  rw [escFinal]
  by_cases hK : ch = 0x4B
  . rw [if_pos hK]
    exact h.of_textOnly (textOnly_textClearEol h.screen hcursor.1 hcursor.2 _)
  rw [if_neg hK]
  by_cases hJ : ch = 0x4A
  . rw [if_pos hJ]
    exact h.of_textOnly (textOnly_textClearEos h.screen hcursor.1 hcursor.2 _)
  rw [if_neg hJ]
  by_cases hX : ch = 0x58
  . rw [if_pos hX]
    exact h.of_textOnly (textOnly_textClearChars h.screen hcursor.1 hcursor.2 (by omega))
  rw [if_neg hX]
  by_cases hA : ch = 0x41
  . rw [if_pos hA] at hfit ⊢
    by_cases hup : short (con.y - orOne (con.varg 0)) < con.ymin
    . rw [if_pos hup]
      exact h.of_frame rfl h.x ⟨hmargins.1, hmargins.2.1⟩
    . rw [if_neg hup]
      exact h.of_frame rfl h.x ⟨by show 0 ≤ short _; omega, hfit⟩
  rw [if_neg hA] at hfit ⊢
  by_cases hB : ch = 0x42
  . rw [if_pos hB] at hfit ⊢
    by_cases hdown : short (con.y + orOne (con.varg 0)) > con.ymax
    . rw [if_pos hdown]
      exact h.of_frame rfl h.x ⟨by show 0 ≤ con.ymax; omega, le_refl _⟩
    . rw [if_neg hdown]
      exact h.of_frame rfl h.x ⟨hfit, by show short _ ≤ con.ymax; omega⟩
  rw [if_neg hB] at hfit ⊢
  by_cases hC : ch = 0x43
  . rw [if_pos hC] at hfit ⊢
    exact h.of_frame (by rw [frame, frame, h.wrap]) hfit h.y
  rw [if_neg hC] at hfit ⊢
  by_cases hD : ch = 0x44
  . rw [if_pos hD] at hfit ⊢
    exact h.of_frame (by rw [frame, frame, h.wrap]) hfit h.y
  rw [if_neg hD] at hfit ⊢
  by_cases hG : ch = 0x47
  . rw [if_pos hG] at hfit ⊢
    exact h.of_frame (by rw [frame, frame, h.wrap]) hfit h.y
  rw [if_neg hG] at hfit ⊢
  by_cases hP : ch = 0x50
  . rw [if_pos (Or.inl hP)] at hfit
    rw [if_pos hP]
    exact h.of_textOnly (textOnly_textDeleteChar h.screen (by omega) ⟨hcursor.1.1, hfit⟩ hcursor.2)
  rw [if_neg hP]
  by_cases hAt : ch = 0x40
  . rw [if_pos (Or.inr hAt)] at hfit
    rw [if_pos hAt]
    exact h.of_textOnly (textOnly_textInsertChar h.screen (by omega) ⟨hcursor.1.1, hfit⟩ hcursor.2)
  rw [if_neg (not_or.mpr ⟨hP, hAt⟩)] at hfit
  rw [if_neg hAt]
  by_cases hL : ch = 0x4C
  . rw [if_pos hL]
    exact h.of_textOnly (textOnly_textMoveDown h.screen hy.1 hmargins.2.2 (by omega))
  rw [if_neg hL]
  by_cases hM : ch = 0x4D
  . rw [if_pos hM]
    exact h.of_textOnly (textOnly_textMoveUp h.screen hy.1 hmargins.2.2 (by omega))
  rw [if_neg hM]
  by_cases hH : ch = 0x48 ∨ ch = 0x66
  . rw [if_pos hH] at hfit ⊢
    have hcolumn : Ready { con with x := short (fromOne (con.varg 1) 0), wrap := false } :=
      h.of_frame (by rw [frame, frame, h.wrap]) hfit.1 h.y
    exact setCursorRow_ready hcolumn hfit.2
  rw [if_neg hH] at hfit ⊢
  by_cases hd : ch = 0x64
  . rw [if_pos hd] at hfit ⊢
    exact setCursorRow_ready h hfit
  rw [if_neg hd] at hfit ⊢
  by_cases hm : ch = 0x6D
  . rw [if_pos hm]
    apply forArgs_ready h
    intro con col h
    exact h.of_place (place_escSetAttr con col)
  rw [if_neg hm]
  by_cases hr : ch = 0x72
  . rw [if_pos hr] at hfit ⊢
    refine ⟨⟨h.screen.cols, h.screen.rows, h.screen.textHead, h.screen.textSize⟩, h.xmax, ?_, ?_, hfit, h.tab, rfl,
      h.narg, h.inBounds⟩
    . refine ⟨le_refl _, ?_⟩
      show 0 ≤ con.xmax + 1
      omega
    . exact ⟨hfit.1, hfit.2.1⟩
  rw [if_neg hr] at hfit ⊢
  have hmode : ∀ sw (con : ConInfo) (mode : BitVec 16), Ready con → Ready (vtSetMode con mode sw) := by
    intro sw con mode h
    exact h.of_place (place_vtSetMode con mode sw)
  by_cases hl : ch = 0x6C
  . rw [if_pos hl]
    exact forArgs_ready h (hmode false)
  rw [if_neg hl]
  by_cases hh : ch = 0x68
  . rw [if_pos hh]
    exact forArgs_ready h (hmode true)
  rw [if_neg hh]
  by_cases hq : ch = 0x3F
  . rw [if_pos hq]
    exact h.of_place rfl
  rw [if_neg hq]
  by_cases hs : ch = 0x73
  . rw [if_pos hs]
    exact h.of_place rfl
  rw [if_neg hs]
  by_cases hu : ch = 0x75
  . rw [if_pos hu] at hfit ⊢
    exact restoreAttr_ready h hfit
  rw [if_neg hu]
  split
  . split
    . exact h.of_place rfl
    . exact h
  . exact h

theorem resetArgs_ready : Ready (resetArgs con) := by
  rw [resetArgs]
  split
  . exact ⟨⟨h.screen.cols, h.screen.rows, h.screen.textHead, h.screen.textSize⟩, h.xmax, h.x, h.y, h.margins, h.tab,
      h.wrap, Nat.zero_lt_succ 7, h.inBounds⟩
  . exact h

theorem escBracket_ready (hesc : con.esc = some .bracket) (hfit : byteFits con ch)
    : Ready (escBracket con ch) := by
  rw [byteFits, hesc] at hfit
  rw [escBracket]
  by_cases hdigit : 0x30 ≤ ch.toNat ∧ ch.toNat ≤ 0x39
  . rw [if_pos hdigit]
    have hnarg : (con.narg < MAX_NARG : Bool) = true := decide_eq_true h.narg
    refine h.of_frame ?_ h.x h.y
    rw [frame, frame, accessArg, hnarg, Bool.and_true]
  rw [if_neg hdigit] at hfit ⊢
  by_cases hsemi : ch = 0x3B
  . rw [if_pos hsemi] at hfit ⊢
    rw [if_pos h.narg]
    exact ⟨⟨h.screen.cols, h.screen.rows, h.screen.textHead, h.screen.textSize⟩, h.xmax, h.x, h.y, h.margins, h.tab,
      h.wrap, hfit, h.inBounds⟩
  . rw [if_neg hsemi] at hfit ⊢
    have hnone : Ready { con with esc := none } := h.of_place rfl
    exact resetArgs_ready (escFinal_ready hnone hfit)

theorem clearScreen_ready : Ready (clearScreen con) := by
  have hxmax := h.xmax
  have hcols := h.screen.cols
  have hmargins := h.margins
  have hhome : Ready { con with x := 0, y := 0, wrap := false } := by
    apply h.of_frame (by rw [frame, frame, h.wrap])
    . show 0 ≤ (0 : Int) ∧ 0 ≤ con.xmax + 1
      omega
    . show 0 ≤ (0 : Int) ∧ 0 ≤ con.ymax
      omega
  exact hhome.of_textOnly (textOnly_textClearAll hhome.screen)

theorem escStart_ready (hesc : con.esc = some .start) (hfit : byteFits con ch)
    : Ready (escStart con ch) := by
  have hxmax := h.xmax
  have hcols := h.screen.cols
  have hrows := h.screen.rows
  have hmargins := h.margins
  have hy := h.y
  have hnone : Ready { con with esc := none } := h.of_place rfl
  rw [byteFits, hesc] at hfit
  rw [escStart]
  dsimp only
  by_cases h1 : ch = 0x5B
  . rw [if_pos h1]
    exact h.of_place rfl
  rw [if_neg h1]
  by_cases h2 : ch = 0x24
  . rw [if_pos h2]
    exact h.of_place rfl
  rw [if_neg h2]
  by_cases h3 : ch = 0x28 ∨ ch = 0x2C
  . rw [if_pos h3]
    exact h.of_place rfl
  rw [if_neg h3]
  by_cases h4 : ch = 0x29
  . rw [if_pos h4]
    exact h.of_place rfl
  rw [if_neg h4]
  by_cases hE : ch = 0x45
  . rw [if_pos hE]
    apply lineDown_ready
    refine h.of_frame (by rw [frame, frame, h.wrap]) ?_ h.y
    show 0 ≤ (0 : Int) ∧ 0 ≤ con.xmax + 1
    omega
  rw [if_neg hE]
  by_cases hD : ch = 0x44
  . rw [if_pos hD]
    exact lineDown_ready hnone
  rw [if_neg hD]
  by_cases hM : ch = 0x4D
  . rw [if_pos hM]
    have hrow := hfit.1 hM
    by_cases htop : con.y = con.ymin
    . rw [if_pos htop]
      exact h.of_place rfl
    rw [if_neg htop, short_of_range ⟨by omega, by omega⟩]
    refine h.of_frame rfl h.x ?_
    show 0 ≤ con.y - 1 ∧ con.y - 1 ≤ con.ymax
    omega
  rw [if_neg hM]
  by_cases hc : ch = 0x63
  . rw [if_pos hc]
    apply clearScreen_ready
    exact h.of_frame (by rw [frame, frame, h.wrap]) h.x h.y
  rw [if_neg hc]
  by_cases hstar : ch = 0x2A
  . rw [if_pos hstar]
    exact clearScreen_ready hnone
  rw [if_neg hstar]
  by_cases h7 : ch = 0x37
  . rw [if_pos h7]
    exact h.of_place rfl
  rw [if_neg h7]
  by_cases h8 : ch = 0x38
  . rw [if_pos h8]
    have hrestore := restoreAttr_ready hnone (hfit.2 h8)
    exact hrestore.of_frame (by rw [frame, frame, hrestore.wrap]) hrestore.x hrestore.y
  . rw [if_neg h8]
    exact hnone

end

theorem place_escSetDCodeG0 (con : ConInfo) (ch : Byte) : place (escSetDCodeG0 con ch) = place con := by
  rw [escSetDCodeG0]
  split
  . rfl
  dsimp only
  generalize dCodingSigns.findIdx _ = i
  by_cases hlt : i < dCodingSigns.length
  . rw [if_pos hlt]
    rfl
  . rw [if_neg hlt]
    rfl

theorem place_escSetSCodeG0 (con : ConInfo) (ch : Byte) : place (escSetSCodeG0 con ch) = place con := by
  rw [escSetSCodeG0]
  dsimp only
  split
  . rfl
  . split <;> rfl

theorem place_escSetSCodeG1 (con : ConInfo) (ch : Byte) : place (escSetSCodeG1 con ch) = place con := by
  rw [escSetSCodeG1]
  split
  . rfl
  . split <;> rfl

theorem escHandler_ready (h : Ready con) {esc : Esc} (hesc : con.esc = some esc)
    (hfit : byteFits con ch) : Ready (escHandler esc con ch) := by
  cases esc with
  | start => exact escStart_ready h hesc hfit
  | bracket => exact escBracket_ready h hesc hfit
  | setDCodeG0 => exact h.of_place (place_escSetDCodeG0 con ch)
  | setSCodeG0 => exact h.of_place (place_escSetSCodeG0 con ch)
  | setSCodeG1 => exact h.of_place (place_escSetSCodeG1 con ch)

end Escapes

section Bytes

variable {con : ConInfo}

theorem putByte_safe (h : Safe con) (hx : con.x ≤ con.xmax) (ch ch1 : Byte)
    : Safe (putByte con ch ch1) := by
  have hcursor := h.ready.cursor
  have hxmax := h.ready.xmax
  have hx0 := h.ready.x
  have hcols := h.ready.screen.cols
  have hroom := textOnly_makeRoom h.ready.screen ⟨hx0.1, by omega⟩ hcursor.2
  have hput : TextOnly con
      (if iskanji con.sysCoding ch ch1 then putWide (makeRoom con) ch
        else rearrangeLine (textSput (makeRoom con) ch)) := by
    generalize makeRoom con = con' at hroom ⊢
    have hready := h.ready.of_textOnly hroom
    have hcursor' := hready.cursor
    have hx' : con'.x = con.x := hroom.field ConInfo.x
    have hcols' : con'.dispxmax = con.dispxmax := hroom.field ConInfo.dispxmax
    split
    . exact hroom.trans (textOnly_putWide hready.screen ⟨by omega, by omega⟩ hcursor'.2 hready.margins.1 ch)
    have hcell := textOnly_putCell (textAddress_range hready.screen con'.x con'.y) ch (LATCH_S ||| con'.sb)
    have hcell' : TextOnly con (textSput con' ch) := hroom.trans hcell
    have hready' := h.ready.of_textOnly hcell'
    have hx'' : (textSput con' ch).x = con.x := hcell'.field ConInfo.x
    have hcols'' : (textSput con' ch).dispxmax = con.dispxmax := hcell'.field ConInfo.dispxmax
    exact hcell'.trans (textOnly_rearrangeLine hready'.screen hready'.xmax ⟨by omega, by omega⟩ hready'.cursor.2)
  rw [putByte_eq]
  generalize (if iskanji con.sysCoding ch ch1 then _ else _) = con' at hput ⊢
  have hsafe := h.of_textOnly hput
  have hx' : con'.x = con.x := hput.field ConInfo.x
  have hxmax' : con'.xmax = con.xmax := hput.field ConInfo.xmax
  refine ⟨hsafe.ready.of_frame rfl ?_ hsafe.ready.y, hsafe.scroll⟩
  show 0 ≤ short (con'.x + 1) ∧ short (con'.x + 1) ≤ con'.xmax + 1
  rw [short_of_range ⟨by omega, by omega⟩]
  omega

theorem wrapLine_ready (h : Ready con) (hx : con.x = con.xmax + 1)
    : Ready (wrapLine con) ∧ (wrapLine con).x = 0 := by
  have hxmax := h.xmax
  have hcols := h.screen.cols
  have hlast : short (short (con.x - 1) - con.xmax) = 0 := by
    rw [hx, Int.add_sub_cancel, short_of_range (n := con.xmax) ⟨by omega, by omega⟩, sub_self]
    rfl
  have hline : Ready (lineDown { con with x := short (short (con.x - 1) - con.xmax) }) := by
    apply lineDown_ready
    refine h.of_frame rfl ?_ h.y
    show 0 ≤ short (short (con.x - 1) - con.xmax) ∧ short (short (con.x - 1) - con.xmax) ≤ con.xmax + 1
    rw [hlast]
    omega
  have heq : wrapLine con
      = { lineDown { con with x := short (short (con.x - 1) - con.xmax) } with wrap := false } := by
    rw [wrapLine, if_pos hx, lineDown, lineDown]
    split <;> rfl
  rw [heq]
  refine ⟨hline.of_frame (by rw [frame, frame, hline.wrap]) hline.x hline.y, ?_⟩
  rw [lineDown_x, hlast]

theorem lineFeed_ready (h : Ready con) : Ready (lineFeed con) :=
  lineDown_ready (h.of_frame (by rw [frame, frame, h.wrap]) h.x h.y)

theorem tab_range (h : Ready con)
    : con.x < con.x + (con.tab - con.x.tmod con.tab) ∧ con.x + (con.tab - con.x.tmod con.tab) ≤ con.x + 8 := by
  have hx := h.x
  rw [h.tab]
  have hnonneg := Int.tmod_nonneg 8 hx.1
  have hlt := Int.tmod_lt_of_pos con.x (b := 8) (by decide)
  omega

theorem vtChar_ready (h : Safe con) (hesc : con.esc = none) (hne : ch ≠ 0)
    (hprints : prints ch = false) (hfit : byteFits con ch) (ch1 : Byte)
    : (∃ con', vtChar con ch ch1 = .continue con' ∧ Safe con')
      ∨ ∃ con', vtChar con ch ch1 = .scroll con' ∧ Ready con' := by
  have hready := h.ready
  have hx := hready.x
  have hxmax := hready.xmax
  have hcols := hready.screen.cols
  rw [byteFits, hesc] at hfit
  rw [vtChar]
  by_cases h1 : ch = 0x07 ∨ ch = 0x7F
  . rw [if_pos h1]
    exact .inr ⟨con, rfl, hready⟩
  rw [if_neg h1]
  by_cases h2 : ch = 0x08
  . rw [if_pos h2]
    refine .inr ⟨_, rfl, hready.of_frame (by rw [frame, frame, hready.wrap]) ?_ hready.y⟩
    by_cases hzero : con.x ≠ 0
    . show 0 ≤ (if con.x ≠ 0 then short (con.x - 1) else con.x)
        ∧ (if con.x ≠ 0 then short (con.x - 1) else con.x) ≤ con.xmax + 1
      rw [if_pos hzero, short_of_range ⟨by omega, by omega⟩]
      omega
    show 0 ≤ (if con.x ≠ 0 then short (con.x - 1) else con.x)
      ∧ (if con.x ≠ 0 then short (con.x - 1) else con.x) ≤ con.xmax + 1
    rw [if_neg hzero]
    exact hx
  rw [if_neg h2]
  by_cases h3 : ch = 0x09
  . have htab := tab_range hready
    have hfit' := hfit h3
    rw [if_pos h3]
    rw [short_of_range ⟨by omega, by omega⟩]
    by_cases hend : con.x + (con.tab - con.x.tmod con.tab) > con.xmax
    . rw [if_pos hend, short_of_range ⟨by omega, by omega⟩]
      refine .inr ⟨_, rfl, ?_⟩
      apply lineFeed_ready
      refine hready.of_frame (by rw [resetCodes, frame, frame, hready.wrap]) ?_ hready.y
      show 0 ≤ con.x + (con.tab - con.x.tmod con.tab) - (con.xmax + 1)
        ∧ con.x + (con.tab - con.x.tmod con.tab) - (con.xmax + 1) ≤ con.xmax + 1
      omega
    . rw [if_neg hend]
      refine .inr ⟨_, rfl, hready.of_frame (by rw [frame, frame, hready.wrap]) ?_ hready.y⟩
      show 0 ≤ con.x + (con.tab - con.x.tmod con.tab) ∧ con.x + (con.tab - con.x.tmod con.tab) ≤ con.xmax + 1
      omega
  rw [if_neg h3]
  by_cases h4 : ch = 0x0B ∨ ch = 0x0C
  . rw [if_pos h4]
    exact .inr ⟨_, rfl, lineFeed_ready (hready.of_place rfl)⟩
  rw [if_neg h4]
  by_cases h5 : ch = 0x0A
  . rw [if_pos h5]
    exact .inr ⟨_, rfl, lineFeed_ready hready⟩
  rw [if_neg h5]
  by_cases h6 : ch = 0x0D
  . rw [if_pos h6]
    refine .inr ⟨_, rfl, hready.of_frame (by rw [frame, frame, hready.wrap]) ?_ hready.y⟩
    show 0 ≤ (0 : Int) ∧ 0 ≤ con.xmax + 1
    omega
  rw [if_neg h6]
  by_cases h7 : ch = 0x1B
  . rw [if_pos h7]
    exact .inl ⟨_, rfl, hready.of_place rfl, h.scroll⟩
  rw [if_neg h7]
  by_cases h8 : ch = 0x0E
  . rw [if_pos h8]
    exact .inl ⟨_, rfl, hready.of_place rfl, h.scroll⟩
  rw [if_neg h8]
  by_cases h9 : ch = 0x0F
  . rw [if_pos h9]
    exact .inl ⟨_, rfl, hready.of_place rfl, h.scroll⟩
  have hprints' : prints ch = true := by
    rw [prints, decide_eq_true_eq]
    rw [not_or] at h1 h4
    exact ⟨hne, h1.1, h1.2, h2, h3, h4.1, h4.2, h5, h6, h7, h8, h9⟩
  rw [hprints] at hprints'
  cases hprints'

theorem vtByte_safe (h : Safe con) (hfit : byteFits con ch) (ch1 : Byte)
    : ∃ con', vtByte con ch ch1 = some con' ∧ Safe con' := by
  have hcontinue : ∀ con', vtOutcome con ch ch1 = .continue con' → Safe con'
      → ∃ con', vtByte con ch ch1 = some con' ∧ Safe con' := by
    intro con' houtcome hsafe
    refine ⟨con', ?_, hsafe⟩
    rw [vtByte, vtRounds, houtcome]
  have hscroll : ∀ con', vtOutcome con ch ch1 = .scroll con' → Ready con'
      → ∃ con', vtByte con ch ch1 = some con' ∧ Safe con' := by
    intro con' houtcome hready
    refine ⟨scrollStep con', ?_, scrollStep_safe hready⟩
    rw [vtByte, vtRounds, houtcome]
  by_cases hzero : ch = 0
  . exact hcontinue con (by rw [vtOutcome, if_pos hzero]) h
  cases hesc : con.esc with
  | some esc => exact hscroll _ (by rw [vtOutcome, if_neg hzero, hesc]) (escHandler_ready h.ready hesc hfit)
  | none =>
    cases hprints : prints ch with
    | false =>
      have houtcome : vtOutcome con ch ch1 = vtChar con ch ch1 := by rw [vtOutcome, if_neg hzero, hesc]
      rcases vtChar_ready h hesc hzero hprints hfit ch1 with ⟨con', hchar, hsafe⟩ | ⟨con', hchar, hready⟩
      . exact hcontinue con' (houtcome.trans hchar) hsafe
      . exact hscroll con' (houtcome.trans hchar) hready
    | true =>
      have hx := h.ready.x
      have houtcome := vtOutcome_print hesc hprints ch1
      by_cases hlast : con.x = con.xmax + 1
      . have hend : atEnd con = true := by simp [atEnd, hlast]
        have hsafe := scrollStep_safe (wrapLine_ready h.ready hlast).1
        have hnext := scrollStep_fields (wrapLine con)
        have hesc' : (scrollStep (wrapLine con)).esc = none :=
          ((keep_fields (keep_scrollStep _)).2.1.trans (keep_fields (wrapLine_fields con).1).2.1).trans hesc
        have hxnext : (scrollStep (wrapLine con)).x ≤ (scrollStep (wrapLine con)).xmax := by
          have hxmax := hsafe.ready.xmax
          have hcols := hsafe.ready.screen.cols
          rw [hnext.1, (wrapLine_ready h.ready hlast).2]
          omega
        have hend' : atEnd (scrollStep (wrapLine con)) = false := by
          have hne : ¬(scrollStep (wrapLine con)).x = (scrollStep (wrapLine con)).xmax + 1 := by omega
          simp [atEnd, hne, hsafe.ready.wrap]
        refine ⟨_, ?_, putByte_safe hsafe hxnext ch ch1⟩
        rw [vtByte, vtRounds, houtcome, if_pos hend]
        dsimp only
        rw [vtRounds, vtOutcome_print hesc' hprints, hend']
        rfl
      . have hend : atEnd con = false := by simp [atEnd, hlast, h.ready.wrap]
        rw [hend] at houtcome
        exact hcontinue _ houtcome (putByte_safe h (by omega) ch ch1)

end Bytes

inductive VtEvent where
  | byte (ch ch1 : Byte)
  | resize (rows cols : Int)

def vtStep (con : ConInfo) : VtEvent → Option ConInfo
  | .byte ch ch1 => vtByte con ch ch1
  | .resize rows cols => some (vtChangeWindowSize con rows cols)

def vtRun (con : ConInfo) : List VtEvent → Option ConInfo
  | [] => some con
  | event :: events => (vtStep con event).bind fun con => vtRun con events

def bufferEvents : List Byte → Byte → List VtEvent
  | [], _ => []
  | ch :: rest, behind => .byte ch (rest.headD behind) :: bufferEvents rest behind

def SizeOk (rows cols : Int) : Prop :=
  (8 ≤ rows ∧ rows ≤ 32767) ∧ (8 ≤ cols ∧ cols ≤ 32767)

def VtEvent.Ok : VtEvent → Prop
  | .byte _ _ => True
  | .resize rows cols => SizeOk rows cols

def eventFits (con : ConInfo) : VtEvent → Prop
  | .byte ch _ => byteFits con ch
  | .resize rows _ => con.ymin < rows

def eventsFit (con : ConInfo) : List VtEvent → Prop
  | [] => True
  | event :: events => eventFits con event ∧ ∀ con', vtStep con event = some con' → eventsFit con' events

theorem vtChangeWindowSize_safe (h : Safe con) {rows cols : Int} (hsize : SizeOk rows cols)
    (hfit : con.ymin < rows) : Safe (vtChangeWindowSize con rows cols) := by
  have hready := h.ready
  have hx := hready.x
  have hy := hready.y
  have hmargins := hready.margins
  rcases hsize with ⟨hrows, hcols⟩
  have hshort : ∀ n : Int, 8 ≤ n ∧ n ≤ 32767 → short (n - 1) = n - 1 := fun n hn =>
    short_of_range ⟨by omega, by omega⟩
  have hmul : rows * cols < 2147483648 := by nlinarith
  have hpos : 0 ≤ rows * cols := mul_nonneg (by omega) (by omega)
  refine ⟨⟨⟨hcols, hrows, hready.screen.textHead, ?_⟩, ?_, ?_, ?_, ?_, hready.tab, hready.wrap, hready.narg,
    hready.inBounds⟩, h.scroll⟩
  . show int32 (rows * cols) = cols * rows
    rw [int32_of_range ⟨hpos, hmul⟩, mul_comm]
  . exact hshort cols hcols
  . show 0 ≤ (if con.x > short (cols - 1) then short (cols - 1) else con.x)
      ∧ (if con.x > short (cols - 1) then short (cols - 1) else con.x) ≤ short (cols - 1) + 1
    rw [hshort cols hcols]
    split
    . omega
    . omega
  . show 0 ≤ (if con.y > short (rows - 1) then short (rows - 1) else con.y)
      ∧ (if con.y > short (rows - 1) then short (rows - 1) else con.y) ≤ short (rows - 1)
    rw [hshort rows hrows]
    split
    . omega
    . omega
  . show 0 ≤ con.ymin ∧ con.ymin ≤ short (rows - 1) ∧ short (rows - 1) < rows
    rw [hshort rows hrows]
    omega

theorem vtStart_safe {rows cols : Int} (hsize : SizeOk rows cols) (coding : SysCoding)
    : Safe (vtStart cols rows coding) := by
  rcases hsize with ⟨hrows, hcols⟩
  have hshort : ∀ n : Int, 8 ≤ n ∧ n ≤ 32767 → short (n - 1) = n - 1 := fun n hn =>
    short_of_range ⟨by omega, by omega⟩
  have hmul : cols * rows < 2147483648 := by nlinarith
  have hpos : 0 ≤ cols * rows := mul_nonneg (by omega) (by omega)
  refine ⟨⟨⟨hcols, hrows, rfl, int32_of_range ⟨hpos, hmul⟩⟩, hshort cols hcols, ?_, ?_, ?_, rfl, rfl,
    Nat.zero_lt_succ 7, rfl⟩, rfl⟩
  . show 0 ≤ (0 : Int) ∧ 0 ≤ short (cols - 1) + 1
    rw [hshort cols hcols]
    omega
  . show 0 ≤ (0 : Int) ∧ 0 ≤ short (rows - 1)
    rw [hshort rows hrows]
    omega
  . show 0 ≤ (0 : Int) ∧ 0 ≤ short (rows - 1) ∧ short (rows - 1) < rows
    rw [hshort rows hrows]
    omega

theorem vtStep_safe (h : Safe con) {event : VtEvent} (hok : event.Ok) (hfit : eventFits con event)
    : ∃ con', vtStep con event = some con' ∧ Safe con' := by
  cases event with
  | byte ch ch1 => exact vtByte_safe h hfit ch1
  | resize rows cols => exact ⟨_, rfl, vtChangeWindowSize_safe h hok hfit⟩

variable {events : List VtEvent}

theorem vtRun_safe (h : Safe con) (hok : ∀ event ∈ events, event.Ok) (hfit : eventsFit con events)
    : ∃ con', vtRun con events = some con' ∧ Safe con' := by
  induction events generalizing con with
  | nil => exact ⟨con, rfl, h⟩
  | cons event events ih =>
    rcases vtStep_safe h (hok event List.mem_cons_self) hfit.1 with ⟨con', hstep, hsafe⟩
    rw [vtRun, hstep]
    exact ih hsafe (fun e he => hok e (List.mem_cons_of_mem event he)) (hfit.2 con' hstep)

theorem eventsFit_of_append {later : List VtEvent} (h : eventsFit con (events ++ later))
    : eventsFit con events := by
  induction events generalizing con with
  | nil => trivial
  | cons event events ih => exact ⟨h.1, fun con' hstep => ih (h.2 con' hstep)⟩

/--
The terminal is safe between all bytes of a run whose steps stay on the screen.
-/
theorem vt_runs {rows cols : Int} (hsize : SizeOk rows cols) (coding : SysCoding) {events : List VtEvent}
    (hok : ∀ event ∈ events, event.Ok) (hfit : eventsFit (vtStart cols rows coding) events) {before : List VtEvent}
    (hbefore : before <+: events)
    : ∃ con, vtRun (vtStart cols rows coding) before = some con ∧ Safe con := by
  rcases hbefore with ⟨later, rfl⟩
  apply vtRun_safe (vtStart_safe hsize coding)
  . intro event hevent
    exact hok event (List.mem_append_left later hevent)
  . exact eventsFit_of_append hfit

theorem vt_runs_resize
    : ∃ con, vtRun (vtStart 80 25 .gb) [.resize 10 40, .byte 0x41 0] = some con ∧ Safe con := by
  have hok : ∀ event ∈ [VtEvent.resize 10 40, VtEvent.byte 0x41 0], event.Ok := by
    intro event hevent
    rcases List.mem_cons.mp hevent with rfl | hevent
    . exact ⟨by decide, by decide⟩
    . rw [List.mem_singleton.mp hevent]
      trivial
  have hfit : eventsFit (vtStart 80 25 .gb) [.resize 10 40, .byte 0x41 0] := by
    refine ⟨show (0 : Int) < 10 by decide, ?_⟩
    intro con hstep
    rw [← Option.some_inj.mp hstep]
    exact ⟨fun htab => absurd htab (by decide), fun _ _ => trivial⟩
  exact vt_runs ⟨⟨by decide, by decide⟩, ⟨by decide, by decide⟩⟩ .gb hok hfit (List.prefix_refl _)

theorem not_vt_runs
    : ¬∃ con, vtRun (vtStart 80 25 .gb) (bufferEvents [0x1B, 0x5B, 0x39, 0x39, 0x50] 0) = some con ∧ Safe con := by
  rintro ⟨con, hrun, hsafe⟩
  have hbounds : (vtRun (vtStart 80 25 .gb) (bufferEvents [0x1B, 0x5B, 0x39, 0x39, 0x50] 0)).map ConInfo.inBounds
      = some false := by
    decide +kernel
  rw [hrun, Option.map_some, hsafe.ready.inBounds] at hbounds
  cases hbounds

end MiniGui.Vcongui
