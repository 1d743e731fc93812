import MiniGui.Vcongui.Control

namespace MiniGui.Vcongui

open List

open ConInfo (access dispxmax dispymax y)

variable {n y len : Int}

section Screen

structure Screen (con : ConInfo) : Prop where
  cols : 8 ≤ con.dispxmax ∧ con.dispxmax ≤ 32767
  rows : 8 ≤ con.dispymax ∧ con.dispymax ≤ 32767
  textHead : con.textHead = 0
  textSize : con.textSize = con.dispxmax * con.dispymax

theorem Screen.of_control {con con' : ConInfo} (h : Screen con) (hcontrol : control con' = control con)
    : Screen con' := by
  have hfield : ∀ {β : Type} (f : ConInfo → β), f (control con') = f (control con) := by
    intro β f
    rw [hcontrol]
  have hcols : con'.dispxmax = con.dispxmax := hfield dispxmax
  have hrows : con'.dispymax = con.dispymax := hfield dispymax
  have hhead : con'.textHead = con.textHead := hfield ConInfo.textHead
  have hsize : con'.textSize = con.textSize := hfield ConInfo.textSize
  exact ⟨by rw [hcols]; exact h.cols, by rw [hrows]; exact h.rows, by rw [hhead]; exact h.textHead,
    by rw [hcols, hrows, hsize]; exact h.textSize⟩

variable {con : ConInfo}

theorem Screen.size_range (h : Screen con) : 64 ≤ con.textSize ∧ con.textSize < 2147483648 := by
  have hcols := h.cols
  have hrows := h.rows
  rw [h.textSize]
  constructor
  . nlinarith
  . nlinarith

theorem Screen.line_le (h : Screen con) (hy : 0 ≤ y ∧ y < con.dispymax)
    : 0 ≤ y * con.dispxmax ∧ y * con.dispxmax + con.dispxmax ≤ con.textSize := by
  have hcols := h.cols
  rw [h.textSize]
  constructor
  . exact mul_nonneg hy.1 (by omega)
  have hmul : (y + 1) * con.dispxmax ≤ con.dispymax * con.dispxmax :=
    mul_le_mul_of_nonneg_right (by omega) (by omega)
  rw [add_mul, one_mul, mul_comm con.dispymax] at hmul
  exact hmul

theorem uInt_of_range (h : 0 ≤ n ∧ n < 4294967296) : uInt n = n :=
  Int.emod_eq_of_lt h.1 h.2

theorem int32_of_range (h : 0 ≤ n ∧ n < 2147483648) : int32 n = n :=
  Int.bmod_eq_of_le (by omega) (by omega)

theorem textAddress_range (h : Screen con) (x y : Int)
    : 0 ≤ textAddress con x y ∧ textAddress con x y < con.textSize := by
  have hsize := h.size_range
  exact ⟨Int.emod_nonneg _ (by omega), Int.emod_lt_of_pos _ (by omega)⟩

theorem textAddress_eq (h : Screen con) {x : Int} (hx : 0 ≤ x ∧ x < con.dispxmax)
    (hy : 0 ≤ y ∧ y < con.dispymax) : textAddress con x y = x + y * con.dispxmax := by
  have hsize := h.size_range
  have hline := h.line_le hy
  rw [textAddress, h.textHead, zero_add, uInt_of_range (by omega)]
  exact Int.emod_eq_of_lt (by omega) (by omega)

theorem textAddress_le (h : Screen con) {x : Int} (hx : 0 ≤ x ∧ x ≤ con.dispxmax)
    (hy : 0 ≤ y ∧ y < con.dispymax)
    : 0 ≤ textAddress con x y ∧ textAddress con x y + (con.dispxmax - x) ≤ con.textSize := by
  by_cases hend : x = con.dispxmax
  . have hrange := textAddress_range h x y
    omega
  . have hline := h.line_le hy
    rw [textAddress_eq h ⟨hx.1, by omega⟩ hy]
    omega

theorem lineAddress_le (h : Screen con) (hy : 0 ≤ y ∧ y ≤ con.dispymax)
    : 0 ≤ textAddress con 0 y ∧ textAddress con 0 y + con.dispxmax ≤ con.textSize := by
  have hcols := h.cols
  by_cases hend : y = con.dispymax
  . have hsize := h.size_range
    have hline := h.line_le (y := 0) ⟨le_refl _, by have hrows := h.rows; omega⟩
    have hmul : con.dispymax * con.dispxmax = con.textSize := by rw [h.textSize, mul_comm]
    rw [textAddress, h.textHead, hend, zero_add, zero_add, hmul, uInt_of_range (by omega), Int.emod_self]
    omega
  . have hle := textAddress_le h (x := 0) ⟨le_refl _, by omega⟩ ⟨hy.1, by omega⟩
    omega

theorem longs_le (hn : 0 ≤ n) : 0 ≤ longs n ∧ longs n ≤ n := by
  rw [longs]
  omega

end Screen

section TextOnly

structure TextOnly (con con' : ConInfo) : Prop where
  control : control con' = control con
  inBounds : con'.inBounds = con.inBounds

theorem TextOnly.refl (con : ConInfo) : TextOnly con con :=
  ⟨rfl, rfl⟩

theorem TextOnly.trans {con con' con'' : ConInfo} (h : TextOnly con con') (h' : TextOnly con' con'')
    : TextOnly con con'' :=
  ⟨h'.control.trans h.control, h'.inBounds.trans h.inBounds⟩

theorem TextOnly.field {con con' : ConInfo} (h : TextOnly con con') {β : Type} (f : ConInfo → β)
    : f (Vcongui.control con') = f (Vcongui.control con) := by
  rw [h.control]

variable {con : ConInfo}

theorem textOnly_foldl {f : ConInfo → Nat → ConInfo} {n : Nat}
    (hf : ∀ con', TextOnly con con' → con'.dispymax = con.dispymax → ∀ i < n, TextOnly con' (f con' i))
    : TextOnly con ((range n).foldl f con) := by
  induction n with
  | zero => exact TextOnly.refl con
  | succ n ih =>
    rw [range_succ, foldl_append]
    have hn := ih fun con' hcon' hrows i hi => hf con' hcon' hrows i (by omega)
    exact hn.trans (hf _ hn (hn.field dispymax) n (by omega))

variable {addr : Int}

section

variable (h : 0 ≤ addr ∧ addr + len ≤ con.textSize)
include h

theorem inBounds_access : (con.access addr len).inBounds = con.inBounds := by
  have hlen : (len ≤ 0 || (0 ≤ addr && addr + len ≤ con.textSize)) = true := by
    simp [h.1, h.2]
  rw [access]
  rw [hlen, Bool.and_true]

theorem textOnly_clearCells {flagLen : Int}
    (hflag : flagLen ≤ len) : TextOnly con (clearCells con addr len flagLen) := by
  refine ⟨rfl, ?_⟩
  show ((con.access addr len).access addr flagLen).inBounds = con.inBounds
  rw [inBounds_access ⟨h.1, ?_⟩, inBounds_access h]
  show addr + flagLen ≤ con.textSize
  omega

theorem textOnly_zeroCells : TextOnly con (zeroCells con addr len) :=
  ⟨rfl, inBounds_access h⟩

end

theorem textOnly_moveCells {dst src : Int} (hdst : 0 ≤ dst ∧ dst + len ≤ con.textSize)
    (hsrc : 0 ≤ src ∧ src + len ≤ con.textSize) : TextOnly con (moveCells con dst src len) := by
  refine ⟨rfl, ?_⟩
  show ((con.access dst len).access src len).inBounds = con.inBounds
  rw [inBounds_access ?_, inBounds_access hdst]
  exact hsrc

theorem textOnly_latchFlags (h : 0 ≤ addr ∧ addr + len ≤ con.textSize)
    : TextOnly con (latchFlags con addr len) :=
  ⟨rfl, inBounds_access h⟩

theorem textOnly_putCell (h : 0 ≤ addr ∧ addr < con.textSize) (ch flag : Byte)
    : TextOnly con (putCell con addr ch flag) := by
  refine ⟨rfl, ?_⟩
  have hlen : addr + 1 ≤ con.textSize := by omega
  exact inBounds_access ⟨h.1, hlen⟩

end TextOnly

section Routines

variable {con : ConInfo}

section

variable (h : Screen con)
include h

theorem textOnly_clearLine (hy : 0 ≤ y ∧ y ≤ con.dispymax) : TextOnly con (clearLine con y) := by
  have hcols := h.cols
  have hlongs := longs_le (n := con.dispxmax) (by omega)
  rw [clearLine, uInt_of_range (by omega)]
  exact textOnly_clearCells (lineAddress_le h hy) hlongs.2

theorem textOnly_textClearBand {top btm : Int} (htop : 0 ≤ top)
    (hbtm : btm < con.dispymax) : TextOnly con (textClearBand con top btm) := by
  rw [textClearBand]
  apply textOnly_foldl
  intro con' hcon' hrows i hi
  exact textOnly_clearLine (h.of_control hcon'.control) ⟨by omega, by omega⟩

theorem textOnly_moveLine {dst src : Int} (hdst : 0 ≤ dst ∧ dst ≤ con.dispymax)
    (hsrc : 0 ≤ src ∧ src ≤ con.dispymax) : TextOnly con (moveLine con dst src) := by
  have hcols := h.cols
  have hlongs := longs_le (n := con.dispxmax) (by omega)
  have hdst' := lineAddress_le h hdst
  have hmove := textOnly_moveCells hdst' (lineAddress_le h hsrc)
  refine ⟨by simp, ?_⟩
  rw [moveLine, uInt_of_range (by omega)]
  show (((moveCells con (textAddress con 0 dst) (textAddress con 0 src) con.dispxmax)).access (textAddress con 0 dst)
    (longs con.dispxmax)).inBounds = con.inBounds
  rw [inBounds_access, hmove.inBounds]
  exact ⟨hdst'.1, by show _ ≤ con.textSize; omega⟩

theorem textOnly_textMoveUp {top btm line : Int} (htop : 0 ≤ top)
    (hbtm : btm < con.dispymax) (hline : 0 < line)
    : TextOnly con (textMoveUp con top btm line) := by
  rw [textMoveUp]
  by_cases hall : btm - top - line + 1 ≤ 0
  . rw [if_pos hall]
    exact textOnly_textClearBand h htop hbtm
  rw [if_neg hall]
  have hmove : TextOnly con ((range (btm - line + 1 - top).toNat).foldl
      (fun con (i : Nat) => moveLine con (top + i) (top + i + line)) con) := by
    apply textOnly_foldl
    intro con' hcon' hrows i hi
    exact textOnly_moveLine (h.of_control hcon'.control) ⟨by omega, by omega⟩ ⟨by omega, by omega⟩
  have hrows := hmove.field dispymax
  refine hmove.trans (textOnly_textClearBand (h.of_control hmove.control) (by omega) ?_)
  exact lt_of_lt_of_eq hbtm hrows.symm

theorem textOnly_textMoveDown {top btm line : Int} (htop : 0 ≤ top)
    (hbtm : btm < con.dispymax) (hline : 0 < line)
    : TextOnly con (textMoveDown con top btm line) := by
  rw [textMoveDown]
  by_cases hall : btm - top - line + 1 ≤ 0
  . rw [if_pos hall]
    exact textOnly_textClearBand h htop hbtm
  rw [if_neg hall]
  have hmove : TextOnly con ((range (btm + 1 - (top + line)).toNat).foldl
      (fun con (i : Nat) => moveLine con (btm - i) (btm - i - line)) con) := by
    apply textOnly_foldl
    intro con' hcon' hrows i hi
    exact textOnly_moveLine (h.of_control hcon'.control) ⟨by omega, by omega⟩ ⟨by omega, by omega⟩
  have hrows : dispymax (control _) = con.dispymax := hmove.field dispymax
  refine hmove.trans (textOnly_textClearBand (h.of_control hmove.control) htop ?_)
  refine lt_of_lt_of_eq ?_ hrows.symm
  omega

theorem textOnly_textClearAll : TextOnly con (textClearAll con) := by
  have hsize := h.size_range
  have hlongs := longs_le (n := con.textSize) (by omega)
  have hclear : TextOnly con (clearCells con 0 con.textSize (longs con.textSize)) :=
    textOnly_clearCells ⟨le_refl _, by omega⟩ hlongs.2
  exact ⟨control_textClearAll con, hclear.inBounds⟩

variable (hx : 0 ≤ con.x ∧ con.x ≤ con.dispxmax)
include hx

variable (hy : 0 ≤ con.y ∧ con.y < con.dispymax)
include hy

theorem textOnly_textClearEol (mode : Byte) : TextOnly con (textClearEol con mode) := by
  rw [textClearEol]
  by_cases h1 : mode = 1
  . have hle := textAddress_le h (x := 0) ⟨le_refl _, by omega⟩ hy
    rw [if_pos (Or.inl h1), if_pos h1]
    exact textOnly_clearCells ⟨hle.1, by omega⟩ (le_refl _)
  by_cases h2 : mode = 2
  . have hle := textAddress_le h (x := 0) ⟨le_refl _, by omega⟩ hy
    rw [if_pos (Or.inr h2), if_neg h1, if_pos h2]
    exact textOnly_clearCells ⟨hle.1, by omega⟩ (le_refl _)
  . have hle := textAddress_le h (x := con.x % 256) ⟨by omega, by omega⟩ hy
    rw [if_neg (not_or.mpr ⟨h1, h2⟩), if_neg h1, if_neg h2]
    exact textOnly_clearCells ⟨hle.1, by omega⟩ (le_refl _)

theorem textOnly_textClearChars (hlen : 0 ≤ len) : TextOnly con (textClearChars con len) := by
  have hcols := h.cols
  have hle := textAddress_le h hx hy
  rw [textClearChars]
  split
  . rw [uInt_of_range (by omega)]
    exact textOnly_clearCells ⟨hle.1, by omega⟩ (le_refl _)
  . rw [uInt_of_range (by omega)]
    exact textOnly_clearCells ⟨hle.1, by omega⟩ (le_refl _)

theorem textOnly_textClearEos (mode : Byte) : TextOnly con (textClearEos con mode) := by
  have hcols := h.cols
  have hlines : ∀ {f : ConInfo → Nat → Int} {n : Nat},
      (∀ con', con'.y = con.y → ∀ i < n, 0 ≤ f con' i ∧ f con' i ≤ con.dispymax)
      → TextOnly con ((range n).foldl (fun con (i : Nat) => clearLine con (f con i)) con) := by
    intro f n hf
    apply textOnly_foldl
    intro con' hcon' hrows i hi
    have hrange := hf con' (hcon'.field ConInfo.y) i hi
    exact textOnly_clearLine (h.of_control hcon'.control) ⟨by omega, by omega⟩
  -- the line of the cursor, in a state with the same cursor
  have hcursor : ∀ con', TextOnly con con' → ∀ x len, 0 ≤ x ∧ x ≤ con.dispxmax → 0 ≤ len ∧ len ≤ con.dispxmax - x
      → TextOnly con (clearCells con' (textAddress con' x con'.y) (uInt len) (uInt len)) := by
    intro con' hcon' x len hx hlen
    have hcols' : con'.dispxmax = con.dispxmax := hcon'.field dispxmax
    have hrows' : con'.dispymax = con.dispymax := hcon'.field dispymax
    have hy' : con'.y = con.y := hcon'.field ConInfo.y
    have hle := textAddress_le (h.of_control hcon'.control) (x := x) (y := con'.y) ⟨hx.1, by omega⟩
      ⟨by omega, by omega⟩
    rw [uInt_of_range (by omega)]
    exact hcon'.trans (textOnly_clearCells ⟨hle.1, by omega⟩ (le_refl _))
  rw [textClearEos]
  by_cases h2 : mode = 2
  . rw [if_pos h2]
    exact textOnly_textClearAll h
  rw [if_neg h2]
  by_cases h1 : mode = 1
  . rw [if_pos h1]
    dsimp only
    have hfold := hlines (f := fun _ i => i) (n := con.y.toNat) fun con' hy' i hi => ⟨by omega, by omega⟩
    generalize (range con.y.toNat).foldl _ con = con' at hfold ⊢
    have hx' : con'.x = con.x := hfold.field ConInfo.x
    rw [hx']
    exact hcursor con' hfold 0 con.x ⟨le_refl _, by omega⟩ ⟨hx.1, by omega⟩
  rw [if_neg h1]
  dsimp only
  have hfold := hlines (f := fun con i => con.y + 1 + i) (n := (con.dispymax - con.y).toNat) fun con' hy' i hi =>
    ⟨by omega, by omega⟩
  generalize (range (con.dispymax - con.y).toNat).foldl _ con = con' at hfold ⊢
  have hx' : con'.x = con.x := hfold.field ConInfo.x
  have hcols' : con'.dispxmax = con.dispxmax := hfold.field dispxmax
  rw [hx', hcols']
  exact hcursor con' hfold con.x (con.dispxmax - con.x) hx ⟨by omega, le_refl _⟩

end

theorem textOnly_shift {dst src at' : Int} (hdst : 0 ≤ dst ∧ dst + len ≤ con.textSize)
    (hsrc : 0 ≤ src ∧ src + len ≤ con.textSize) (hat : 0 ≤ at' ∧ at' + len ≤ con.textSize)
    : TextOnly con (latchFlags (moveCells con dst src len) at' len) := by
  have hmove := textOnly_moveCells hdst hsrc
  have hsize : (moveCells con dst src len).textSize = con.textSize := hmove.field ConInfo.textSize
  exact hmove.trans (textOnly_latchFlags ⟨hat.1, by rw [hsize]; exact hat.2⟩)

theorem textOnly_textDeleteChar (h : Screen con) (hn : 0 < n)
    (hx : 0 ≤ con.x ∧ con.x + n ≤ con.dispxmax) (hy : 0 ≤ con.y ∧ con.y < con.dispymax)
    : TextOnly con (textDeleteChar con n) := by
  have hcols := h.cols
  have hline := h.line_le hy
  have haddr := textAddress_eq h (x := con.x) ⟨hx.1, by omega⟩ hy
  have hend := textAddress_eq h (x := con.dispxmax - n) ⟨by omega, by omega⟩ hy
  refine ⟨control_textDeleteChar con n, ?_⟩
  rw [textDeleteChar, haddr, uInt_of_range ⟨by omega, by omega⟩, uInt_of_range ⟨by omega, by omega⟩,
    int32_of_range ⟨by omega, by omega⟩]
  have hshift : TextOnly con (latchFlags
      (moveCells con (con.x + con.y * con.dispxmax) (con.x + con.y * con.dispxmax + n) (con.dispxmax - con.x - n))
      (con.x + con.y * con.dispxmax) (con.dispxmax - con.x - n)) :=
    textOnly_shift ⟨by omega, by omega⟩ ⟨by omega, by omega⟩ ⟨by omega, by omega⟩
  generalize latchFlags _ _ _ = con' at hshift ⊢
  have hcols' : con'.dispxmax = con.dispxmax := hshift.field dispxmax
  have hy' : con'.y = con.y := hshift.field y
  have hsize : con'.textSize = con.textSize := hshift.field ConInfo.textSize
  have hend' : textAddress con' (con.dispxmax - n) con.y = textAddress con (con.dispxmax - n) con.y :=
    hshift.field fun con => textAddress con _ _
  rw [hcols', hy', hend', hend]
  exact (hshift.trans (textOnly_zeroCells ⟨by omega, by omega⟩)).inBounds

theorem textOnly_textInsertChar (h : Screen con) (hn : 0 < n)
    (hx : 0 ≤ con.x ∧ con.x + n ≤ con.dispxmax) (hy : 0 ≤ con.y ∧ con.y < con.dispymax)
    : TextOnly con (textInsertChar con n) := by
  have hcols := h.cols
  have hline := h.line_le hy
  have haddr := textAddress_eq h (x := con.x) ⟨hx.1, by omega⟩ hy
  rw [textInsertChar, haddr, uInt_of_range ⟨by omega, by omega⟩, uInt_of_range ⟨by omega, by omega⟩,
    int32_of_range ⟨by omega, by omega⟩]
  have hshift : TextOnly con (latchFlags
      (moveCells con (con.x + con.y * con.dispxmax + n) (con.x + con.y * con.dispxmax) (con.dispxmax - con.x - n))
      (con.x + con.y * con.dispxmax + n) (con.dispxmax - con.x - n)) :=
    textOnly_shift ⟨by omega, by omega⟩ ⟨by omega, by omega⟩ ⟨by omega, by omega⟩
  generalize latchFlags _ _ _ = con' at hshift ⊢
  have hsize : con'.textSize = con.textSize := hshift.field ConInfo.textSize
  exact hshift.trans (textOnly_zeroCells ⟨by omega, by omega⟩)

theorem textOnly_makeRoom (h : Screen con) (hx : 0 ≤ con.x ∧ con.x < con.dispxmax)
    (hy : 0 ≤ con.y ∧ con.y < con.dispymax) : TextOnly con (makeRoom con) := by
  rw [makeRoom]
  split
  . exact textOnly_textInsertChar h (by omega) ⟨hx.1, by omega⟩ hy
  . exact TextOnly.refl con

theorem textOnly_firstOrSecondByte (h : Screen con) : TextOnly con (firstOrSecondByte con).1 := by
  have haccess : ∀ x y, (con.access (textAddress con x y) 1).inBounds = con.inBounds := by
    intro x y
    have hrange := textAddress_range h x y
    exact inBounds_access ⟨hrange.1, by omega⟩
  refine ⟨control_firstOrSecondByte con, ?_⟩
  rw [firstOrSecondByte]
  by_cases hx : con.x = 0
  . rw [if_pos hx]
    by_cases hy : con.y > con.ymin
    . rw [if_pos hy]
      exact haccess _ _
    . rw [if_neg hy]
  . rw [if_neg hx]
    exact haccess _ _

theorem firstOrSecondByte_second (h : (firstOrSecondByte con).2 ≠ LATCH_1)
    : con.x ≠ 0 ∨ con.y > con.ymin := by
  by_contra hfirst
  rw [not_or, not_not] at hfirst
  apply h
  rw [firstOrSecondByte, if_pos hfirst.1, if_neg hfirst.2]

theorem textOnly_putWide (h : Screen con) (hx : 0 ≤ con.x ∧ con.x < con.dispxmax)
    (hy : 0 ≤ con.y ∧ con.y < con.dispymax) (hymin : 0 ≤ con.ymin) (ch : Byte)
    : TextOnly con (putWide con ch) := by
  have hfirst := textOnly_firstOrSecondByte h
  have haddr := textAddress_eq h hx hy
  rw [putWide]
  by_cases hbyte : (firstOrSecondByte con).2 = LATCH_1
  . rw [if_pos hbyte]
    generalize (firstOrSecondByte con).1 = con' at hfirst ⊢
    exact hfirst.trans (textOnly_putCell (textAddress_range (h.of_control hfirst.control) _ _) ch _)
  have hbefore := firstOrSecondByte_second hbyte
  rw [if_neg hbyte]
  generalize (firstOrSecondByte con).1 = con' at hfirst ⊢
  have hcell : textAddress con' con'.x con'.y = textAddress con con.x con.y :=
    hfirst.field fun con => textAddress con con.x con.y
  have hsize : con'.textSize = con.textSize := hfirst.field ConInfo.textSize
  have hline := h.line_le hy
  have hpos : 0 < textAddress con con.x con.y := by
    rw [haddr]
    rcases hbefore with hbefore | hbefore
    . omega
    . have hmul : 1 * con.dispxmax ≤ con.y * con.dispxmax := mul_le_mul_of_nonneg_right (by omega) (by omega)
      omega
  have hrange := textAddress_range h con.x con.y
  have hsizes := h.size_range
  rw [textWput2, hcell, uInt_of_range ⟨by omega, by omega⟩]
  have hput := hfirst.trans (textOnly_putCell ⟨hrange.1, by rw [hsize]; exact hrange.2⟩ ch LATCH_2)
  generalize putCell _ _ _ _ = con'' at hput ⊢
  have hsize' : con''.textSize = con.textSize := hput.field ConInfo.textSize
  exact hput.trans (textOnly_latchFlags ⟨by omega, by omega⟩)

theorem textOnly_rearrangeLine (h : Screen con) (hxmax : con.xmax = con.dispxmax - 1)
    (hx : 0 ≤ con.x ∧ con.x < con.dispxmax) (hy : 0 ≤ con.y ∧ con.y < con.dispymax)
    : TextOnly con (rearrangeLine con) := by
  have hline := h.line_le hy
  have haddr := textAddress_eq h hx hy
  have hcell : ∀ addr (c : ConInfo × Byte) (i : Nat), 0 ≤ addr ∧ addr + i + 2 ≤ c.1.textSize
      → (rearrangeCell addr c i).1.inBounds = c.1.inBounds ∧ (rearrangeCell addr c i).1.textSize = c.1.textSize := by
    intro addr c i hrange
    have haccess : (c.1.access (addr + i) 2).inBounds = c.1.inBounds := inBounds_access ⟨by omega, hrange.2⟩
    rw [rearrangeCell]
    split
    . exact ⟨haccess, rfl⟩
    . split
      . exact ⟨haccess, rfl⟩
      . exact ⟨haccess, rfl⟩
  have hfold : ∀ (addr : Int) (n : Nat), 0 ≤ addr ∧ addr + n + 1 ≤ con.textSize
      → ((range n).foldl (rearrangeCell addr) (con, LATCH_S)).1.inBounds = con.inBounds
        ∧ ((range n).foldl (rearrangeCell addr) (con, LATCH_S)).1.textSize = con.textSize := by
    intro addr n
    induction n with
    | zero => intro _; exact ⟨rfl, rfl⟩
    | succ n ih =>
      intro hrange
      rw [range_succ, foldl_append]
      have hn := ih ⟨hrange.1, by omega⟩
      have hlast := hcell addr ((range n).foldl (rearrangeCell addr) (con, LATCH_S)) n
        ⟨hrange.1, by rw [hn.2]; omega⟩
      exact ⟨hlast.1.trans hn.1, hlast.2.trans hn.2⟩
  refine ⟨control_rearrangeLine con, ?_⟩
  rw [rearrangeLine, haddr]
  by_cases hlast : con.xmax - con.x - 1 ≤ 0
  . rw [Int.toNat_eq_zero.mpr hlast]
    rfl
  . exact (hfold _ _ ⟨by omega, by omega⟩).1

end Routines

end MiniGui.Vcongui
