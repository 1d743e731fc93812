import MiniGui.Vcongui.VtWrite

namespace MiniGui.Vcongui

variable {α : Type}

section Control

def control (con : ConInfo) : ConInfo :=
  { con with
    textBuff := fun _ => 0
    attrBuff := fun _ => 0
    flagBuff := fun _ => 0
    inBounds := true
    textClear := false }

theorem control_foldl (f : ConInfo → α → ConInfo) (hf : ∀ con a, control (f con a) = control con)
    (l : List α) (con : ConInfo)
    : control (l.foldl f con) = control con := by
  induction l generalizing con with
  | nil => rfl
  | cons a l ih => rw [List.foldl_cons, ih, hf]

variable (con : ConInfo)

@[simp]
theorem control_access (addr len : Int) : control (con.access addr len) = control con := rfl

@[simp]
theorem control_clearCells (addr len flagLen : Int)
    : control (clearCells con addr len flagLen) = control con := rfl

@[simp]
theorem control_zeroCells (addr len : Int) : control (zeroCells con addr len) = control con := rfl

@[simp]
theorem control_moveCells (dst src len : Int) : control (moveCells con dst src len) = control con := rfl

@[simp]
theorem control_latchFlags (addr len : Int) : control (latchFlags con addr len) = control con := rfl

@[simp]
theorem control_putCell (addr : Int) (ch flag : Byte)
    : control (putCell con addr ch flag) = control con := rfl

@[simp]
theorem control_flagBuff (flagBuff : Int → Byte) : control { con with flagBuff } = control con := rfl

@[simp]
theorem control_clearLine (y : Int) : control (clearLine con y) = control con :=
  control_clearCells con _ _ _

@[simp]
theorem control_moveLine (dst src : Int) : control (moveLine con dst src) = control con := by
  simp only [moveLine, control_latchFlags, control_flagBuff, control_moveCells]

@[simp]
theorem control_textInsertChar (n : Int) : control (textInsertChar con n) = control con := by
  simp only [textInsertChar, control_zeroCells, control_latchFlags, control_moveCells]

@[simp]
theorem control_textDeleteChar (n : Int) : control (textDeleteChar con n) = control con := by
  simp only [textDeleteChar, control_zeroCells, control_latchFlags, control_moveCells]

@[simp]
theorem control_textClearBand (top btm : Int) : control (textClearBand con top btm) = control con := by
  rw [textClearBand, control_foldl]
  intro con i
  exact control_clearLine con _

@[simp]
theorem control_textMoveUp (top btm line : Int)
    : control (textMoveUp con top btm line) = control con := by
  rw [textMoveUp]
  split
  . rw [control_textClearBand]
  dsimp only
  rw [control_textClearBand, control_foldl]
  intro con i
  exact control_moveLine con _ _

@[simp]
theorem control_textMoveDown (top btm line : Int)
    : control (textMoveDown con top btm line) = control con := by
  rw [textMoveDown]
  split
  . rw [control_textClearBand]
  dsimp only
  rw [control_textClearBand, control_foldl]
  intro con i
  exact control_moveLine con _ _

@[simp]
theorem control_textClear (textClear : Bool) : control { con with textClear } = control con := rfl

@[simp]
theorem control_textClearAll : control (textClearAll con) = control con := by
  rw [textClearAll, control_textClear, control_clearCells]

@[simp]
theorem control_textClearEol (mode : Byte) : control (textClearEol con mode) = control con :=
  control_clearCells con _ _ _

@[simp]
theorem control_textClearChars (len : Int) : control (textClearChars con len) = control con :=
  control_clearCells con _ _ _

@[simp]
theorem control_textClearEos (mode : Byte) : control (textClearEos con mode) = control con := by
  rw [textClearEos]
  split
  . exact control_textClearAll con
  split
  . dsimp only
    rw [control_clearCells, control_foldl]
    intro con y
    exact control_clearLine con _
  dsimp only
  rw [control_clearCells, control_foldl]
  intro con i
  exact control_clearLine con _

theorem control_rearrangeLine : control (rearrangeLine con) = control con := by
  have hcell : ∀ addr (con : ConInfo × Byte) i, control (rearrangeCell addr con i).1 = control con.1 := by
    intro addr con i
    rw [rearrangeCell]
    split
    . rfl
    . split <;> rfl
  have hfold : ∀ addr (l : List Nat) (con : ConInfo × Byte),
      control (l.foldl (rearrangeCell addr) con).1 = control con.1 := by
    intro addr l
    induction l with
    | nil => intro con; rfl
    | cons i l ih =>
      intro con
      rw [List.foldl_cons, ih, hcell]
  exact hfold _ _ _

theorem control_scrollStep : control (scrollStep con) = { control con with scroll := 0 } := by
  have hscroll : ∀ con' : ConInfo, control con' = control con
      → control { con' with scroll := 0 } = { control con with scroll := 0 } := by
    intro con' h
    rw [← h]
    rfl
  rw [scrollStep]
  apply hscroll
  split
  . exact control_textMoveUp _ _ _ _
  . split
    . exact control_textMoveDown _ _ _ _
    . rfl

end Control

section Keep

def codes (con : ConInfo) : Int × Byte × Byte :=
  (con.xmax, con.db, con.sb)

def keep (con : ConInfo) : (Int × Byte × Byte) × Option Esc × Nat × SysCoding :=
  (codes con, con.esc, con.narg, con.sysCoding)

variable {con' : ConInfo} {c : Prop} {ch : Byte}

theorem keep_of_control {con : ConInfo} (h : control con' = control con) : keep con' = keep con := by
  have hkeep : keep (control con') = keep (control con) := by rw [h]
  exact hkeep

structure TermOk (con : ConInfo) : Prop where
  xmax : 0 ≤ con.xmax ∧ con.xmax ≤ 32767
  db : con.db &&& (LATCH_1 ||| LATCH_2) ≠ 0
  sb : con.sb &&& (LATCH_1 ||| LATCH_2) = 0

theorem TermOk.of_codes {con : ConInfo} (h : TermOk con) (hcodes : codes con' = codes con) : TermOk con' := by
  rw [codes, codes, Prod.mk.injEq, Prod.mk.injEq] at hcodes
  rcases hcodes with ⟨hxmax, hdb, hsb⟩
  exact ⟨by rw [hxmax]; exact h.xmax, by rw [hdb]; exact h.db, by rw [hsb]; exact h.sb⟩

theorem TermOk.of_keep {con : ConInfo} (h : TermOk con) (hkeep : keep con' = keep con) : TermOk con' :=
  h.of_codes (congrArg Prod.fst hkeep)

theorem keep_fields {con : ConInfo} (h : keep con' = keep con)
    : codes con' = codes con ∧ con'.esc = con.esc ∧ con'.narg = con.narg ∧ con'.sysCoding = con.sysCoding :=
  ⟨congrArg Prod.fst h, congrArg (fun kept => kept.2.1) h, congrArg (fun kept => kept.2.2.1) h,
    congrArg (fun kept => kept.2.2.2) h⟩

variable (con : ConInfo)

theorem keep_scrollStep : keep (scrollStep con) = keep con := by
  have hkeep : keep (control (scrollStep con)) = keep { control con with scroll := 0 } := by rw [control_scrollStep]
  exact hkeep

theorem keep_foldl (f : ConInfo → α → ConInfo) (hf : ∀ con a, keep (f con a) = keep con) (l : List α)
    (con : ConInfo)
    : keep (l.foldl f con) = keep con := by
  induction l generalizing con with
  | nil => rfl
  | cons a l ih => rw [List.foldl_cons, ih, hf]

theorem field_ite {β : Type} (f : ConInfo → β) {con a b : ConInfo} [Decidable c] (ha : f a = f con)
    (hb : f b = f con)
    : f (if c then a else b) = f con := by
  split
  . exact ha
  . exact hb

theorem keep_ite {con a b : ConInfo} [Decidable c] (ha : keep a = keep con) (hb : keep b = keep con)
    : keep (if c then a else b) = keep con :=
  field_ite keep ha hb

theorem keep_escSetAttr (col : BitVec 16) : keep (escSetAttr con col) = keep con := by
  unfold escSetAttr
  repeat' apply keep_ite
  all_goals rfl

theorem keep_vtSetMode (mode : BitVec 16) (sw : Bool) : keep (vtSetMode con mode sw) = keep con := by
  unfold vtSetMode
  repeat' apply keep_ite
  all_goals rfl

theorem keep_restoreAttr : keep (restoreAttr con) = keep con := by
  rw [restoreAttr]
  split <;> rfl

theorem keep_forArgs {f : ConInfo → BitVec 16 → ConInfo} (hf : ∀ con arg, keep (f con arg) = keep con)
    : keep (forArgs con f) = keep con := by
  apply keep_foldl
  intro con n
  rw [hf]
  rfl

theorem keep_lineDown : keep (lineDown con) = keep con := by
  rw [lineDown]
  split <;> rfl

theorem keep_escFinal (hquestion : ch ≠ 0x3F) : keep (escFinal con ch) = keep con := by
  unfold escFinal
  apply keep_ite (keep_of_control (control_textClearEol _ _))
  apply keep_ite (keep_of_control (control_textClearEos _ _))
  apply keep_ite (keep_of_control (control_textClearChars _ _))
  apply keep_ite
  . exact keep_ite (by rfl) (by rfl)
  apply keep_ite
  . exact keep_ite (by rfl) (by rfl)
  apply keep_ite rfl
  apply keep_ite rfl
  apply keep_ite rfl
  apply keep_ite (keep_of_control (control_textDeleteChar _ _))
  apply keep_ite (keep_of_control (control_textInsertChar _ _))
  apply keep_ite (keep_of_control (control_textMoveDown _ _ _ _))
  apply keep_ite (keep_of_control (control_textMoveUp _ _ _ _))
  apply keep_ite rfl
  apply keep_ite rfl
  apply keep_ite (keep_forArgs con keep_escSetAttr)
  apply keep_ite rfl
  apply keep_ite (keep_forArgs con fun con mode => keep_vtSetMode con mode false)
  apply keep_ite (keep_forArgs con fun con mode => keep_vtSetMode con mode true)
  rw [if_neg hquestion]
  apply keep_ite rfl
  apply keep_ite (keep_restoreAttr con)
  apply keep_ite
  . exact keep_ite (by rfl) (by rfl)
  . rfl

def escFrom (ch : Byte) : Option Esc → Nat → Option Esc × Nat
  | none, narg => (if ch = 0x1B then some .start else none, narg)
  | some .start, narg =>
    if ch = 0x5B then
      (some .bracket, narg)
    else if ch = 0x24 then
      (some .setDCodeG0, narg)
    else if ch = 0x28 ∨ ch = 0x2C then
      (some .setSCodeG0, narg)
    else if ch = 0x29 then
      (some .setSCodeG1, narg)
    else
      (none, narg)
  | some .bracket, narg =>
    if (0x30 ≤ ch.toNat ∧ ch.toNat ≤ 0x39) ∨ ch = 0x3F then
      (some .bracket, narg)
    else if ch = 0x3B then
      if narg < MAX_NARG then (some .bracket, narg + 1) else (none, narg)
    else
      (none, 0)
  | some .setDCodeG0, narg => (if ch = 0x28 ∨ ch = 0x29 then some .setDCodeG0 else none, narg)
  | some .setSCodeG0, narg => (none, narg)
  | some .setSCodeG1, narg => (none, narg)

def escNext (esc : Option Esc) (narg : Nat) (ch : Byte) : Option Esc × Nat :=
  if ch = 0 then (esc, narg) else escFrom ch esc narg

structure StepOk (con : ConInfo) (ch : Byte) (con' : ConInfo) : Prop where
  ok : TermOk con'
  esc : (con'.esc, con'.narg) = escNext con.esc con.narg ch
  sysCoding : con'.sysCoding = con.sysCoding

theorem StepOk.of_keep {con con'' : ConInfo} (h : StepOk con ch con') (hkeep : keep con'' = keep con')
    : StepOk con ch con'' := by
  rcases keep_fields hkeep with ⟨hcodes, hesc, hnarg, hcoding⟩
  exact ⟨h.ok.of_codes hcodes, by rw [hesc, hnarg]; exact h.esc, hcoding.trans h.sysCoding⟩

theorem resetArgs_esc
    : (resetArgs con).esc = con.esc ∧ (resetArgs con).narg = if con.esc = none then 0 else con.narg := by
  rw [resetArgs]
  split
  . exact ⟨rfl, rfl⟩
  . exact ⟨rfl, rfl⟩

theorem codes_resetArgs
    : codes (resetArgs con) = codes con ∧ (resetArgs con).sysCoding = con.sysCoding := by
  rw [resetArgs]
  split <;> exact ⟨rfl, rfl⟩

variable {con}

theorem escBracket_ok (h : TermOk con) (hesc : con.esc = some .bracket) (hne : ch ≠ 0)
    : StepOk con ch (escBracket con ch) := by
  rw [escBracket]
  by_cases hdigit : 0x30 ≤ ch.toNat ∧ ch.toNat ≤ 0x39
  . rw [if_pos hdigit]
    refine ⟨h.of_codes rfl, ?_, rfl⟩
    rw [escNext, if_neg hne, hesc, escFrom]
    show (con.esc, con.narg) = _
    rw [hesc]
    exact (if_pos (Or.inl hdigit)).symm
  rw [if_neg hdigit]
  by_cases hsemi : ch = 0x3B
  . have hnot : ¬((0x30 ≤ ch.toNat ∧ ch.toNat ≤ 0x39) ∨ ch = 0x3F) := by
      rw [hsemi]
      decide
    rw [if_pos hsemi]
    by_cases hnarg : con.narg < MAX_NARG
    . rw [if_pos hnarg]
      refine ⟨h.of_codes rfl, ?_, rfl⟩
      rw [escNext, if_neg hne, hesc, escFrom]
      rw [if_neg hnot, if_pos hsemi, if_pos hnarg]
    rw [if_neg hnarg]
    refine ⟨h.of_codes rfl, ?_, rfl⟩
    rw [escNext, if_neg hne, hesc, escFrom]
    rw [if_neg hnot, if_pos hsemi, if_neg hnarg]
  rw [if_neg hsemi]
  by_cases hquestion : ch = 0x3F
  . have hfinal : escFinal { con with esc := none } ch = { con with question := true, esc := some .bracket } := by
      rw [hquestion]
      rfl
    have hreset : resetArgs (escFinal { con with esc := none } ch)
        = { con with question := true, esc := some .bracket } := by
      rw [hfinal]
      rfl
    rw [hreset]
    refine ⟨h.of_codes rfl, ?_, rfl⟩
    rw [escNext, if_neg hne, hesc, escFrom, if_pos (Or.inr hquestion)]
  rcases keep_fields (keep_escFinal { con with esc := none } hquestion) with ⟨hcodes, hnone, _, hcoding⟩
  refine ⟨h.of_codes ((codes_resetArgs _).1.trans hcodes), ?_, (codes_resetArgs _).2.trans hcoding⟩
  rw [(resetArgs_esc _).1, (resetArgs_esc _).2, hnone, escNext, if_neg hne, hesc, escFrom]
  rw [if_neg (not_or.mpr ⟨hdigit, hquestion⟩), if_neg hsemi]
  rfl

theorem escSetDCodeG0_ok (h : TermOk con) (hesc : con.esc = some .setDCodeG0) (hne : ch ≠ 0)
    : StepOk con ch (escSetDCodeG0 con ch) := by
  rw [escSetDCodeG0]
  by_cases hskip : ch = 0x28 ∨ ch = 0x29
  . rw [if_pos hskip]
    refine ⟨h, ?_, rfl⟩
    rw [escNext, if_neg hne, hesc, escFrom]
    rw [if_pos hskip]
  rw [if_neg hskip]
  dsimp only
  generalize dCodingSigns.findIdx _ = i
  have hbits : ∀ i < dCodingSigns.length, (BitVec.ofNat 8 i ||| LATCH_1) &&& (LATCH_1 ||| LATCH_2) ≠ 0 := by
    decide
  have hnext : escNext con.esc con.narg ch = (none, con.narg) := by
    rw [escNext, if_neg hne, hesc, escFrom]
    rw [if_neg hskip]
  by_cases hlt : i < dCodingSigns.length
  . rw [if_pos hlt]
    exact ⟨⟨h.xmax, hbits i hlt, h.sb⟩, hnext.symm, rfl⟩
  . rw [if_neg hlt]
    exact ⟨⟨h.xmax, h.db, h.sb⟩, hnext.symm, rfl⟩

theorem escSetSCodeG0_ok (h : TermOk con) (hesc : con.esc = some .setSCodeG0) (hne : ch ≠ 0)
    : StepOk con ch (escSetSCodeG0 con ch) := by
  have hnext : escNext con.esc con.narg ch = (none, con.narg) := by
    rw [escNext, if_neg hne, hesc, escFrom]
  rw [escSetSCodeG0]
  dsimp only
  split
  . exact ⟨h.of_codes rfl, hnext.symm, rfl⟩
  split
  . exact ⟨h.of_codes rfl, hnext.symm, rfl⟩
  rename_i signs hsigns
  have hlt := (List.getElem?_eq_some_iff.mp hsigns).1
  have hbits : ∀ i < sCodingSigns.length, BitVec.ofNat 8 i &&& (LATCH_1 ||| LATCH_2) = 0 := by
    decide
  exact ⟨⟨h.xmax, h.db, hbits _ hlt⟩, hnext.symm, rfl⟩

theorem escSetSCodeG1_ok (h : TermOk con) (hesc : con.esc = some .setSCodeG1) (hne : ch ≠ 0)
    : StepOk con ch (escSetSCodeG1 con ch) := by
  have hnext : escNext con.esc con.narg ch = (none, con.narg) := by
    rw [escNext, if_neg hne, hesc, escFrom]
  rw [escSetSCodeG1]
  split
  . exact ⟨h.of_codes rfl, hnext.symm, rfl⟩
  . split <;> exact ⟨h.of_codes rfl, hnext.symm, rfl⟩

theorem latch_bits : LATCH_1 &&& (LATCH_1 ||| LATCH_2) ≠ 0 ∧ LATCH_S &&& (LATCH_1 ||| LATCH_2) = 0 := by
  decide

theorem TermOk.resetCodes (h : TermOk con) : TermOk (resetCodes con) :=
  ⟨h.xmax, latch_bits.1, latch_bits.2⟩

theorem escStart_ok (h : TermOk con) (hesc : con.esc = some .start) (hne : ch ≠ 0)
    : StepOk con ch (escStart con ch) := by
  have hnext : escNext con.esc con.narg ch
      = if ch = 0x5B then (some .bracket, con.narg) else if ch = 0x24 then (some .setDCodeG0, con.narg)
        else if ch = 0x28 ∨ ch = 0x2C then (some .setSCodeG0, con.narg)
        else if ch = 0x29 then (some .setSCodeG1, con.narg) else (none, con.narg) := by
    rw [escNext, if_neg hne, hesc, escFrom]
  rw [escStart]
  by_cases h1 : ch = 0x5B
  . rw [if_pos h1]
    exact ⟨h.of_codes rfl, by rw [hnext, if_pos h1], rfl⟩
  rw [if_neg h1]
  by_cases h2 : ch = 0x24
  . rw [if_pos h2]
    exact ⟨h.of_codes rfl, by rw [hnext, if_neg h1, if_pos h2], rfl⟩
  rw [if_neg h2]
  by_cases h3 : ch = 0x28 ∨ ch = 0x2C
  . rw [if_pos h3]
    exact ⟨h.of_codes rfl, by rw [hnext, if_neg h1, if_neg h2, if_pos h3], rfl⟩
  rw [if_neg h3]
  by_cases h4 : ch = 0x29
  . rw [if_pos h4]
    exact ⟨h.of_codes rfl, by rw [hnext, if_neg h1, if_neg h2, if_neg h3, if_pos h4], rfl⟩
  rw [if_neg h4]
  rw [if_neg h1, if_neg h2, if_neg h3, if_neg h4] at hnext
  -- all the others end the sequence
  have hnone : StepOk con ch { con with esc := none } := ⟨h.of_codes rfl, hnext.symm, rfl⟩
  by_cases hreset : ch = 0x63
  . rw [hreset]
    rw [hreset] at hnext
    exact ⟨⟨h.xmax, latch_bits.1, latch_bits.2⟩, hnext.symm, rfl⟩
  apply hnone.of_keep
  apply keep_ite (keep_lineDown _)
  apply keep_ite (keep_lineDown _)
  apply keep_ite
  . exact keep_ite (by rfl) (by rfl)
  rw [if_neg hreset]
  apply keep_ite (keep_of_control (control_textClearAll _))
  apply keep_ite rfl
  apply keep_ite
  . exact keep_restoreAttr { con with esc := none }
  . rfl

theorem escHandler_ok (h : TermOk con) {esc : Esc} (hesc : con.esc = some esc) (hne : ch ≠ 0)
    : StepOk con ch (escHandler esc con ch) := by
  cases esc with
  | start => exact escStart_ok h hesc hne
  | bracket => exact escBracket_ok h hesc hne
  | setDCodeG0 => exact escSetDCodeG0_ok h hesc hne
  | setSCodeG0 => exact escSetSCodeG0_ok h hesc hne
  | setSCodeG1 => exact escSetSCodeG1_ok h hesc hne

theorem TermOk.vtStart {cols : Int} (hcols : 0 < cols ∧ cols ≤ 32767) (rows : Int) (coding : SysCoding)
    : TermOk (vtStart cols rows coding) := by
  have hshort : short (cols - 1) = cols - 1 := Int.bmod_eq_of_le (by omega) (by omega)
  refine ⟨?_, latch_bits.1, latch_bits.2⟩
  show 0 ≤ short (cols - 1) ∧ short (cols - 1) ≤ 32767
  rw [hshort]
  omega

variable (con : ConInfo)

theorem control_firstOrSecondByte : control (firstOrSecondByte con).1 = control con := by
  rw [firstOrSecondByte]
  split <;> rfl

theorem control_textWput1 (ch : Byte) : control (textWput1 con ch) = control con :=
  control_putCell con _ _ _

theorem control_textWput2 (ch : Byte) : control (textWput2 con ch) = control con := by
  rw [textWput2, control_latchFlags, control_putCell]

theorem control_textSput (ch : Byte) : control (textSput con ch) = control con :=
  control_putCell con _ _ _

def makeRoom (con : ConInfo) : ConInfo :=
  if con.ins then textInsertChar con 1 else con

theorem control_makeRoom : control (makeRoom con) = control con := by
  rw [makeRoom]
  split
  . exact control_textInsertChar con 1
  . rfl

def putWide (con : ConInfo) (ch : Byte) : ConInfo :=
  if (firstOrSecondByte con).2 = LATCH_1 then
    textWput1 (firstOrSecondByte con).1 ch
  else
    textWput2 (firstOrSecondByte con).1 ch

theorem control_putWide (ch : Byte) : control (putWide con ch) = control con := by
  rw [putWide]
  split
  . rw [control_textWput1, control_firstOrSecondByte]
  . rw [control_textWput2, control_firstOrSecondByte]

def goOn (con : ConInfo) : ConInfo :=
  { con with x := short (con.x + 1) }

theorem putByte_eq (ch ch1 : Byte) : putByte con ch ch1 = goOn (
        if iskanji con.sysCoding ch ch1 then
          putWide (makeRoom con) ch
        else
          rearrangeLine (textSput (makeRoom con) ch)) := by
  rfl

theorem keep_putByte (ch ch1 : Byte) : keep (putByte con ch ch1) = keep con := by
  have hgoOn : ∀ con : ConInfo, keep (goOn con) = keep con := fun _ => rfl
  rw [putByte_eq, hgoOn]
  split
  . exact keep_of_control ((control_putWide _ ch).trans (control_makeRoom con))
  . apply keep_of_control
    rw [control_rearrangeLine, control_textSput, control_makeRoom]

end Keep

end MiniGui.Vcongui
