import MiniGui.Vcongui.Control

namespace MiniGui.Vcongui

def prints (ch : Byte) : Bool :=
  ch ≠ 0 ∧ ch ≠ 0x07 ∧ ch ≠ 0x7F ∧ ch ≠ 0x08 ∧ ch ≠ 0x09 ∧ ch ≠ 0x0B ∧ ch ≠ 0x0C ∧ ch ≠ 0x0A ∧ ch ≠ 0x0D ∧ ch ≠ 0x1B
    ∧ ch ≠ 0x0E ∧ ch ≠ 0x0F

def atEnd (con : ConInfo) : Bool :=
  con.x = con.xmax + 1 ∨ con.wrap = true

def wrapLine (con : ConInfo) : ConInfo :=
  let con := if con.x = con.xmax + 1 then { con with wrap := true, x := short (con.x - 1) } else con
  { lineDown { con with x := short (con.x - con.xmax) } with wrap := false }

variable {ch c : Byte} {coding : SysCoding}

theorem vtChar_print {con : ConInfo} (h : prints ch = true) (ch1 : Byte)
    : vtChar con ch ch1 = if atEnd con then .again (wrapLine con) else .continue (putByte con ch ch1) := by
  rw [prints, decide_eq_true_eq] at h
  rcases h with ⟨_, h1, h2, h3, h4, h5, h6, h7, h8, h9, h10, h11⟩
  rw [vtChar, if_neg (not_or.mpr ⟨h1, h2⟩), if_neg h3, if_neg h4, if_neg (not_or.mpr ⟨h5, h6⟩), if_neg h7, if_neg h8,
    if_neg h9, if_neg h10, if_neg h11]
  by_cases hx : con.x = con.xmax + 1
  . have hend : atEnd con = true := by simp [atEnd, hx]
    rw [if_pos hx, if_pos rfl, if_pos hend, wrapLine, if_pos hx]
  rw [if_neg hx]
  by_cases hwrap : con.wrap = true
  . have hend : atEnd con = true := by simp [atEnd, hwrap]
    rw [if_pos hwrap, if_pos hend, wrapLine, if_neg hx]
  . have hend : ¬atEnd con = true := by simp [atEnd, hwrap, hx]
    rw [if_neg hwrap, if_neg hend]

def wideLead : SysCoding → Byte → Bool
  | .gb, c => between 0xA1 0xFE c
  | .gbk, c => between 0x81 0xFE c
  | _, _ => false

theorem prints_of_wideLead (h : wideLead coding ch = true) : prints ch = true := by
  have hlow : 0x81 ≤ ch.toNat := by
    cases coding with
    | gb | gbk =>
      simp only [wideLead, between, Bool.and_eq_true, decide_eq_true_eq] at h
      omega
    | sjis => cases h
    | big5 => cases h
    | other => cases h
  have hne : ∀ c : Byte, c.toNat < 0x81 → ch ≠ c := by
    rintro c hc rfl
    omega
  rw [prints, decide_eq_true_eq]
  refine ⟨hne _ (by decide), hne _ (by decide), hne _ (by decide), hne _ (by decide), hne _ (by decide),
    hne _ (by decide), hne _ (by decide), hne _ (by decide), hne _ (by decide), hne _ (by decide), hne _ (by decide),
    hne _ (by decide)⟩

theorem iskanji_of_not_wideLead (h : wideLead coding c = false) (c1 c2 : Byte)
    : iskanji coding c c1 = iskanji coding c c2 := by
  cases coding with
  | gb => simp [iskanji, show between 0xA1 0xFE c = false from h]
  | gbk => simp [iskanji, show between 0x81 0xFE c = false from h]
  | sjis => rfl
  | big5 => rfl
  | other => rfl

theorem iskanji_of_wideLead (h : wideLead coding c = true)
    : iskanji coding c 0xA1 = true ∧ iskanji coding c 0 = false := by
  cases coding with
  | gb => simp [iskanji, show between 0xA1 0xFE c = true from h]; decide
  | gbk => simp [iskanji, show between 0x81 0xFE c = true from h]; decide
  | sjis => cases h
  | big5 => cases h
  | other => cases h

theorem scrollStep_fields (con : ConInfo)
    : (scrollStep con).x = con.x ∧ (scrollStep con).wrap = con.wrap := by
  have hfield : ∀ {β : Type} (f : ConInfo → β), f (control (scrollStep con)) = f { control con with scroll := 0 } := by
    intro β f
    rw [control_scrollStep]
  exact ⟨hfield ConInfo.x, hfield ConInfo.wrap⟩

theorem lineDown_x (con : ConInfo) : (lineDown con).x = con.x := by
  rw [lineDown]
  split <;> rfl

theorem wrapLine_fields (con : ConInfo) : keep (wrapLine con) = keep con ∧ (wrapLine con).wrap = false := by
  rw [wrapLine]
  split
  . exact ⟨keep_lineDown { con with wrap := true, x := short (short (con.x - 1) - con.xmax) }, rfl⟩
  . exact ⟨keep_lineDown { con with x := short (con.x - con.xmax) }, rfl⟩

theorem short_of_range {n : Int} (h : -32768 ≤ n ∧ n ≤ 32767) : short n = n := by
  rw [short]
  exact Int.bmod_eq_of_le (by omega) (by omega)

theorem wrapLine_x {con : ConInfo} (h : TermOk con) (hx : con.x = con.xmax + 1) : (wrapLine con).x = 0 := by
  have hxmax := h.xmax
  rw [wrapLine, if_pos hx]
  rw [lineDown_x]
  have hlast : short (con.x - 1) = con.xmax := by
    rw [hx, Int.add_sub_cancel, short_of_range ⟨by omega, by omega⟩]
  rw [hlast, sub_self]
  rfl

theorem vtOutcome_print {con : ConInfo} (hesc : con.esc = none) (h : prints ch = true) (ch1 : Byte)
    : vtOutcome con ch ch1 = if atEnd con then .again (wrapLine con) else .continue (putByte con ch ch1) := by
  have hne : ch ≠ 0 := by
    rw [prints, decide_eq_true_eq] at h
    exact h.1
  rw [vtOutcome, if_neg hne, hesc]
  exact vtChar_print h ch1

theorem vtByte_print {con : ConInfo} (hok : TermOk con) (hesc : con.esc = none) (h : prints ch = true)
    : ∃ con', keep con' = keep con ∧ ∀ ch1, vtByte con ch ch1 = some (putByte con' ch ch1) := by
  have hput : ∀ {con : ConInfo} (rounds : Nat) (ch1 : Byte), con.esc = none → atEnd con = false
      → vtRounds ch ch1 (rounds + 1) con = some (putByte con ch ch1) := by
    intro con rounds ch1 hesc hend
    rw [vtRounds, vtOutcome_print hesc h, hend]
    rfl
  have hwrap : ∀ {con : ConInfo} (rounds : Nat) (ch1 : Byte), con.esc = none → atEnd con = true
      → vtRounds ch ch1 (rounds + 1) con = vtRounds ch ch1 rounds (scrollStep (wrapLine con)) := by
    intro con rounds ch1 hesc hend
    rw [vtRounds, vtOutcome_print hesc h, hend]
    rfl
  -- what is known of the state behind a wrap
  have hnext : ∀ con : ConInfo, TermOk con → keep (scrollStep (wrapLine con)) = keep con
      ∧ (scrollStep (wrapLine con)).wrap = false
      ∧ (con.x = con.xmax + 1 → atEnd (scrollStep (wrapLine con)) = false) := by
    intro con hok
    have hline := wrapLine_fields con
    have hscroll := scrollStep_fields (wrapLine con)
    have hkeep : keep (scrollStep (wrapLine con)) = keep con := (keep_scrollStep _).trans hline.1
    have hno : (scrollStep (wrapLine con)).wrap = false := by rw [hscroll.2, hline.2]
    refine ⟨hkeep, hno, ?_⟩
    intro hx
    have hzero : (scrollStep (wrapLine con)).x = 0 := by rw [hscroll.1, wrapLine_x hok hx]
    have hxmax := (hok.of_keep hkeep).xmax
    have hne : ¬(0 : Int) = (scrollStep (wrapLine con)).xmax + 1 := by omega
    simp [atEnd, hzero, hno, hne]
  cases hend : atEnd con with
  | false => exact ⟨con, rfl, fun ch1 => hput 2 ch1 hesc hend⟩
  | true =>
    rcases hnext con hok with ⟨hkeep1, hwrap1, hzero1⟩
    have hesc1 : (scrollStep (wrapLine con)).esc = none := (keep_fields hkeep1).2.1.trans hesc
    cases hend1 : atEnd (scrollStep (wrapLine con)) with
    | false =>
      refine ⟨_, hkeep1, ?_⟩
      intro ch1
      rw [vtByte, hwrap 2 ch1 hesc hend, hput 1 ch1 hesc1 hend1]
    | true =>
      have hx1 : (scrollStep (wrapLine con)).x = (scrollStep (wrapLine con)).xmax + 1 := by
        simpa [atEnd, hwrap1] using hend1
      rcases hnext _ (hok.of_keep hkeep1) with ⟨hkeep2, _, hzero2⟩
      have hesc2 := (keep_fields hkeep2).2.1.trans hesc1
      refine ⟨_, hkeep2.trans hkeep1, ?_⟩
      intro ch1
      rw [vtByte, hwrap 2 ch1 hesc hend, hwrap 1 ch1 hesc1 hend1, hput 0 ch1 hesc2 (hzero2 hx1)]

theorem vtByte_other {con : ConInfo} (hok : TermOk con) (h : con.esc = none → prints ch = false)
    : ∃ con', StepOk con ch con' ∧ ∀ ch1, vtByte con ch ch1 = some con' := by
  have hcontinue : ∀ con', StepOk con ch con' → (∀ ch1, vtOutcome con ch ch1 = .continue con')
      → ∃ con', StepOk con ch con' ∧ ∀ ch1, vtByte con ch ch1 = some con' := by
    intro con' hok' houtcome
    refine ⟨con', hok', ?_⟩
    intro ch1
    rw [vtByte, vtRounds, houtcome]
  have hscroll : ∀ con', StepOk con ch con' → (∀ ch1, vtOutcome con ch ch1 = .scroll con')
      → ∃ con', StepOk con ch con' ∧ ∀ ch1, vtByte con ch ch1 = some con' := by
    intro con' hok' houtcome
    refine ⟨scrollStep con', hok'.of_keep (keep_scrollStep _), ?_⟩
    intro ch1
    rw [vtByte, vtRounds, houtcome]
  by_cases hzero : ch = 0
  . exact hcontinue con ⟨hok, (if_pos hzero).symm, rfl⟩ fun ch1 => by rw [vtOutcome, if_pos hzero]
  cases hesc : con.esc with
  | some esc => exact hscroll _ (escHandler_ok hok hesc hzero) fun ch1 => by rw [vtOutcome, if_neg hzero, hesc]
  | none =>
    have houtcome : ∀ ch1, vtOutcome con ch ch1 = vtChar con ch ch1 := by
      intro ch1
      rw [vtOutcome, if_neg hzero, hesc]
    have hnext : ch ≠ 0x1B → (con.esc, con.narg) = escNext con.esc con.narg ch := by
      intro hne
      rw [escNext, if_neg hzero, hesc, escFrom, if_neg hne]
    have hnone : ∀ {con' : ConInfo}, ch ≠ 0x1B → keep con' = keep con → StepOk con ch con' := by
      intro con' hne hkeep
      rcases keep_fields hkeep with ⟨_, hesc', hnarg', hcoding⟩
      exact ⟨hok.of_keep hkeep, by rw [hesc', hnarg', ← hnext hne], hcoding⟩
    have hfeed : ∀ {con con' : ConInfo}, StepOk con ch con' → StepOk con ch (lineFeed con') := by
      intro con con' h
      have hkeep := keep_lineDown { con' with wrap := false }
      exact h.of_keep hkeep
    have hreset : ∀ {con' : ConInfo}, ch ≠ 0x1B → keep con' = keep con → StepOk con ch (resetCodes con') := by
      intro con' hne hkeep
      have h := hnone hne hkeep
      exact ⟨h.ok.resetCodes, h.esc, h.sysCoding⟩
    by_cases h0 : ch = 0x1B
    . refine hcontinue { con with esc := some .start } ⟨hok.of_codes rfl, ?_, rfl⟩ fun ch1 => by
        rw [houtcome, h0]
        rfl
      rw [escNext, if_neg hzero, hesc, escFrom, if_pos h0]
    by_cases h1 : ch = 0x07 ∨ ch = 0x7F
    . exact hscroll con (hnone h0 rfl) fun ch1 => by rw [houtcome, vtChar, if_pos h1]
    by_cases h2 : ch = 0x08
    . refine hscroll _ ?_ fun ch1 => by rw [houtcome, vtChar, if_neg h1, if_pos h2]
      exact hnone h0 rfl
    by_cases h3 : ch = 0x09
    . by_cases hx : short (con.x + (con.tab - con.x.tmod con.tab)) > con.xmax
      . refine hscroll _ ?_ fun ch1 => by rw [houtcome, vtChar, if_neg h1, if_neg h2, if_pos h3, if_pos hx]
        apply hfeed
        apply hreset h0
        rfl
      . refine hscroll _ ?_ fun ch1 => by rw [houtcome, vtChar, if_neg h1, if_neg h2, if_pos h3, if_neg hx]
        exact hnone h0 rfl
    by_cases h4 : ch = 0x0B ∨ ch = 0x0C
    . refine hscroll _ ?_ fun ch1 => by rw [houtcome, vtChar, if_neg h1, if_neg h2, if_neg h3, if_pos h4]
      exact hfeed (hreset h0 rfl)
    by_cases h5 : ch = 0x0A
    . refine hscroll _ ?_ fun ch1 => by
        rw [houtcome, vtChar, if_neg h1, if_neg h2, if_neg h3, if_neg h4, if_pos h5]
      exact hfeed (hnone h0 rfl)
    by_cases h6 : ch = 0x0D
    . refine hscroll _ ?_ fun ch1 => by
        rw [houtcome, vtChar, if_neg h1, if_neg h2, if_neg h3, if_neg h4, if_neg h5, if_pos h6]
      exact hnone h0 rfl
    by_cases h7 : ch = 0x0E
    . refine hcontinue _ ?_ fun ch1 => by
        rw [houtcome, vtChar, if_neg h1, if_neg h2, if_neg h3, if_neg h4, if_neg h5, if_neg h6, if_neg h0,
          if_pos h7]
      exact hnone h0 rfl
    by_cases h8 : ch = 0x0F
    . refine hcontinue _ ?_ fun ch1 => by
        rw [houtcome, vtChar, if_neg h1, if_neg h2, if_neg h3, if_neg h4, if_neg h5, if_neg h6, if_neg h0,
          if_neg h7, if_pos h8]
      exact hnone h0 rfl
    have hprints : prints ch = true := by
      rw [prints, decide_eq_true_eq]
      rw [not_or] at h1 h4
      exact ⟨hzero, h1.1, h1.2, h2, h3, h4.1, h4.2, h5, h6, h0, h7, h8⟩
    rw [h hesc] at hprints
    cases hprints

theorem escNext_of_prints (h : prints ch = true) (narg : Nat) : escNext none narg ch = (none, narg) := by
  rw [prints, decide_eq_true_eq] at h
  have hesc : ch ≠ 0x1B := h.2.2.2.2.2.2.2.2.2.1
  rw [escNext, if_neg h.1, escFrom, if_neg hesc]

theorem vtByte_ok {con : ConInfo} (hok : TermOk con) (ch ch1 : Byte)
    : ∃ con', vtByte con ch ch1 = some con' ∧ StepOk con ch con' := by
  by_cases h : con.esc = none ∧ prints ch = true
  . rcases vtByte_print hok h.1 h.2 with ⟨con', hkeep, hput⟩
    have hkeep' : keep (putByte con' ch ch1) = keep con := (keep_putByte con' ch ch1).trans hkeep
    rcases keep_fields hkeep' with ⟨_, hesc, hnarg, hcoding⟩
    refine ⟨_, hput ch1, hok.of_keep hkeep', ?_, hcoding⟩
    rw [hesc, hnarg, h.1, escNext_of_prints h.2]
  have hother : con.esc = none → prints ch = false := by
    intro hesc
    exact Bool.eq_false_iff.mpr fun hprints => h ⟨hesc, hprints⟩
  rcases vtByte_other hok hother with ⟨con', hok', hput⟩
  exact ⟨con', hput ch1, hok'⟩

def wideBits (flag : Byte) : Byte :=
  flag &&& (LATCH_1 ||| LATCH_2)

theorem fill_at (buff : Int → Byte) (addr : Int) (value : Byte) : fill buff addr 1 value addr = value := by
  rw [fill, if_pos ⟨le_refl _, by omega⟩]

theorem wideBits_latch (buff : Int → Byte) (addr len a : Int)
    : wideBits (latch buff addr len a) = wideBits (buff a) := by
  have hbits : ∀ flag : Byte, wideBits (flag &&& 0x7F#8) = wideBits flag := by
    intro flag
    have hmask : (0x7F#8 : Byte) &&& (LATCH_1 ||| LATCH_2) = LATCH_1 ||| LATCH_2 := by decide
    rw [wideBits, wideBits, BitVec.and_assoc, hmask]
  rw [latch]
  split
  . exact hbits _
  . rfl

def cursorCell (con : ConInfo) : Int :=
  textAddress con con.x con.y

theorem cursorCell_of_control {con con' : ConInfo} (h : control con' = control con)
    : cursorCell con' = cursorCell con := by
  have hcell : cursorCell (control con') = cursorCell (control con) := by rw [h]
  exact hcell

theorem putWide_flag {con : ConInfo} (hok : TermOk con) (ch : Byte)
    : wideBits ((putWide con ch).flagBuff (cursorCell con)) ≠ 0 := by
  have hcontrol := control_firstOrSecondByte con
  rw [putWide]
  generalize firstOrSecondByte con = first at hcontrol ⊢
  have hcell : cursorCell first.1 = cursorCell con := cursorCell_of_control hcontrol
  have hok' : TermOk first.1 := hok.of_keep (keep_of_control hcontrol)
  rw [← hcell]
  split
  . have hflag : (textWput1 first.1 ch).flagBuff (cursorCell first.1) = first.1.db := fill_at _ _ _
    rw [hflag]
    exact hok'.db
  have hflag : (textWput2 first.1 ch).flagBuff (cursorCell first.1)
      = latch (putCell first.1 (cursorCell first.1) ch LATCH_2).flagBuff (uInt (cursorCell first.1 - 1)) 1
        (cursorCell first.1) := rfl
  have hput : (putCell first.1 (cursorCell first.1) ch LATCH_2).flagBuff (cursorCell first.1) = LATCH_2 :=
    fill_at _ _ _
  rw [hflag, wideBits_latch, hput]
  decide

theorem rearrangeLine_flag (con : ConInfo)
    : (rearrangeLine con).flagBuff (cursorCell con) = con.flagBuff (cursorCell con) := by
  have hfill : ∀ (buff : Int → Byte) (i : Nat) (flag : Byte),
      fill buff (cursorCell con + 1 + i) 1 flag (cursorCell con) = buff (cursorCell con) := by
    intro buff i flag
    rw [fill, if_neg (by omega)]
  have hcell : ∀ (c : ConInfo × Byte) (i : Nat),
      (rearrangeCell (cursorCell con + 1) c i).1.flagBuff (cursorCell con) = c.1.flagBuff (cursorCell con) := by
    intro c i
    rw [rearrangeCell]
    split
    . exact hfill _ _ _
    . split
      . exact hfill _ _ _
      . rfl
  have hfold : ∀ (l : List Nat) (c : ConInfo × Byte),
      (l.foldl (rearrangeCell (cursorCell con + 1)) c).1.flagBuff (cursorCell con)
        = c.1.flagBuff (cursorCell con) := by
    intro l
    induction l with
    | nil => intro c; rfl
    | cons i l ih =>
      intro c
      rw [List.foldl_cons, ih, hcell]
  exact hfold _ _

theorem textSput_flag {con : ConInfo} (hok : TermOk con) (ch : Byte)
    : wideBits ((rearrangeLine (textSput con ch)).flagBuff (cursorCell con)) = 0 := by
  have hcell : cursorCell (textSput con ch) = cursorCell con := cursorCell_of_control (control_textSput con ch)
  have hflag : (textSput con ch).flagBuff (cursorCell con) = LATCH_S ||| con.sb := fill_at _ _ _
  have hor : LATCH_S ||| con.sb = con.sb := BitVec.zero_or
  have hline := rearrangeLine_flag (textSput con ch)
  rw [hcell] at hline
  rw [hline, hflag, hor]
  exact hok.sb

theorem putByte_ne {con : ConInfo} (hok : TermOk con) (h : wideLead con.sysCoding ch = true)
    : putByte con ch 0xA1 ≠ putByte con ch 0 := by
  have hroom : TermOk (makeRoom con) := hok.of_keep (keep_of_control (control_makeRoom con))
  have hgoOn : ∀ con : ConInfo, (goOn con).flagBuff = con.flagBuff := fun _ => rfl
  rw [putByte_eq, putByte_eq, if_pos (iskanji_of_wideLead h).1, (iskanji_of_wideLead h).2, if_neg Bool.false_ne_true]
  intro heq
  have hwide := putWide_flag hroom ch
  have hsingle := textSput_flag hroom ch
  rw [← hgoOn] at hwide hsingle
  rw [heq] at hwide
  exact hwide hsingle

section Buffers

def looksAhead (coding : SysCoding) (esc : Option Esc) (ch : Byte) : Bool :=
  esc = none ∧ wideLead coding ch = true

variable {con : ConInfo}

theorem vtByte_behind (hok : TermOk con) (h : looksAhead con.sysCoding con.esc ch = false)
    (c1 c2 : Byte) : vtByte con ch c1 = vtByte con ch c2 := by
  rw [looksAhead, decide_eq_false_iff_not] at h
  by_cases hprints : con.esc = none ∧ prints ch = true
  . rcases vtByte_print hok hprints.1 hprints.2 with ⟨con', hkeep, hput⟩
    have hlead : wideLead con'.sysCoding ch = false := by
      rw [(keep_fields hkeep).2.2.2]
      exact Bool.eq_false_iff.mpr fun hlead => h ⟨hprints.1, hlead⟩
    rw [hput, hput, putByte_eq, putByte_eq, iskanji_of_not_wideLead hlead c1 c2]
  have hother : con.esc = none → prints ch = false := by
    intro hesc
    exact Bool.eq_false_iff.mpr fun hp => hprints ⟨hesc, hp⟩
  rcases vtByte_other hok hother with ⟨con', _, hput⟩
  rw [hput, hput]

theorem vtByte_ne (hok : TermOk con) (h : looksAhead con.sysCoding con.esc ch = true)
    : vtByte con ch 0xA1 ≠ vtByte con ch 0 := by
  rw [looksAhead, decide_eq_true_eq] at h
  rcases vtByte_print hok h.1 (prints_of_wideLead h.2) with ⟨con', hkeep, hput⟩
  have hlead : wideLead con'.sysCoding ch = true := by
    rw [(keep_fields hkeep).2.2.2]
    exact h.2
  rw [hput, hput]
  intro heq
  exact putByte_ne (hok.of_keep hkeep) hlead (Option.some_inj.mp heq)

def lastLooksAhead (coding : SysCoding) : Option Esc → Nat → List Byte → Bool
  | _, _, [] => false
  | esc, _, [ch] => looksAhead coding esc ch
  | esc, narg, ch :: rest => lastLooksAhead coding (escNext esc narg ch).1 (escNext esc narg ch).2 rest

def LastPlain (con : ConInfo) (bytes : List Byte) : Prop :=
  lastLooksAhead con.sysCoding con.esc con.narg bytes = false

theorem lastLooksAhead_cons {con con' : ConInfo} (hstep : StepOk con ch con') (ch1 : Byte)
    (rest : List Byte) : lastLooksAhead con.sysCoding con.esc con.narg (ch :: ch1 :: rest)
      = lastLooksAhead con'.sysCoding con'.esc con'.narg (ch1 :: rest) := by
  rw [lastLooksAhead, ← hstep.esc, hstep.sysCoding]
  exact List.cons_ne_nil ch1 rest

theorem vtWrite_ok (hok : TermOk con) (bytes : List Byte) (behind : Byte)
    : ∃ con', vtWrite con bytes behind = some con' ∧ TermOk con' := by
  induction bytes generalizing con with
  | nil => exact ⟨con, rfl, hok⟩
  | cons ch rest ih =>
    rcases vtByte_ok hok ch (rest.headD behind) with ⟨con', hbyte, hstep⟩
    rw [vtWrite, hbyte]
    exact ih hstep.ok

variable {bytes : List Byte}

theorem vtWrite_behind (hok : TermOk con) (h : LastPlain con bytes) (m1 m2 : Byte)
    : vtWrite con bytes m1 = vtWrite con bytes m2 := by
  induction bytes generalizing con with
  | nil => rfl
  | cons ch rest ih =>
    cases rest with
    | nil =>
      have hbyte := vtByte_behind hok h m1 m2
      rw [vtWrite, vtWrite, List.headD_nil, List.headD_nil, hbyte]
      rfl
    | cons ch1 rest =>
      rcases vtByte_ok hok ch ch1 with ⟨con', hbyte, hstep⟩
      have hrest : LastPlain con' (ch1 :: rest) := by
        rw [LastPlain, ← lastLooksAhead_cons hstep]
        exact h
      rw [vtWrite, vtWrite, List.headD_cons, List.headD_cons, hbyte]
      exact ih hstep.ok hrest

theorem vtWrite_ne (hok : TermOk con) (h : ¬LastPlain con bytes)
    : vtWrite con bytes 0xA1 ≠ vtWrite con bytes 0 := by
  induction bytes generalizing con with
  | nil => exact absurd rfl h
  | cons ch rest ih =>
    cases rest with
    | nil =>
      have hne := vtByte_ne hok ((Bool.not_eq_false _).mp h)
      rw [vtWrite, vtWrite, List.headD_nil, List.headD_nil]
      rcases vtByte_ok hok ch 0xA1 with ⟨con1, hbyte1, _⟩
      rcases vtByte_ok hok ch 0 with ⟨con2, hbyte2, _⟩
      rw [hbyte1, hbyte2] at hne ⊢
      exact hne
    | cons ch1 rest =>
      rcases vtByte_ok hok ch ch1 with ⟨con', hbyte, hstep⟩
      have hrest : ¬LastPlain con' (ch1 :: rest) := by
        rw [LastPlain, ← lastLooksAhead_cons hstep]
        exact h
      rw [vtWrite, vtWrite, List.headD_cons, List.headD_cons, hbyte]
      exact ih hstep.ok hrest

theorem vtWrite_append (con : ConInfo) (a b : List Byte) (behind : Byte)
    : vtWrite con (a ++ b) behind
      = (vtWrite con a (b.headD behind)).bind fun con => vtWrite con b behind := by
  induction a generalizing con with
  | nil => rfl
  | cons ch rest ih =>
    have hhead : (rest ++ b).headD behind = rest.headD (b.headD behind) := by
      cases rest <;> rfl
    rw [List.cons_append, vtWrite, vtWrite, hhead, Option.bind_assoc]
    congr 1
    funext con'
    exact ih con'

theorem vtWrite_zero (con : ConInfo) (behind : Byte) : vtWrite con [0] behind = some con := by
  have hbyte : vtByte con 0 behind = some con := rfl
  rw [vtWrite, List.headD_nil, hbyte]
  rfl

theorem lastPlain_append_zero (con : ConInfo) (bytes : List Byte) : LastPlain con (bytes ++ [0]) := by
  have hlast : ∀ (coding : SysCoding) (bytes : List Byte) (esc : Option Esc) (narg : Nat),
      lastLooksAhead coding esc narg (bytes ++ [0]) = false := by
    intro coding bytes
    induction bytes with
    | nil =>
      intro esc narg
      have hlead : wideLead coding 0#8 = false := by cases coding <;> rfl
      simp [lastLooksAhead, looksAhead, hlead]
    | cons ch rest ih =>
      intro esc narg
      rw [List.cons_append, lastLooksAhead]
      . exact ih _ _
      . exact List.append_ne_nil_of_right_ne_nil rest (List.cons_ne_nil _ _)
  exact hlast _ bytes _ _

def CutAlike (con : ConInfo) (a b : List Byte) : Prop :=
  ∀ m1 m2 m3, ((vtWrite con a m1).bind fun con => vtWrite con b m2) = vtWrite con (a ++ b) m3

theorem cutAlike_of_lastPlain (hok : TermOk con) {a b : List Byte} (ha : LastPlain con a)
    (hab : LastPlain con (a ++ b)) : CutAlike con a b := by
  intro m1 m2 m3
  have hfirst : vtWrite con a m1 = vtWrite con a (b.headD m2) := vtWrite_behind hok ha _ _
  rw [hfirst, ← vtWrite_append]
  exact vtWrite_behind hok hab m2 m3

theorem lastPlain_of_cutAlike (hok : TermOk con) {a b : List Byte} (h : CutAlike con a b)
    : LastPlain con (a ++ b) := by
  by_contra hnot
  apply vtWrite_ne hok hnot
  rw [← h 0 0 0xA1, ← h 0 0 0]

/--
The text of a terminal does not depend on the cuts exactly if no buffer ends with a byte that looks ahead.
-/
theorem vtWrite_cut {con : ConInfo} (hok : TermOk con) (a : List Byte)
    : (LastPlain con a ↔ ∀ b, LastPlain con (a ++ b) → CutAlike con a b)
      ∧ (∀ b, CutAlike con a b → LastPlain con (a ++ b))
      ∧ ∀ m, (vtWrite con a m).isSome := by
  refine ⟨⟨fun ha b hab => cutAlike_of_lastPlain hok ha hab, ?_⟩, fun b => lastPlain_of_cutAlike hok, ?_⟩
  . intro hcut
    by_contra hnot
    have hzero := hcut [0] (lastPlain_append_zero con a)
    have hwrite : ∀ m, vtWrite con a m = vtWrite con (a ++ [0]) 0 := by
      intro m
      rw [← hzero m 0 0]
      rcases vtWrite_ok hok a m with ⟨con', ha, _⟩
      rw [ha]
      exact (vtWrite_zero con' 0).symm
    apply vtWrite_ne hok hnot
    rw [hwrite, ← hwrite 0]
  . intro m
    rcases vtWrite_ok hok a m with ⟨con', ha, _⟩
    rw [ha]
    rfl

theorem vtWrite_cut_start
    : (LastPlain (vtStart 80 25 .gb) [0x41] ↔ ∀ b, LastPlain (vtStart 80 25 .gb) ([0x41] ++ b)
        → CutAlike (vtStart 80 25 .gb) [0x41] b)
      ∧ (∀ b, CutAlike (vtStart 80 25 .gb) [0x41] b → LastPlain (vtStart 80 25 .gb) ([0x41] ++ b))
      ∧ ∀ m, (vtWrite (vtStart 80 25 .gb) [0x41] m).isSome :=
  vtWrite_cut (TermOk.vtStart ⟨by decide, by decide⟩ 25 .gb) [0x41]

theorem not_cutAlike : ¬CutAlike (vtStart 80 25 .gb) [0xB0] [0xA1, 0x0A] := by
  intro h
  have hflag := congrArg (Option.map fun con => con.flagBuff 0) (h 0 0 0)
  revert hflag
  decide

end Buffers

end MiniGui.Vcongui
