import MiniGui.Gdi.TextLayout

namespace MiniGui

open List
namespace Layout

inductive Cut (font : LogFont) : List UInt8 → Nat → Prop
  | none (text : List UInt8) : Cut font text 0
  | char (text : List UInt8) (n : Nat) : text ≠ [] → Cut font (text.drop (font.getFirstMCharLen text)) n →
      Cut font text (font.getFirstMCharLen text + n)

structure Charsets (font : LogFont) : Prop where
  first : ∀ text, text ≠ [] → 1 ≤ font.getFirstMCharLen text ∧ font.getFirstMCharLen text ≤ text.length
  part : ∀ text n, font.getFirstMCharLen text ≤ n →
    font.getFirstMCharLen (text.take n) = font.getFirstMCharLen text
  blank : ∀ ch rest, ch = 9 ∨ ch = 10 ∨ ch = 13 ∨ ch = 32 → font.getFirstMCharLen (ch :: rest) = 1
  word : ∀ text, Cut font text (font.nextWordLen text)

variable {font : LogFont} {n : Nat} {text : List UInt8}

theorem Cut.le (h : Charsets font) (hc : Cut font text n) : n ≤ text.length := by
  induction hc with
  | none text => exact Nat.zero_le _
  | char text n hne _ ih =>
    have hfirst := (h.first text hne).2
    rw [length_drop] at ih
    omega

theorem Cut.add {a b : Nat} (ha : Cut font text a) (hb : Cut font (text.drop a) b)
    : Cut font text (a + b) := by
  induction ha with
  | none text =>
    rw [Nat.zero_add]
    exact hb
  | char text n hne _ ih =>
    rw [Nat.add_assoc]
    apply Cut.char text _ hne
    apply ih
    rw [drop_drop]
    exact hb

theorem Cut.one (hne : text ≠ []) : Cut font text (font.getFirstMCharLen text) :=
  Cut.char text 0 hne (Cut.none _)

theorem Cut.first_le (hc : Cut font text n) (hn : n ≠ 0) : font.getFirstMCharLen text ≤ n := by
  cases hc with
  | none => exact absurd rfl hn
  | char _ m _ _ => exact Nat.le_add_right _ _

theorem Cut.of_take (h : Charsets font) {w : Nat} (hw : Cut font text w)
    (hn : Cut font (text.take w) n) : Cut font text n := by
  induction hw generalizing n with
  | none text =>
    rw [take_zero] at hn
    cases hn with
    | none => exact Cut.none _
    | char _ m hne _ => exact absurd rfl hne
  | char text w hne _ ih =>
    cases hn with
    | none => exact Cut.none _
    | char _ m hne' hm =>
      rw [h.part text _ (Nat.le_add_right _ _)] at hm ⊢
      apply Cut.char text m hne
      apply ih
      rwa [drop_take, Nat.add_sub_cancel_left] at hm

theorem extentPointLoop_cut (maxExtent : Int) (rounds : Nat) (text : List UInt8) (cx : Nat)
    : Cut font text (font.extentPointLoop maxExtent rounds text cx).1 := by
  induction rounds generalizing text cx with
  | zero => exact Cut.none _
  | succ rounds ih =>
    unfold LogFont.extentPointLoop
    split
    next => exact Cut.none _
    next hmore =>
      split
      next => exact Cut.none _
      next => exact Cut.char text _ (fun hnil => hmore (.inl hnil)) (ih _ _)

section Round

variable (font) (args : LineArgs)

def CharFits (s : LineState) (wordLen : Nat) : Prop :=
  match s.text with
  | [] => True
  | ch :: _ =>
    ch = 10 ∨ ch = 13 ∨ ((s.lineWidth + (nextChar font args ch s.text wordLen).2 : Nat) : Int) ≤ args.room font
      ∨ s.nChar + (nextChar font args ch s.text wordLen).1 = font.getFirstMCharLen s.text ∧ s.nChar = 0

def longPart (s : LineState) : Nat × Nat :=
  font.getTextExtentPoint (s.text.take (font.nextWordLen s.text)) (args.room font - s.lineWidth)

def WordFits (s : LineState) : Prop :=
  if (longPart font args s).1 = 0 then
    s.nChar = 0
      ∨ ((s.lineWidth + font.textWidth (s.text.take (font.getFirstMCharLen s.text)) + font.italicAdded : Nat) : Int)
        ≤ args.room font
  else
    (s.nChar = 0 ∧ (longPart font args s).1 = font.getFirstMCharLen s.text)
      ∨ ((s.lineWidth + (longPart font args s).2 + font.italicAdded : Nat) : Int) ≤ args.room font

def RoundOk (s : LineState) : Prop :=
  if args.format.charBreak then
    0 ≤ args.room font ∧ CharFits font args s 0
  else if args.format.wordBreak then
    if (font.txtGetWidthOfNextWord s.text : Int) > args.room font then
      WordFits font args s
    else
      ((s.lineWidth + font.txtGetWidthOfNextWord s.text : Nat) : Int) > args.room font
        ∨ CharFits font args (s.withWord font) (font.nextWordLen s.text)
  else
    True

end Round

section Rounds

variable {args : LineArgs} {text0 : List UInt8} {s : LineState}

structure Inv (font : LogFont) (args : LineArgs) (text0 : List UInt8) (s : LineState) : Prop where
  cut : Cut font text0 s.nChar
  text : s.text = text0.drop s.nChar
  empty : s.nChar = 0 → s.lineWidth = 0
  fits : s.nChar ≠ 0 → (s.lineWidth : Int) ≤ args.room font

def LineFits (font : LogFont) (args : LineArgs) (text0 : List UInt8) (nChar width : Nat) : Prop :=
  (width : Int) ≤ args.maxwidth ∨ nChar = font.getFirstMCharLen text0

theorem width_le_iff (w : Nat) : ((w + font.italicAdded : Nat) : Int) ≤ args.maxwidth ↔ (w : Int) ≤ args.room font := by
  unfold LineArgs.room
  push_cast
  omega

theorem nextChar_cut (h : Charsets font) (args : LineArgs) (ch : UInt8) (rest : List UInt8) (wordLen : Nat)
    : Cut font (ch :: rest) (nextChar font args ch (ch :: rest) wordLen).1
      ∧ 0 < wordLen + (nextChar font args ch (ch :: rest) wordLen).1
      ∧ (0 < (nextChar font args ch (ch :: rest) wordLen).2 → 0 < (nextChar font args ch (ch :: rest) wordLen).1) := by
  have hone : Cut font (ch :: rest) (font.getFirstMCharLen (ch :: rest)) := Cut.one (cons_ne_nil _ _)
  have hpos := (h.first (ch :: rest) (cons_ne_nil _ _)).1
  unfold nextChar
  by_cases htab : ch = 9
  . rw [if_pos htab]
    rw [h.blank ch rest (.inl htab)] at hone
    dsimp only
    rw [if_neg (Nat.succ_ne_zero wordLen)]
    exact ⟨hone, Nat.succ_pos _, fun _ => Nat.one_pos⟩
  rw [if_neg htab]
  by_cases hblank : ch = 32
  . rw [if_pos hblank]
    rw [h.blank ch rest (.inr (.inr (.inr hblank)))] at hone
    dsimp only
    rw [if_neg (Nat.succ_ne_zero wordLen)]
    exact ⟨hone, Nat.succ_pos _, fun _ => Nat.one_pos⟩
  rw [if_neg hblank]
  dsimp only
  split
  next => exact ⟨hone, by omega, fun _ => by omega⟩
  next hword => exact ⟨Cut.none _, by omega, fun hzero => absurd hzero (Nat.lt_irrefl 0)⟩

def Advances (font : LogFont) (args : LineArgs) (text0 : List UInt8) (old : Nat) : Round → Prop
  | .line n w => Cut font text0 n ∧ (n = 0 → args.format.charBreak = true ∧ ¬LineFits font args text0 n w)
  | .more s => Inv font args text0 s ∧ old < s.nChar

theorem takeChar_cut (h : Charsets font) (hne : text0 ≠ []) {s : LineState} {old wordLen : Nat}
    (hcut : Cut font text0 s.nChar) (htext : s.text = text0.drop s.nChar) (hold : s.nChar = old + wordLen)
    : Advances font args text0 old (takeChar font args s wordLen) := by
  unfold takeChar
  cases hs : s.text with
  | nil =>
    refine ⟨hcut, fun hzero => ?_⟩
    rw [hs, hzero, drop_zero] at htext
    exact absurd htext.symm hne
  | cons ch rest =>
    dsimp only
    rw [htext] at hs
    split
    next hnewline =>
      refine ⟨hcut.add ?_, fun hzero => absurd hzero (Nat.succ_ne_zero _)⟩
      have hone : Cut font (ch :: rest) (font.getFirstMCharLen (ch :: rest)) := Cut.one (cons_ne_nil _ _)
      rw [h.blank ch rest (by tauto)] at hone
      rw [hs]
      exact hone
    next hnewline =>
      obtain ⟨hchar, hpos, _⟩ := nextChar_cut h args ch rest wordLen
      generalize nextChar font args ch (ch :: rest) wordLen = char at hchar hpos ⊢
      have hnext : Cut font text0 (s.nChar + char.1) := by
        apply hcut.add
        rw [hs]
        exact hchar
      split
      next => exact ⟨hnext, fun hzero => by omega⟩
      next hfits =>
        refine ⟨⟨hnext, ?_, ?_, ?_⟩, ?_⟩
        . show (ch :: rest).drop char.1 = text0.drop (s.nChar + char.1)
          rw [← hs, drop_drop]
        . intro hzero
          dsimp only at hzero
          omega
        . intro _
          exact not_lt.mp hfits
        . dsimp only
          omega

theorem takeChar_fits (h : Charsets font) {s : LineState} {old wordLen : Nat}
    (hcut : Cut font text0 s.nChar) (htext : s.text = text0.drop s.nChar) (hold : s.nChar = old + wordLen)
    (hroom : (s.lineWidth : Int) ≤ args.room font) : match takeChar font args s wordLen with
      | .line n w => LineFits font args text0 n w ↔ CharFits font args s wordLen
      | .more _ => CharFits font args s wordLen := by
  have hwidth := (width_le_iff s.lineWidth).mpr hroom
  unfold takeChar CharFits
  cases hs : s.text with
  | nil => exact iff_of_true (.inl hwidth) trivial
  | cons ch rest =>
    dsimp only
    rw [htext] at hs
    by_cases hnewline : ch = 10 ∨ ch = 13
    . rw [if_pos hnewline]
      exact iff_of_true (.inl hwidth) (by tauto)
    rw [if_neg hnewline]
    obtain ⟨_, _, hpos⟩ := nextChar_cut h args ch rest wordLen
    generalize nextChar font args ch (ch :: rest) wordLen = char at hpos ⊢
    by_cases hfits : ((s.lineWidth + char.2 : Nat) : Int) > args.room font
    . rw [if_pos hfits]
      unfold LineFits
      have hwide := mt (width_le_iff (s.lineWidth + char.2)).mp (not_le.mpr hfits)
      constructor
      . rintro (hle | heq)
        . exact absurd hle hwide
        have hzero : s.nChar = 0 := by
          by_contra hnz
          have hle := hcut.first_le hnz
          omega
        rw [hzero, drop_zero] at hs
        rw [hs] at heq
        exact .inr (.inr (.inr ⟨heq, hzero⟩))
      rintro (hten | hthirteen | hle | ⟨heq, hzero⟩)
      . exact absurd (.inl hten) hnewline
      . exact absurd (.inr hthirteen) hnewline
      . omega
      right
      rw [hzero, drop_zero] at hs
      rw [hs]
      exact heq
    . rw [if_neg hfits]
      exact .inr (.inr (.inl (not_lt.mp hfits)))

theorem Inv.text_ne (h : Inv font args text0 s) (hne : text0 ≠ [])
    (hwide : (font.txtGetWidthOfNextWord s.text : Int) > args.room font) : s.text ≠ [] := by
  intro hnil
  have hempty : font.txtGetWidthOfNextWord s.text = 0 := by
    rw [hnil]
    unfold LogFont.txtGetWidthOfNextWord LogFont.textWidth LogFont.extentLoop
    rfl
  by_cases hzero : s.nChar = 0
  . have htext := h.text
    rw [hzero, drop_zero, hnil] at htext
    exact hne htext.symm
  . have hfits := h.fits hzero
    omega

section

variable (h : Charsets font)
include h

theorem Inv.lost (hne : text0 ≠ []) (hs : Inv font args text0 s)
    (hwide : (s.lineWidth : Int) > args.room font)
    : s.nChar = 0 ∧ ¬0 ≤ args.room font ∧ ¬LineFits font args text0 0 (s.lineWidth + font.italicAdded) := by
  have hzero : s.nChar = 0 := by
    by_contra hnz
    have hle := hs.fits hnz
    omega
  have hempty := hs.empty hzero
  have hfirst := (h.first text0 hne).1
  refine ⟨hzero, by omega, ?_⟩
  rintro (hle | heq)
  . have hroom := (width_le_iff s.lineWidth).mp hle
    omega
  . omega

theorem Inv.withWord (hs : Inv font args text0 s) : Cut font text0 (s.withWord font).nChar
      ∧ (s.withWord font).text = text0.drop (s.withWord font).nChar := by
  constructor
  . apply hs.cut.add
    rw [← hs.text]
    exact h.word s.text
  . show s.text.drop _ = text0.drop (s.nChar + _)
    rw [← drop_drop, ← hs.text]

theorem longPart_cut (args : LineArgs) (s : LineState) : Cut font s.text (longPart font args s).1 :=
  Cut.of_take h (h.word s.text) (extentPointLoop_cut _ _ _ _)

variable (hne : text0 ≠ [])
include hne

theorem lineRound_cut {s : LineState} (hs : Inv font args text0 s)
    : Advances font args text0 s.nChar (lineRound font args s) := by
  have hword := hs.withWord h
  unfold lineRound
  split
  next hchar =>
    split
    next hwide =>
      obtain ⟨hzero, _, hlost⟩ := hs.lost h hne hwide
      rw [hzero, Nat.zero_sub, if_pos rfl]
      exact ⟨Cut.none _, fun _ => ⟨hchar, hlost⟩⟩
    next => exact takeChar_cut h hne hs.cut hs.text (Nat.add_zero s.nChar).symm
  next hchar =>
    split
    next =>
      split
      next hwide =>
        have htext := hs.text_ne hne hwide
        have hfirst := (h.first s.text htext).1
        dsimp only
        split
        next =>
          refine ⟨hs.cut.add ?_, fun hzero => by omega⟩
          rw [← hs.text]
          exact Cut.one htext
        next hpart =>
          refine ⟨hs.cut.add ?_, fun hzero => absurd (Nat.eq_zero_of_add_eq_zero hzero).2 hpart⟩
          rw [← hs.text]
          exact longPart_cut h args s
      next hshort =>
        split
        next hfull =>
          refine ⟨hs.cut, fun hzero => ?_⟩
          have hempty := hs.empty hzero
          omega
        next => exact takeChar_cut h hne hword.1 hword.2 rfl
    next => exact takeChar_cut h hne hword.1 hword.2 rfl

theorem lineRound_fits (hs : Inv font args text0 s)
    (hbreak : args.format.charBreak = true ∨ args.format.wordBreak = true)
    : match lineRound font args s with
      | .line n w => LineFits font args text0 n w ↔ RoundOk font args s
      | .more _ => RoundOk font args s := by
  have hword := hs.withWord h
  unfold lineRound RoundOk
  by_cases hchar : args.format.charBreak = true
  . rw [if_pos hchar, if_pos hchar]
    by_cases hwide : (s.lineWidth : Int) > args.room font
    . rw [if_pos hwide]
      obtain ⟨hzero, hroom, hlost⟩ := hs.lost h hne hwide
      rw [hzero, Nat.zero_sub, if_pos rfl]
      exact iff_of_false hlost fun hok => hroom hok.1
    rw [if_neg hwide]
    have hfits := takeChar_fits h hs.cut hs.text (Nat.add_zero s.nChar).symm (not_lt.mp hwide)
    have hroom : 0 ≤ args.room font := by omega
    revert hfits
    cases takeChar font args s 0 with
    | line n w =>
      intro hfits
      exact hfits.trans (and_iff_right hroom).symm
    | more s' => exact fun hfits => ⟨hroom, hfits⟩
  rw [if_neg hchar, if_neg hchar, if_pos (hbreak.resolve_left hchar), if_pos (hbreak.resolve_left hchar)]
  by_cases hwide : (font.txtGetWidthOfNextWord s.text : Int) > args.room font
  . rw [if_pos hwide, if_pos hwide]
    have htext := hs.text_ne hne hwide
    have hfirst := (h.first s.text htext).1
    have hpart : font.getTextExtentPoint (s.text.take (font.nextWordLen s.text)) (args.room font - s.lineWidth)
        = longPart font args s := rfl
    have hsingle : ∀ {n}, 0 < n → (s.nChar + n = font.getFirstMCharLen text0
        ↔ s.nChar = 0 ∧ n = font.getFirstMCharLen s.text) := by
      intro n hn
      by_cases hzero : s.nChar = 0
      . rw [hs.text, hzero, drop_zero, Nat.zero_add, and_iff_right rfl]
      . have hle := hs.cut.first_le hzero
        omega
    unfold WordFits
    rw [hpart]
    by_cases hzero : (longPart font args s).1 = 0
    . rw [if_pos hzero, if_pos hzero]
      dsimp only
      unfold LineFits
      rw [width_le_iff, ← Nat.add_assoc, hsingle (by omega), and_iff_left rfl, or_comm]
    rw [if_neg hzero, if_neg hzero]
    dsimp only
    unfold LineFits
    rw [width_le_iff, ← Nat.add_assoc, hsingle (by omega), or_comm]
  rw [if_neg hwide, if_neg hwide]
  by_cases hfull : ((s.lineWidth + font.txtGetWidthOfNextWord s.text : Nat) : Int) > args.room font
  . rw [if_pos hfull]
    apply iff_of_true _ (.inl hfull)
    left
    have hnz : s.nChar ≠ 0 := by
      intro hzero
      have hempty := hs.empty hzero
      omega
    exact (width_le_iff s.lineWidth).mpr (hs.fits hnz)
  rw [if_neg hfull]
  have hfits := takeChar_fits (s := s.withWord font) h hword.1 hword.2 rfl (not_lt.mp hfull)
  revert hfits
  cases takeChar font args (s.withWord font) (font.nextWordLen s.text) with
  | line n w =>
    intro hfits
    exact hfits.trans (or_iff_right hfull).symm
  | more s' => exact fun hfits => .inr hfits

def LineOk (font : LogFont) (args : LineArgs) (rounds : Nat) (s : LineState) : Prop :=
  match rounds with
  | 0 => True
  | rounds + 1 =>
    RoundOk font args s
      ∧ match lineRound font args s with
        | .line _ _ => True
        | .more s => LineOk font args rounds s

theorem lineLoop_cut {rounds : Nat} (hs : Inv font args text0 s)
    (hrounds : text0.length < rounds + s.nChar)
    : ∃ n w, lineLoop font args rounds s = some (n, w) ∧ Cut font text0 n
      ∧ (n = 0 → args.format.charBreak = true ∧ ¬LineFits font args text0 n w)
      ∧ (args.format.charBreak = true ∨ args.format.wordBreak = true →
        (LineFits font args text0 n w ↔ LineOk font args rounds s)) := by
  induction rounds generalizing s with
  | zero =>
    have hle := hs.cut.le h
    omega
  | succ rounds ih =>
    have hfits := lineRound_fits h hne hs
    unfold lineLoop LineOk
    have hround := lineRound_cut h hne hs
    cases heq : lineRound font args s with
    | line n w =>
      rw [heq] at hfits hround
      obtain ⟨hcut, hzero⟩ := hround
      exact ⟨n, w, rfl, hcut, hzero, fun hbreak => (hfits hbreak).trans (and_iff_left trivial).symm⟩
    | more s' =>
      rw [heq] at hfits hround
      obtain ⟨hs', hlt⟩ := hround
      obtain ⟨n, w, hloop, hcut, hzero, hiff⟩ := ih hs' (by omega)
      exact ⟨n, w, hloop, hcut, hzero, fun hbreak => (hiff hbreak).trans (and_iff_right (hfits hbreak)).symm⟩

end

theorem inv_start (font : LogFont) (args : LineArgs) (text : List UInt8) : Inv font args text ⟨text, 0, 0, 0⟩ where
  cut := Cut.none _
  text := rfl
  empty := fun _ => rfl
  fits := fun hnz => absurd rfl hnz

end Rounds

def Partition (font : LogFont) : List Line → List UInt8 → Prop
  | [], text => text = []
  | line :: lines, text =>
    line.bytes ≠ [] ∧ line.bytes = text.take line.bytes.length ∧ Cut font text line.bytes.length
      ∧ Partition font lines (text.drop line.bytes.length)

structure LaidOut (font : LogFont) (format : Format) (text : List UInt8) (lines : List Line) : Prop where
  whole : (lines.map Line.bytes).flatten = text
  partition : Partition font lines text
  widths : format.charBreak = true ∨ format.wordBreak = true → ∀ line ∈ lines,
    (line.width : Int) ≤ line.maxwidth ∨ line.bytes.length = font.getFirstMCharLen line.bytes

theorem Partition.flatten {lines : List Line} (h : Partition font lines text)
    : (lines.map Line.bytes).flatten = text := by
  induction lines generalizing text with
  | nil => exact h.symm
  | cons line lines ih =>
    obtain ⟨_, htake, _, hrest⟩ := h
    rw [map_cons, flatten_cons, ih hrest]
    conv => lhs; rw [htake]
    rw [length_take, Nat.min_eq_left]
    . exact take_append_drop _ _
    . have hlen := congrArg List.length htake
      rw [length_take] at hlen
      omega

def LinesOk (font : LogFont) (format : Format) (nTabWidth rcWidth indent : Nat) (rounds : Nat) (nLines : Nat)
    (text : List UInt8) : Prop :=
  match rounds with
  | 0 => True
  | rounds + 1 =>
    text = [] ∨
      let maxwidth : Int := if nLines = 0 then (rcWidth : Int) - indent else rcWidth
      if nLines = 0 ∧ maxwidth ≤ 0 then
        LinesOk font format nTabWidth rcWidth indent rounds 1 text
      else
        LineOk font ⟨nTabWidth, maxwidth, format⟩ rounds ⟨text, 0, 0, 0⟩
          ∧ match txtGetOneLine font ⟨nTabWidth, maxwidth, format⟩ rounds text with
            | none => True
            | some (n, _) => LinesOk font format nTabWidth rcWidth indent rounds (nLines + 1) (text.drop n)

theorem laidOut_cons (h : Charsets font) {args : LineArgs} {text : List UInt8} {n w : Nat} {lines : List Line}
    (hcut : Cut font text n) (hn : n ≠ 0)
    : LaidOut font args.format text (⟨text.take n, w, args.maxwidth⟩ :: lines)
      ↔ (args.format.charBreak = true ∨ args.format.wordBreak = true → LineFits font args text n w)
        ∧ LaidOut font args.format (text.drop n) lines := by
  have hle := hcut.le h
  have hlen : (text.take n).length = n := by
    rw [length_take, Nat.min_eq_left hle]
  have hfirst := h.part text n (hcut.first_le hn)
  have hline : ((w : Int) ≤ args.maxwidth ∨ (text.take n).length = font.getFirstMCharLen (text.take n))
      ↔ LineFits font args text n w := by
    rw [hlen, hfirst]
    rfl
  constructor
  . intro hlaid
    obtain ⟨_, _, _, hrest⟩ := hlaid.partition
    rw [hlen] at hrest
    refine ⟨fun hbreak => hline.mp (hlaid.widths hbreak _ mem_cons_self), hrest.flatten, hrest, ?_⟩
    intro hbreak line hmem
    exact hlaid.widths hbreak line (mem_cons_of_mem _ hmem)
  rintro ⟨hfits, hlaid⟩
  have hpartition : Partition font (⟨text.take n, w, args.maxwidth⟩ :: lines) text := by
    refine ⟨?_, ?_, ?_, ?_⟩
    . intro hnil
      rw [show text.take n = [] from hnil] at hlen
      exact hn hlen.symm
    . dsimp only
      rw [hlen]
    . dsimp only
      rw [hlen]
      exact hcut
    . dsimp only
      rw [hlen]
      exact hlaid.partition
  refine ⟨hpartition.flatten, hpartition, ?_⟩
  intro hbreak line hmem
  rcases mem_cons.mp hmem with heq | hmem
  . rw [heq]
    exact hline.mpr (hfits hbreak)
  . exact hlaid.widths hbreak line hmem

theorem drawLoop_laidOut (h : Charsets font) (format : Format) (nTabWidth rcWidth indent rounds nLines : Nat)
    (text : List UInt8) (hrounds : text.length + (if nLines = 0 then 3 else 2) ≤ rounds)
    : (∃ lines, drawLoop font format nTabWidth rcWidth indent rounds nLines text = some lines
        ∧ LaidOut font format text lines)
      ↔ (format.charBreak = true ∨ format.wordBreak = true →
        LinesOk font format nTabWidth rcWidth indent rounds nLines text) := by
  induction rounds generalizing nLines text with
  | zero =>
    split at hrounds <;> omega
  | succ rounds ih =>
    unfold drawLoop LinesOk
    by_cases hnil : text = []
    . rw [if_pos hnil]
      apply iff_of_true
      . refine ⟨[], rfl, hnil.symm, hnil, ?_⟩
        intro _ line hmem
        cases hmem
      . exact fun _ => .inl hnil
    rw [if_neg hnil]
    dsimp only
    generalize hmax : (if nLines = 0 then (rcWidth : Int) - indent else rcWidth) = maxwidth
    by_cases hskip : nLines = 0 ∧ maxwidth ≤ 0
    . rw [if_pos hskip]
      rw [if_pos hskip.1] at hrounds
      have hrest := ih 1 text (by rw [if_neg Nat.one_ne_zero]; omega)
      rw [hrest]
      exact ⟨fun hall hbreak => .inr (by rw [if_pos hskip]; exact hall hbreak),
        fun hall hbreak => by
          have hok := (hall hbreak).resolve_left hnil
          rwa [if_pos hskip] at hok⟩
    rw [if_neg hskip]
    have hlength : text.length < rounds + 0 := by
      split at hrounds <;> omega
    obtain ⟨n, w, hloop, hcut, hzero, hiff⟩ :=
      lineLoop_cut h hnil (inv_start font ⟨nTabWidth, maxwidth, format⟩ text) hlength
    have hone : txtGetOneLine font ⟨nTabWidth, maxwidth, format⟩ rounds text = some (n, w) := hloop
    rw [hone]
    dsimp only
    by_cases hn : n = 0
    . rw [if_pos hn]
      apply iff_of_false
      . rintro ⟨lines, hlines, hlaid⟩
        rw [← Option.some.inj hlines] at hlaid
        exact hnil hlaid.partition
      intro hall
      obtain ⟨hchar, hwide⟩ := hzero hn
      have hok := (hall (.inl hchar)).resolve_left hnil
      rw [if_neg hskip] at hok
      exact hwide ((hiff (.inl hchar)).mpr hok.1)
    rw [if_neg hn]
    have hle := hcut.le h
    have hrest := ih (nLines + 1) (text.drop n) (by
      rw [if_neg (Nat.succ_ne_zero nLines), length_drop]
      split at hrounds <;> omega)
    have hcons := @laidOut_cons font h ⟨nTabWidth, maxwidth, format⟩ text n w
    constructor
    . rintro ⟨lines, hlines, hlaid⟩ hbreak
      right
      rw [if_neg hskip]
      cases hdraw : drawLoop font format nTabWidth rcWidth indent rounds (nLines + 1) (text.drop n) with
      | none =>
        rw [hdraw] at hlines
        cases hlines
      | some lines' =>
        rw [hdraw] at hlines
        rw [← Option.some.inj hlines] at hlaid
        obtain ⟨hfits, hlaid'⟩ := (hcons hcut hn).mp hlaid
        exact ⟨(hiff hbreak).mp (hfits hbreak), hrest.mp ⟨lines', hdraw, hlaid'⟩ hbreak⟩
    intro hall
    have hok : format.charBreak = true ∨ format.wordBreak = true →
        LineOk font ⟨nTabWidth, maxwidth, format⟩ rounds ⟨text, 0, 0, 0⟩
          ∧ LinesOk font format nTabWidth rcWidth indent rounds (nLines + 1) (text.drop n) := by
      intro hbreak
      have hboth := (hall hbreak).resolve_left hnil
      rw [if_neg hskip] at hboth
      exact hboth
    obtain ⟨lines, hdraw, hlaid⟩ := hrest.mpr fun hbreak => (hok hbreak).2
    rw [hdraw]
    refine ⟨_, rfl, (hcons hcut hn).mpr ⟨fun hbreak => (hiff hbreak).mpr (hok hbreak).1, hlaid⟩⟩

def LaysOut (font : LogFont) (format : Format) (nTabWidth rcWidth indent : Nat) (text : List UInt8) : Prop :=
  ∀ more, ∃ lines, drawLoop font format nTabWidth rcWidth indent (text.length + 3 + more) 0 text = some lines
    ∧ LaidOut font format text lines

def ascii : LogFont :=
  {
    sbc := ⟨fun text => min 1 text.length, fun _ => some 0, List.length,
      fun text => (text.takeWhile fun ch => ch ≠ 32 ∧ ch ≠ 9 ∧ ch ≠ 10 ∧ ch ≠ 13).length⟩
    mbc := none
    sbcWidth := fun _ => 8
    mbcWidth := fun _ => 8
    italicAdded := 0
  }

theorem ascii_first (text : List UInt8) : ascii.getFirstMCharLen text = min 1 text.length :=
  rfl

theorem ascii_cut (n : Nat) (text : List UInt8) (h : n ≤ text.length) : Cut ascii text n := by
  induction n generalizing text with
  | zero => exact Cut.none _
  | succ n ih =>
    have hne : text ≠ [] := ne_nil_of_length_pos (by omega)
    have hone : ascii.getFirstMCharLen text = 1 := by
      rw [ascii_first]
      omega
    have hcut := @Cut.char ascii text n hne (by
      apply ih
      rw [hone, length_drop]
      omega)
    rwa [hone, Nat.add_comm] at hcut

theorem charsets_ascii : Charsets ascii where
  first := by
    intro text hne
    have hpos := length_pos_of_ne_nil hne
    rw [ascii_first]
    omega
  part := by
    intro text n hn
    rw [ascii_first] at hn ⊢
    rw [ascii_first, length_take]
    omega
  blank := by
    intro ch rest _
    rw [ascii_first, length_cons]
    omega
  word := by
    intro text
    apply ascii_cut
    unfold LogFont.nextWordLen
    split
    next => exact Nat.zero_le _
    next => exact (List.takeWhile_prefix _).length_le

end Layout

end MiniGui
