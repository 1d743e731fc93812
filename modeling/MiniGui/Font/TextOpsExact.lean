import MiniGui.Font.TextOps

namespace MiniGui

open Memory

open WordInfo (wordLen)

theorem sbWordLoop_ge (n : Nat) (mstr : Memory) (info : WordInfo) : info.wordLen ≤ (sbWordLoop n mstr info).wordLen := by
  induction n generalizing mstr info with
  | zero => exact Nat.le_refl _
  | succ n ih =>
    unfold sbWordLoop
    split
    . split
      . simp only [wordLen]
        omega
      . simp only [wordLen]
        omega
    split
    . split
      . refine Nat.le_trans ?_ (ih _ _)
        simp only [wordLen]
        omega
      split
      . refine Nat.le_trans ?_ (ih _ _)
        simp only [wordLen]
        omega
      . exact Nat.le_refl _
    split
    . exact ih _ _
    . refine Nat.le_trans ?_ (ih _ _)
      simp only [wordLen]
      omega

theorem sbWordLoop_le (n : Nat) (mstr : Memory) (info : WordInfo)
    : (0 < info.len → (sbWordLoop n mstr info).wordLen ≤ info.wordLen + n)
      ∧ (sbWordLoop n mstr info).wordLen ≤ info.wordLen + n + 1 := by
  induction n generalizing mstr info with
  | zero =>
    unfold sbWordLoop
    omega
  | succ n ih =>
    unfold sbWordLoop
    split
    . split
      . simp only [wordLen]
        omega
      . simp only [wordLen]
        omega
    split
    . split
      . have h := ih (mstr.advance 1) { info with delimiter := mstr 0, nrDelimiters := info.nrDelimiters + 1 }
        simp only [wordLen] at h ⊢
        omega
      split
      . have h := ih (mstr.advance 1) { info with nrDelimiters := info.nrDelimiters + 1 }
        simp only [wordLen] at h ⊢
        omega
      . omega
    split
    . have h := ih (mstr.advance 1) info
      omega
    . have h := ih (mstr.advance 1) { info with len := info.len + 1 }
      simp only [wordLen] at h ⊢
      omega

variable {mstr : Memory} {n rounds : Nat} {words : List (Int × WordInfo)} {left : Int}

theorem not_highEnd {delimiter : UInt8} (hhigh : ¬mstr 0 > 127) (hdelimiter : ¬IsDelimiter (mstr 0))
    : ¬HighEnd n mstr delimiter := by
  match n with
  | 0 => exact id
  | 1 => exact hhigh
  | _ + 2 => exact fun h => hdelimiter h.1

theorem not_isDelimiter {ch : UInt8} (h : ch > 127) : ¬IsDelimiter ch := by
  rintro (rfl | rfl | rfl | rfl)
  . revert h
    decide
  . revert h
    decide
  . revert h
    decide
  . revert h
    decide

theorem sbWordLoop_fits (n : Nat) (mstr : Memory) (info : WordInfo) (hlen : info.len = 0)
    : (sbWordLoop n mstr info).wordLen ≤ info.wordLen + n ↔ ¬HighEnd n mstr info.delimiter := by
  induction n generalizing mstr info with
  | zero => exact iff_of_true (Nat.le_refl _) id
  | succ n ih =>
    unfold sbWordLoop
    by_cases hhigh : mstr 0 > 127
    . rw [if_pos hhigh, if_neg (by omega)]
      simp only [wordLen]
      cases n with
      | zero => exact iff_of_false (by omega) (fun h => h hhigh)
      | succ n => exact iff_of_true (by omega) (fun h => not_isDelimiter hhigh h.1)
    rw [if_neg hhigh]
    by_cases hdelimiter : IsDelimiter (mstr 0)
    . rw [if_pos hdelimiter]
      by_cases hnone : info.delimiter = 0
      . rw [if_pos hnone]
        have hstep := ih (mstr.advance 1) { info with delimiter := mstr 0, nrDelimiters := info.nrDelimiters + 1 } hlen
        simp only [wordLen] at hstep ⊢
        rw [show info.len + info.nrDelimiters + (n + 1) = info.len + (info.nrDelimiters + 1) + n by omega, hstep,
          not_iff_not]
        cases n with
        | zero => exact iff_of_false id hhigh
        | succ n => exact ⟨fun h => ⟨hdelimiter, Or.inl hnone, h⟩, fun h => h.2.2⟩
      rw [if_neg hnone]
      by_cases hsame : info.delimiter = mstr 0
      . rw [if_pos hsame]
        have hstep := ih (mstr.advance 1) { info with nrDelimiters := info.nrDelimiters + 1 } hlen
        simp only [wordLen] at hstep ⊢
        rw [show info.len + info.nrDelimiters + (n + 1) = info.len + (info.nrDelimiters + 1) + n by omega,
          hstep, not_iff_not, hsame]
        cases n with
        | zero => exact iff_of_false id hhigh
        | succ n => exact ⟨fun h => ⟨hdelimiter, Or.inr rfl, h⟩, fun h => h.2.2⟩
      rw [if_neg hsame]
      refine iff_of_true (by omega) ?_
      cases n with
      | zero => exact hhigh
      | succ n => exact fun h => h.2.1.elim hnone hsame
    rw [if_neg hdelimiter]
    refine iff_of_true ?_ (not_highEnd hhigh hdelimiter)
    split
    . have h := (sbWordLoop_le n (mstr.advance 1) info).2
      omega
    . have h := (sbWordLoop_le n (mstr.advance 1) { info with len := info.len + 1 }).1 (Nat.succ_pos _)
      simp only [wordLen] at h ⊢
      omega

theorem sbGetNextWord_le (mstr : Memory) (n : Nat) : (sbGetNextWord mstr n).wordLen ≤ n ↔ ¬HighEnd n mstr 0 := by
  have h := sbWordLoop_fits n mstr ⟨0, 0, 0⟩ rfl
  rw [show (WordInfo.mk 0 0 0).wordLen + n = n from Nat.zero_add n] at h
  unfold sbGetNextWord
  rw [Int.toNat_natCast]
  exact h

theorem sbGetNextWord_pos (mstr : Memory) (hn : 0 < n) : 0 < (sbGetNextWord mstr n).wordLen := by
  obtain ⟨m, rfl⟩ : ∃ m, n = m + 1 := ⟨n - 1, by omega⟩
  unfold sbGetNextWord
  rw [Int.toNat_natCast]
  unfold sbWordLoop
  split
  . exact Nat.succ_pos _
  split
  . rw [if_pos rfl]
    refine Nat.lt_of_lt_of_le ?_ (sbWordLoop_ge m _ _)
    exact Nat.succ_pos _
  . rw [if_neg (fun h => h rfl)]
    refine Nat.lt_of_lt_of_le ?_ (sbWordLoop_ge m _ _)
    exact Nat.succ_pos _

theorem sbcRun_iff : SbcRun mstr n ↔ MbcRun sbGetNextWord mstr n := by
  constructor
  . intro h
    induction h with
    | done => exact .done
    | word hpos hhigh rest ih => exact .word (sbGetNextWord_pos _ hpos) ((sbGetNextWord_le _ _).mpr hhigh) ih
  intro h
  induction h with
  | done => exact .done
  | word hpos hle rest ih => exact .word (Nat.lt_of_lt_of_le hpos hle) ((sbGetNextWord_le _ _).mp hle) ih

theorem tiles_append {p q : Int} {words' : List (Int × WordInfo)}
    : Tiles p (words ++ words') q ↔ ∃ m, Tiles p words m ∧ Tiles m words' q := by
  induction words generalizing p with
  | nil => exact ⟨fun h => ⟨p, rfl, h⟩, fun ⟨m, hm, h⟩ => by rw [show p = m from hm]; exact h⟩
  | cons word words ih =>
    obtain ⟨pos, info⟩ := word
    simp only [List.cons_append, Tiles, ih]
    constructor
    . rintro ⟨h1, h2, m, h3, h4⟩
      exact ⟨m, ⟨h1, h2, h3⟩, h4⟩
    . rintro ⟨m, ⟨h1, h2, h3⟩, h4⟩
      exact ⟨h1, h2, m, h3, h4⟩

theorem Tiles.end_unique {p q q' : Int} (h : Tiles p words q) (h' : Tiles p words q') : q = q' := by
  induction words generalizing p with
  | nil => exact (show p = q from h).symm.trans h'
  | cons word words ih => exact ih h.2.2 h'.2.2

section Run

variable {getNextWord : Memory → Int → WordInfo} (len : Int)

theorem wordRun_of_run (h : MbcRun getNextWord mstr n) (hrounds : n < rounds) (left : Int)
    : ∃ words, wordRun getNextWord len rounds mstr n left = some (words, mstr.advance n, left - n)
        ∧ Tiles (len - left) words (len - left + n) := by
  induction h generalizing rounds left with
  | done =>
    obtain ⟨rounds, rfl⟩ : ∃ m, rounds = m + 1 := ⟨rounds - 1, by omega⟩
    refine ⟨[], ?_, (Int.add_zero _).symm⟩
    simp [wordRun, advance_zero]
  | @word mstr n hpos hle rest ih =>
    obtain ⟨rounds, rfl⟩ : ∃ m, rounds = m + 1 := ⟨rounds - 1, by omega⟩
    obtain ⟨words, hwords, htiles⟩ := @ih rounds (by omega) (left - (getNextWord mstr n).wordLen)
    refine ⟨(len - left, getNextWord mstr n) :: words, ?_, rfl, hpos, ?_⟩
    . unfold wordRun
      rw [if_neg (by omega)]
      dsimp only
      rw [← Int.ofNat_sub hle, hwords, advance_advance, Nat.add_sub_cancel' hle]
      rw [Option.map_some, Int.ofNat_sub hle, Int.sub_sub, Int.add_comm _ ((n : Int) - _), Int.sub_add_cancel]
    . rw [show len - left + ((getNextWord mstr n).wordLen : Int) = len - (left - (getNextWord mstr n).wordLen) by omega]
      rw [show len - left + (n : Int) = len - (left - (getNextWord mstr n).wordLen) + ((n - (getNextWord mstr n).wordLen : Nat) : Int) by omega]
      exact htiles

theorem run_of_wordRun {rest : Memory} {subLen left' : Int}
    (h : wordRun getNextWord len rounds mstr subLen left = some (words, rest, left'))
    : ∃ n : Nat, subLen = n ∧ MbcRun getNextWord mstr n ∧ rest = mstr.advance n ∧ left' = left - n
        ∧ Tiles (len - left) words (len - left + n) := by
  induction rounds generalizing mstr subLen left words with
  | zero => cases h
  | succ rounds ih =>
    unfold wordRun at h
    by_cases hzero : subLen = 0
    . rw [if_pos hzero] at h
      cases h
      refine ⟨0, hzero, .done, (advance_zero _).symm, (Int.sub_zero _).symm, (Int.add_zero _).symm⟩
    rw [if_neg hzero] at h
    rw [Option.map_eq_some_iff] at h
    obtain ⟨⟨words', rest', l'⟩, hrest, heq⟩ := h
    cases heq
    obtain ⟨m, hm, hrun, hadvance, hleft, htiles⟩ := ih hrest
    obtain ⟨n, rfl⟩ : ∃ n : Nat, subLen = n := ⟨m + (getNextWord mstr subLen).wordLen, by omega⟩
    by_cases hpos : 0 < (getNextWord mstr n).wordLen
    . refine ⟨n, rfl, .word hpos (by omega) ?_, ?_, by omega, rfl, hpos, ?_⟩
      . rw [show n - (getNextWord mstr n).wordLen = m by omega]
        exact hrun
      . rw [hadvance, advance_advance, show (getNextWord mstr n).wordLen + m = n by omega]
      . rw [show len - left + ((getNextWord mstr n).wordLen : Int) = len - (left - (getNextWord mstr n).wordLen) by omega]
        rw [show len - left + (n : Int) = len - (left - (getNextWord mstr n).wordLen) + (m : Int) by omega]
        exact htiles
    -- a word of no bytes would come again and again
    exfalso
    rw [show (getNextWord mstr n).wordLen = 0 by omega, advance_zero, show m = n by omega] at hrun
    cases hrun with
    | done => exact hzero rfl
    | word hpos' _ _ => exact hpos hpos'

end Run

section Text

variable {logFont : LogFont} {len : Int}

inductive RunsFit (logFont : LogFont) : Memory → Nat → Prop where
  | done {mstr : Memory} : RunsFit logFont mstr 0
  | run {mstr : Memory} {left n : Nat} (getNextWord : Memory → Int → WordInfo)
    (hrun : firstRun logFont mstr left = (getNextWord, (n : Int)))
    (hpos : 0 < n) (hle : n ≤ left) (run : MbcRun getNextWord mstr n) (rest : RunsFit logFont (mstr.advance n) (left - n))
    : RunsFit logFont mstr left

theorem runsFit_iff {left : Nat} : RunsFit logFont mstr left ↔ WordsClean logFont mstr left := by
  constructor
  . intro h
    induction h with
    | done => exact .done
    | @run mstr left n getNextWord hrun hpos hle run rest ih =>
      have hsplit := hrun
      unfold firstRun at hsplit
      split at hsplit
      . cases hsplit
        exact .sbc hrun hpos hle (sbcRun_iff.mpr run) ih
      rename_i mbc hmbc
      dsimp only at hsplit
      split at hsplit
      . rename_i hzero
        obtain ⟨hnext, hlen⟩ := Prod.mk.inj hsplit
        rw [← hnext] at run
        exact .mbc mbc hmbc hzero hlen hpos hle run ih
      have hnext : getNextWord = sbGetNextWord := by
        split at hsplit
        . exact (Prod.mk.inj hsplit).1.symm
        . exact (Prod.mk.inj hsplit).1.symm
      rw [hnext] at hrun run
      exact .sbc hrun hpos hle (sbcRun_iff.mpr run) ih
  intro h
  induction h with
  | done => exact .done
  | sbc hrun hpos hle run rest ih => exact .run _ hrun hpos hle (sbcRun_iff.mp run) ih
  | mbc mbc hmbc hzero hlen hpos hle run rest ih =>
    refine .run mbc.getNextWord ?_ hpos hle run ih
    unfold firstRun
    rw [hmbc]
    dsimp only
    rw [if_pos hzero, hlen]

theorem textWordLoop_of_fit {mstr : Memory} {left : Nat} (h : RunsFit logFont mstr left) {rounds : Nat}
    (hrounds : left + 2 ≤ rounds)
    : ∃ words, textWordLoop logFont len rounds mstr left = some words ∧ Tiles (len - left) words len := by
  induction h generalizing rounds with
  | done =>
    obtain ⟨rounds, rfl⟩ : ∃ m, rounds = m + 1 := ⟨rounds - 1, by omega⟩
    refine ⟨[], ?_, Int.sub_zero _⟩
    unfold textWordLoop
    rw [if_neg (by omega)]
  | @run mstr left n getNextWord hrun hpos hle run rest ih =>
    obtain ⟨rounds, rfl⟩ : ∃ m, rounds = m + 1 := ⟨rounds - 1, by omega⟩
    obtain ⟨words, hwords, htiles⟩ := wordRun_of_run len run (show n < rounds by omega) left
    obtain ⟨words', hwords', htiles'⟩ := @ih rounds (by omega)
    refine ⟨words ++ words', ?_, ?_⟩
    . unfold textWordLoop
      rw [if_pos (by omega), hrun]
      dsimp only
      rw [hwords, Option.bind_some]
      rw [← Int.ofNat_sub hle, hwords']
      rfl
    rw [tiles_append]
    refine ⟨_, htiles, ?_⟩
    rw [show len - (left : Int) + n = len - ((left - n : Nat) : Int) by omega]
    exact htiles'

theorem fit_of_textWordLoop {left : Nat}
    (h : textWordLoop logFont len rounds mstr left = some words) (htiles : Tiles (len - left) words len)
    : RunsFit logFont mstr left := by
  induction rounds generalizing mstr left words with
  | zero => cases h
  | succ rounds ih =>
    unfold textWordLoop at h
    by_cases hzero : left = 0
    . rw [hzero]
      exact .done
    rw [if_pos (by omega)] at h
    rw [Option.bind_eq_some_iff] at h
    obtain ⟨⟨first, rest, left'⟩, hrun, h⟩ := h
    rw [Option.map_eq_some_iff] at h
    obtain ⟨others, hothers, heq⟩ := h
    obtain ⟨n, hsub, run, hrest, hleft, htilesFirst⟩ := run_of_wordRun len hrun
    rw [← heq, tiles_append] at htiles
    obtain ⟨m, hm, htilesRest⟩ := htiles
    have hend := hm.end_unique htilesFirst
    rw [hend] at htilesRest
    rw [hrest, hleft] at hothers
    by_cases hn : n = 0
    . rw [hn, advance_zero] at hothers
      rw [hn] at htilesRest
      simp only [Nat.cast_zero, Int.sub_zero, Int.add_zero] at hothers htilesRest
      exact ih hothers htilesRest
    have hle : n ≤ left := by
      by_contra hgt
      cases rounds with
      | zero => cases hothers
      | succ rounds =>
        unfold textWordLoop at hothers
        rw [if_neg (by omega)] at hothers
        cases hothers
        have hlast : len - (left : Int) + n = len := htilesRest
        omega
    refine .run _ (Prod.ext rfl hsub) (by omega) hle run ?_
    rw [← Int.ofNat_sub hle] at hothers
    refine ih hothers ?_
    rw [show len - ((left - n : Nat) : Int) = len - (left : Int) + n by omega]
    exact htilesRest

theorem words_iff (logFont : LogFont) (mstr : Memory) (len : Nat)
    : (∃ rounds posWords, getTextWordInfo logFont rounds mstr len = some posWords ∧ Tiles 0 posWords len)
        ↔ WordsClean logFont mstr len := by
  rw [← runsFit_iff]
  constructor
  . rintro ⟨rounds, posWords, hwords, htiles⟩
    rw [← Int.sub_self (len : Int)] at htiles
    exact fit_of_textWordLoop hwords htiles
  intro h
  obtain ⟨words, hwords, htiles⟩ := @textWordLoop_of_fit logFont len mstr len h (len + 2) (Nat.le_refl _)
  rw [Int.sub_self] at htiles
  exact ⟨len + 2, words, hwords, htiles⟩

end Text

section Chars

variable {logFont : LogFont}

theorem textMCharLoop_succ (len : Int) (rounds : Nat) (mstr : Memory) (hleft : 0 < left)
    : textMCharLoop logFont len (rounds + 1) mstr left
        = if 0 < getFirstMCharLen logFont mstr left then
            (textMCharLoop logFont len rounds (mstr.advance (getFirstMCharLen logFont mstr left))
              (left - getFirstMCharLen logFont mstr left)).map (List.cons (len - left))
          else
            textMCharLoop logFont len rounds mstr left := by
  conv => lhs; unfold textMCharLoop
  unfold getFirstMCharLen
  rw [if_pos hleft]
  by_cases hmbc : logFont.mbcLenFirstChar mstr left > 0
  . rw [if_pos hmbc, if_pos hmbc, if_pos hmbc]
  . rw [if_neg hmbc, if_neg hmbc]

theorem lastMCharLoop_succ (rounds : Nat) (mstr : Memory) (hleft : 0 < left) (lastlen : Nat)
    : lastMCharLoop logFont (rounds + 1) mstr left lastlen
        = if 0 < getFirstMCharLen logFont mstr left then
            lastMCharLoop logFont rounds (mstr.advance (getFirstMCharLen logFont mstr left))
              (left - getFirstMCharLen logFont mstr left) (getFirstMCharLen logFont mstr left)
          else
            lastMCharLoop logFont rounds mstr left lastlen := by
  conv => lhs; unfold lastMCharLoop
  unfold getFirstMCharLen
  rw [if_pos hleft]
  by_cases hmbc : logFont.mbcLenFirstChar mstr left > 0
  . rw [if_pos hmbc, if_pos hmbc, if_pos hmbc]
  . rw [if_neg hmbc, if_neg hmbc]

theorem chars_of_clean {base mstr : Memory} {len left p : Nat} (h : CharsClean logFont mstr left)
    (hmstr : mstr = base.advance p)
    (hp : p + left = len) {rounds : Nat} (hrounds : left < rounds) (lastlen : Nat)
    : ∃ posChars last, textMCharLoop logFont len rounds mstr left = some posChars
        ∧ lastMCharLoop logFont rounds mstr left lastlen = some last ∧ AdvancesFrom logFont base len p posChars
        ∧ (posChars = [] → last = lastlen) ∧ ∀ q, posChars.getLast? = some q → (last : Int) = len - q := by
  induction h generalizing p rounds lastlen with
  | done =>
    obtain ⟨rounds, rfl⟩ : ∃ m, rounds = m + 1 := ⟨rounds - 1, by omega⟩
    refine ⟨[], lastlen, rfl, rfl, ?_, fun _ => rfl, fun q hq => nomatch hq⟩
    unfold AdvancesFrom
    omega
  | @char mstr left hpos hle rest ih =>
    obtain ⟨rounds, rfl⟩ : ∃ m, rounds = m + 1 := ⟨rounds - 1, by omega⟩
    have hleft : (0 : Int) < left := by omega
    have hat : getFirstMCharLen logFont (base.advance p) ((len : Int) - p) = getFirstMCharLen logFont mstr left := by
      rw [hmstr, show (len : Int) - p = left by omega]
    obtain ⟨posChars, last, hchars, hlast, hadvances, hnil, hend⟩ :=
      @ih (p + getFirstMCharLen logFont mstr left) (by rw [← advance_advance, hmstr]) (by omega) rounds (by omega)
        (getFirstMCharLen logFont mstr left)
    rw [Int.ofNat_sub hle] at hchars hlast
    refine ⟨(p : Int) :: posChars, last, ?_, ?_, ?_, (fun h => nomatch h), ?_⟩
    . rw [textMCharLoop_succ _ _ _ hleft, if_pos hpos, hchars, show (len : Int) - left = p by omega]
      rfl
    . rw [lastMCharLoop_succ _ _ hleft, if_pos hpos, hlast]
    . refine ⟨rfl, by omega, ?_, ?_⟩
      . rw [hat]
        exact hpos
      . rw [hat]
        exact hadvances
    intro q hq
    cases posChars with
    | nil =>
      -- the character that ends the text
      have hlen : len ≤ p + getFirstMCharLen logFont mstr left := by
        have h := hadvances
        unfold AdvancesFrom at h
        omega
      have hq' : q = p := (Option.some.inj hq).symm
      rw [hnil rfl, hq']
      omega
    | cons pos posChars => exact hend q hq

theorem clean_of_chars {len left : Nat} {lastRounds lastlen last : Nat} {posChars : List Int}
    (hchars : textMCharLoop logFont len rounds mstr left = some posChars)
    (hlast : lastMCharLoop logFont lastRounds mstr left lastlen = some last)
    (hend : ∀ q, posChars.getLast? = some q → (last : Int) = len - q) : CharsClean logFont mstr left := by
  induction rounds generalizing mstr left lastRounds lastlen posChars with
  | zero => cases hchars
  | succ rounds ih =>
    by_cases hzero : left = 0
    . rw [hzero]
      exact .done
    have hleft : (0 : Int) < left := by omega
    rw [textMCharLoop_succ _ _ _ hleft] at hchars
    by_cases hpos : 0 < getFirstMCharLen logFont mstr left
    . rw [if_pos hpos, Option.map_eq_some_iff] at hchars
      obtain ⟨others, hothers, rfl⟩ := hchars
      cases lastRounds with
      | zero => cases hlast
      | succ lastRounds =>
        rw [lastMCharLoop_succ _ _ hleft, if_pos hpos] at hlast
        by_cases hle : getFirstMCharLen logFont mstr left ≤ left
        . rw [← Int.ofNat_sub hle] at hothers hlast
          refine .char hpos hle (ih hothers hlast ?_)
          intro q hq
          apply hend
          cases others with
          | nil => cases hq
          | cons pos others => exact hq
        -- the last character goes beyond the text
        exfalso
        have hover : ¬(0 : Int) < left - getFirstMCharLen logFont mstr left := by omega
        cases rounds with
        | zero => cases hothers
        | succ rounds =>
          cases lastRounds with
          | zero => cases hlast
          | succ lastRounds =>
            unfold textMCharLoop at hothers
            unfold lastMCharLoop at hlast
            rw [if_neg hover] at hothers hlast
            cases hothers
            cases hlast
            have heq := hend ((len : Int) - left) rfl
            omega
    . -- the loop does not move
      rw [if_neg hpos] at hchars
      exact ih hchars hlast hend

theorem chars_iff (logFont : LogFont) (mstr : Memory) (len : Nat)
    : (∃ rounds posChars lastRounds lastlen, getTextMCharInfo logFont rounds mstr len = some posChars
          ∧ getLastMCharLen logFont lastRounds mstr len = some lastlen ∧ AdvancesFrom logFont mstr len 0 posChars
          ∧ ∀ p, posChars.getLast? = some p → (lastlen : Int) = len - p)
        ↔ CharsClean logFont mstr len := by
  constructor
  . rintro ⟨rounds, posChars, lastRounds, lastlen, hchars, hlast, -, hend⟩
    exact clean_of_chars hchars hlast hend
  intro h
  obtain ⟨posChars, last, hchars, hlast, hadvances, -, hend⟩ :=
    chars_of_clean h (advance_zero mstr).symm (Nat.zero_add len) (Nat.lt_succ_self len) 0
  exact ⟨len + 1, posChars, len + 1, last, hchars, hlast, hadvances, hend⟩

end Chars

/--
A text is taken apart exactly when a font has each of its characters and its words fit in its runs.
-/
theorem parses_iff_clean (logFont : LogFont) (mstr : Memory) (len : Nat)
    : Parses logFont mstr len ↔ CharsClean logFont mstr len ∧ WordsClean logFont mstr len := by
  rw [← chars_iff, ← words_iff]
  exact ⟨fun h => ⟨h.chars, h.words⟩, fun h => ⟨h.1, h.2⟩⟩

theorem not_parses_nul : ¬∀ (logFont : LogFont) (mstr : Memory) (len : Nat), Parses logFont mstr len := by
  intro h
  have hclean := (chars_iff ⟨.sb, none⟩ (fun _ => 0) 1).mp (h ⟨.sb, none⟩ (fun _ => 0) 1).chars
  cases hclean with
  | char hpos _ _ =>
    revert hpos
    decide

end MiniGui
