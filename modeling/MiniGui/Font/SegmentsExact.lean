import MiniGui.Font.Segments

namespace MiniGui

open List Option

open Charset (charLen utf8)

variable {rounds : Nat} {charset : Charset} {rest : List UInt8} {be : Bool}

section Prefix

variable {charLen : List UInt8 → Nat}

theorem charPrefix_rounds {text : List UInt8} (h : text.length ≤ rounds)
    : charPrefix charLen rounds text = charPrefix charLen text.length text := by
  induction rounds using Nat.strongRecOn generalizing text with
  | ind rounds ih =>
    cases rounds with
    | zero =>
      rw [Nat.le_zero.mp h]
    | succ rounds =>
      by_cases hstop : text = [] ∨ charLen text = 0
      . unfold charPrefix
        cases text with
        | nil => simp
        | cons byte text =>
          rw [if_pos hstop, length_cons]
          dsimp only
          rw [if_pos hstop]
      obtain ⟨hne, hlen⟩ := not_or.mp hstop
      have hdrop : (text.drop (charLen text)).length < text.length := by
        rw [length_drop]
        have hpos := length_pos_of_ne_nil hne
        omega
      obtain ⟨size, hsize⟩ : ∃ size, text.length = size + 1 := ⟨text.length - 1, by omega⟩
      rw [hsize]
      unfold charPrefix
      rw [if_neg hstop, if_neg hstop, ih rounds (by omega) (by omega), ih size (by omega) (by omega)]

theorem charPrefix_step {text : List UInt8} (hne : text ≠ []) (hlen : charLen text ≠ 0)
    : charPrefix charLen text.length text
        = min (charLen text) text.length + charPrefix charLen (text.drop (charLen text)).length (text.drop (charLen text)) := by
  obtain ⟨size, hsize⟩ : ∃ size, text.length = size + 1 := by
    have hpos := length_pos_of_ne_nil hne
    exact ⟨text.length - 1, by omega⟩
  conv => lhs; rw [hsize, charPrefix]
  rw [if_neg (not_or.mpr ⟨hne, hlen⟩), charPrefix_rounds (by rw [length_drop]; omega)]

theorem charPrefix_stop {text : List UInt8} (hlen : charLen text = 0) : charPrefix charLen text.length text = 0 := by
  cases text with
  | nil => rfl
  | cons byte text =>
    rw [length_cons]
    unfold charPrefix
    rw [if_pos (.inr hlen)]

end Prefix

section Search

variable {charLen : List UInt8 → Nat} {text : List UInt8}

def Passed (charLen : List UInt8 → Nat) (text : List UInt8) (i : Nat) : Prop :=
  ∀ j < i, charLen (text.drop j) = 0 ∧ text[j]? ≠ some 0

variable {i : Nat} (h : Passed charLen text i)
include h

theorem Passed.succ (hlen : charLen (text.drop i) = 0) (hbyte : text[i]? ≠ some 0)
    : Passed charLen text (i + 1) := by
  intro j hj
  by_cases hlt : j < i
  . exact h j hlt
  . have heq : j = i := by omega
    rw [heq]
    exact ⟨hlen, hbyte⟩

theorem Passed.found (hi : i < text.length) (hlen : 0 < charLen (text.drop i))
    : IsFirstPos charLen text i :=
  .inl ⟨i, rfl, hi, hlen, h⟩

theorem Passed.nul (hlen : charLen (text.drop i) = 0) (hbyte : text[i]? = some 0)
    : IsFirstPos charLen text (-1) := by
  right
  refine ⟨rfl, ?_⟩
  rintro k ⟨_, hk, hbefore⟩
  by_cases hlt : k < i
  . have hzero := (h k hlt).1
    omega
  by_cases heq : k = i
  . rw [heq] at hk
    omega
  . exact (hbefore i (by omega)).2 hbyte

theorem Passed.none (hrest : ∀ k, i ≤ k → k < text.length → charLen (text.drop k) = 0)
    : IsFirstPos charLen text (-1) := by
  right
  refine ⟨rfl, ?_⟩
  rintro k ⟨hk, hlen, _⟩
  by_cases hlt : k < i
  . have hzero := (h k hlt).1
    omega
  . have hzero := hrest k (by omega) hk
    omega

end Search

section DoubleByte

variable {isChar : UInt8 → UInt8 → Bool}

def dbCharLen (isChar : UInt8 → UInt8 → Bool) (text : List UInt8) : Nat :=
  (dbLenFirstChar isChar text text.length).getD 0

theorem dbCharLen_pair (ch1 ch2 : UInt8) (rest : List UInt8)
    : dbCharLen isChar (ch1 :: ch2 :: rest) = if ch1 = 0 then 0 else if isChar ch1 ch2 then 2 else 0 := by
  unfold dbCharLen dbLenFirstChar
  rw [if_neg (by rw [length_cons, length_cons]; omega)]
  simp only [getElem?_cons_zero, getElem?_cons_succ, bind_some]
  split
  . rfl
  . split <;> rfl

theorem dbCharLen_short {text : List UInt8} (h : text.length < 2) : dbCharLen isChar text = 0 := by
  unfold dbCharLen dbLenFirstChar
  rw [if_pos h]
  rfl

theorem exists_pair {text : List UInt8} {i : Nat} (h : i + 2 ≤ text.length)
    : ∃ ch1 ch2 rest, text.drop i = ch1 :: ch2 :: rest ∧ text[i]? = some ch1 ∧ text[i + 1]? = some ch2
        ∧ text.drop (i + 2) = rest := by
  have hfirst : i < text.length := by omega
  have hsecond : i + 1 < text.length := by omega
  refine ⟨text[i], text[i + 1], text.drop (i + 2), ?_, getElem?_eq_getElem hfirst,
    getElem?_eq_getElem hsecond, rfl⟩
  rw [drop_eq_getElem_cons hfirst, drop_eq_getElem_cons hsecond]

theorem dbSubstrLoop_spec (text : List UInt8) {m i : Nat} (hi : i ≤ text.length) (hm : text.length - i ≤ m)
    : dbSubstrLoop isChar text text.length (m + 1) i (text.length - i) i
        = some (i + charPrefix (dbCharLen isChar) (text.drop i).length (text.drop i)) := by
  induction m using Nat.strongRecOn generalizing i with
  | ind m ih =>
    unfold dbSubstrLoop
    by_cases hlt : i < text.length
    . rw [if_pos hlt]
      by_cases htwo : text.length - i < 2
      . have hshort : (text.drop i).length < 2 := by
          rw [length_drop]
          exact htwo
        rw [if_pos htwo, charPrefix_stop (dbCharLen_short hshort), Nat.add_zero]
      obtain ⟨ch1, ch2, rest, hdrop, hch1, hch2, hrest⟩ := exists_pair (show i + 2 ≤ text.length by omega)
      have hchar := @dbCharLen_pair isChar ch1 ch2 rest
      rw [if_neg htwo, hch1, hch2, bind_some, bind_some]
      by_cases hnul : ch1 = 0
      . rw [if_pos hnul] at hchar
        rw [if_pos hnul, hdrop, charPrefix_stop hchar, Nat.add_zero]
      rw [if_neg hnul] at hchar ⊢
      by_cases hpair : isChar ch1 ch2 = true
      . rw [if_pos hpair] at hchar ⊢
        have hleft : text.length - i - 2 = text.length - (i + 2) := by omega
        obtain ⟨size, hsize⟩ : ∃ size, m = size + 1 := ⟨m - 1, by omega⟩
        have hstep := @charPrefix_step (dbCharLen isChar)
          (ch1 :: ch2 :: rest) (cons_ne_nil _ _) (by rw [hchar]; decide)
        rw [hsize, hleft, ih size (by omega) (by omega) (by omega), hdrop, hstep, hchar]
        rw [show List.drop 2 (ch1 :: ch2 :: rest) = rest from rfl, ← hrest]
        congr 1
        have hmin : min 2 (ch1 :: ch2 :: text.drop (i + 2)).length = 2 := by
          rw [length_cons, length_cons]
          omega
        rw [hmin]
        omega
      . rw [if_neg hpair] at hchar ⊢
        rw [hdrop, charPrefix_stop hchar, Nat.add_zero]
    . rw [if_neg hlt, drop_eq_nil_of_le (by omega)]
      rfl

theorem dbPosLoop_spec (text : List UInt8) {left i : Nat} (hi : i + left = text.length)
    (h : Passed (dbCharLen isChar) text i)
    : ∃ r, dbPosLoop isChar text (left + 1) i left = some r ∧ IsFirstPos (dbCharLen isChar) text r := by
  induction left generalizing i with
  | zero =>
    refine ⟨-1, rfl, h.none ?_⟩
    intro k hk hlt
    omega
  | succ left ih =>
    unfold dbPosLoop
    rw [if_neg (by omega)]
    by_cases hone : left + 1 < 2
    . rw [if_pos hone]
      refine ⟨-1, rfl, h.none ?_⟩
      intro k hk hlt
      apply dbCharLen_short
      rw [length_drop]
      omega
    obtain ⟨ch1, ch2, rest, hdrop, hch1, hch2, -⟩ := exists_pair (show i + 2 ≤ text.length by omega)
    have hchar := @dbCharLen_pair isChar ch1 ch2 rest
    rw [← hdrop] at hchar
    rw [if_neg hone, hch1, hch2, bind_some, bind_some]
    by_cases hnul : ch1 = 0
    . rw [if_pos hnul] at hchar ⊢
      exact ⟨-1, rfl, h.nul hchar (by rw [hch1, hnul])⟩
    rw [if_neg hnul] at hchar ⊢
    by_cases hpair : isChar ch1 ch2 = true
    . rw [if_pos hpair] at hchar ⊢
      exact ⟨i, rfl, h.found (by omega) (by rw [hchar]; decide)⟩
    rw [if_neg hpair] at hchar ⊢
    rw [Nat.add_sub_cancel]
    apply ih (by omega)
    apply h.succ hchar
    rw [hch1]
    exact fun heq => hnul (Option.some.inj heq)

theorem db_segments (hchar : lenFirstChar charset = dbLenFirstChar isChar)
    (hsubstr : ∀ rounds text, lenFirstSubstr rounds charset text text.length = dbSubstrLoop isChar text text.length rounds 0 text.length 0)
    (hpos : ∀ rounds text, posFirstChar rounds charset text text.length = dbPosLoop isChar text rounds 0 text.length)
    (text : List UInt8) : Segments charset text := by
  have hlen : charset.charLen = dbCharLen isChar := by
    funext text
    unfold charLen dbCharLen
    rw [hchar]
  constructor
  . refine ⟨text.length + 1, ?_⟩
    have hspec := @dbSubstrLoop_spec isChar text text.length 0 (Nat.zero_le _) (Nat.sub_le _ _)
    rw [Nat.sub_zero, drop_zero, Nat.zero_add] at hspec
    rw [hsubstr, hspec, hlen]
  refine ⟨text.length + 1, ?_⟩
  rw [hpos, hlen]
  apply dbPosLoop_spec text (Nat.zero_add _)
  intro j hj
  omega

end DoubleByte

def gbCharLen (text : List UInt8) : Nat :=
  (gb18030LenFirstChar text text.length).getD 0

theorem gbCharLen_short {text : List UInt8} (h : text.length < 2) : gbCharLen text = 0 := by
  unfold gbCharLen gb18030LenFirstChar
  rw [if_pos h]
  rfl

theorem gbCharLen_nul (rest : List UInt8) : gbCharLen (0 :: rest) = 0 := by
  unfold gbCharLen gb18030LenFirstChar
  split
  . rfl
  . rfl

theorem gbCharLen_gbk {ch1 ch2 : UInt8} (rest : List UInt8) (hnul : ch1 ≠ 0) (h : isGbkChar ch1 ch2 = true)
    : gbCharLen (ch1 :: ch2 :: rest) = 2 := by
  have htwo : ¬(ch1 :: ch2 :: rest).length < 2 := by
    rw [length_cons, length_cons]
    omega
  simp only [gbCharLen, gb18030LenFirstChar, htwo, hnul, h, getElem?_cons_zero, getElem?_cons_succ,
    bind_some, if_false,
    if_true]
  rfl

theorem gbCharLen_few {ch1 ch2 : UInt8} (h : isGbkChar ch1 ch2 = false) (hrest : rest.length < 2)
    : gbCharLen (ch1 :: ch2 :: rest) = 0 := by
  have hfour : (ch1 :: ch2 :: rest).length < 4 := by
    rw [length_cons, length_cons]
    omega
  unfold gbCharLen gb18030LenFirstChar
  simp only [getElem?_cons_zero, getElem?_cons_succ, bind_some, h, Bool.false_eq_true, if_false,
    hfour, if_true,
    ite_self]
  rfl

theorem gbCharLen_quad {ch1 ch2 ch3 ch4 : UInt8} (rest : List UInt8) (hnul : ch1 ≠ 0) (h : isGbkChar ch1 ch2 = false)
    : gbCharLen (ch1 :: ch2 :: ch3 :: ch4 :: rest) = if isGb18030Quad ch1 ch2 ch3 ch4 then 4 else 0 := by
  simp only [gbCharLen, gb18030LenFirstChar, hnul, h, length_cons, getElem?_cons_zero,
    getElem?_cons_succ, bind_some,
    Bool.false_eq_true, if_false]
  rw [if_neg (by omega), if_neg (by omega)]
  split <;> rfl

theorem exists_quad {text : List UInt8} {i : Nat} (h : i + 4 ≤ text.length)
    : ∃ ch1 ch2 ch3 ch4 rest, text.drop i = ch1 :: ch2 :: ch3 :: ch4 :: rest ∧ text[i]? = some ch1
        ∧ text[i + 1]? = some ch2 ∧ text[i + 2]? = some ch3 ∧ text[i + 3]? = some ch4
        ∧ text.drop (i + 2) = ch3 :: ch4 :: rest ∧ text.drop (i + 4) = rest := by
  obtain ⟨ch1, ch2, tail, hdrop, hch1, hch2, htail⟩ := exists_pair (show i + 2 ≤ text.length by omega)
  obtain ⟨ch3, ch4, rest, hdrop2, hch3, hch4, hrest⟩ := exists_pair (show i + 2 + 2 ≤ text.length by omega)
  rw [hdrop2] at htail
  refine ⟨ch1, ch2, ch3, ch4, rest, ?_, hch1, hch2, hch3, hch4, hdrop2, hrest⟩
  rw [hdrop, ← htail]

theorem gb18030PosLoop_spec (text : List UInt8) {left i : Nat} (hi : i + left = text.length) (h : Passed gbCharLen text i)
    : ∃ r, gb18030PosLoop text (left + 1) i left = some r
        ∧ (IsFirstPos gbCharLen text r ↔ ¬(3 ≤ left ∧ FirstAt gbCharLen text (text.length - 2))) := by
  induction left generalizing i with
  | zero =>
    refine ⟨-1, rfl, iff_of_true ?_ (by omega)⟩
    apply h.none
    intro k hk hlt
    omega
  | succ left ih =>
    unfold gb18030PosLoop
    rw [if_neg (by omega)]
    by_cases hone : left + 1 < 2
    . rw [if_pos hone]
      refine ⟨-1, rfl, iff_of_true ?_ (by omega)⟩
      apply h.none
      intro k hk hlt
      apply gbCharLen_short
      rw [length_drop]
      omega
    obtain ⟨ch1, ch2, rest, hdrop, hch1, hch2, hrest⟩ := exists_pair (show i + 2 ≤ text.length by omega)
    have hrestLen : rest.length = left - 1 := by
      rw [← hrest, length_drop]
      omega
    rw [if_neg hone, hch1, hch2, bind_some, bind_some]
    by_cases hnul : ch1 = 0
    . have hzero : gbCharLen (text.drop i) = 0 := by
        rw [hdrop, hnul, gbCharLen_nul]
      rw [if_pos hnul]
      refine ⟨-1, rfl, iff_of_true (h.nul hzero (by rw [hch1, hnul])) ?_⟩
      rintro ⟨hthree, _, _, hbefore⟩
      exact (hbefore i (by omega)).2 (by rw [hch1, hnul])
    rw [if_neg hnul]
    by_cases hgbk : isGbkChar ch1 ch2 = true
    . have htwo : gbCharLen (text.drop i) = 2 := by
        rw [hdrop, gbCharLen_gbk rest hnul hgbk]
      rw [if_pos hgbk]
      refine ⟨i, rfl, iff_of_true (h.found (by omega) (by omega)) ?_⟩
      rintro ⟨hthree, _, _, hbefore⟩
      have hzero := (hbefore i (by omega)).1
      omega
    rw [if_neg hgbk]
    rw [Bool.not_eq_true] at hgbk
    by_cases hfour : left + 1 < 4
    . have hzero : gbCharLen (text.drop i) = 0 := by
        rw [hdrop, gbCharLen_few hgbk (by omega)]
      have hpassed := h.succ hzero (by rw [hch1]; exact fun heq => hnul (Option.some.inj heq))
      rw [if_pos hfour]
      refine ⟨-1, rfl, ?_⟩
      -- three bytes are left here or two, and a character in the last two is missed
      constructor
      . rintro (⟨k, hk, -⟩ | ⟨-, hnone⟩)
        . omega
        . rintro ⟨_, hfirst⟩
          exact hnone _ hfirst
      intro hfirst
      right
      refine ⟨rfl, ?_⟩
      rintro k hk
      by_cases hlt : k < i + 1
      . have hbefore := (hpassed k hlt).1
        have hat := hk.2.1
        omega
      by_cases hlast : k + 1 = text.length
      . have hshort := @gbCharLen_short (text.drop k) (by rw [length_drop]; omega)
        have hat := hk.2.1
        omega
      have hlt := hk.1
      apply hfirst
      refine ⟨by omega, ?_⟩
      rw [show text.length - 2 = k by omega]
      exact hk
    obtain ⟨ch3, ch4, tail, hdrop2, hch3, hch4, -⟩ := exists_pair (show i + 2 + 2 ≤ text.length by omega)
    rw [hrest] at hdrop2
    have hquad := @gbCharLen_quad ch1 ch2 ch3 ch4 tail hnul hgbk
    rw [← hdrop2, ← hdrop] at hquad
    rw [if_neg hfour, hch3, hch4, bind_some, bind_some]
    by_cases hchar : isGb18030Quad ch1 ch2 ch3 ch4 = true
    . rw [if_pos hchar] at hquad ⊢
      refine ⟨i, rfl, iff_of_true (h.found (by omega) (by omega)) ?_⟩
      rintro ⟨hthree, _, _, hbefore⟩
      have hzero := (hbefore i (by omega)).1
      omega
    rw [if_neg hchar] at hquad ⊢
    rw [Nat.add_sub_cancel]
    have hpassed := h.succ hquad (by rw [hch1]; exact fun heq => hnul (Option.some.inj heq))
    obtain ⟨r, hr, hiff⟩ := ih (by omega) hpassed
    refine ⟨r, hr, hiff.trans ?_⟩
    rw [and_congr_left]
    intro _
    omega

theorem gb18030PosLoop_unique {text : List UInt8} {n m i left : Nat} {r r' : Int}
    (h : gb18030PosLoop text n i left = some r)
    (h' : gb18030PosLoop text m i left = some r') : r = r' := by
  induction n generalizing m i left with
  | zero => cases h
  | succ n ih =>
    cases m with
    | zero => cases h'
    | succ m =>
      unfold gb18030PosLoop at h h'
      by_cases hleft : left < 2
      . rw [if_pos hleft, ite_self] at h h'
        exact Option.some.inj (h.symm.trans h')
      rw [if_neg (by omega), if_neg hleft, bind_eq_some_iff] at h h'
      obtain ⟨ch1, h1, h⟩ := h
      obtain ⟨c1, hc1, h'⟩ := h'
      rw [h1] at hc1
      cases hc1
      split at h
      . rw [if_pos (by assumption)] at h'
        exact Option.some.inj (h.symm.trans h')
      rw [if_neg (by assumption), bind_eq_some_iff] at h'
      rw [bind_eq_some_iff] at h
      obtain ⟨ch2, h2, h⟩ := h
      obtain ⟨c2, hc2, h'⟩ := h'
      rw [h2] at hc2
      cases hc2
      split at h
      . rw [if_pos (by assumption)] at h'
        exact Option.some.inj (h.symm.trans h')
      rw [if_neg (by assumption)] at h'
      split at h
      . rw [if_pos (by assumption)] at h'
        exact Option.some.inj (h.symm.trans h')
      rw [if_neg (by assumption)] at h'
      simp only [bind_eq_some_iff] at h h'
      obtain ⟨ch3, h3, ch4, h4, h⟩ := h
      obtain ⟨c3, hc3, c4, hc4, h'⟩ := h'
      rw [h3] at hc3
      rw [h4] at hc4
      cases hc3
      cases hc4
      split at h
      . rw [if_pos (by assumption)] at h'
        exact Option.some.inj (h.symm.trans h')
      . rw [if_neg (by assumption)] at h'
        exact ih h h'

theorem exists_rounds {α : Type} {f : Nat → Option α} (hf : f 0 = none) (r : α)
    : (∃ rounds, f rounds = some r) ↔ ∃ rounds, f (rounds + 1) = some r := by
  constructor
  . rintro ⟨rounds, hrounds⟩
    cases rounds with
    | zero =>
      rw [hf] at hrounds
      cases hrounds
    | succ rounds => exact ⟨rounds, hrounds⟩
  . rintro ⟨rounds, hrounds⟩
    exact ⟨rounds + 1, hrounds⟩

theorem exists_rounds_const {α : Type} {f : Nat → Option α} (hf : f 0 = none) {o : Option α}
    (h : ∀ rounds, f (rounds + 1) = o) (r : α) : (∃ rounds, f rounds = some r) ↔ o = some r := by
  rw [exists_rounds hf]
  simp only [h, exists_const]

theorem exists_rounds_step {α : Type} {f g : Nat → Option α} (hf : f 0 = none)
    (h : ∀ rounds, f (rounds + 1) = g rounds) (r : α)
    : (∃ rounds, f rounds = some r) ↔ ∃ rounds, g rounds = some r := by
  rw [exists_rounds hf]
  simp only [h]

section Steps

variable {text : List UInt8} {i left subLen : Nat} {ch1 ch2 ch3 ch4 : UInt8}

theorem gb18030SubstrLoop_succ (text : List UInt8) (mstrlen rounds i left subLen : Nat)
    : gb18030SubstrLoop text mstrlen (rounds + 1) i left subLen
        = if i < mstrlen then
            if left < 2 then
              some subLen
            else
              text[i]?.bind fun ch1 =>
                if ch1 = 0 then
                  some subLen
                else
                  text[i + 1]?.bind fun ch2 =>
                    if isGbkChar ch1 ch2 then
                      gb18030SubstrLoop text mstrlen rounds (i + 2) (left - 2) (subLen + 2)
                    else if left ≥ 4 then
                      text[i + 2]?.bind fun ch3 =>
                        text[i + 3]?.bind fun ch4 =>
                          if isGb18030Quad ch1 ch2 ch3 ch4 then
                            gb18030SubstrLoop text mstrlen rounds (i + 4) (left - 4) (subLen + 4)
                          else
                            gb18030SubstrLoop text mstrlen rounds (i + 2) left subLen
                    else
                      some subLen
          else
            some subLen := by
  rfl

theorem gb18030SubstrLoop_end (hi : text.length ≤ i) (rounds : Nat)
    : gb18030SubstrLoop text text.length (rounds + 1) i left subLen = some subLen := by
  rw [gb18030SubstrLoop_succ]
  rw [if_neg (by omega)]

theorem gb18030SubstrLoop_short (hleft : left < 2) (rounds : Nat)
    : gb18030SubstrLoop text text.length (rounds + 1) i left subLen = some subLen := by
  rw [gb18030SubstrLoop_succ]
  rw [if_pos hleft, ite_self]

theorem gb18030SubstrLoop_nul (h1 : text[i]? = some 0) (rounds : Nat)
    : gb18030SubstrLoop text text.length (rounds + 1) i left subLen = some subLen := by
  rw [gb18030SubstrLoop_succ]
  rw [h1, bind_some, if_pos rfl, ite_self, ite_self]

theorem gb18030SubstrLoop_gbk (hleft : 2 ≤ left) (h1 : text[i]? = some ch1) (h2 : text[i + 1]? = some ch2) (hnul : ch1 ≠ 0)
    (hgbk : isGbkChar ch1 ch2 = true) (rounds : Nat)
    : gb18030SubstrLoop text text.length (rounds + 1) i left subLen
        = gb18030SubstrLoop text text.length rounds (i + 2) (left - 2) (subLen + 2) := by
  have hi : i < text.length := (List.getElem?_eq_some_iff.mp h1).1
  rw [gb18030SubstrLoop_succ]
  rw [if_pos hi, if_neg (by omega), h1, bind_some, if_neg hnul, h2, bind_some, if_pos hgbk]

theorem gb18030SubstrLoop_few (hleft : left < 4) (h1 : text[i]? = some ch1) (h2 : text[i + 1]? = some ch2)
    (hgbk : isGbkChar ch1 ch2 = false) (rounds : Nat)
    : gb18030SubstrLoop text text.length (rounds + 1) i left subLen = some subLen := by
  rw [gb18030SubstrLoop_succ]
  have hnot : ¬left ≥ 4 := by omega
  simp only [h1, h2, bind_some, hgbk, Bool.false_eq_true, if_false, hnot, ite_self]

theorem gb18030SubstrLoop_out (hleft : 4 ≤ left) (h1 : text[i]? = some ch1) (hnul : ch1 ≠ 0)
    (hout : ∀ ch2, text[i + 1]? = some ch2 → isGbkChar ch1 ch2 = false ∧ text[i + 3]? = none) (rounds : Nat)
    : gb18030SubstrLoop text text.length (rounds + 1) i left subLen = none := by
  have hi : i < text.length := (List.getElem?_eq_some_iff.mp h1).1
  rw [gb18030SubstrLoop_succ]
  rw [if_pos hi, if_neg (by omega), h1, bind_some, if_neg hnul]
  cases h2 : text[i + 1]? with
  | none => rfl
  | some ch2 =>
    obtain ⟨hgbk, h4⟩ := hout ch2 h2
    rw [bind_some, hgbk, if_neg (by decide), if_pos hleft, h4]
    cases text[i + 2]? with
    | none => rfl
    | some ch3 => rfl

theorem gb18030SubstrLoop_quad (hleft : 4 ≤ left) (h1 : text[i]? = some ch1) (h2 : text[i + 1]? = some ch2)
    (h3 : text[i + 2]? = some ch3) (h4 : text[i + 3]? = some ch4) (hnul : ch1 ≠ 0) (hgbk : isGbkChar ch1 ch2 = false)
    (rounds : Nat) : gb18030SubstrLoop text text.length (rounds + 1) i left subLen
        = if isGb18030Quad ch1 ch2 ch3 ch4 then gb18030SubstrLoop text text.length rounds (i + 4) (left - 4) (subLen + 4)
          else gb18030SubstrLoop text text.length rounds (i + 2) left subLen := by
  have hi : i < text.length := (List.getElem?_eq_some_iff.mp h1).1
  rw [gb18030SubstrLoop_succ]
  rw [if_pos hi, if_neg (by omega), h1, bind_some, if_neg hnul, h2, bind_some, hgbk,
    if_neg (by decide), if_pos hleft,
    h3, bind_some, h4, bind_some]

end Steps

theorem gb18030SubstrLoop_ge {text : List UInt8} {i left subLen r : Nat}
    (h : gb18030SubstrLoop text text.length rounds i left subLen = some r) : subLen ≤ r := by
  induction rounds generalizing i left subLen with
  | zero => cases h
  | succ rounds ih =>
    by_cases hi : i < text.length
    . by_cases hleft : left < 2
      . rw [gb18030SubstrLoop_short hleft] at h
        cases h
        exact le_refl _
      have h1 := getElem?_eq_getElem hi
      by_cases hnul : text[i] = 0
      . rw [hnul] at h1
        rw [gb18030SubstrLoop_nul h1] at h
        cases h
        exact le_refl _
      rw [gb18030SubstrLoop_succ] at h
      rw [if_pos hi, if_neg hleft, h1, bind_some, if_neg hnul, bind_eq_some_iff] at h
      obtain ⟨ch2, h2, h⟩ := h
      split at h
      . have hge := ih h
        omega
      split at h
      . simp only [bind_eq_some_iff] at h
        obtain ⟨ch3, h3, ch4, h4, h⟩ := h
        split at h
        . have hge := ih h
          omega
        . exact ih h
      . cases h
        exact le_refl _
    . rw [gb18030SubstrLoop_end (by omega)] at h
      cases h
      exact le_refl _

theorem not_exists_rounds_grown {text : List UInt8} {i left subLen r : Nat} (h : r < subLen)
    : ¬∃ rounds, gb18030SubstrLoop text text.length rounds i left subLen = some r := by
  rintro ⟨rounds, hrounds⟩
  have hge := gb18030SubstrLoop_ge hrounds
  omega

theorem quietEnd_nul (rest : List UInt8) : QuietEnd (0 :: rest) := by
  match rest with
  | [] => rfl
  | [_] => rfl
  | [_, _] => rfl
  | _ :: _ :: _ :: _ => exact .inl rfl

theorem not_quietEnd_few {ch1 : UInt8} (hnul : ch1 ≠ 0) (hrest : rest.length < 3)
    : ¬QuietEnd (ch1 :: rest) := by
  match rest with
  | [] | [_] | [_, _] => exact hnul
  | _ :: _ :: _ :: _ =>
    simp only [length_cons] at hrest
    omega

theorem not_quietEnd_gbk {ch1 ch2 : UInt8} (rest : List UInt8) (hnul : ch1 ≠ 0) (hgbk : isGbkChar ch1 ch2 = true)
    : ¬QuietEnd (ch1 :: ch2 :: rest) := by
  match rest with
  | [] | [_] => exact hnul
  | _ :: _ :: _ =>
    rintro (h | ⟨h, -⟩)
    . exact hnul h
    . rw [hgbk] at h
      cases h

theorem quietEnd_quad {ch1 ch2 ch3 ch4 : UInt8} (rest : List UInt8) (hnul : ch1 ≠ 0) (hgbk : isGbkChar ch1 ch2 = false)
    : QuietEnd (ch1 :: ch2 :: ch3 :: ch4 :: rest) ↔ isGb18030Quad ch1 ch2 ch3 ch4 = false ∧ QuietEnd
      (ch3 :: ch4 :: rest) := by
  constructor
  . rintro (h | ⟨-, h⟩)
    . exact absurd h hnul
    . exact h
  . intro h
    exact .inr ⟨hgbk, h⟩

theorem gb18030SubstrLoop_stale (text : List UInt8) {m i left : Nat} (hm : text.length - i ≤ m) (hleft : 4 ≤ left)
    (subLen : Nat)
    : (∃ rounds, gb18030SubstrLoop text text.length rounds i left subLen = some subLen) ↔ QuietEnd (text.drop i) := by
  induction m using Nat.strongRecOn generalizing i with
  | ind m ih =>
    by_cases hi : i < text.length
    . have h1 := getElem?_eq_getElem hi
      have hhead := drop_eq_getElem_cons hi
      generalize text[i] = ch1 at h1 hhead
      by_cases hnul : ch1 = 0
      . rw [hnul] at h1 hhead
        rw [exists_rounds_const rfl (gb18030SubstrLoop_nul h1), hhead]
        exact iff_of_true rfl (quietEnd_nul _)
      by_cases hout : text.length < i + 4
      . by_cases hgbk : ∃ ch2, text[i + 1]? = some ch2 ∧ isGbkChar ch1 ch2 = true
        . obtain ⟨ch2, h2, hgbk⟩ := hgbk
          obtain ⟨hlt, hget⟩ := List.getElem?_eq_some_iff.mp h2
          rw [exists_rounds_step rfl (gb18030SubstrLoop_gbk (by omega) h1 h2 hnul hgbk), hhead]
          refine iff_of_false (not_exists_rounds_grown (by omega)) (not_quietEnd_few hnul ?_)
          rw [length_drop]
          omega
        have hnone : ∀ ch2, text[i + 1]? = some ch2 → isGbkChar ch1 ch2 = false ∧ text[i + 3]? = none := by
          intro ch2 h2
          refine ⟨?_, getElem?_eq_none (by omega)⟩
          rw [← Bool.not_eq_true]
          exact fun h => hgbk ⟨ch2, h2, h⟩
        rw [exists_rounds_const rfl (gb18030SubstrLoop_out hleft h1 hnul hnone), hhead]
        refine iff_of_false (by simp) (not_quietEnd_few hnul ?_)
        rw [length_drop]
        omega
      obtain ⟨c1, ch2, ch3, ch4, rest, hdrop, hc1, h2, h3, h4, hdrop2,
        -⟩ := exists_quad (show i + 4 ≤ text.length by omega)
      rw [h1] at hc1
      rw [← Option.some.inj hc1] at hdrop
      by_cases hgbk : isGbkChar ch1 ch2 = true
      . rw [exists_rounds_step rfl (gb18030SubstrLoop_gbk (by omega) h1 h2 hnul hgbk), hdrop]
        exact iff_of_false (not_exists_rounds_grown (by omega)) (not_quietEnd_gbk _ hnul hgbk)
      rw [Bool.not_eq_true] at hgbk
      have hstep := @gb18030SubstrLoop_quad text i left subLen ch1 ch2 ch3 ch4 hleft h1 h2 h3 h4 hnul hgbk
      rw [hdrop, quietEnd_quad rest hnul hgbk]
      by_cases hchar : isGb18030Quad ch1 ch2 ch3 ch4 = true
      . simp only [if_pos hchar] at hstep
        rw [exists_rounds_step rfl hstep, hchar]
        refine iff_of_false (not_exists_rounds_grown (by omega)) ?_
        rintro ⟨h, -⟩
        cases h
      simp only [if_neg hchar] at hstep
      rw [exists_rounds_step rfl hstep, ih (text.length - (i + 2)) (by omega) (le_refl _), hdrop2]
      rw [Bool.not_eq_true] at hchar
      rw [hchar]
      simp
    . rw [exists_rounds_const rfl (gb18030SubstrLoop_end (by omega)), drop_eq_nil_of_le (by omega)]
      exact iff_of_true rfl trivial

theorem gb18030SubstrLoop_exact (text : List UInt8) {m i : Nat} (hm : text.length - i ≤ m)
    : (∃ rounds, gb18030SubstrLoop text text.length rounds i (text.length - i) i
          = some (i + charPrefix gbCharLen (text.drop i).length (text.drop i)))
        ↔ (text.drop (i + charPrefix gbCharLen (text.drop i).length (text.drop i))).length < 4
          ∨ QuietEnd (text.drop (i + charPrefix gbCharLen (text.drop i).length (text.drop i))) := by
  induction m using Nat.strongRecOn generalizing i with
  | ind m ih =>
    by_cases htwo : text.length - i < 2
    . have hstop : charPrefix gbCharLen (text.drop i).length (text.drop i) = 0 := by
        apply charPrefix_stop
        apply gbCharLen_short
        rw [length_drop]
        exact htwo
      rw [hstop, Nat.add_zero, exists_rounds_const rfl (gb18030SubstrLoop_short htwo)]
      refine iff_of_true rfl (.inl ?_)
      rw [length_drop]
      omega
    obtain ⟨ch1, ch2, rest, hdrop, h1, h2, hrest⟩ := exists_pair (show i + 2 ≤ text.length by omega)
    by_cases hnul : ch1 = 0
    . rw [hnul] at h1 hdrop
      have hstop : charPrefix gbCharLen (text.drop i).length (text.drop i) = 0 := by
        rw [hdrop]
        exact charPrefix_stop (gbCharLen_nul _)
      rw [hstop, Nat.add_zero, exists_rounds_const rfl (gb18030SubstrLoop_nul h1), hdrop]
      exact iff_of_true rfl (.inr (quietEnd_nul _))
    by_cases hgbk : isGbkChar ch1 ch2 = true
    . have hlen : gbCharLen (text.drop i) = 2 := by
        rw [hdrop, gbCharLen_gbk rest hnul hgbk]
      have hprefix := @charPrefix_step gbCharLen (text.drop i) (by rw [hdrop]; exact cons_ne_nil _ _) (by omega)
      rw [hlen, drop_drop, length_drop, Nat.min_eq_left (by omega)] at hprefix
      have hih := ih (text.length - (i + 2)) (by omega) (le_refl (text.length - (i + 2)))
      rw [exists_rounds_step rfl (gb18030SubstrLoop_gbk (by omega) h1 h2 hnul hgbk), length_drop, hprefix,
        ← Nat.add_assoc,
        Nat.sub_sub, hih]
    rw [Bool.not_eq_true] at hgbk
    by_cases hfour : text.length - i < 4
    . have hstop : charPrefix gbCharLen (text.drop i).length (text.drop i) = 0 := by
        rw [hdrop]
        apply charPrefix_stop
        apply gbCharLen_few hgbk
        rw [← hrest, length_drop]
        omega
      rw [hstop, Nat.add_zero, exists_rounds_const rfl (gb18030SubstrLoop_few hfour h1 h2 hgbk)]
      refine iff_of_true rfl (.inl ?_)
      rw [length_drop]
      exact hfour
    obtain ⟨c1, c2, ch3, ch4, tail, hquadDrop, hc1, hc2, h3, h4, hdrop2,
      -⟩ := exists_quad (show i + 4 ≤ text.length by omega)
    rw [h1] at hc1
    rw [h2] at hc2
    rw [← Option.some.inj hc1, ← Option.some.inj hc2] at hquadDrop
    have hstep := @gb18030SubstrLoop_quad text i (text.length - i) i ch1 ch2 ch3 ch4 (by omega) h1 h2 h3 h4 hnul hgbk
    have hlen := @gbCharLen_quad ch1 ch2 ch3 ch4 tail hnul hgbk
    rw [← hquadDrop] at hlen
    by_cases hchar : isGb18030Quad ch1 ch2 ch3 ch4 = true
    . simp only [if_pos hchar] at hstep
      rw [if_pos hchar] at hlen
      have hprefix := @charPrefix_step gbCharLen (text.drop i) (by rw [hdrop]; exact cons_ne_nil _ _) (by omega)
      rw [hlen, drop_drop, length_drop, Nat.min_eq_left (by omega)] at hprefix
      have hih := ih (text.length - (i + 4)) (by omega) (le_refl (text.length - (i + 4)))
      rw [exists_rounds_step rfl hstep, length_drop, hprefix, ← Nat.add_assoc, Nat.sub_sub, hih]
    simp only [if_neg hchar] at hstep
    rw [if_neg hchar] at hlen
    have hquad : isGb18030Quad ch1 ch2 ch3 ch4 = false := by
      rw [← Bool.not_eq_true]
      exact hchar
    rw [charPrefix_stop hlen, Nat.add_zero, exists_rounds_step rfl hstep,
      gb18030SubstrLoop_stale text (le_refl (text.length - (i + 2))) (by omega), length_drop, hquadDrop,
      quietEnd_quad tail hnul hgbk, hdrop2]
    rw [hquad]
    simp only [true_and]
    constructor
    . exact .inr
    . rintro (h | h)
      . exact absurd h hfour
      . exact h

section Utf

variable {lenFirst : List UInt8 → Nat → Option Nat} {charLen : List UInt8 → Nat}

theorem charsFit_rounds {text : List UInt8} (h : text.length ≤ rounds)
    : CharsFit charLen rounds text ↔ CharsFit charLen text.length text := by
  induction rounds using Nat.strongRecOn generalizing text with
  | ind rounds ih =>
    cases rounds with
    | zero =>
      rw [Nat.le_zero.mp h]
    | succ rounds =>
      cases text with
      | nil =>
        unfold CharsFit
        simp
      | cons byte text =>
        rw [length_cons] at h ⊢
        unfold CharsFit
        by_cases hlen : charLen (byte :: text) = 0
        . simp [hlen]
        have hdrop : ((byte :: text).drop (charLen (byte :: text))).length ≤ text.length := by
          rw [length_drop, length_cons]
          omega
        rw [ih rounds (by omega) (by omega), ih text.length (by omega) hdrop]

theorem charsFit_step {text : List UInt8} (hne : text ≠ []) (hlen : charLen text ≠ 0)
    : CharsFit charLen text.length text
        ↔ charLen text ≤ text.length ∧ CharsFit charLen (text.drop (charLen text)).length (text.drop (charLen text)) := by
  obtain ⟨size, hsize⟩ : ∃ size, text.length = size + 1 := by
    have hpos := length_pos_of_ne_nil hne
    exact ⟨text.length - 1, by omega⟩
  conv => lhs; rw [hsize, CharsFit]
  rw [charsFit_rounds (by rw [length_drop]; omega)]
  simp only [hne, hlen, false_or]

theorem utfSubstrLoop_exact (hread : ∀ text, text ≠ [] → lenFirst text text.length = some (charLen text)) {m : Nat}
    {text : List UInt8} (hm : text.length ≤ m) (subLen : Nat)
    : (∃ rounds, utfSubstrLoop lenFirst rounds text text.length subLen = some (subLen + charPrefix charLen text.length text))
        ↔ CharsFit charLen text.length text := by
  induction m using Nat.strongRecOn generalizing text subLen with
  | ind m ih =>
    by_cases hne : text = []
    . have hstep : ∀ rounds, utfSubstrLoop lenFirst (rounds + 1) text text.length subLen = some subLen := by
        intro rounds
        rw [hne]
        rfl
      rw [exists_rounds_const rfl hstep, hne]
      exact iff_of_true rfl trivial
    have hpos := length_pos_of_ne_nil hne
    by_cases hlen : charLen text = 0
    . have hstep : ∀ rounds, utfSubstrLoop lenFirst (rounds + 1) text text.length subLen = some subLen := by
        intro rounds
        unfold utfSubstrLoop
        rw [if_pos hpos, hread text hne, bind_some, if_pos hlen]
      rw [exists_rounds_const rfl hstep, charPrefix_stop hlen]
      refine iff_of_true rfl ?_
      obtain ⟨size, hsize⟩ : ∃ size, text.length = size + 1 := ⟨text.length - 1, by omega⟩
      rw [hsize]
      exact .inr (.inl hlen)
    have hstep : ∀ rounds, utfSubstrLoop lenFirst (rounds + 1) text text.length subLen
        = utfSubstrLoop lenFirst rounds (text.drop (charLen text)) (text.drop (charLen text)).length (subLen + charLen text) := by
      intro rounds
      conv => lhs; unfold utfSubstrLoop
      rw [if_pos hpos, hread text hne, bind_some, if_neg hlen, length_drop]
    rw [exists_rounds_step rfl hstep, charPrefix_step hne hlen, charsFit_step hne hlen]
    by_cases hfit : charLen text ≤ text.length
    . have hih := @ih (text.length - charLen text) (by omega) (text.drop (charLen text)) (by rw [length_drop])
        (subLen + charLen text)
      rw [Nat.min_eq_left hfit, ← Nat.add_assoc, hih]
      simp only [hfit, true_and]
    have hnil : text.drop (charLen text) = [] := drop_eq_nil_of_le (by omega)
    have hend : ∀ rounds, utfSubstrLoop lenFirst (rounds + 1) [] ([] : List UInt8).length (subLen + charLen text)
        = some (subLen + charLen text) := by
      intro rounds
      rfl
    rw [hnil, exists_rounds_const rfl hend, Nat.min_eq_right (by omega)]
    refine iff_of_false ?_ ?_
    . intro h
      have hend := Option.some.inj h
      unfold charPrefix at hend
      simp only [List.length_nil] at hend
      omega
    . rintro ⟨h, -⟩
      exact hfit h

end Utf

theorem utf8Tail_length (chLen : Nat) {n : Nat} {bytes : List UInt8} (h : n ≤ bytes.length)
    : utf8Tail chLen n bytes = some 0 ∨ utf8Tail chLen n bytes = some chLen := by
  induction n generalizing bytes with
  | zero => exact .inr rfl
  | succ n ih =>
    cases bytes with
    | nil => cases h
    | cons t rest =>
      unfold utf8Tail
      simp only [getElem?_cons_zero, bind_some, drop_succ_cons, drop_zero]
      split
      . exact .inl rfl
      . exact ih (Nat.le_of_succ_le_succ h)

theorem utf8LenFirstChar_length {text : List UInt8} (hne : text ≠ [])
    : ∃ len, utf8LenFirstChar text text.length = some len ∧ len ≤ text.length := by
  cases text with
  | nil => exact absurd rfl hne
  | cons c rest =>
    unfold utf8LenFirstChar
    simp only [getElem?_cons_zero, bind_some]
    split
    . exact ⟨1, rfl, Nat.succ_le_succ (Nat.zero_le _)⟩
    split
    . exact ⟨0, rfl, Nat.zero_le _⟩
    have htail := @utf8Tail_length (leadBits c.toNat 8 1) (leadBits c.toNat 8 1 - 1) rest (by rw [length_cons] at *; omega)
    rcases htail with htail | htail
    . exact ⟨0, htail, Nat.zero_le _⟩
    . exact ⟨_, htail, by omega⟩

theorem charsFit_all {charLen : List UInt8 → Nat} (h : ∀ text, charLen text ≤ text.length) (rounds : Nat)
    (text : List UInt8) : CharsFit charLen rounds text := by
  induction rounds generalizing text with
  | zero => trivial
  | succ rounds ih => exact .inr (.inr ⟨h text, ih _⟩)

theorem utf16LenFirstChar_total (be : Bool) (text : List UInt8)
    : ∃ len, utf16LenFirstChar be text text.length = some len := by
  unfold utf16LenFirstChar
  by_cases htwo : text.length < 2
  . exact ⟨0, if_pos htwo⟩
  rw [if_neg htwo]
  obtain ⟨b0, b1, rest, -, h0, h1, -⟩ := exists_pair (show 0 + 2 ≤ text.length by omega)
  rw [h0, h1, bind_some, bind_some]
  dsimp only
  split
  . exact ⟨2, rfl⟩
  split
  . by_cases hfour : text.length < 4
    . exact ⟨0, if_pos hfour⟩
    obtain ⟨b2, b3, rest, -, h2, h3, -⟩ := exists_pair (show 2 + 2 ≤ text.length by omega)
    rw [if_neg hfour, h2, h3, bind_some, bind_some]
    split
    . exact ⟨0, rfl⟩
    . exact ⟨4, rfl⟩
  . exact ⟨4, rfl⟩

theorem utf_read {charset : Charset} (hread : ∀ text, text ≠ [] → ∃ len, lenFirstChar charset text text.length = some len)
    {text : List UInt8} (hne : text ≠ []) : lenFirstChar charset text text.length = some (charset.charLen text) := by
  obtain ⟨len, hlen⟩ := hread text hne
  unfold charLen
  rw [hlen]
  rfl

theorem utf8_charLen_le (text : List UInt8) : utf8.charLen text ≤ text.length := by
  cases text with
  | nil => exact le_refl 0
  | cons c rest =>
    obtain ⟨len, hlen, hle⟩ := utf8LenFirstChar_length (cons_ne_nil c rest)
    unfold charLen
    rw [show lenFirstChar .utf8 = utf8LenFirstChar from rfl, hlen]
    exact hle

theorem firstAt_zero {charLen : List UInt8 → Nat} {text : List UInt8} (hne : text ≠ []) (h : 0 < charLen text)
    : FirstAt charLen text 0 := by
  refine ⟨length_pos_of_ne_nil hne, ?_, ?_⟩
  . rw [drop_zero]
    exact h
  . intro j hj
    omega

theorem utf8PosFirstChar_exact (text : List UInt8)
    : (∃ r, utf8PosFirstChar text text.length = some r ∧ IsFirstPos utf8.charLen text r)
        ↔ 0 < utf8.charLen text ∨ ∀ i, ¬FirstAt utf8.charLen text i := by
  by_cases hne : text = []
  . rw [hne]
    have hnone : ∀ i, ¬FirstAt utf8.charLen [] i := fun i h => absurd h.1 (Nat.not_lt_zero i)
    exact iff_of_true ⟨-1, rfl, .inr ⟨rfl, hnone⟩⟩ (.inr hnone)
  have hpos := length_pos_of_ne_nil hne
  have hread := @utf_read .utf8 (fun text hne => (utf8LenFirstChar_length hne).imp fun _ h => h.1) text hne
  rw [show lenFirstChar .utf8 = utf8LenFirstChar from rfl] at hread
  unfold utf8PosFirstChar
  rw [if_pos hpos, hread, bind_some]
  by_cases hlen : utf8.charLen text = 0
  . rw [if_pos hlen]
    constructor
    . rintro ⟨r, hr, hfirst⟩
      right
      rcases hfirst with ⟨i, hi, -⟩ | ⟨-, hnone⟩
      . have heq := Option.some.inj hr
        omega
      . exact hnone
    . rintro (h | hnone)
      . omega
      . exact ⟨-1, rfl, .inr ⟨rfl, hnone⟩⟩
  . rw [if_neg hlen]
    exact iff_of_true ⟨0, rfl, .inl ⟨0, rfl, firstAt_zero hne (by omega)⟩⟩ (.inl (by omega))

theorem utf16PosLoop_exact (hchar : lenFirstChar charset = utf16LenFirstChar be) (text : List UInt8)
    : (∃ rounds r, utf16PosLoop be rounds text text.length 0 = some r ∧ IsFirstPos charset.charLen text r)
        ↔ text = [] ∨ 0 < charset.charLen text := by
  by_cases hne : text = []
  . rw [hne]
    exact iff_of_true ⟨1, -1, rfl, .inr ⟨rfl, fun i h => absurd h.1 (Nat.not_lt_zero i)⟩⟩ (.inl rfl)
  have hpos := length_pos_of_ne_nil hne
  have hread := @utf_read charset (fun text _ => by rw [hchar]; exact utf16LenFirstChar_total be text) text hne
  rw [hchar] at hread
  by_cases hlen : charset.charLen text = 0
  . have hstuck : ∀ rounds, utf16PosLoop be rounds text text.length 0 = none := by
      intro rounds
      induction rounds with
      | zero => rfl
      | succ rounds ih =>
        unfold utf16PosLoop
        rw [if_pos hpos, hread, bind_some, hlen, if_neg (Nat.lt_irrefl 0)]
        exact ih
    refine iff_of_false ?_ ?_
    . rintro ⟨rounds, r, h, -⟩
      rw [hstuck] at h
      cases h
    . rintro (h | h)
      . exact hne h
      . omega
  . refine iff_of_true ⟨1, 0, ?_, .inl ⟨0, rfl, firstAt_zero hne (by omega)⟩⟩ (.inr (by omega))
    unfold utf16PosLoop
    rw [if_pos hpos, hread, bind_some, if_pos (by omega)]
    rfl

theorem utf16_segments (hchar : lenFirstChar charset = utf16LenFirstChar be)
    (hsubstr : ∀ rounds, lenFirstSubstr rounds charset = fun mstr mstrlen => utfSubstrLoop (utf16LenFirstChar be) rounds mstr mstrlen 0)
    (hpos : ∀ rounds, posFirstChar rounds charset = fun mstr mstrlen => utf16PosLoop be rounds mstr mstrlen 0)
    (text : List UInt8)
    : ((∃ rounds, lenFirstSubstr rounds charset text text.length = some (charPrefix charset.charLen text.length text))
          ∧ ∃ rounds r, posFirstChar rounds charset text text.length = some r ∧ IsFirstPos charset.charLen text r)
        ↔ CharsFit charset.charLen text.length text ∧ (text = [] ∨ 0 < charset.charLen text) := by
  simp only [hsubstr, hpos]
  have hread : ∀ text, text ≠ [] → utf16LenFirstChar be text text.length = some (charset.charLen text) := by
    intro text hne
    rw [← hchar]
    exact utf_read (fun text _ => by rw [hchar]; exact utf16LenFirstChar_total be text) hne
  have hrun := utfSubstrLoop_exact hread (le_refl text.length) 0
  rw [Nat.zero_add] at hrun
  exact and_congr hrun (utf16PosLoop_exact hchar text)

/--
The functions of the charsets of two bytes agree on every text, and the others where the text is clean.
-/
theorem segments_iff_clean (charset : Charset) (text : List UInt8)
    : Segments charset text ↔ SegmentsClean charset text := by
  have hsplit : Segments charset text
      ↔ (∃ rounds, lenFirstSubstr rounds charset text text.length = some (charPrefix charset.charLen text.length text))
        ∧ ∃ rounds r, posFirstChar rounds charset text text.length = some r ∧ IsFirstPos charset.charLen text r :=
    ⟨fun h => ⟨h.substr, h.pos⟩, fun h => ⟨h.1, h.2⟩⟩
  cases charset with
  | gb2312 => exact iff_of_true (db_segments rfl (fun _ _ => rfl) (fun _ _ => rfl) text) trivial
  | gbk => exact iff_of_true (db_segments rfl (fun _ _ => rfl) (fun _ _ => rfl) text) trivial
  | big5 => exact iff_of_true (db_segments rfl (fun _ _ => rfl) (fun _ _ => rfl) text) trivial
  | jisx0208 => exact iff_of_true (db_segments rfl (fun _ _ => rfl) (fun _ _ => rfl) text) trivial
  | gb18030 =>
    rw [hsplit]
    have hsubstr := @gb18030SubstrLoop_exact text text.length 0 (Nat.sub_le _ _)
    obtain ⟨r, hr, hpos⟩ := @gb18030PosLoop_spec text text.length 0 (Nat.zero_add _) (fun j hj => absurd hj (Nat.not_lt_zero j))
    simp only [Nat.sub_zero, drop_zero, Nat.zero_add] at hsubstr
    refine and_congr hsubstr ?_
    constructor
    . rintro ⟨rounds, r', hr', hpos'⟩
      have heq : r' = r := gb18030PosLoop_unique hr' hr
      rw [heq] at hpos'
      have hnot := hpos.mp hpos'
      by_cases htwo : text.length ≤ 2
      . exact .inl htwo
      . exact .inr fun h => hnot ⟨by omega, h⟩
    intro h
    refine ⟨text.length + 1, r, hr, hpos.mpr ?_⟩
    rintro ⟨hthree, hfirst⟩
    rcases h with h | h
    . omega
    . exact h hfirst
  | utf8 =>
    rw [hsplit]
    have hread : ∀ text, text ≠ [] → utf8LenFirstChar text text.length = some (Charset.utf8.charLen text) := by
      intro text hne
      exact @utf_read .utf8 (fun text hne => (utf8LenFirstChar_length hne).imp fun _ h => h.1) text hne
    have hsubstr := utfSubstrLoop_exact hread (le_refl text.length) 0
    rw [Nat.zero_add] at hsubstr
    have hpos := utf8PosFirstChar_exact text
    refine ⟨fun h => hpos.mp h.2.choose_spec, fun h => ⟨hsubstr.mpr (charsFit_all utf8_charLen_le _ _), 0, hpos.mpr h⟩⟩
  | utf16le => exact hsplit.trans (utf16_segments rfl (fun _ => rfl) (fun _ => rfl) text)
  | utf16be => exact hsplit.trans (utf16_segments rfl (fun _ => rfl) (fun _ => rfl) text)

theorem not_segments_gb18030 : ¬∀ charset text, Segments charset text := by
  intro h
  have hsubstr := (h .gb18030 [97, 98, 99, 100, 101, 102, 0x81, 0x40]).substr
  have hprefix : charPrefix Charset.gb18030.charLen 8 [97, 98, 99, 100, 101, 102, 0x81, 0x40] = 0 := by decide
  rw [show ([97, 98, 99, 100, 101, 102, 0x81, 0x40] : List UInt8).length = 8 from rfl, hprefix] at hsubstr
  have hquiet := (gb18030SubstrLoop_stale [97, 98, 99, 100, 101, 102, 0x81,
    0x40] (Nat.le_refl 8) (show 4 ≤ 8 by decide) 0).mp hsubstr
  simp [QuietEnd] at hquiet

end MiniGui
