import MiniGui.Font.Charset

namespace MiniGui

open List Option

inductive UnicodeForm where
  | utf8
  | utf16 (be : Bool)
deriving DecidableEq, Repr

def UnicodeForm.charset : UnicodeForm → Charset
  | .utf8 => .utf8
  | .utf16 false => .utf16le
  | .utf16 true => .utf16be

def IsLead (n : Nat) (c : UInt8) : Prop :=
  (n = 1 ∧ c.toNat < 0x80) ∨ (n = 2 ∧ 0xC0 ≤ c.toNat ∧ c.toNat < 0xE0) ∨ (n = 3 ∧ 0xE0 ≤ c.toNat ∧ c.toNat < 0xF0)
    ∨ (n = 4 ∧ 0xF0 ≤ c.toNat ∧ c.toNat < 0xF8) ∨ (n = 5 ∧ 0xF8 ≤ c.toNat ∧ c.toNat < 0xFC)
    ∨ (n = 6 ∧ 0xFC ≤ c.toNat ∧ c.toNat < 0xFE)

def IsContinuation (t : UInt8) : Prop :=
  0x80 ≤ t.toNat ∧ t.toNat < 0xC0

instance : DecidablePred IsContinuation :=
  fun t => inferInstanceAs (Decidable (0x80 ≤ t.toNat ∧ t.toNat < 0xC0))

def Continues (n : Nat) (bytes : List UInt8) : Prop :=
  ∀ t ∈ bytes.take n, IsContinuation t

instance (n : Nat) (bytes : List UInt8) : Decidable (Continues n bytes) :=
  inferInstanceAs (Decidable (∀ t ∈ bytes.take n, IsContinuation t))

theorem continues_zero (bytes : List UInt8) : Continues 0 bytes := by
  intro t ht
  cases ht

variable {n len : Nat} {c lead : UInt8} {mstr rest : List UInt8}

theorem continues_take {m : Nat} (h : n ≤ m) (bytes : List UInt8) : Continues n (bytes.take m) ↔ Continues n bytes := by
  unfold Continues
  rw [take_take, Nat.min_eq_left h]

def IsHighSurrogate (w : Nat) : Prop :=
  0xD800 ≤ w ∧ w ≤ 0xDBFF

def IsLowSurrogate (w : Nat) : Prop :=
  0xDC00 ≤ w ∧ w ≤ 0xDFFF

instance : DecidablePred IsHighSurrogate :=
  fun w => inferInstanceAs (Decidable (0xD800 ≤ w ∧ w ≤ 0xDBFF))

instance : DecidablePred IsLowSurrogate :=
  fun w => inferInstanceAs (Decidable (0xDC00 ≤ w ∧ w ≤ 0xDFFF))

namespace UnicodeForm

def IsChar : UnicodeForm → List UInt8 → Prop
  | .utf8, bytes => ∃ lead rest, bytes = lead :: rest ∧ IsLead (rest.length + 1) lead ∧ ∀ t ∈ rest, IsContinuation t
  | .utf16 be, bytes =>
    (∃ b0 b1, bytes = [b0, b1] ∧ ¬IsHighSurrogate (utf16Unit be b0 b1) ∧ ¬IsLowSurrogate (utf16Unit be b0 b1))
    ∨ ∃ b0 b1 b2 b3, bytes = [b0, b1, b2, b3] ∧ IsHighSurrogate (utf16Unit be b0 b1) ∧ IsLowSurrogate (utf16Unit be b2 b3)

def Recognises (form : UnicodeForm) (mstr : List UInt8) (len : Nat) : Prop :=
  ∃ r, lenFirstChar form.charset mstr len = some r ∧ lenFirstChar form.charset (mstr.take len) len = some r
    ∧ ∀ n > 0, r = n ↔ n ≤ len ∧ form.IsChar (mstr.take n)

def Regular : UnicodeForm → List UInt8 → Nat → Prop
  | .utf8, mstr, len =>
    0 < len ∧ ∀ lead rest, mstr = lead :: rest → ¬IsContinuation lead
      ∧ ∀ n, (n = 7 ∧ lead.toNat = 0xFE) ∨ (n = 8 ∧ lead.toNat = 0xFF) → n ≤ len → ¬Continues (n - 1) rest
  | .utf16 be, mstr, len => 2 ≤ len → ∀ b0 b1 rest, mstr = b0 :: b1 :: rest → ¬IsLowSurrogate (utf16Unit be b0 b1)

end UnicodeForm

theorem leadBits_eq : ∀ c : Fin 256, 0x80 ≤ c.val → leadBits c.val 8 1 =
    if c.val < 0xC0 then 1 else if c.val < 0xE0 then 2 else if c.val < 0xF0 then 3 else if c.val < 0xF8 then 4
    else if c.val < 0xFC then 5 else if c.val < 0xFE then 6 else if c.val < 0xFF then 7 else 8 := by
  decide +kernel

theorem leadBits_toNat (h : 0x80 ≤ c.toNat) : leadBits c.toNat 8 1 =
    if c.toNat < 0xC0 then 1 else if c.toNat < 0xE0 then 2 else if c.toNat < 0xF0 then 3 else if c.toNat < 0xF8 then 4
    else if c.toNat < 0xFC then 5 else if c.toNat < 0xFE then 6 else if c.toNat < 0xFF then 7 else 8 :=
  leadBits_eq ⟨c.toNat, c.toNat_lt⟩ h

theorem isLead_iff : IsLead n c ↔
    (c.toNat < 0x80 ∧ n = 1) ∨ (0xC0 ≤ c.toNat ∧ c.toNat < 0xFE ∧ n = leadBits c.toNat 8 1) := by
  unfold IsLead
  by_cases hascii : c.toNat < 0x80
  . constructor
    . intro h
      left
      omega
    . intro h
      left
      omega
  rw [leadBits_toNat (by omega)]
  split
  . omega
  split
  . omega
  split
  . omega
  split
  . omega
  . split
    . omega
    . split <;> omega

theorem continuation_bits : ∀ t : Fin 256, (t.val &&& 0x80 = 0 ∨ t.val &&& 0x40 ≠ 0) ↔ ¬(0x80 ≤ t.val ∧ t.val < 0xC0) := by
  decide +kernel

theorem utf8Tail_eq (chLen : Nat) (h : n ≤ mstr.length)
    : utf8Tail chLen n mstr = some (if Continues n mstr then chLen else 0) := by
  induction n generalizing mstr with
  | zero =>
    rw [if_pos (continues_zero mstr)]
    rfl
  | succ n ih =>
    cases mstr with
    | nil => cases h
    | cons t mstr =>
      have hbits := continuation_bits ⟨t.toNat, t.toNat_lt⟩
      have hrest := @ih mstr (Nat.le_of_succ_le_succ h)
      have hcons : Continues (n + 1) (t :: mstr) ↔ IsContinuation t ∧ Continues n mstr := by
        unfold Continues
        rw [take_succ_cons, forall_mem_cons]
      unfold utf8Tail
      rw [getElem?_cons_zero, bind_some, drop_one, tail_cons, hrest]
      by_cases ht : IsContinuation t
      . rw [if_neg fun h => hbits.mp h ht]
        simp only [hcons, ht, true_and]
      . rw [if_pos (hbits.mpr ht), if_neg fun h => ht (hcons.mp h).1]

theorem utf8LenFirstChar_eq (hlen : len ≤ rest.length + 1)
    : utf8LenFirstChar (lead :: rest) len = some
        (if lead.toNat < 0x80 then 1
        else if leadBits lead.toNat 8 1 ≤ len ∧ Continues (leadBits lead.toNat 8 1 - 1) rest then
          leadBits lead.toNat 8 1
        else 0) := by
  unfold utf8LenFirstChar
  rw [getElem?_cons_zero, bind_some]
  have hascii : lead < 0x80 ↔ lead.toNat < 0x80 := UInt8.lt_iff_toNat_lt
  by_cases hlead : lead.toNat < 0x80
  . rw [if_pos (hascii.mpr hlead), if_pos hlead]
  rw [if_neg (mt hascii.mp hlead), if_neg hlead]
  by_cases hfits : leadBits lead.toNat 8 1 ≤ len
  . rw [if_neg (by omega), drop_one, tail_cons, utf8Tail_eq _ (by omega)]
    simp [hfits]
  . rw [if_pos (by omega), if_neg fun h => hfits h.1]

theorem isChar_utf8 (hn : 0 < n) (hlen : n ≤ rest.length + 1)
    : UnicodeForm.utf8.IsChar ((lead :: rest).take n) ↔ IsLead n lead ∧ Continues (n - 1) rest := by
  obtain ⟨m, rfl⟩ : ∃ m, n = m + 1 := ⟨n - 1, by omega⟩
  rw [take_succ_cons, Nat.add_sub_cancel]
  unfold UnicodeForm.IsChar
  constructor
  . rintro ⟨first, tail, heq, hfirst, htail⟩
    obtain ⟨rfl, rfl⟩ := List.cons.inj heq
    rw [length_take_of_le (by omega)] at hfirst
    exact ⟨hfirst, htail⟩
  rintro ⟨hfirst, htail⟩
  refine ⟨lead, rest.take m, rfl, ?_, htail⟩
  rw [length_take_of_le (by omega)]
  exact hfirst

theorem utf8_recognises (hlen : len ≤ mstr.length)
    : UnicodeForm.utf8.Recognises mstr len ↔ UnicodeForm.utf8.Regular mstr len := by
  unfold UnicodeForm.Recognises UnicodeForm.Regular UnicodeForm.charset lenFirstChar
  dsimp only
  by_cases hpos : 0 < len
  . cases mstr with
    | nil =>
      rw [List.length_nil] at hlen
      omega
    | cons lead rest =>
      rw [length_cons] at hlen
      have htake : (lead :: rest).take len = lead :: rest.take (len - 1) := by
        obtain ⟨m, rfl⟩ : ∃ m, len = m + 1 := ⟨len - 1, by omega⟩
        rfl
      have hshort : len ≤ (rest.take (len - 1)).length + 1 := by
        rw [length_take]
        omega
      rw [htake, utf8LenFirstChar_eq hlen, utf8LenFirstChar_eq hshort]
      generalize hk : leadBits lead.toNat 8 1 = k
      have hsame : (k ≤ len ∧ Continues (k - 1) (rest.take (len - 1))) ↔ k ≤ len ∧ Continues (k - 1) rest := by
        constructor
        . rintro ⟨hle, hall⟩
          exact ⟨hle, (continues_take (by omega) rest).mp hall⟩
        . rintro ⟨hle, hall⟩
          exact ⟨hle, (continues_take (by omega) rest).mpr hall⟩
      simp only [hsame]
      have hspec : ∀ n > 0, (n ≤ len ∧ UnicodeForm.utf8.IsChar ((lead :: rest).take n))
          ↔ n ≤ len ∧ IsLead n lead ∧ Continues (n - 1) rest := by
        intro n hn
        constructor
        . rintro ⟨hle, hchar⟩
          exact ⟨hle, (isChar_utf8 hn (by omega)).mp hchar⟩
        . rintro ⟨hle, hchar⟩
          exact ⟨hle, (isChar_utf8 hn (by omega)).mpr hchar⟩
      have hlead : ∀ n, IsLead n lead ↔ (lead.toNat < 0x80 ∧ n = 1) ∨ (0xC0 ≤ lead.toNat ∧ lead.toNat < 0xFE ∧ n = k) := by
        intro n
        rw [isLead_iff, hk]
      constructor
      . rintro ⟨r, hr, -, hexact⟩
        have hvalue := Option.some.inj hr
        refine ⟨hpos, ?_⟩
        rintro first tail heq
        obtain ⟨rfl, rfl⟩ := List.cons.inj heq
        constructor
        . -- the length that is found is 1
          intro hstray
          have hone : k = 1 := by
            rw [← hk, leadBits_toNat hstray.1, if_pos hstray.2]
          have hr1 : r = 1 := by
            rw [← hvalue, if_neg (by have := hstray.1; omega), hone, if_pos ⟨hpos, continues_zero rest⟩]
          have hbad := ((hspec 1 (by decide)).mp ((hexact 1 (by decide)).mp hr1)).2.1
          rw [hlead] at hbad
          have hrange := hstray
          unfold IsContinuation at hrange
          omega
        intro n hn hle hcont
        have hkn : k = n := by
          rw [← hk, leadBits_toNat (by omega)]
          rcases hn with ⟨rfl, hfe⟩ | ⟨rfl, hff⟩
          . rw [hfe]
            rfl
          . rw [hff]
            rfl
        have hrn : r = n := by
          rw [← hvalue, if_neg (by omega), hkn, if_pos ⟨hle, hcont⟩]
        have hbad := ((hspec n (by omega)).mp ((hexact n (by omega)).mp hrn)).2.1
        rw [hlead] at hbad
        omega
      rintro ⟨-, hregular⟩
      obtain ⟨hstray, hlong⟩ := hregular lead rest rfl
      refine ⟨_, rfl, rfl, ?_⟩
      intro n hn
      rw [hspec n hn, hlead]
      by_cases hascii : lead.toNat < 0x80
      . rw [if_pos hascii]
        constructor
        . rintro rfl
          exact ⟨hpos, Or.inl ⟨hascii, rfl⟩, continues_zero rest⟩
        . rintro ⟨-, hone, -⟩
          omega
      rw [if_neg hascii]
      have hlead2 : 0xC0 ≤ lead.toNat := by
        unfold IsContinuation at hstray
        omega
      by_cases hfe : lead.toNat < 0xFE
      . constructor
        . intro hr
          split at hr
          next hfits =>
            rw [← hr]
            exact ⟨hfits.1, Or.inr ⟨hlead2, hfe, rfl⟩, hfits.2⟩
          next => omega
        . rintro ⟨hle, hn, hcont⟩
          have hnk : n = k := by omega
          rw [if_pos (by rw [← hnk]; exact ⟨hle, hcont⟩), hnk]
      have hkbig : (k = 7 ∧ lead.toNat = 0xFE) ∨ (k = 8 ∧ lead.toNat = 0xFF) := by
        rw [← hk, leadBits_toNat (by omega)]
        have hlt := lead.toNat_lt
        split
        . omega
        split
        . omega
        split
        . omega
        split
        . omega
        . split
          . omega
          . split <;> omega
      rw [if_neg fun hfits => hlong k hkbig hfits.1 hfits.2]
      constructor
      . intro h0
        omega
      . rintro ⟨-, hn, -⟩
        omega
  . have hzero : len = 0 := by omega
    constructor
    . rintro ⟨r, -, hnone, -⟩
      rw [hzero] at hnone
      cases hnone
    . rintro ⟨hlt, -⟩
      exact absurd hlt hpos

theorem utf16LenFirstChar_take (be : Bool) (mstr : List UInt8) (len : Nat)
    : utf16LenFirstChar be (mstr.take len) len = utf16LenFirstChar be mstr len := by
  unfold utf16LenFirstChar
  by_cases htwo : len < 2
  . rw [if_pos htwo, if_pos htwo]
  rw [if_neg htwo, if_neg htwo, getElem?_take_of_lt (by omega), getElem?_take_of_lt (by omega)]
  by_cases hfour : len < 4
  . simp only [if_pos hfour]
  . simp only [if_neg hfour]
    rw [getElem?_take_of_lt (by omega), getElem?_take_of_lt (by omega)]

theorem utf16LenFirstChar_eq (be : Bool) {b0 b1 : UInt8} (htwo : 2 ≤ len)
    : utf16LenFirstChar be (b0 :: b1 :: rest) len
        = if IsLowSurrogate (utf16Unit be b0 b1) then some 4
          else if IsHighSurrogate (utf16Unit be b0 b1) then
            if len < 4 then some 0
            else rest[0]?.bind fun b2 => rest[1]?.bind fun b3 =>
              if IsLowSurrogate (utf16Unit be b2 b3) then some 4 else some 0
          else some 2 := by
  have hpair : ∀ w2, (w2 < 0xDC00 ∨ w2 > 0xDFFF) ↔ ¬IsLowSurrogate w2 := by
    intro w2
    unfold IsLowSurrogate
    omega
  unfold utf16LenFirstChar
  rw [if_neg (by omega)]
  simp only [getElem?_cons_zero, getElem?_cons_succ, bind_some, hpair, ite_not]
  generalize utf16Unit be b0 b1 = w1
  by_cases hlow : IsLowSurrogate w1
  . have hrange := hlow
    unfold IsLowSurrogate at hrange
    rw [if_neg (by omega), if_neg (by omega), if_pos hlow]
  rw [if_neg hlow]
  by_cases hhigh : IsHighSurrogate w1
  . have hrange := hhigh
    unfold IsHighSurrogate at hrange
    rw [if_neg (by omega), if_pos hrange, if_pos hhigh]
  rw [if_neg hhigh, if_pos]
  unfold IsLowSurrogate at hlow
  unfold IsHighSurrogate at hhigh
  omega

theorem utf16_recognises (be : Bool) (hlen : len ≤ mstr.length)
    : (UnicodeForm.utf16 be).Recognises mstr len ↔ (UnicodeForm.utf16 be).Regular mstr len := by
  have hcharset : lenFirstChar (UnicodeForm.utf16 be).charset = utf16LenFirstChar be := by
    cases be <;> rfl
  unfold UnicodeForm.Recognises UnicodeForm.Regular
  rw [hcharset, utf16LenFirstChar_take]
  by_cases htwo : 2 ≤ len
  . obtain ⟨b0, b1, rest, rfl⟩ : ∃ b0 b1 rest, mstr = b0 :: b1 :: rest := by
      cases mstr with
      | nil =>
        rw [List.length_nil] at hlen
        omega
      | cons b0 tail =>
        cases tail with
        | nil =>
          rw [length_singleton] at hlen
          omega
        | cons b1 rest => exact ⟨b0, b1, rest, rfl⟩
    rw [utf16LenFirstChar_eq be htwo]
    generalize hw1 : utf16Unit be b0 b1 = w1
    -- the characters in front, by their lengths
    have htwoChar : (UnicodeForm.utf16 be).IsChar ((b0 :: b1 :: rest).take 2) ↔ ¬IsHighSurrogate w1
      ∧ ¬IsLowSurrogate w1 := by
      unfold UnicodeForm.IsChar
      simp only [take_succ_cons, take_zero]
      constructor
      . rintro (⟨c0, c1, heq, hunit⟩ | ⟨c0, c1, c2, c3, heq, -⟩)
        . cases heq
          rw [hw1] at hunit
          exact hunit
        . cases heq
      . intro hunit
        exact .inl ⟨b0, b1, rfl, by rw [hw1]; exact hunit⟩
    have hlength : ∀ n, n ≤ len → (UnicodeForm.utf16 be).IsChar ((b0 :: b1 :: rest).take n) → n = 2 ∨ n = 4 := by
      intro n hn hchar
      have hsize := length_take_of_le (Nat.le_trans hn hlen)
      rcases hchar with ⟨c0, c1, heq, -⟩ | ⟨c0, c1, c2, c3, heq, -⟩
      . rw [heq] at hsize
        left
        exact hsize.symm
      . rw [heq] at hsize
        right
        exact hsize.symm
    constructor
    . rintro ⟨r, hr, -, hexact⟩ - c0 c1 tail heq hlow
      cases heq
      rw [hw1] at hlow
      rw [if_pos hlow] at hr
      have hfour := (hexact 4 (by decide)).mp (Option.some.inj hr).symm
      rcases hfour.2 with ⟨c0, c1, heq, -⟩ | ⟨c0, c1, c2, c3, heq, hhigh, -⟩
      . have hsize := congrArg List.length heq
        rw [length_take_of_le (Nat.le_trans hfour.1 hlen)] at hsize
        simp at hsize
      rw [take_succ_cons, take_succ_cons] at heq
      injection heq with h0 heq
      injection heq with h1 _
      rw [← h0, ← h1, hw1] at hhigh
      unfold IsHighSurrogate at hhigh
      unfold IsLowSurrogate at hlow
      omega
    intro hregular
    have hlow : ¬IsLowSurrogate w1 := by
      rw [← hw1]
      exact hregular htwo b0 b1 rest rfl
    rw [if_neg hlow]
    by_cases hhigh : IsHighSurrogate w1
    . rw [if_pos hhigh]
      have hnotTwo : ∀ n, n ≤ len → (UnicodeForm.utf16 be).IsChar ((b0 :: b1 :: rest).take n) → n = 4 := by
        intro n hn hchar
        cases hlength n hn hchar with
        | inl heq =>
          rw [heq] at hchar
          exact absurd hhigh (htwoChar.mp hchar).1
        | inr heq => exact heq
      by_cases hfour : len < 4
      . rw [if_pos hfour]
        refine ⟨0, rfl, rfl, ?_⟩
        intro n hn
        constructor
        . intro h
          omega
        . rintro ⟨hle, hchar⟩
          have heq := hnotTwo n hle hchar
          omega
      rw [if_neg hfour]
      obtain ⟨b2, b3, more, rfl⟩ : ∃ b2 b3 more, rest = b2 :: b3 :: more := by
        rw [length_cons, length_cons] at hlen
        cases rest with
        | nil =>
          rw [List.length_nil] at hlen
          omega
        | cons b2 tail =>
          cases tail with
          | nil =>
            rw [length_singleton] at hlen
            omega
          | cons b3 more => exact ⟨b2, b3, more, rfl⟩
      have hfourChar : (UnicodeForm.utf16 be).IsChar ((b0 :: b1 :: b2 :: b3 :: more).take 4)
          ↔ IsLowSurrogate (utf16Unit be b2 b3) := by
        unfold UnicodeForm.IsChar
        simp only [take_succ_cons, take_zero]
        constructor
        . rintro (⟨c0, c1, heq, -⟩ | ⟨c0, c1, c2, c3, heq, -, hunit⟩)
          . cases heq
          . cases heq
            exact hunit
        . intro hunit
          exact .inr ⟨b0, b1, b2, b3, rfl, by rw [hw1]; exact hhigh, hunit⟩
      simp only [getElem?_cons_zero, getElem?_cons_succ, bind_some]
      refine ⟨if IsLowSurrogate (utf16Unit be b2 b3) then 4 else 0, ?_, ?_, ?_⟩
      . split <;> rfl
      . split <;> rfl
      intro n hn
      constructor
      . intro h
        split at h
        next hpair =>
          rw [← h]
          exact ⟨by omega, hfourChar.mpr hpair⟩
        next => omega
      rintro ⟨hle, hchar⟩
      have heq := hnotTwo n hle hchar
      rw [heq] at hchar ⊢
      rw [if_pos (hfourChar.mp hchar)]
    rw [if_neg hhigh]
    refine ⟨2, rfl, rfl, ?_⟩
    intro n hn
    constructor
    . rintro rfl
      exact ⟨htwo, htwoChar.mpr ⟨hhigh, hlow⟩⟩
    rintro ⟨hle, hchar⟩
    cases hlength n hle hchar with
    | inl heq => exact heq.symm
    | inr heq =>
      rw [heq] at hchar hle
      rcases hchar with ⟨c0, c1, hsame, -⟩ | ⟨c0, c1, c2, c3, hsame, hfirst, -⟩
      . have hsize := congrArg List.length hsame
        rw [length_take_of_le (Nat.le_trans hle hlen)] at hsize
        simp at hsize
      rw [take_succ_cons, take_succ_cons] at hsame
      injection hsame with h0 hsame
      injection hsame with h1 _
      rw [← h0, ← h1, hw1] at hfirst
      exact absurd hfirst hhigh
  . constructor
    . intro _ h
      exact absurd h htwo
    intro _
    have hzero : utf16LenFirstChar be mstr len = some 0 := by
      unfold utf16LenFirstChar
      rw [if_pos (by omega)]
    refine ⟨0, hzero, hzero, ?_⟩
    intro n hn
    constructor
    . intro h
      omega
    rintro ⟨hle, hchar⟩
    have hsize := length_take_of_le (Nat.le_trans hle hlen)
    rcases hchar with ⟨c0, c1, heq, -⟩ | ⟨c0, c1, c2, c3, heq, -⟩
    . rw [heq] at hsize
      have htwo : 2 = n := hsize
      omega
    . rw [heq] at hsize
      have hfour : 4 = n := hsize
      omega

/--
A UTF recogniser is exact where no stray byte or unit is in front.
-/
theorem lenFirstChar_exact (form : UnicodeForm) {mstr : List UInt8} {len : Nat} (hlen : len ≤ mstr.length)
    : form.Recognises mstr len ↔ form.Regular mstr len := by
  cases form with
  | utf8 => exact utf8_recognises hlen
  | utf16 be => exact utf16_recognises be hlen

theorem lenFirstChar_exact_pair : (UnicodeForm.utf16 true).Recognises [0xD8, 0x3D, 0xDE, 0x00] 4 := by
  rw [lenFirstChar_exact (.utf16 true) (by decide)]
  intro _ b0 b1 rest heq
  cases heq
  decide

theorem lenFirstChar_exact_stray : ¬UnicodeForm.utf8.Recognises [0x80] 1 := by
  rintro ⟨r, hr, -, hexact⟩
  have hone : r = 1 := (Option.some.inj hr).symm
  obtain ⟨lead, rest, heq, hlead, -⟩ := ((hexact 1 (by decide)).mp hone).2
  cases heq
  revert hlead
  unfold IsLead
  decide

end MiniGui
