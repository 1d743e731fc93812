import MiniGui.Font.UnicodeChars

namespace MiniGui

open List Option

open UInt8 (ofNat toNat_ofNat')

inductive Encoding where
  | utf8
  | utf16 (be : Bool)
  | gb18030
deriving DecidableEq, Repr

namespace Encoding

def charset : Encoding → Charset
  | .utf8 => .utf8
  | .utf16 false => .utf16le
  | .utf16 true => .utf16be
  | .gb18030 => .gb18030

def InDomain : Encoding → Nat → Prop
  | .utf8, wc => wc < 2 ^ 31
  | .utf16 _, wc => wc ≤ 0x10FFFF ∧ ¬(0xD800 ≤ wc ∧ wc ≤ 0xDFFF)
  | .gb18030, wc => 0x10000 ≤ wc ∧ wc ≤ 0x10FFFF

def convFromUc32 (maps : Gb18030Maps) : Encoding → Nat → List UInt8
  | .utf8, wc => utf8ConvFromUc32 wc
  | .utf16 be, wc => utf16ConvFromUc32 be wc
  | .gb18030, wc => gb18030ConvFromUc32 maps wc

def convToUc32 (maps : Gb18030Maps) : Encoding → List UInt8 → Option Int
  | .utf8, mchar => (utf8ConvToUc32 mchar).map Int.ofNat
  | .utf16 be, mchar => (utf16ConvToUc32 be mchar).map Int.ofNat
  | .gb18030, mchar => gb18030ConvToUc32 maps mchar

theorem convFromUc32_utf16 (maps : Gb18030Maps) (be : Bool) (wc : Nat)
    : (Encoding.utf16 be).convFromUc32 maps wc = utf16ConvFromUc32 be wc := by
  unfold convFromUc32
  rfl

theorem convFromUc32_gb18030 (maps : Gb18030Maps) (wc : Nat)
    : Encoding.gb18030.convFromUc32 maps wc = gb18030ConvFromUc32 maps wc := by
  unfold convFromUc32
  rfl

theorem convToUc32_utf16 (maps : Gb18030Maps) (be : Bool) (mchar : List UInt8)
    : (Encoding.utf16 be).convToUc32 maps mchar = (utf16ConvToUc32 be mchar).map Int.ofNat := by
  unfold convToUc32
  rfl

structure RoundTrips (maps : Gb18030Maps) (enc : Encoding) (wc : Nat) : Prop where
  nonempty : enc.convFromUc32 maps wc ≠ []
  recognised : ∀ more len, (enc.convFromUc32 maps wc).length ≤ len → len ≤ (enc.convFromUc32 maps wc ++ more).length →
    lenFirstChar enc.charset (enc.convFromUc32 maps wc ++ more) len = some (enc.convFromUc32 maps wc).length
  decoded : ∀ more, enc.convToUc32 maps (enc.convFromUc32 maps wc ++ more) = some (wc : Int)
  encoded : ∀ value, enc.convToUc32 maps (enc.convFromUc32 maps wc) = some value →
    enc.convFromUc32 maps value.toNat = enc.convFromUc32 maps wc

end Encoding

theorem encoded_of_decoded {maps : Gb18030Maps} {enc : Encoding} {wc : Nat}
    (hdecode : ∀ more, enc.convToUc32 maps (enc.convFromUc32 maps wc ++ more) = some (wc : Int)) (value : Int)
    (hvalue : enc.convToUc32 maps (enc.convFromUc32 maps wc) = some value)
    : enc.convFromUc32 maps value.toNat = enc.convFromUc32 maps wc := by
  have hsame := hdecode []
  rw [append_nil, hvalue] at hsame
  rw [Option.some.inj hsame, Int.toNat_natCast]

theorem utf8Decode_snoc {n : Nat} {bytes : List UInt8} (h : bytes.length = n) (hi : Nat) (t : UInt8) (more : List UInt8)
    : utf8Decode (n + 1) hi (bytes ++ t :: more)
        = (utf8Decode n hi (bytes ++ t :: more)).map fun wc => wc <<< 6 ||| t.toNat &&& 0x3F := by
  induction bytes generalizing n hi with
  | nil =>
    cases h
    rfl
  | cons b bytes ih =>
    obtain ⟨m, rfl⟩ : ∃ m, n = m + 1 := ⟨bytes.length, by rw [← h]; rfl⟩
    have hrest := ih (Nat.succ.inj h) (hi <<< 6 ||| b.toNat &&& 0x3F)
    unfold utf8Decode
    simp only [cons_append, getElem?_cons_zero, bind_some, drop_one, tail_cons]
    exact hrest

theorem continuation_six : ∀ d : Fin 64, (ofNat (d.val ||| 0x80)).toNat = d.val + 0x80
    ∧ (ofNat (d.val ||| 0x80)).toNat &&& 0x3F = d.val := by
  decide +kernel

theorem utf8Encode_spec (n wc : Nat) (mchar : List UInt8)
    : ∃ bytes, bytes.length = n ∧ (∀ t ∈ bytes, IsContinuation t) ∧ utf8Encode n wc mchar = (wc / 64 ^ n, bytes ++ mchar)
        ∧ ∀ hi more, utf8Decode n hi (bytes ++ more) = some (hi * 64 ^ n + wc % 64 ^ n) := by
  induction n generalizing wc mchar with
  | zero =>
    refine ⟨[], rfl, ?_, ?_, ?_⟩
    . intro t ht
      cases ht
    . simp [utf8Encode]
    . intro hi more
      simp [utf8Decode, Nat.mod_one]
  | succ n ih =>
    have hdigit : wc &&& 0x3F = wc % 64 := Nat.and_two_pow_sub_one_eq_mod wc 6
    have hshift : wc >>> 6 = wc / 64 := Nat.shiftRight_eq_div_pow wc 6
    have hbyte := continuation_six ⟨wc % 64, Nat.mod_lt _ (by decide)⟩
    dsimp only at hbyte
    obtain ⟨bytes, hlen, hcont, hencode, hdecode⟩ := ih (wc / 64) (ofNat (wc % 64 ||| 0x80) :: mchar)
    refine ⟨bytes ++ [ofNat (wc % 64 ||| 0x80)], ?_, ?_, ?_, ?_⟩
    . rw [length_append, hlen]
      rfl
    . intro t ht
      rw [mem_append, mem_singleton] at ht
      cases ht with
      | inl hmem => exact hcont t hmem
      | inr heq =>
        have hlt := Nat.mod_lt wc (show 64 > 0 by decide)
        rw [heq]
        unfold IsContinuation
        omega
    . unfold utf8Encode
      rw [hshift, hdigit, hencode, Nat.div_div_eq_div_mul, append_assoc, Nat.pow_succ']
      rfl
    intro hi more
    rw [append_assoc, singleton_append, utf8Decode_snoc hlen, hdecode, map_some, hbyte.2]
    congr 1
    have hlt := Nat.mod_lt wc (show 64 > 0 by decide)
    have hpow : 64 ^ (n + 1) = 64 * 64 ^ n := Nat.pow_succ'
    have hmod : wc % (64 * 64 ^ n) = wc % 64 + 64 * (wc / 64 % 64 ^ n) := Nat.mod_mul
    rw [← Nat.shiftLeft_add_eq_or_of_lt (by omega), Nat.shiftLeft_eq, hpow, hmod]
    ring

theorem utf8_lead : ∀ cls ∈ [(0xC0, 2, 32), (0xE0, 3, 16), (0xF0, 4, 8), (0xF8, 5, 4), (0xFC, 6, 2)], ∀ r < cls.2.2,
    0x80 ≤ (ofNat (r ||| cls.1)).toNat ∧ leadBits (ofNat (r ||| cls.1)).toNat 8 1 = cls.2.1
      ∧ (ofNat (r ||| cls.1)).toNat &&& 0x80 ≠ 0
      ∧ (ofNat (r ||| cls.1)).toNat &&& ((1 <<< (8 - cls.2.1)) - 1) = r := by
  decide +kernel

theorem utf8_ascii : ∀ c : Fin 0x80, (ofNat (c.val ||| 0)).toNat = c.val ∧ c.val &&& 0x80 = 0 := by
  decide +kernel

variable {wc : Nat}

theorem utf8Class_cases (h : wc < 2 ^ 31) : (wc < 0x80 ∧ utf8Class wc = (0, 1))
      ∨ ∃ first n bound, (first, n + 1, bound) ∈ [(0xC0, 2, 32), (0xE0, 3, 16), (0xF0, 4, 8), (0xF8, 5, 4), (0xFC, 6, 2)]
          ∧ utf8Class wc = (first, n + 1) ∧ wc / 64 ^ n < bound := by
  unfold utf8Class
  by_cases h1 : wc < 0x80
  . exact .inl ⟨h1, if_pos h1⟩
  right
  rw [if_neg h1]
  by_cases h2 : wc < 0x800
  . exact ⟨0xC0, 1, 32, by decide, if_pos h2, by omega⟩
  rw [if_neg h2]
  by_cases h3 : wc < 0x10000
  . exact ⟨0xE0, 2, 16, by decide, if_pos h3, by omega⟩
  rw [if_neg h3]
  by_cases h4 : wc < 0x200000
  . exact ⟨0xF0, 3, 8, by decide, if_pos h4, by omega⟩
  rw [if_neg h4]
  by_cases h5 : wc < 0x400000
  . exact ⟨0xF8, 4, 4, by decide, if_pos h5, by omega⟩
  . rw [if_neg h5]
    exact ⟨0xFC, 5, 2, by decide, rfl, by omega⟩

theorem utf8_roundTrips (maps : Gb18030Maps) (h : wc < 2 ^ 31) : Encoding.utf8.RoundTrips maps wc := by
  cases utf8Class_cases h with
  | inl hascii =>
    have hbyte := utf8_ascii ⟨wc, hascii.1⟩
    dsimp only at hbyte
    have hencode : Encoding.utf8.convFromUc32 maps wc = [ofNat (wc ||| 0)] := by
      unfold Encoding.convFromUc32 utf8ConvFromUc32
      dsimp only
      rw [hascii.2]
      rfl
    have hdecode : ∀ more, Encoding.utf8.convToUc32 maps (Encoding.utf8.convFromUc32 maps wc ++ more) = some
      (wc : Int) := by
      intro more
      rw [hencode]
      unfold Encoding.convToUc32 utf8ConvToUc32
      dsimp only
      rw [singleton_append, getElem?_cons_zero, bind_some, hbyte.1, if_neg (by rw [hbyte.2]; decide)]
      rfl
    refine ⟨by rw [hencode]; exact cons_ne_nil _ _, ?_, hdecode, encoded_of_decoded hdecode⟩
    intro more len hle hlen
    rw [hencode] at hle hlen ⊢
    unfold lenFirstChar Encoding.charset
    dsimp only
    rw [singleton_append] at hlen ⊢
    rw [utf8LenFirstChar_eq hlen, if_pos (by rw [hbyte.1]; exact hascii.1)]
    rfl
  | inr hclass =>
    obtain ⟨first, n, bound, hmem, hclass, hbound⟩ := hclass
    obtain ⟨bytes, hlen, hcont, hencoded, hdecoded⟩ := utf8Encode_spec n wc []
    have hlead := utf8_lead _ hmem (wc / 64 ^ n) hbound
    dsimp only at hlead
    generalize hbyte : ofNat (wc / 64 ^ n ||| first) = lead at hlead
    have hencode : Encoding.utf8.convFromUc32 maps wc = lead :: bytes := by
      unfold Encoding.convFromUc32 utf8ConvFromUc32
      dsimp only
      rw [hclass]
      dsimp only
      rw [Nat.add_sub_cancel, hencoded]
      dsimp only
      rw [hbyte, append_nil]
    have hdecode : ∀ more, Encoding.utf8.convToUc32 maps (Encoding.utf8.convFromUc32 maps wc ++ more) = some
      (wc : Int) := by
      intro more
      rw [hencode]
      unfold Encoding.convToUc32 utf8ConvToUc32
      dsimp only
      rw [cons_append, getElem?_cons_zero, bind_some, if_pos hlead.2.2.1, hlead.2.1, hlead.2.2.2,
        Nat.add_sub_cancel, drop_one, tail_cons, hdecoded, Nat.div_add_mod']
      rfl
    refine ⟨by rw [hencode]; exact cons_ne_nil _ _, ?_, hdecode, encoded_of_decoded hdecode⟩
    intro more len hle hlen'
    rw [hencode, length_cons, hlen] at hle
    rw [hencode, cons_append, length_cons] at hlen'
    rw [hencode, length_cons, hlen]
    unfold lenFirstChar Encoding.charset
    dsimp only
    have hcontinues : Continues n (bytes ++ more) := by
      unfold Continues
      rw [← hlen, take_left]
      exact hcont
    rw [cons_append, utf8LenFirstChar_eq hlen', if_neg (by omega), hlead.2.1, if_pos ⟨hle, hcontinues⟩]

theorem utf16Unit_bytes (be : Bool) {w : Nat} (h : w < 0x10000)
    : ∃ b0 b1, utf16Bytes be w = [b0, b1] ∧ utf16Unit be b0 b1 = w := by
  have hword : makeWord (ofNat w) (ofNat (w >>> 8)) = w := by
    unfold makeWord
    rw [toNat_ofNat', toNat_ofNat', Nat.lor_comm,
      ← Nat.shiftLeft_add_eq_or_of_lt (Nat.mod_lt _ (by decide)), Nat.shiftLeft_eq, Nat.shiftRight_eq_div_pow]
    omega
  cases be with
  | false | true => exact ⟨_, _, rfl, hword⟩

theorem utf16_roundTrips (maps : Gb18030Maps) (be : Bool) (h : wc < 0x10000)
    (hchar : ¬(0xD800 ≤ wc ∧ wc ≤ 0xDFFF)) : (Encoding.utf16 be).RoundTrips maps wc := by
  obtain ⟨b0, b1, hbytes, hunit⟩ := utf16Unit_bytes be h
  have hencode : (Encoding.utf16 be).convFromUc32 maps wc = [b0, b1] := by
    unfold Encoding.convFromUc32 utf16ConvFromUc32
    dsimp only
    rw [if_neg (by omega), if_pos h, hbytes]
  have hdecode : ∀ more, (Encoding.utf16 be).convToUc32 maps ((Encoding.utf16 be).convFromUc32 maps wc ++ more) = some (wc : Int) := by
    intro more
    rw [hencode]
    unfold Encoding.convToUc32 utf16ConvToUc32
    simp only [cons_append, getElem?_cons_zero, getElem?_cons_succ, bind_some]
    rw [hunit, if_pos (by omega)]
    rfl
  have hcharset : lenFirstChar (Encoding.utf16 be).charset = utf16LenFirstChar be := by
    cases be <;> rfl
  refine ⟨by rw [hencode]; exact cons_ne_nil _ _, ?_, hdecode, encoded_of_decoded hdecode⟩
  intro more len hle _
  rw [hencode] at hle ⊢
  rw [hcharset, cons_append, cons_append, utf16LenFirstChar_eq be hle, hunit, if_neg, if_neg]
  . rfl
  . unfold IsHighSurrogate
    omega
  . unfold IsLowSurrogate
    omega

theorem surrogates_join {hi lo : Nat} (hhi : hi < 2 ^ 10) (hlo : lo < 2 ^ 10)
    : 0xD800 ||| hi = 0xD800 + hi ∧ 0xDC00 ||| lo = 0xDC00 + lo
      ∧ 0x10FFFF < (0xD800 + hi) <<< 10 ||| (0xDC00 + lo) &&& 0x03FF := by
  have h1 := Nat.two_pow_add_eq_or_of_lt hhi 54
  have h2 := Nat.two_pow_add_eq_or_of_lt hlo 55
  norm_num at h1 h2
  refine ⟨h1.symm, h2.symm, ?_⟩
  apply Nat.lt_of_lt_of_le _ Nat.left_le_or
  rw [Nat.shiftLeft_eq]
  apply Nat.lt_of_lt_of_le _ (Nat.mul_le_mul_right (2 ^ 10) (Nat.le_add_right 0xD800 hi))
  norm_num

theorem utf16ConvFromUc32_pair (be : Bool) (hlow : 0x10000 ≤ wc) (hhigh : wc ≤ 0x10FFFF)
    : ∃ hi lo, hi < 2 ^ 10 ∧ lo < 2 ^ 10
        ∧ utf16ConvFromUc32 be wc = utf16Bytes be (0xD800 ||| hi) ++ utf16Bytes be (0xDC00 ||| lo) := by
  refine ⟨(wc - 0x10000) >>> 10, (wc - 0x10000) &&& 0x03FF, ?_, ?_, ?_⟩
  . rw [Nat.shiftRight_eq_div_pow]
    omega
  . exact Nat.lt_of_le_of_lt Nat.and_le_right (by decide)
  . unfold utf16ConvFromUc32
    rw [if_neg (by omega), if_neg (by omega)]

theorem utf16_pair (maps : Gb18030Maps) (be : Bool) (hlow : 0x10000 ≤ wc) (hhigh : wc ≤ 0x10FFFF)
    : ¬(Encoding.utf16 be).RoundTrips maps wc := by
  intro htrips
  obtain ⟨hi, lo, hhi, hlo, hconv⟩ := utf16ConvFromUc32_pair be hlow hhigh
  obtain ⟨hw1, hw2, hbig⟩ := surrogates_join hhi hlo
  rw [hw1, hw2] at hconv
  have hunits : 0xD800 + hi < 0x10000 ∧ 0xDC00 + lo < 0x10000 := by omega
  obtain ⟨b0, b1, hfirst, hunit1⟩ := utf16Unit_bytes be hunits.1
  obtain ⟨b2, b3, hsecond, hunit2⟩ := utf16Unit_bytes be hunits.2
  rw [hfirst, hsecond] at hconv
  have hdecoded := htrips.decoded []
  rw [Encoding.convToUc32_utf16, Encoding.convFromUc32_utf16] at hdecoded
  have hsurrogate : ¬(0xD800 + hi < 0xD800 ∨ 0xD800 + hi > 0xDFFF) := by omega
  rw [hconv] at hdecoded
  unfold utf16ConvToUc32 at hdecoded
  simp only [append_nil, cons_append, nil_append, getElem?_cons_zero, getElem?_cons_succ,
    bind_some] at hdecoded
  rw [hunit1, if_neg hsurrogate, map_some, hunit2] at hdecoded
  generalize (0xD800 + hi) <<< 10 ||| (0xDC00 + lo) &&& 0x03FF = joined at hbig hdecoded
  have hvalue : joined + 0x10000 = wc := Int.ofNat.inj (Option.some.inj hdecoded)
  have hover : 0x10FFFF < wc := by
    rw [← hvalue]
    exact Nat.lt_of_lt_of_le hbig (Nat.le_add_right _ _)
  exact Nat.not_le_of_lt hover hhigh

theorem gb18030_quad {m1 m2 m3 m4 : Nat} (h1 : m1 < 84) (h2 : m2 < 10) (h3 : m3 < 126) (h4 : m4 < 10)
    : (ofNat (m1 + 144)).toNat = m1 + 144 ∧ (ofNat (m2 + 48)).toNat = m2 + 48
      ∧ (ofNat (m3 + 129)).toNat = m3 + 129 ∧ (ofNat (m4 + 48)).toNat = m4 + 48 := by
  refine ⟨?_, ?_, ?_, ?_⟩ <;> rw [toNat_ofNat'] <;> omega

theorem gb18030ConvFromUc32_quad (maps : Gb18030Maps) (hlow : 0x10000 ≤ wc) (hhigh : wc ≤ 0x10FFFF)
    : ∃ b0 b1 b2 b3 : UInt8, gb18030ConvFromUc32 maps wc = [b0, b1, b2, b3]
        ∧ ∃ m1 m2 m3 m4, b0.toNat = m1 + 144 ∧ b1.toNat = m2 + 48 ∧ b2.toNat = m3 + 129 ∧ b3.toNat = m4 + 48
          ∧ m1 < 84 ∧ m2 < 10 ∧ m3 < 126 ∧ m4 < 10 ∧ m1 * 12600 + m2 * 1260 + m3 * 10 + m4 + 65536 = wc := by
  have hconv : gb18030ConvFromUc32 maps wc = [ofNat ((wc - 65536) / 12600 + 144),
      ofNat ((wc - 65536) % 12600 / 1260 + 48), ofNat ((wc - 65536) % 12600 % 1260 / 10 + 129),
      ofNat ((wc - 65536) % 12600 % 1260 % 10 + 48)] := by
    unfold gb18030ConvFromUc32
    rw [if_neg (by omega), if_pos ⟨hlow, hhigh⟩]
  have hrange : wc - 65536 < 1058400 := by omega
  have hback : wc - 65536 + 65536 = wc := by omega
  generalize wc - 65536 = offset at hconv hrange hback
  have hbytes := @gb18030_quad (offset / 12600) (offset % 12600 / 1260) (offset % 12600 % 1260 / 10)
    (offset % 12600 % 1260 % 10) (by omega) (by omega) (by omega) (by omega)
  refine ⟨_, _, _, _, hconv, _, _, _, _, hbytes.1, hbytes.2.1, hbytes.2.2.1, hbytes.2.2.2, ?_⟩
  omega

theorem gb18030_roundTrips (maps : Gb18030Maps) (hlow : 0x10000 ≤ wc) (hhigh : wc ≤ 0x10FFFF)
    : Encoding.gb18030.RoundTrips maps wc := by
  obtain ⟨b0, b1, b2, b3, hencode, m1, m2, m3, m4, h0, h1, h2, h3, hm1, hm2, hm3, hm4, hwc⟩ :=
    gb18030ConvFromUc32_quad maps hlow hhigh
  have hquad : b0 ≥ 0x90 ∧ b1 < 0x40 := by
    rw [ge_iff_le, UInt8.le_iff_toNat_le, UInt8.lt_iff_toNat_lt]
    have h90 : (0x90 : UInt8).toNat = 0x90 := rfl
    have h40 : (0x40 : UInt8).toNat = 0x40 := rfl
    omega
  have hdecode : ∀ more, Encoding.gb18030.convToUc32 maps (Encoding.gb18030.convFromUc32 maps wc ++ more) = some
    (wc : Int) := by
    intro more
    rw [Encoding.convFromUc32_gb18030, hencode]
    unfold Encoding.convToUc32 gb18030ConvToUc32
    simp only [cons_append, getElem?_cons_zero, getElem?_cons_succ, bind_some]
    rw [if_pos hquad]
    congr 1
    omega
  refine ⟨by rw [Encoding.convFromUc32_gb18030, hencode]; exact cons_ne_nil _ _, ?_, hdecode, encoded_of_decoded hdecode⟩
  intro more len hle _
  rw [Encoding.convFromUc32_gb18030, hencode] at hle ⊢
  have hfour : 4 ≤ len := hle
  unfold lenFirstChar Encoding.charset gb18030LenFirstChar
  simp only [cons_append, getElem?_cons_zero, getElem?_cons_succ, bind_some]
  have hzero : b0 ≠ 0 := by
    intro h0
    have h00 : b0.toNat = 0 := by
      rw [h0]
      rfl
    omega
  have hgbk : isGbkChar b0 b1 = false := by
    unfold isGbkChar
    have h40 : ¬b1 ≥ 0x40 := by
      rw [ge_iff_le, UInt8.not_le]
      exact hquad.2
    simp [h40]
  have hchar : isGb18030Quad b0 b1 b2 b3 = true := by
    unfold isGb18030Quad
    simp only [Bool.and_eq_true, decide_eq_true_eq, ge_iff_le, UInt8.le_iff_toNat_le]
    have h30 : (0x30 : UInt8).toNat = 0x30 := rfl
    have h39 : (0x39 : UInt8).toNat = 0x39 := rfl
    have h81 : (0x81 : UInt8).toNat = 0x81 := rfl
    have hfe : (0xFE : UInt8).toNat = 0xFE := rfl
    omega
  rw [if_neg (by omega), if_neg hzero, hgbk, if_neg Bool.false_ne_true, if_neg (by omega), hchar, if_pos rfl]
  rfl

/--
Every code point of an encoding round-trips, but for the surrogate pairs of UTF-16.
-/
theorem conv_roundTrips (maps : Gb18030Maps) (enc : Encoding) {wc : Nat} (h : enc.InDomain wc)
    : enc.RoundTrips maps wc ↔ ¬((∃ be, enc = .utf16 be) ∧ 0x10000 ≤ wc) := by
  cases enc with
  | utf8 =>
    constructor
    . rintro - ⟨⟨be, heq⟩, -⟩
      cases heq
    . intro _
      exact utf8_roundTrips maps h
  | utf16 be =>
    constructor
    . rintro htrips ⟨-, hlow⟩
      exact utf16_pair maps be hlow h.1 htrips
    intro hsmall
    apply utf16_roundTrips maps be _ h.2
    by_contra hlow
    exact hsmall ⟨⟨be, rfl⟩, by omega⟩
  | gb18030 =>
    constructor
    . rintro - ⟨⟨be, heq⟩, -⟩
      cases heq
    . intro _
      exact gb18030_roundTrips maps h.1 h.2

def emptyMaps : Gb18030Maps := ⟨fun _ => 0, fun _ => []⟩

theorem conv_roundTrips_euro : Encoding.utf8.RoundTrips emptyMaps 0x20AC := by
  rw [conv_roundTrips emptyMaps .utf8 (show 0x20AC < 2 ^ 31 by decide)]
  rintro ⟨⟨be, heq⟩, -⟩
  cases heq

theorem conv_roundTrips_pair : ¬(Encoding.utf16 false).RoundTrips emptyMaps 0x10000 := by
  intro htrips
  have hdecoded := htrips.decoded []
  revert hdecoded
  decide

end MiniGui
