import MiniGui.Font.SegmentsExact
import MiniGui.Font.UnicodeRoundTrip
import MiniGui.Font.WcsResume

namespace MiniGui

open List

theorem utf8ConvFromUc32_le (wc : Nat) : (utf8ConvFromUc32 wc).length ≤ 6 := by
  have hclass : (utf8Class wc).2 ≤ 6 := by
    unfold utf8Class
    split_ifs
    all_goals decide
  obtain ⟨bytes, hlen, -, hencode, -⟩ := utf8Encode_spec ((utf8Class wc).2 - 1) wc []
  unfold utf8ConvFromUc32
  dsimp only
  rw [hencode, length_cons, append_nil, hlen]
  omega

theorem utf8_read {wc : Nat} (h : wc < 2 ^ 31)
    : let bytes := utf8ConvFromUc32 wc
      bytes ≠ [] ∧ (∀ more, utf8ConvToUc32 (bytes ++ more) = some wc)
        ∧ ∀ more, utf8LenFirstChar (bytes ++ more) (bytes ++ more).length = some bytes.length := by
  have htrips := utf8_roundTrips emptyMaps h
  refine ⟨htrips.nonempty, ?_, ?_⟩
  . intro more
    obtain ⟨value, hvalue, heq⟩ := Option.map_eq_some_iff.mp (htrips.decoded more)
    rw [Int.ofNat.inj heq] at hvalue
    exact hvalue
  . intro more
    exact htrips.recognised more _ (by rw [length_append]; exact Nat.le_add_right _ _) (Nat.le_refl _)

/--
The functions of a UTF-8 font. A character has 8 bytes at most, and no loop asks for one behind the last byte.
-/
def utf8Conv : CharsetConv where
  convToUc32 mstr := .ofNat ((utf8ConvToUc32 ((range 8).map mstr)).getD 0)
  convFromUc32 uc32 := utf8ConvFromUc32 uc32.toNat
  convFromUc32_le uc32 := (utf8ConvFromUc32_le uc32.toNat).trans (by decide)

def utf8Devfont (mbc : MbcFont) : MbcFont :=
  { mbc with
    lenFirstChar := fun mstr len => (utf8LenFirstChar ((range len.toNat).map mstr) len.toNat).getD 0
    lenFirstChar_le := by
      intro mstr len hlen
      obtain ⟨n, rfl⟩ := Int.eq_ofNat_of_zero_le hlen
      have hlength : ((range n).map mstr).length = n := by simp
      rw [Int.toNat_natCast]
      generalize (range n).map mstr = text at hlength
      cases hlength
      cases text with
      | nil => exact Int.le_refl 0
      | cons c rest =>
        obtain ⟨k, hk, hle⟩ := utf8LenFirstChar_length (cons_ne_nil c rest)
        rw [hk]
        exact Int.ofNat_le.mpr hle }

theorem Memory.map_range {mstr : Memory} {bytes : List UInt8} {n : Nat} (hn : bytes.length ≤ n)
    (hmstr : ∀ i < bytes.length, mstr i = bytes.getD i 0) : ∃ more, (range n).map mstr = bytes ++ more := by
  obtain ⟨more, rfl⟩ := Nat.exists_eq_add_of_le hn
  refine ⟨((range more).map (bytes.length + ·)).map mstr, ?_⟩
  rw [range_add, map_append]
  congr 1
  refine ext_getElem (by simp) fun i hi hi' => ?_
  rw [getElem_map, getElem_range, hmstr i hi', getD_eq_getElem _ _ hi']

namespace ConvFont

def withUtf8 (font : ConvFont) (mbc : MbcFont) : ConvFont :=
  { font with mbcDevfont := some (utf8Devfont mbc), mbcConv := utf8Conv }

variable {font : ConvFont} {wcs : Nat → UInt32} {pos n limit : Nat} {bytes : List UInt8}

/--
Wherever the bytes of a character stand, it is read back from them.
-/
structure Trips (font : ConvFont) (uc32 : UInt32) : Prop where
  ne_zero : uc32 ≠ 0
  ne_nil : font.multiBytes uc32 ≠ []
  read : ∀ (mstr : Memory) (left : Int) (count : Nat), (font.multiBytes uc32).length ≤ left →
    (∀ i < (font.multiBytes uc32).length, mstr i = (font.multiBytes uc32).getD i 0) →
    mstr 0 ≠ 0 ∧ font.nextChar mstr left count = some ((font.multiBytes uc32).length, uc32)

variable (htrips : ∀ i < pos, font.Trips (wcs i))

include htrips

theorem exists_bytesTo : ∃ bytes, font.BytesTo wcs pos bytes := by
  induction pos generalizing wcs with
  | zero => exact ⟨[], .nil wcs⟩
  | succ pos ih =>
    have hfirst := htrips 0 (Nat.succ_pos pos)
    obtain ⟨bytes, hto⟩ := ih fun i hi => htrips (i + 1) (Nat.succ_lt_succ hi)
    exact ⟨_, .cons hfirst.ne_zero hfirst.ne_nil hto⟩

theorem charsTo_of_trips (hto : font.BytesTo wcs pos bytes) (mstr : Memory) (left : Int) (count : Nat)
    (hleft : bytes.length ≤ left) (hmstr : ∀ i < bytes.length, mstr i = bytes.getD i 0)
    : font.CharsTo mstr left count bytes.length ((range pos).map wcs) := by
  induction hto generalizing mstr left count with
  | nil => exact .nil mstr left count
  | @cons wcs pos bytes hne hbytes rest ih =>
    have hpos := length_pos_iff.mpr hbytes
    rw [length_append] at hleft hmstr ⊢
    rw [range_succ_eq_map, map_cons, map_map]
    have hfirst := (htrips 0 (Nat.succ_pos pos)).read mstr left count (by omega) fun i hi => by
      rw [hmstr i (by omega), getD_append _ _ _ _ hi]
    refine .cons (by omega) hfirst.1 hfirst.2 (ih ?_ _ _ _ (by omega) ?_)
    . exact fun i hi => htrips (i + 1) (Nat.succ_lt_succ hi)
    . intro i hi
      rw [Memory.advance, hmstr _ (by omega), getD_append_right _ _ _ _ (by omega), Nat.add_sub_cancel_left]

theorem mbs2wcsEx_of_trips (hzero : wcs pos = 0) (hn : 16 * pos ≤ n) (hlimit : pos < limit) (wc32 : Bool)
    : let bytes := (font.wcs2mbsEx wcs (pos + 1) n).bytes
      font.mbs2wcsEx wc32 (fun i => bytes.getD i 0) (bytes.length + 1) limit
        = ⟨(range pos).map (stored wc32 ∘ wcs), true, bytes.length + 1, bytes.length⟩ := by
  obtain ⟨bytes, hto⟩ := exists_bytesTo htrips
  rw [(wcs2mbsEx_zero hto hzero (Nat.lt_succ_self pos) hn).1]
  dsimp only
  have hchars := charsTo_of_trips htrips hto (fun i => bytes.getD i 0) (bytes.length + 1 : Nat) 0 (by omega) fun _ _ => rfl
  have hnul : bytes.getD bytes.length 0 = 0 := getD_eq_default _ _ (Nat.le_refl _)
  have hloop : font.mbsLoop wc32 limit (bytes.length + 1) (fun i => bytes.getD i 0) (bytes.length + 1 : Nat) 0
      = ((range pos).map (stored wc32 ∘ wcs), bytes.length) := by
    rw [mbsLoop_append hchars _ (by omega) (.inr (by simp [hlimit])), mbsLoop_nul _ _ _ hnul]
    simp
  rw [mbs2wcsEx_nul hloop hnul]
  simp [hlimit]

omit htrips

theorem trips_utf8 (mbc : MbcFont) {uc32 : UInt32} (hne : uc32 ≠ 0) (h : uc32.toNat < 2 ^ 31)
    : (font.withUtf8 mbc).Trips uc32 := by
  have hle := utf8ConvFromUc32_le uc32.toNat
  obtain ⟨hnil, hdecoded, hfirst⟩ := utf8_read h
  have hbytes : (font.withUtf8 mbc).multiBytes uc32 = utf8ConvFromUc32 uc32.toNat := by
    unfold multiBytes
    exact ite_eq_right_iff.mpr fun heq => absurd heq hnil
  generalize utf8ConvFromUc32 uc32.toNat = bytes at *
  refine ⟨hne, by rwa [hbytes], ?_⟩
  rw [hbytes]
  intro mstr left count hleft hmstr
  obtain ⟨more, hmore⟩ := Memory.map_range (hle.trans (by decide : 6 ≤ 8)) hmstr
  have hdecode : utf8ConvToUc32 ((range 8).map mstr) = some uc32.toNat := by
    rw [hmore, hdecoded]
  have hconv : (font.withUtf8 mbc).mbcConv.convToUc32 mstr = uc32 := by
    unfold withUtf8 utf8Conv
    dsimp only
    rw [hdecode, Option.getD_some, UInt32.ofNat_toNat]
  constructor
  . intro hzero
    apply hne
    apply UInt32.toNat_inj.mp
    rw [utf8ConvToUc32, show ((range 8).map mstr)[0]? = some (mstr 0) from rfl, hzero] at hdecode
    exact (Option.some.inj hdecode).symm
  have hlen : (font.withUtf8 mbc).mbcLenFirstChar mstr left = bytes.length := by
    obtain ⟨more, hmore⟩ := Memory.map_range (show bytes.length ≤ left.toNat by omega) hmstr
    have hlength := congrArg length hmore
    rw [length_map, length_range] at hlength
    unfold withUtf8 LogFont.mbcLenFirstChar utf8Devfont
    dsimp only
    rw [hmore, hlength, hfirst, Option.getD_some]
  rw [nextChar, hlen, hconv]
  exact if_pos (length_pos_iff.mpr hnil)

/--
A text that `WCS2MBSEx` converts to UTF-8 with its terminator comes back from `MBS2WCSEx`.
-/
theorem mbs2wcsEx_wcs2mbsEx (mbc : MbcFont) (hchars : ∀ i < pos, wcs i ≠ 0 ∧ (wcs i).toNat < 2 ^ 31)
    (hzero : wcs pos = 0) (hn : 16 * pos ≤ n) (hlimit : pos < limit) (wc32 : Bool)
    : let bytes := ((font.withUtf8 mbc).wcs2mbsEx wcs (pos + 1) n).bytes
      (font.withUtf8 mbc).mbs2wcsEx wc32 (fun i => bytes.getD i 0) (bytes.length + 1) limit
        = ⟨(range pos).map (stored wc32 ∘ wcs), true, bytes.length + 1, bytes.length⟩ :=
  mbs2wcsEx_of_trips (fun i hi => trips_utf8 mbc (hchars i hi).1 (hchars i hi).2) hzero hn hlimit wc32

theorem mbs2wcsEx_wcs2mbsEx_euros
    : let font := latin1Font.withUtf8
        ⟨fun _ _ => 0, fun _ _ => 0, fun _ _ => 0, fun _ _ => ⟨0, 0, 0⟩, fun _ _ h => h⟩
      let bytes := (font.wcs2mbsEx (fun i => if i < 2 then 0x20AC else 0) 3 32).bytes
      font.mbs2wcsEx true (fun i => bytes.getD i 0) (bytes.length + 1) 3
        = ⟨(range 2).map (stored true ∘ fun i => if i < 2 then 0x20AC else 0), true, bytes.length + 1, bytes.length⟩ := by
  refine mbs2wcsEx_wcs2mbsEx _ ?_ rfl (by decide) (by decide) true
  intro i hi
  rw [if_pos hi]
  decide

end ConvFont

end MiniGui
