import MiniGui.Mybmp.BmpSafety
import MiniGui.Mybmp.BmpSave

namespace MiniGui

open List

theorem putWord_append (x : BitVec 16) : (x >>> 8).truncate 8 ++ (x.truncate 8 : Byte) = x := by
  ext i hi
  rw [BitVec.getElem_append]
  split
  next h =>
    simp [BitVec.getLsbD_eq_getElem hi]
  next h =>
    have hadd : 8 + (i - 8) = i := by omega
    simp [hadd, hi]

theorem putDword_append (x : BitVec 32)
    : ((x >>> 24).truncate 8 : Byte) ++ ((x >>> 16).truncate 8 : Byte) ++ ((x >>> 8).truncate 8 : Byte)
        ++ (x.truncate 8 : Byte) = x := by
  ext i hi
  simp only [BitVec.getElem_append]
  split
  next h =>
    simp [BitVec.getLsbD_eq_getElem hi]
  next h =>
    split
    next h =>
      have hadd : 8 + (i - 8) = i := by omega
      simp [hadd, hi]
    next h =>
      split
      next h =>
        have hadd : 16 + (i - 8 - 8) = i := by omega
        simp [hadd, hi]
      next h =>
        have hadd : 24 + (i - 8 - 8 - 8) = i := by omega
        simp [hadd, hi]

section Reading

structure Area.Holds (area : Area) (l : List Byte) : Prop where
  rest_eq : area.rest = l
  here_le : area.here ≤ area.bytes.length

variable {area : Area} {l l' : List Byte}

theorem rwRead_holds {size n : Nat} (h : area.Holds (l ++ l')) (hsize : 0 < size) (hlen : l.length = n * size)
    : (rwRead area size n).1 = l ∧ (rwRead area size n).2.Holds l' := by
  have hcopied : (rwRead area size n).1 = l := by
    unfold rwRead
    split
    . have hmany : n ≤ area.rest.length / size := by
        rw [Nat.le_div_iff_mul_le hsize, h.rest_eq, length_append]
        omega
      rw [Nat.min_eq_left hmany, h.rest_eq, ← hlen, take_left]
    . rw [h.rest_eq, ← hlen, take_left]
  have harea : (rwRead area size n).2 = { area with here := area.here + l.length } := by
    rw [← hcopied]
    rfl
  refine ⟨hcopied, ?_⟩
  rw [harea]
  have hlength := congrArg List.length h.rest_eq
  have hle := h.here_le
  constructor
  . unfold Area.rest
    have hrest := h.rest_eq
    unfold Area.rest at hrest
    rw [← drop_drop, hrest, drop_left]
  unfold Area.rest at hlength
  rw [length_drop, length_append] at hlength
  dsimp only
  omega

theorem getByte_holds {b : Byte} (h : area.Holds (b :: l)) : (getByte area).1 = b ∧ (getByte area).2.Holds l := by
  have hread := @rwRead_holds area [b] l 1 1 h (by omega) rfl
  have hget := getByte_cons h.rest_eq
  have harea : (getByte area).2 = (rwRead area 1 1).2 := by
    rw [hget]
    have hcopied : (rwRead area 1 1).2 = { area with here := area.here + (rwRead area 1 1).1.length } := rfl
    rw [hcopied, hread.1]
    rfl
  rw [harea, hget]
  exact ⟨rfl, hread.2⟩

theorem fpIgetw_holds {x : BitVec 16} (h : area.Holds (putWord x ++ l))
    : (fpIgetw area).1 = x ∧ (fpIgetw area).2.Holds l := by
  obtain ⟨hbytes, hrest⟩ := @rwRead_holds area _ _ 2 1 h (by omega) rfl
  unfold fpIgetw
  generalize rwRead area 2 1 = r at hbytes hrest
  obtain ⟨bytes, area'⟩ := r
  dsimp only at hbytes hrest
  rw [hbytes]
  exact ⟨putWord_append x, hrest⟩

theorem fpIgetl_holds {x : BitVec 32} (h : area.Holds (putDword x ++ l))
    : (fpIgetl area).1 = x ∧ (fpIgetl area).2.Holds l := by
  obtain ⟨hbytes, hrest⟩ := @rwRead_holds area _ _ 4 1 h (by omega) rfl
  unfold fpIgetl
  generalize rwRead area 4 1 = r at hbytes hrest
  obtain ⟨bytes, area'⟩ := r
  dsimp only at hbytes hrest
  rw [hbytes]
  exact ⟨putDword_append x, hrest⟩

theorem rwSeek_zero (h : area.Holds l) : rwSeek area 0 = area := by
  have hle := h.here_le
  unfold rwSeek
  cases area with
  | mk type bytes here uninit =>
    cases type with
    | mem =>
      dsimp only at hle ⊢
      congr 1
      omega
    | stdio =>
      rw [if_neg (by omega)]
      congr 1

theorem readBmiColors_holds {entries : List (BmpRgb × Byte)}
    (h : area.Holds ((entries.flatMap fun e => [e.1.b, e.1.g, e.1.r, e.2]) ++ l))
    : (readBmiColors entries.length area true).1 = entries.map Prod.fst
        ∧ (readBmiColors entries.length area true).2.Holds l := by
  induction entries generalizing area with
  | nil => exact ⟨rfl, h⟩
  | cons e entries ih =>
    rw [flatMap_cons] at h
    simp only [cons_append, nil_append] at h
    obtain ⟨hb, h⟩ := getByte_holds h
    obtain ⟨hg, h⟩ := getByte_holds h
    obtain ⟨hr, h⟩ := getByte_holds h
    obtain ⟨_, h⟩ := getByte_holds h
    obtain ⟨hpal, hrest⟩ := ih h
    rw [length_cons, readBmiColors]
    dsimp only
    rw [if_pos rfl, hb, hg, hr, hpal]
    exact ⟨rfl, hrest⟩

theorem savePalette_holds {pal : Nat → BmpRgb} {rgbReserved : Nat → Byte} {n : Nat}
    (h : area.Holds (savePalette pal rgbReserved n ++ l))
    : (readBmiColors n area true).1 = (range n).map pal ∧ (readBmiColors n area true).2.Holds l := by
  have hentries : savePalette pal rgbReserved n =
      ((range n).map fun i => (pal i, rgbReserved i)).flatMap fun e => [e.1.b, e.1.g, e.1.r, e.2] := by
    rw [flatMap_map]
    rfl
  rw [hentries] at h
  have hread := readBmiColors_holds h
  rw [length_map, length_range, List.map_map] at hread
  exact hread

end Reading

section Init

variable {area : Area} {l : List Byte} {bmp dst : MyBitmap} {off scanlinebytes : BitVec 32} {bitCount : BitVec 16}
variable {clrUsed : BitVec 32} {pal : Nat → BmpRgb} {rgbReserved : Nat → Byte} {n : Nat}

theorem mgInitBmp_saved
    (h : area.Holds (saveHeaders bmp off scanlinebytes bitCount clrUsed ++ (savePalette pal rgbReserved n ++ l)))
    (hoff : ((off - 40 - 14) / 4).toInt.toNat = n) : (mgInitBmp area dst).init =
          some (finishInit dst { biWidth := bmp.w, biHeight := bmp.h, biBitCount := bitCount, biCompression := biRgb })
        ∧ (mgInitBmp area dst).pal = (range n).map pal
        ∧ (mgInitBmp area dst).fp.Holds l := by
  unfold saveHeaders at h
  simp only [append_assoc] at h
  obtain ⟨htype, h⟩ := fpIgetw_holds h
  obtain ⟨_, h⟩ := fpIgetl_holds h
  obtain ⟨_, h⟩ := fpIgetw_holds h
  obtain ⟨_, h⟩ := fpIgetw_holds h
  obtain ⟨hbits, h⟩ := fpIgetl_holds h
  obtain ⟨hsize, h⟩ := fpIgetl_holds h
  obtain ⟨hwidth, h⟩ := fpIgetl_holds h
  obtain ⟨hheight, h⟩ := fpIgetl_holds h
  obtain ⟨_, h⟩ := fpIgetw_holds h
  obtain ⟨hcount, h⟩ := fpIgetw_holds h
  obtain ⟨hcomp, h⟩ := fpIgetl_holds h
  obtain ⟨_, h⟩ := fpIgetl_holds h
  obtain ⟨_, h⟩ := fpIgetl_holds h
  obtain ⟨_, h⟩ := fpIgetl_holds h
  obtain ⟨_, h⟩ := fpIgetl_holds h
  obtain ⟨_, h⟩ := fpIgetl_holds h
  unfold mgInitBmp readBmFileHeader readWinBmInfoHeader
  dsimp only
  have hforty : (40 : BitVec 32).toInt - 40 = 0 := by decide
  rw [htype, if_neg (by decide), hsize, if_pos (by decide), hforty, rwSeek_zero h, hbits, hwidth, hheight, hcount,
    hcomp, hoff]
  exact ⟨rfl, savePalette_holds h⟩

end Init

section Rows

theorem copy_mem (row : Row) (i : Nat) (l : List Byte) (a : Nat) : (row.copy i l).mem a =
        if h : row.start + i ≤ a ∧ a < row.start + i + l.length then
          l.get ⟨a - (row.start + i), by omega⟩
        else
          row.mem a := by
  induction l generalizing row i with
  | nil =>
    rw [Row.copy, dif_neg]
    rw [length_nil]
    omega
  | cons b l ih =>
    rw [Row.copy, ih]
    unfold Row.set
    dsimp only
    by_cases hfirst : a = row.start + i
    . subst hfirst
      simp
    by_cases hin : row.start + (i + 1) ≤ a ∧ a < row.start + (i + 1) + l.length
    . have hsucc : a - (row.start + i) = a - (row.start + (i + 1)) + 1 := by omega
      rw [dif_pos hin, dif_pos (by rw [length_cons]; omega)]
      simp [hsucc]
    . rw [dif_neg hin, dif_neg (by rw [length_cons]; omega), Function.update_of_ne hfirst]

variable {info : InitInfo} {bmp : MyBitmap} {cb : Bool} {pitch : Nat}

structure CopiesRows (info : InitInfo) : Prop where
  rgb : info.header.biCompression = biRgb
  not16 : info.header.biBitCount ≠ 16

theorem loadRow_copies (h : CopiesRows info) (fp : Area) (bits : Row) : loadRow info bmp fp bits =
        (.line, (rwRead fp 1 bmp.pitch.toNat).2, bits.copy 0 (rwRead fp 1 bmp.pitch.toNat).1) := by
  unfold loadRow
  rw [if_pos h.rgb, if_neg h.not16]

theorem loadRows_succ (h : CopiesRows info) (i : Nat) (s : LoadState)
    : ∃ s', loadRows info bmp cb pitch (i + 1) s = loadRows info bmp cb pitch i s'
        ∧ s'.fp = (rwRead s.fp 1 bmp.pitch.toNat).2
        ∧ s'.mem = (Row.copy { mem := s.mem, start := i * pitch, touched := [] } 0
            (rwRead s.fp 1 bmp.pitch.toNat).1).mem := by
  rw [loadRows, loadRow_copies h]
  dsimp only
  rw [if_neg (by simp), if_neg (by simp)]
  split
  . exact ⟨_, rfl, rfl, rfl⟩
  . exact ⟨_, rfl, rfl, rfl⟩

theorem loadRows_ok (h : CopiesRows info) (n : Nat) (s : LoadState) : (loadRows info bmp cb pitch n s).1 = true := by
  induction n generalizing s with
  | zero => rfl
  | succ i ih =>
    obtain ⟨s', heq, _⟩ := @loadRows_succ info bmp cb pitch h i s
    rw [heq, ih]

theorem loadRows_above (h : CopiesRows info) (hpitch : bmp.pitch.toNat ≤ pitch) (n : Nat) (s : LoadState) {a : Nat}
    (ha : n * pitch ≤ a) : (loadRows info bmp cb pitch n s).2.mem a = s.mem a := by
  induction n generalizing s with
  | zero => rfl
  | succ i ih =>
    obtain ⟨s', heq, _, hmem⟩ := @loadRows_succ info bmp cb pitch h i s
    have hlen := rwRead_length s.fp bmp.pitch.toNat
    rw [Nat.succ_mul] at ha
    rw [heq, ih s' (by omega), hmem, copy_mem, dif_neg]
    dsimp only
    omega

variable {getScanline : (Nat → Byte) → (Nat → Byte) → Nat → Byte} {bits : Nat → Byte} {srcPitch n : Nat}

theorem loadRows_saved (h : CopiesRows info) (hpitch : bmp.pitch.toNat = n) (hn : pitch = n) (k : Nat)
    (scanline : Nat → Byte) (s : LoadState) (hs : s.fp.Holds (saveRows getScanline bits srcPitch n k scanline))
    : ∀ y, y < k → ∃ scanline', ∀ j, j < n →
        (loadRows info bmp cb pitch k s).2.mem (y * pitch + j) =
          getScanline (fun j => bits (y * srcPitch + j)) scanline' j := by
  induction k generalizing scanline s with
  | zero =>
    intro y hy
    contradiction
  | succ i ih =>
    obtain ⟨s', heq, hfp, hmem⟩ := @loadRows_succ info bmp cb pitch h i s
    rw [saveRows] at hs
    obtain ⟨hread, hrest⟩ := rwRead_holds hs (by omega : 0 < 1) (by rw [length_map, length_range, mul_one])
    rw [hpitch] at hfp hmem
    rw [hread] at hmem
    rw [← hfp] at hrest
    have hrows := ih _ s' hrest
    rw [heq]
    intro y hy
    by_cases hlast : y = i
    . refine ⟨scanline, ?_⟩
      intro j hj
      rw [hlast, loadRows_above h (by omega) i s' (by omega), hmem, copy_mem, dif_pos]
      . simp
      . dsimp only
        rw [length_map, length_range]
        omega
    . exact hrows y (by omega)

end Rows

theorem roundScanline_toNat {x : BitVec 32} (h : x.toNat + 3 < 2 ^ 31)
    : (roundScanline x).toNat = (x.toNat + 3) / 4 * 4 ∧ (roundScanline x).toInt.toNat = (x.toNat + 3) / 4 * 4 := by
  have hadd : (x + 3).toNat = x.toNat + 3 := by
    rw [BitVec.toNat_add]
    apply Nat.mod_eq_of_lt
    have h3 : (3 : BitVec 32).toNat = 3 := rfl
    omega
  have hmsb : (x + 3).msb = false := by
    rw [BitVec.msb_eq_false_iff_two_mul_lt, hadd]
    omega
  have htoNat : (roundScanline x).toNat = (x.toNat + 3) / 4 * 4 := by
    unfold roundScanline
    rw [BitVec.toNat_shiftLeft, BitVec.sshiftRight_eq_of_msb_false hmsb, BitVec.toNat_ushiftRight, hadd,
      Nat.shiftRight_eq_div_pow, Nat.shiftLeft_eq]
    omega
  refine ⟨htoNat, ?_⟩
  rw [BitVec.toInt_eq_toNat_cond, htoNat, if_pos (by omega)]
  rfl

theorem bmpComputePitch_four (width : BitVec 32)
    : (bmpComputePitch 4 width).toNat = ((4 * width.toNat + 7) % 2 ^ 32 / 8 + 3) / 4 * 4 := by
  have h4 : bmpComputePitch 4 width = (((width <<< 2) + 7) / 8 + 3) &&& 4294967292#32 := rfl
  have h7 : (7 : BitVec 32).toNat = 7 := rfl
  have h8 : (8 : BitVec 32).toNat = 8 := rfl
  have h3 : (3 : BitVec 32).toNat = 3 := rfl
  rw [h4, toNat_and_neg_four, BitVec.toNat_add, BitVec.toNat_udiv, BitVec.toNat_add, BitVec.toNat_shiftLeft,
    Nat.shiftLeft_eq, h7, h8, h3]
  omega

theorem bmpComputePitch_eight (width : BitVec 32)
    : (bmpComputePitch 8 width).toNat = (width.toNat + 3) % 2 ^ 32 / 4 * 4 := by
  have h8 : bmpComputePitch 8 width = (width + 3) &&& 4294967292#32 := rfl
  rw [h8, toNat_and_neg_four, BitVec.toNat_add]
  rfl

inductive Pixel where
  | index (i : Byte)
  | rgb (c : BmpRgb)
deriving DecidableEq

def savedPixel (depth : Byte) (bits : Nat → Byte) (start x : Nat) : Pixel :=
  if depth = 4 then
    .index (bits (start + x) &&& 0x0F)
  else if depth = 8 then
    .index (bits (start + x))
  else
    .rgb {
      r := bits (start + x * depth2bpp depth + 2)
      g := bits (start + x * depth2bpp depth + 1)
      b := bits (start + x * depth2bpp depth)
    }

def loadedPixel (depth : Byte) (bits : Nat → Byte) (start x : Nat) : Pixel :=
  if depth = 4 then
    .index (if x % 2 = 0 then bits (start + x / 2) >>> 4 else bits (start + x / 2) &&& 0x0F)
  else if depth = 8 then
    .index (bits (start + x))
  else
    .rgb { r := bits (start + 3 * x + 2), g := bits (start + 3 * x + 1), b := bits (start + 3 * x) }

theorem byte_ext {a b : Byte} (h : ∀ i : Fin 8, a[i.val] = b[i.val]) : a = b := by
  ext i hi
  exact h ⟨i, hi⟩

theorem nibbles (a b : Byte) : (((a <<< 4) &&& 0xF0) ||| (b &&& 0x0F)) >>> 4 = a &&& 0x0F
        ∧ (((a <<< 4) &&& 0xF0) ||| (b &&& 0x0F)) &&& 0x0F = b &&& 0x0F
        ∧ ((a <<< 4) &&& 0xF0) >>> 4 = a &&& 0x0F := by
  refine ⟨?_, ?_, ?_⟩
  all_goals
    apply byte_ext
    simp [Fin.forall_fin_succ]

theorem galPixel_getLsbD (bits : Nat → Byte) (j i : Nat) : (galPixel bits j).getLsbD i =
        if i < 8 then (bits j).getLsbD i
        else if i < 16 then (bits (j + 1)).getLsbD (i - 8)
        else if i < 24 then (bits (j + 2)).getLsbD (i - 16)
        else (bits (j + 3)).getLsbD (i - 24) := by
  have happend : (galPixel bits j).getLsbD i =
      (bits (j + 3) ++ bits (j + 2) ++ bits (j + 1) ++ bits j).getLsbD i := rfl
  rw [happend]
  simp only [BitVec.getLsbD_append, Nat.sub_sub]
  by_cases h8 : i < 8
  . simp [h8]
  by_cases h16 : i < 16
  . have hlt : i - 8 < 8 := by omega
    simp [h8, h16, hlt]
  by_cases h24 : i < 24
  . have hlt : i - 16 < 8 := by omega
    have hge : ¬i - 8 < 8 := by omega
    simp [h8, h16, h24, hlt, hge]
  . have hge : ¬i - 8 < 8 := by omega
    have hge' : ¬i - 16 < 8 := by omega
    simp [h8, h16, h24, hge, hge']

theorem galPixel_getElem (bits : Nat → Byte) (j i : Nat) (hi : i < 32) : (galPixel bits j)[i] =
        if i < 8 then (bits j).getLsbD i
        else if i < 16 then (bits (j + 1)).getLsbD (i - 8)
        else if i < 24 then (bits (j + 2)).getLsbD (i - 16)
        else (bits (j + 3)).getLsbD (i - 24) := by
  rw [← BitVec.getLsbD_eq_getElem hi, galPixel_getLsbD]

theorem pixel2rgb_galPixel {depth : Byte} (h : depth = 24 ∨ depth = 32) (bits : Nat → Byte) (j : Nat) (color : BmpRgb)
    : pixel2rgb (galPixel bits j) color depth = { r := bits (j + 2), g := bits (j + 1), b := bits j } := by
  unfold pixel2rgb
  rw [if_pos h]
  congr 1
  all_goals
    apply byte_ext
    simp [Fin.forall_fin_succ, galPixel_getElem]

section RoundTrip

variable {junk : SaveJunk} {bmp dst : MyBitmap} {bits : Nat → Byte} {pal : Nat → BmpRgb} {area : Area}
variable {off scanlinebytes clrUsed : BitVec 32} {bitCount : BitVec 16} {n srcPitch : Nat} {scanline : Nat → Byte}
variable {getScanline : (Nat → Byte) → (Nat → Byte) → Nat → Byte} {l : List Byte}

theorem mgLoadBmp_rgb {fp : Area} {info : InitInfo} (h : CopiesRows info) (hwhole : bmp.loadAllocateOne = false)
    (mem : Nat → Byte) (cb : Bool) : mgLoadBmp fp info bmp mem cb =
        loadRows info bmp cb bmp.pitch.toNat bmp.rows { fp, mem, touched := [], scanlines := [] } := by
  have hbf : info.header.biCompression ≠ biBitfields := by
    rw [h.rgb]
    decide
  unfold mgLoadBmp
  rw [if_neg hbf, if_pos (.inl h.rgb), hwhole]
  rfl

structure MyBitmap.Savable (bmp : MyBitmap) : Prop where
  depth : bmp.depth = 4 ∨ bmp.depth = 8 ∨ bmp.depth = 24 ∨ bmp.depth = 32
  row_le : bmp.w.toNat * depth2bpp bmp.depth ≤ bmp.pitch.toNat
  image_lt : bmp.h.toNat * bmp.pitch.toNat < 2 ^ 31
  scanline_lt : bmp.w.toNat * depth2bpp bmp.depth + 3 < 2 ^ 31

theorem MyBitmap.rows_eq (h : bmp.h.toNat < 2 ^ 31) : bmp.rows = bmp.h.toNat := by
  have h1 : (1 : BitVec 32).toNat = 1 := rfl
  unfold MyBitmap.rows
  rw [BitVec.toInt_eq_toNat_cond, BitVec.toNat_sub, h1]
  by_cases hzero : bmp.h.toNat = 0
  . rw [hzero]
    decide
  . have hsub : (2 ^ 32 - 1 + bmp.h.toNat) % 2 ^ 32 = bmp.h.toNat - 1 := by omega
    rw [hsub, if_pos (by omega)]
    omega

theorem MyBitmap.Savable.rows_eq (h : bmp.Savable) (hw : bmp.w.toNat ≠ 0) : bmp.rows = bmp.h.toNat := by
  have hbpp : 1 ≤ depth2bpp bmp.depth := by
    rcases h.depth with h | h | h | h
    all_goals
      rw [h]
      decide
  have hrow : 1 ≤ bmp.pitch.toNat := by
    apply Nat.le_trans _ h.row_le
    apply Nat.mul_pos
    . omega
    . omega
  have himage := h.image_lt
  apply MyBitmap.rows_eq
  apply Nat.lt_of_le_of_lt _ himage
  exact Nat.le_mul_of_pos_right _ hrow

def MyBitmap.paletteSize (bmp : MyBitmap) : Nat :=
  if bmp.depth = 4 then 16 else if bmp.depth = 8 then 256 else 0

def Restores (junk : SaveJunk) (bmp : MyBitmap) (bits : Nat → Byte) (pal : Nat → BmpRgb) : Prop :=
  ∀ area dst mem cb, Area.Holds area (mgSaveBmp junk bmp bits pal) → dst.loadAllocateOne = false →
    ∃ r ∈ (mgInitBmp area dst).init,
      r.2.w = bmp.w ∧ r.2.h = bmp.h
        ∧ (mgInitBmp area dst).pal = (range bmp.paletteSize).map pal
        ∧ (mgLoadBmp (mgInitBmp area dst).fp r.1 r.2 mem cb).1 = true
        ∧ ∀ y x, y < bmp.h.toNat → x < bmp.w.toNat →
          loadedPixel r.2.depth (mgLoadBmp (mgInitBmp area dst).fp r.1 r.2 mem cb).2.mem (y * r.2.pitch.toNat) x =
            savedPixel bmp.depth bits (y * bmp.pitch.toNat) x

theorem restores_of_rows (hsave : mgSaveBmp junk bmp bits pal =
      saveHeaders bmp off scanlinebytes bitCount clrUsed ++ (savePalette pal junk.rgbReserved bmp.paletteSize
        ++ saveRows getScanline bits bmp.pitch.toNat scanlinebytes.toInt.toNat bmp.rows scanline))
    (hoff : ((off - 40 - 14) / 4).toInt.toNat = bmp.paletteSize) (h16 : bitCount ≠ 16)
    (hrows : bmp.w.toNat ≠ 0 → bmp.rows = bmp.h.toNat)
    (hpitch : bmp.w.toNat ≠ 0 → bmp.h ≠ 0 →
      (bmpComputePitch bitCount.toNat bmp.w).toNat = scanlinebytes.toInt.toNat)
    (hpixel : bmp.w.toNat ≠ 0 → bmp.h ≠ 0 → ∀ mem start srcStart scanline',
      (∀ j, j < scanlinebytes.toInt.toNat →
        mem (start + j) = getScanline (fun j => bits (srcStart + j)) scanline' j) →
        ∀ x, x < bmp.w.toNat →
          loadedPixel (BitVec.ofNat 8 bitCount.toNat) mem start x = savedPixel bmp.depth bits srcStart x)
    : Restores junk bmp bits pal := by
  intro area dst mem cb hholds hwhole
  rw [hsave] at hholds
  obtain ⟨hinit, hpal, hrest⟩ := @mgInitBmp_saved area _ bmp dst off scanlinebytes bitCount clrUsed pal
    junk.rgbReserved bmp.paletteSize hholds hoff
  refine ⟨_, hinit, rfl, rfl, hpal, ?_⟩
  generalize hr : finishInit dst { biWidth := bmp.w, biHeight := bmp.h, biBitCount := bitCount, biCompression := biRgb }
    = r
  have hcopies : CopiesRows r.1 := by
    rw [← hr]
    exact ⟨rfl, h16⟩
  have hone : r.2.loadAllocateOne = false := by
    rw [← hr]
    exact hwhole
  have hrrows : r.2.rows = bmp.rows := by
    rw [← hr]
    rfl
  have hrpitch : r.2.pitch = bmpComputePitch bitCount.toNat bmp.w := by
    rw [← hr]
    unfold finishInit
    rw [if_neg h16]
  have hrdepth : r.2.depth = BitVec.ofNat 8 bitCount.toNat := by
    rw [← hr]
    unfold finishInit
    rw [if_neg h16]
  rw [mgLoadBmp_rgb hcopies hone]
  refine ⟨loadRows_ok hcopies _ _, ?_⟩
  intro y x hy hx
  have hw : bmp.w.toNat ≠ 0 := by omega
  have hh : bmp.h ≠ 0 := by
    intro hzero
    rw [hzero] at hy
    contradiction
  have hp := hpitch hw hh
  rw [← hrpitch] at hp
  rw [← hrrows] at hrest
  obtain ⟨scanline', hrow⟩ := @loadRows_saved r.1 r.2 cb _ getScanline bits bmp.pitch.toNat _ hcopies hp hp r.2.rows
    scanline { fp := (mgInitBmp area dst).fp, mem, touched := [], scanlines := [] } hrest y
    (by rw [hrrows, hrows hw]; exact hy)
  rw [hrdepth]
  exact hpixel hw hh _ _ _ scanline' hrow x hx

theorem mgSaveBmp_four (hdepth : bmp.depth = 4) : mgSaveBmp junk bmp bits pal =
        saveHeaders bmp (14 + 40 + (4 <<< 4)) (roundScanline ((bmp.w + 1) >>> 1)) 4 16
          ++ (savePalette pal junk.rgbReserved bmp.paletteSize
            ++ saveRows (fun bits scanline => bmpGet16CScanline bits scanline bmp.w.toInt.toNat) bits bmp.pitch.toNat
              (roundScanline ((bmp.w + 1) >>> 1)).toInt.toNat bmp.rows (fun _ => 0)) := by
  unfold mgSaveBmp MyBitmap.paletteSize
  rw [if_pos hdepth, if_pos hdepth, append_assoc]
  rfl

theorem mgSaveBmp_eight (hdepth : bmp.depth = 8) : mgSaveBmp junk bmp bits pal =
        saveHeaders bmp (14 + 40 + (4 <<< 8)) (roundScanline bmp.w) 8 256
          ++ (savePalette pal junk.rgbReserved bmp.paletteSize
            ++ saveRows (fun bits scanline => bmpGet256CScanline bits scanline bmp.w.toInt.toNat) bits bmp.pitch.toNat
              (roundScanline bmp.w).toInt.toNat bmp.rows (fun _ => 0)) := by
  have hne : bmp.depth ≠ 4 := by
    rw [hdepth]
    decide
  unfold mgSaveBmp MyBitmap.paletteSize
  rw [if_neg hne, if_pos hdepth, if_neg hne, if_pos hdepth, append_assoc]
  rfl

theorem mgSaveBmp_high (hdepth : bmp.depth = 24 ∨ bmp.depth = 32) : mgSaveBmp junk bmp bits pal =
        saveHeaders bmp (14 + 40) (roundScanline (bmp.w * 3)) 24 0
          ++ (savePalette pal junk.rgbReserved bmp.paletteSize
            ++ saveRows
              (fun bits scanline =>
                bmpGetHighCScanline (depth2bpp bmp.depth) bmp.depth junk.color bits scanline bmp.w.toInt.toNat)
              bits bmp.pitch.toNat (roundScanline (bmp.w * 3)).toInt.toNat bmp.rows (fun _ => 0)) := by
  have hne : bmp.depth ≠ 4 ∧ bmp.depth ≠ 8 := by
    rcases hdepth with hdepth | hdepth
    all_goals
      rw [hdepth]
      decide
  unfold mgSaveBmp MyBitmap.paletteSize
  rw [if_neg hne.1, if_neg hne.2, if_neg hne.1, if_neg hne.2]
  rfl

theorem toInt_toNat_of_lt {x : BitVec 32} (h : x.toNat < 2 ^ 31) : x.toInt.toNat = x.toNat := by
  rw [BitVec.toInt_eq_toNat_cond, if_pos (by omega)]
  rfl

theorem restores_four (h : bmp.Savable) (hdepth : bmp.depth = 4) (hw : bmp.h ≠ 0 → bmp.w.toNat + 1 < 2 ^ 30)
    : Restores junk bmp bits pal := by
  have hbpp : depth2bpp bmp.depth = 1 := by
    rw [hdepth]
    rfl
  have hlt := h.scanline_lt
  rw [hbpp, mul_one] at hlt
  have hwidth := @toInt_toNat_of_lt bmp.w (by omega)
  have hbytes : ((bmp.w + 1) >>> 1).toNat = (bmp.w.toNat + 1) / 2 := by
    have h1 : (1 : BitVec 32).toNat = 1 := rfl
    rw [BitVec.toNat_ushiftRight, BitVec.toNat_add, h1, Nat.shiftRight_eq_div_pow, pow_one, Nat.mod_eq_of_lt]
    omega
  have hround := @roundScanline_toNat ((bmp.w + 1) >>> 1) (by rw [hbytes]; omega)
  rw [hbytes] at hround
  have hsize : bmp.paletteSize = 16 := by
    unfold MyBitmap.paletteSize
    rw [if_pos hdepth]
  apply restores_of_rows (mgSaveBmp_four hdepth) (by rw [hsize]; decide) (by decide) h.rows_eq
  . intro _ hh
    have hpitch := bmpComputePitch_four bmp.w
    have hcount : (4 : BitVec 16).toNat = 4 := rfl
    have hless := hw hh
    rw [hround.2, hcount, hpitch]
    omega
  intro _ _ mem start srcStart scanline' hrow x hx
  have hsource := bmpGet16CScanline_apply (fun j => bits (srcStart + j)) scanline' bmp.w.toNat (x / 2)
  have hmem := hrow (x / 2) (by rw [hround.2]; omega)
  rw [hwidth, hsource] at hmem
  unfold loadedPixel savedPixel
  rw [if_pos (by rfl), if_pos hdepth, hmem]
  congr 1
  by_cases heven : x % 2 = 0
  . have hx2 : 2 * (x / 2) = x := by omega
    rw [if_pos heven, hx2]
    split
    . exact (nibbles _ _).1
    . exact (nibbles _ 0).2.2
  . have hx2 : 2 * (x / 2) + 1 = x := by omega
    rw [if_neg heven, hx2, if_pos hx]
    exact (nibbles _ _).2.1

theorem restores_eight (h : bmp.Savable) (hdepth : bmp.depth = 8) : Restores junk bmp bits pal := by
  have hbpp : depth2bpp bmp.depth = 1 := by
    rw [hdepth]
    rfl
  have hlt := h.scanline_lt
  rw [hbpp, mul_one] at hlt
  have hwidth := @toInt_toNat_of_lt bmp.w (by omega)
  have hround := @roundScanline_toNat bmp.w hlt
  have hne : bmp.depth ≠ 4 := by
    rw [hdepth]
    decide
  have hsize : bmp.paletteSize = 256 := by
    unfold MyBitmap.paletteSize
    rw [if_neg hne, if_pos hdepth]
  apply restores_of_rows (mgSaveBmp_eight hdepth) (by rw [hsize]; decide) (by decide) h.rows_eq
  . intro _ _
    have hcount : (8 : BitVec 16).toNat = 8 := rfl
    rw [hround.2, hcount, bmpComputePitch_eight]
    omega
  intro _ _ mem start srcStart scanline' hrow x hx
  have hmem := hrow x (by rw [hround.2]; omega)
  unfold bmpGet256CScanline at hmem
  rw [hwidth, if_pos hx] at hmem
  unfold loadedPixel savedPixel
  rw [if_neg (by decide), if_pos (by rfl), if_neg hne, if_pos hdepth, hmem]

theorem restores_high (h : bmp.Savable) (hdepth : bmp.depth = 24 ∨ bmp.depth = 32) : Restores junk bmp bits pal := by
  have hbpp : 3 ≤ depth2bpp bmp.depth := by
    rcases hdepth with hdepth | hdepth
    all_goals
      rw [hdepth]
      decide
  have hlt := h.scanline_lt
  have hthree : bmp.w.toNat * 3 ≤ bmp.w.toNat * depth2bpp bmp.depth := Nat.mul_le_mul_left _ hbpp
  have hwidth := @toInt_toNat_of_lt bmp.w (by omega)
  have hbytes : (bmp.w * 3).toNat = bmp.w.toNat * 3 := by
    have h3 : (3 : BitVec 32).toNat = 3 := rfl
    rw [BitVec.toNat_mul, h3, Nat.mod_eq_of_lt]
    omega
  have hround := @roundScanline_toNat (bmp.w * 3) (by rw [hbytes]; omega)
  rw [hbytes] at hround
  have hne : bmp.depth ≠ 4 ∧ bmp.depth ≠ 8 := by
    rcases hdepth with hdepth | hdepth
    all_goals
      rw [hdepth]
      decide
  have hsize : bmp.paletteSize = 0 := by
    unfold MyBitmap.paletteSize
    rw [if_neg hne.1, if_neg hne.2]
  apply restores_of_rows (mgSaveBmp_high hdepth) (by rw [hsize]; decide) (by decide) h.rows_eq
  . intro _ _
    have hcount : (24 : BitVec 16).toNat = 24 := rfl
    have hmod : (bmp.w.toNat * 3 + 3) % 2 ^ 32 = bmp.w.toNat * 3 + 3 := Nat.mod_eq_of_lt (by omega)
    rw [hround.2, hcount, bmpComputePitch_eq, hmod]
  intro _ _ mem start srcStart scanline' hrow x hx
  obtain ⟨hb, hg, hr⟩ := bmpGetHighCScanline_apply (depth2bpp bmp.depth) bmp.depth junk.color
    (fun j => bits (srcStart + j)) scanline' hx
  have hmemb := hrow (3 * x) (by rw [hround.2]; omega)
  have hmemg := hrow (3 * x + 1) (by rw [hround.2]; omega)
  have hmemr := hrow (3 * x + 2) (by rw [hround.2]; omega)
  rw [hwidth, hb, pixel2rgb_galPixel hdepth] at hmemb
  rw [hwidth, hg, pixel2rgb_galPixel hdepth] at hmemg
  rw [hwidth, hr, pixel2rgb_galPixel hdepth] at hmemr
  unfold loadedPixel savedPixel
  rw [if_neg (by decide), if_neg (by decide), if_neg hne.1, if_neg hne.2]
  rw [Nat.add_assoc, Nat.add_assoc, hmemb, hmemg, hmemr]
  rfl

theorem width_of_restores (h : bmp.Savable) (hdepth : bmp.depth = 4) (hrestores : Restores junk bmp bits pal)
    (hh : bmp.h ≠ 0) : bmp.w.toNat + 1 < 2 ^ 30 := by
  have hbpp : depth2bpp bmp.depth = 1 := by
    rw [hdepth]
    rfl
  have hlt := h.scanline_lt
  rw [hbpp, mul_one] at hlt
  have hsize : bmp.paletteSize = 16 := by
    unfold MyBitmap.paletteSize
    rw [if_pos hdepth]
  by_contra hwide
  let dst : MyBitmap := { bmp with loadAllocateOne := false }
  let area : Area := { type := .mem, bytes := mgSaveBmp junk bmp bits pal, here := 0, uninit := fun _ => 0 }
  have hholds : area.Holds (mgSaveBmp junk bmp bits pal) := ⟨rfl, Nat.zero_le _⟩
  have hinit := hholds
  rw [mgSaveBmp_four hdepth] at hinit
  have hinit := (@mgInitBmp_saved area _ bmp dst _ _ _ _ _ _ _ hinit (by rw [hsize]; decide)).1
  have hpitch := bmpComputePitch_four bmp.w
  generalize hr : finishInit dst { biWidth := bmp.w, biHeight := bmp.h, biBitCount := 4, biCompression := biRgb } = r
    at hinit
  have hfour : (4 : BitVec 16) ≠ 16 := by decide
  have hcopies : CopiesRows r.1 := by
    rw [← hr]
    exact ⟨rfl, hfour⟩
  have hone : r.2.loadAllocateOne = false := by
    rw [← hr]
    rfl
  have hrpitch : r.2.pitch = bmpComputePitch 4 bmp.w := by
    rw [← hr]
    rfl
  have hrdepth : r.2.depth = 4 := by
    rw [← hr]
    rfl
  have hrrows : r.2.rows = bmp.h.toNat := by
    rw [← h.rows_eq (by omega), ← hr]
    rfl
  have hhpos : 0 < bmp.h.toNat := by
    rw [Nat.pos_iff_ne_zero]
    intro hzero
    exact hh (BitVec.eq_of_toNat_eq hzero)
  rw [← hrpitch] at hpitch
  -- The last pixel is behind all that is written, so it shows what was there before.
  have hlast : ∀ b : Byte,
      loadedPixel r.2.depth (fun _ => b) ((bmp.h.toNat - 1) * r.2.pitch.toNat) (bmp.w.toNat - 1) =
        savedPixel bmp.depth bits ((bmp.h.toNat - 1) * bmp.pitch.toNat) (bmp.w.toNat - 1) := by
    intro b
    obtain ⟨r', hr', _, _, _, _, hpixels⟩ := hrestores area dst (fun _ => b) false hholds rfl
    rw [hinit, Option.mem_some_iff] at hr'
    rw [← hr'] at hpixels
    have hpixel := hpixels (bmp.h.toNat - 1) (bmp.w.toNat - 1) (by omega) (by omega)
    rw [mgLoadBmp_rgb hcopies hone] at hpixel
    have hmul : (bmp.h.toNat - 1) * r.2.pitch.toNat + r.2.pitch.toNat = r.2.rows * r.2.pitch.toNat := by
      rw [hrrows, ← Nat.succ_mul, Nat.succ_eq_add_one, Nat.sub_add_cancel hhpos]
    have habove := @loadRows_above r.1 r.2 false r.2.pitch.toNat hcopies (Nat.le_refl _) r.2.rows
      { fp := (mgInitBmp area dst).fp, mem := fun _ => b, touched := [], scanlines := [] }
      ((bmp.h.toNat - 1) * r.2.pitch.toNat + (bmp.w.toNat - 1) / 2) (by omega)
    rw [← hpixel]
    unfold loadedPixel
    rw [hrdepth, if_pos rfl, if_pos rfl, habove]
  have hzero := hlast 0
  have hones := hlast 255
  rw [← hones, hrdepth] at hzero
  unfold loadedPixel at hzero
  rw [if_pos rfl, if_pos rfl] at hzero
  have hne : (0 : Byte) >>> 4 ≠ (255 : Byte) >>> 4 ∧ (0 : Byte) &&& 0x0F ≠ (255 : Byte) &&& 0x0F := by decide
  split at hzero
  . exact hne.1 (Pixel.index.inj hzero)
  . exact hne.2 (Pixel.index.inj hzero)

def smallImage : MyBitmap :=
  { loadAllocateOne := false, depth := 4, w := 3, h := 2, pitch := 3 }

theorem smallImage_savable : smallImage.Savable := by
  constructor
  . decide
  . decide
  . decide
  . decide

def wideImage : MyBitmap :=
  { loadAllocateOne := false, depth := 4, w := 0x3FFFFFFF, h := 1, pitch := 0x40000000 }

end RoundTrip

end MiniGui
