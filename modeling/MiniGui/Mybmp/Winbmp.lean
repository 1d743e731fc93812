import MiniGui.Mybmp.RWops

namespace MiniGui

structure BmpRgb where
  r : Byte
  g : Byte
  b : Byte
deriving DecidableEq, Repr

def biRgb : BitVec 32 := 0
def biRle8 : BitVec 32 := 1
def biRle4 : BitVec 32 := 2
def biBitfields : BitVec 32 := 3

structure BitmapFileHeader where
  bfType : BitVec 16
  bfSize : BitVec 32
  bfReserved1 : BitVec 16
  bfReserved2 : BitVec 16
  bfOffBits : BitVec 32

structure BitmapInfoHeader where
  biWidth : BitVec 32
  biHeight : BitVec 32
  biBitCount : BitVec 16
  biCompression : BitVec 32

def readBmFileHeader (f : Area) : BitmapFileHeader × Area :=
  let (bfType, f) := fpIgetw f
  let (bfSize, f) := fpIgetl f
  let (bfReserved1, f) := fpIgetw f
  let (bfReserved2, f) := fpIgetw f
  let (bfOffBits, f) := fpIgetl f
  ({ bfType, bfSize, bfReserved1, bfReserved2, bfOffBits }, f)

def readWinBmInfoHeader (f : Area) : BitmapInfoHeader × Area :=
  let (biWidth, f) := fpIgetl f
  let (biHeight, f) := fpIgetl f
  let (_biPlanes, f) := fpIgetw f
  let (biBitCount, f) := fpIgetw f
  let (biCompression, f) := fpIgetl f
  let (_biSizeImage, f) := fpIgetl f
  let (_biXPelsPerMeter, f) := fpIgetl f
  let (_biYPelsPerMeter, f) := fpIgetl f
  let (_biClrUsed, f) := fpIgetl f
  let (_biClrImportant, f) := fpIgetl f
  ({ biWidth, biHeight, biBitCount, biCompression }, f)

def readOs2BmInfoHeader (f : Area) : BitmapInfoHeader × Area :=
  let (biWidth, f) := fpIgetw f
  let (biHeight, f) := fpIgetw f
  let (_biPlanes, f) := fpIgetw f
  let (biBitCount, f) := fpIgetw f
  ({ biWidth := biWidth.zeroExtend 32, biHeight := biHeight.zeroExtend 32, biBitCount, biCompression := 0 }, f)

def readBmiColors : Nat → Area → Bool → List BmpRgb × Area
  | 0, f, _ => ([], f)
  | ncols + 1, f, winFlag =>
    let (b, f) := getByte f
    let (g, f) := getByte f
    let (r, f) := getByte f
    let f := if winFlag then (getByte f).2 else f
    let (pal, f) := readBmiColors ncols f winFlag
    ({ r, g, b } :: pal, f)

structure MyBitmap where
  loadAllocateOne : Bool
  depth : Byte
  w : BitVec 32
  h : BitVec 32
  pitch : BitVec 32

def bmpComputePitch (bpp : Nat) (width : BitVec 32) : BitVec 32 :=
  let linesize :=
    if bpp = 1 then
      (width + 7) / 8
    else if bpp ≤ 4 then
      ((width <<< 2) + 7) / 8
    else if bpp ≤ 8 then
      width
    else if bpp ≤ 16 then
      width * 2
    else if bpp ≤ 24 then
      width * 3
    else
      width * 4
  (linesize + 3) &&& (-4)

theorem toNat_and_neg_four (x : BitVec 32) : (x &&& 4294967292#32).toNat = x.toNat / 4 * 4 := by
  have hones : ∀ j : Fin 32, (4294967292#32)[j.val] = decide (2 ≤ j.val) := by decide
  have hx : x &&& 4294967292#32 = (x >>> 2) <<< 2 := by
    ext i hi
    rw [BitVec.getElem_and, hones ⟨i, hi⟩, BitVec.getElem_shiftLeft]
    by_cases hlt : i < 2
    . have hle : ¬2 ≤ i := by omega
      simp [hlt, hle]
    have hle : 2 ≤ i := by omega
    have hadd : 2 + (i - 2) = i := by omega
    rw [BitVec.getElem_ushiftRight, ← BitVec.getLsbD_eq_getElem hi]
    simp [hlt, hle, hadd]
  rw [hx, BitVec.toNat_shiftLeft, BitVec.toNat_ushiftRight, Nat.shiftRight_eq_div_pow, Nat.shiftLeft_eq]
  have hlt := x.isLt
  omega

structure InitInfo where
  header : BitmapInfoHeader
  gmask : BitVec 32

/--
What `__mg_init_bmp` leaves: the palette entries that it has written, and the information for the loader unless
it returns null.
-/
structure InitResult where
  pal : List BmpRgb
  init : Option (InitInfo × MyBitmap)
  fp : Area

def finishInit (bmp : MyBitmap) (header : BitmapInfoHeader) : InitInfo × MyBitmap :=
  let effectDepth := if header.biBitCount = 16 then 24 else header.biBitCount.toNat
  ({ header, gmask := 0x03e0 },
    {
      bmp with
      pitch := bmpComputePitch effectDepth header.biWidth
      depth := BitVec.ofNat 8 effectDepth
      w := header.biWidth
      h := header.biHeight
    })

def mgInitBmp (fp : Area) (bmp : MyBitmap) : InitResult :=
  let (fileheader, fp) := readBmFileHeader fp
  if fileheader.bfType ≠ 19778 then
    { pal := [], init := none, fp }
  else
    let (biSize, fp) := fpIgetl fp
    if biSize.toInt ≥ 40 then
      let (header, fp) := readWinBmInfoHeader fp
      let fp := rwSeek fp (biSize.toInt - 40)
      let ncol := ((fileheader.bfOffBits - biSize - 14) / 4).toInt.toNat
      let (pal, fp) := readBmiColors ncol fp true
      { pal, init := some (finishInit bmp header), fp }
    else if biSize.toInt = 12 then
      let (header, fp) := readOs2BmInfoHeader fp
      let ncol := ((fileheader.bfOffBits - 26) / 3).toInt.toNat
      let (pal, fp) := readBmiColors ncol fp false
      { pal, init := some (finishInit bmp header), fp }
    else
      { pal := [], init := none, fp }

/--
The memory that `bmp->bits` points into, with the places of the current row, which starts at `start`, that have been
written to.
-/
structure Row where
  mem : Nat → Byte
  start : Nat
  touched : List Nat

def Row.get (row : Row) (i : Nat) : Byte :=
  row.mem (row.start + i)

def Row.set (row : Row) (i : Nat) (b : Byte) : Row :=
  { row with mem := Function.update row.mem (row.start + i) b, touched := i :: row.touched }

inductive RleFlag where
  | err
  | line
  | end
deriving DecidableEq, Repr

structure RleState where
  f : Area
  bits : Row
  pos : Nat
  flag : RleFlag

def fillRun : Nat → Byte → RleState → RleState
  | 0, _, s => s
  | count + 1, val, s => fillRun count val { s with bits := s.bits.set s.pos val, pos := s.pos + 1 }

def copyAbsolute : Nat → RleState → RleState
  | 0, s => s
  | n + 1, s =>
    let (val0, f) := getByte s.f
    copyAbsolute n { s with f, bits := s.bits.set s.pos val0, pos := s.pos + 1 }

def rle8Step (s : RleState) : RleState :=
  let (count, f) := getByte s.f
  let (val, f) := getByte f
  if count ≠ 0 then
    fillRun count.toNat val { s with f }
  else if val = 0 then
    { s with f, flag := .line }
  else if val = 1 then
    { s with f, flag := .end }
  else if val = 2 then
    let (count, f) := getByte f
    let (_, f) := getByte f
    { s with f, pos := s.pos + count.toNat }
  else
    let s := copyAbsolute val.toNat { s with f }
    if val.toNat % 2 = 1 then { s with f := (getByte s.f).2 } else s

def setNibble (s : RleState) (left right : Byte) : RleState :=
  {
    s with
    bits :=
      if s.pos % 2 = 0 then
        s.bits.set (s.pos / 2) (left <<< 4)
      else
        s.bits.set (s.pos / 2) (s.bits.get (s.pos / 2) ||| right)
    pos := s.pos + 1
  }

def fillRun4 : Nat → BitVec 16 → RleState → RleState
  | 0, _, s => s
  | count + 1, val, s =>
    fillRun4 count val (setNibble s (((val >>> 4) &&& 15).truncate 8) ((val &&& 15).truncate 8))

def nibble4 (val0 : BitVec 16) (j : Nat) : Byte :=
  match j % 4 with
  | 0 => ((val0 >>> 4) &&& 15).truncate 8
  | 1 => (val0 &&& 15).truncate 8
  | 2 => ((val0 >>> 12) &&& 15).truncate 8
  | _ => ((val0 >>> 8) &&& 15).truncate 8

def copyAbsolute4 : Nat → Nat → BitVec 16 → RleState → RleState
  | 0, _, _, s => s
  | n + 1, j, val0, s =>
    let (val0, f) := if j % 4 = 0 then fpIgetw s.f else (val0, s.f)
    copyAbsolute4 n (j + 1) val0 (setNibble { s with f } (nibble4 val0 j) (nibble4 val0 j))

def rle4Step (s : RleState) : RleState :=
  let (count, f) := getByte s.f
  let (val, f) := fpGetc f
  let val := BitVec.ofInt 16 val
  if count ≠ 0 then
    fillRun4 count.toNat val { s with f }
  else if val = 0 then
    { s with f, flag := .line }
  else if val = 1 then
    { s with f, flag := .end }
  else if val = 2 then
    let (count, f) := getByte f
    let (_, f) := fpGetc f
    { s with f, pos := s.pos + count.toNat }
  else
    copyAbsolute4 val.toNat 0 0 { s with f }

structure Advances (s s' : RleState) : Prop where
  pos_le : s.pos ≤ s'.pos
  rest_le : s'.f.rest.length ≤ s.f.rest.length
  lt : s.pos < s'.pos ∨ s'.f.rest.length < s.f.rest.length

theorem fillRun_pos (n : Nat) (val : Byte) (s : RleState) : (fillRun n val s).pos = s.pos + n := by
  induction n generalizing s with
  | zero => rfl
  | succ n ih =>
    rw [fillRun, ih]
    dsimp only
    omega

theorem fillRun_f (n : Nat) (val : Byte) (s : RleState) : (fillRun n val s).f = s.f := by
  induction n generalizing s with
  | zero => rfl
  | succ n ih => rw [fillRun, ih]

theorem fillRun4_pos (n : Nat) (val : BitVec 16) (s : RleState) : (fillRun4 n val s).pos = s.pos + n := by
  induction n generalizing s with
  | zero => rfl
  | succ n ih =>
    rw [fillRun4, ih]
    unfold setNibble
    dsimp only
    omega

theorem fillRun4_f (n : Nat) (val : BitVec 16) (s : RleState) : (fillRun4 n val s).f = s.f := by
  induction n generalizing s with
  | zero => rfl
  | succ n ih =>
    rw [fillRun4, ih]
    rfl

theorem copyAbsolute_pos (n : Nat) (s : RleState) : (copyAbsolute n s).pos = s.pos + n := by
  induction n generalizing s with
  | zero => rfl
  | succ n ih =>
    rw [copyAbsolute, ih]
    dsimp only
    omega

theorem copyAbsolute_rest (n : Nat) (s : RleState) : (copyAbsolute n s).f.rest.length ≤ s.f.rest.length := by
  induction n generalizing s with
  | zero => exact Nat.le_refl _
  | succ n ih =>
    rw [copyAbsolute]
    apply Nat.le_trans (ih _)
    exact getByte_length s.f

theorem copyAbsolute4_pos (n j : Nat) (val0 : BitVec 16) (s : RleState)
    : (copyAbsolute4 n j val0 s).pos = s.pos + n := by
  induction n generalizing j val0 s with
  | zero => rfl
  | succ n ih =>
    rw [copyAbsolute4, ih]
    unfold setNibble
    dsimp only
    omega

theorem copyAbsolute4_rest (n j : Nat) (val0 : BitVec 16) (s : RleState)
    : (copyAbsolute4 n j val0 s).f.rest.length ≤ s.f.rest.length := by
  induction n generalizing j val0 s with
  | zero => exact Nat.le_refl _
  | succ n ih =>
    have hread : (if j % 4 = 0 then fpIgetw s.f else (val0, s.f)).2.rest.length ≤ s.f.rest.length := by
      split
      . exact fpIgetw_length s.f
      . exact Nat.le_refl _
    rw [copyAbsolute4]
    exact Nat.le_trans (ih _ _ _) hread

theorem rle8Step_advances (s : RleState) (h : (rle8Step s).flag = .err) : Advances s (rle8Step s) := by
  have hcount := getByte_length s.f
  have hcountlt := @getByte_lt s.f
  generalize hget : getByte s.f = p at hcount hcountlt
  obtain ⟨count, f⟩ := p
  have hval := getByte_length f
  generalize hgetv : getByte f = q at hval
  obtain ⟨val, g⟩ := q
  dsimp only at hcount hcountlt hval
  unfold rle8Step at h ⊢
  rw [hget] at h ⊢
  dsimp only at h ⊢
  rw [hgetv] at h ⊢
  dsimp only at h ⊢
  by_cases hrun : count ≠ 0
  . have hpos : 0 < count.toNat := by
      rw [Nat.pos_iff_ne_zero]
      intro hz
      exact hrun (BitVec.eq_of_toNat_eq hz)
    rw [if_pos hrun]
    constructor
    . rw [fillRun_pos]
      exact Nat.le_add_right _ _
    . rw [fillRun_f]
      dsimp only
      omega
    left
    rw [fillRun_pos]
    dsimp only
    omega
  rw [if_neg hrun] at h ⊢
  have hzero : count = 0 := by
    rw [ne_eq, not_not] at hrun
    exact hrun
  have hless : f.rest.length < s.f.rest.length := by
    apply hcountlt
    rw [hzero]
    decide
  by_cases hval0 : val = 0
  . rw [if_pos hval0] at h
    contradiction
  rw [if_neg hval0] at h ⊢
  by_cases hval1 : val = 1
  . rw [if_pos hval1] at h
    contradiction
  rw [if_neg hval1] at h ⊢
  split
  . have hg := getByte_length g
    have hg' := getByte_length (getByte g).2
    constructor
    . exact Nat.le_add_right _ _
    . dsimp only
      omega
    . right
      dsimp only
      omega
  have habs := copyAbsolute_rest val.toNat { s with f := g }
  have hpos := copyAbsolute_pos val.toNat { s with f := g }
  have hgap := getByte_length (copyAbsolute val.toNat { s with f := g }).f
  dsimp only at habs hpos
  split
  . constructor
    . dsimp only
      omega
    . dsimp only
      omega
    . right
      dsimp only
      omega
  constructor
  . omega
  . omega
  . right
    omega

theorem rle4Step_advances (s : RleState) (h : (rle4Step s).flag = .err) : Advances s (rle4Step s) := by
  have hcount := getByte_length s.f
  have hcountlt := @getByte_lt s.f
  generalize hget : getByte s.f = p at hcount hcountlt
  obtain ⟨count, f⟩ := p
  have hval := getByte_length f
  rw [← fpGetc_eq_getByte] at hval
  generalize hgetv : fpGetc f = q at hval
  obtain ⟨val, g⟩ := q
  dsimp only at hcount hcountlt hval
  unfold rle4Step at h ⊢
  rw [hget] at h ⊢
  dsimp only at h ⊢
  rw [hgetv] at h ⊢
  dsimp only at h ⊢
  by_cases hrun : count ≠ 0
  . have hpos : 0 < count.toNat := by
      rw [Nat.pos_iff_ne_zero]
      intro hz
      exact hrun (BitVec.eq_of_toNat_eq hz)
    rw [if_pos hrun]
    constructor
    . rw [fillRun4_pos]
      exact Nat.le_add_right _ _
    . rw [fillRun4_f]
      dsimp only
      omega
    left
    rw [fillRun4_pos]
    dsimp only
    omega
  rw [if_neg hrun] at h ⊢
  have hzero : count = 0 := by
    rw [ne_eq, not_not] at hrun
    exact hrun
  have hless : f.rest.length < s.f.rest.length := by
    apply hcountlt
    rw [hzero]
    decide
  by_cases hval0 : BitVec.ofInt 16 val = 0
  . rw [if_pos hval0] at h
    contradiction
  rw [if_neg hval0] at h ⊢
  by_cases hval1 : BitVec.ofInt 16 val = 1
  . rw [if_pos hval1] at h
    contradiction
  rw [if_neg hval1] at h ⊢
  split
  . have hg := getByte_length g
    have hg' := getByte_length (getByte g).2
    rw [← fpGetc_eq_getByte] at hg'
    constructor
    . exact Nat.le_add_right _ _
    . dsimp only
      omega
    . right
      dsimp only
      omega
  have habs := copyAbsolute4_rest (BitVec.ofInt 16 val).toNat 0 0 { s with f := g }
  have hpos := copyAbsolute4_pos (BitVec.ofInt 16 val).toNat 0 0 { s with f := g }
  dsimp only at habs hpos
  constructor
  . omega
  . omega
  . right
    omega

def rleLoop (step : RleState → RleState) (hstep : ∀ s, (step s).flag = .err → Advances s (step s)) (width : Int)
    (s : RleState)
    : RleState :=
  if (s.pos : Int) ≤ width then
    let s' := step s
    if _hflag : s'.flag = .err then
      rleLoop step hstep width s'
    else
      s'
  else
    s
termination_by s.f.rest.length + (width + 1 - s.pos).toNat
decreasing_by
  have hadv := hstep s _hflag
  have hpos := hadv.pos_le
  have hrest := hadv.rest_le
  rcases hadv.lt with hlt | hlt
  . omega
  . omega

def readRle8CompressedImage (f : Area) (bits : Row) (width : Int) : RleState :=
  rleLoop rle8Step rle8Step_advances width { f, bits, pos := 0, flag := .err }

def readRle4CompressedImage (f : Area) (bits : Row) (width : Int) : RleState :=
  rleLoop rle4Step rle4Step_advances width { f, bits, pos := 0, flag := .err }

def read16Pixels (gmask : BitVec 32) : Nat → Nat → Area → Row → Area × Row
  | 0, _, f, bits => (f, bits)
  | n + 1, i, f, bits =>
    let (pixel, f) := fpIgetw f
    let bits :=
      if gmask = 0x03e0 then
        let bits := bits.set (3 * i + 2) ((((pixel >>> 10) &&& 0x1f) <<< 3).truncate 8)
        let bits := bits.set (3 * i + 1) ((((pixel >>> 5) &&& 0x1f) <<< 3).truncate 8)
        bits.set (3 * i) (((pixel &&& 0x1f) <<< 3).truncate 8)
      else
        let bits := bits.set (3 * i + 2) ((((pixel >>> 11) &&& 0x1f) <<< 3).truncate 8)
        let bits := bits.set (3 * i + 1) ((((pixel >>> 5) &&& 0x3f) <<< 2).truncate 8)
        bits.set (3 * i) (((pixel &&& 0x1f) <<< 3).truncate 8)
    read16Pixels gmask n (i + 1) f bits

def read16bitImage (f : Area) (bits : Row) (width : Int) (gmask : BitVec 32) : Area × Row :=
  let (f, bits) := read16Pixels gmask width.toNat 0 f bits
  if width % 2 ≠ 0 then ((fpIgetw f).2, bits) else (f, bits)

def Row.copy (row : Row) : Nat → List Byte → Row
  | _, [] => row
  | i, b :: l => (row.set i b).copy (i + 1) l

structure LoadState where
  fp : Area
  mem : Nat → Byte
  touched : List (Nat × Nat)
  scanlines : List (Nat × (Nat → Byte))

def loadRow (info : InitInfo) (bmp : MyBitmap) (fp : Area) (bits : Row) : RleFlag × Area × Row :=
  if info.header.biCompression = biRgb then
    if info.header.biBitCount = 16 then
      let (fp, bits) := read16bitImage fp bits bmp.w.toInt info.gmask
      (.line, fp, bits)
    else
      let (copied, fp) := rwRead fp 1 bmp.pitch.toNat
      (.line, fp, bits.copy 0 copied)
  else if info.header.biCompression = biRle8 then
    let s := readRle8CompressedImage fp bits bmp.w.toInt
    (s.flag, s.f, s.bits)
  else if info.header.biCompression = biRle4 then
    let s := readRle4CompressedImage fp bits bmp.w.toInt
    (s.flag, s.f, s.bits)
  else
    (.line, fp, bits)

def loadRows (info : InitInfo) (bmp : MyBitmap) (cb : Bool) (pitch : Nat) : Nat → LoadState → Bool × LoadState
  | 0, s => (true, s)
  | i + 1, s =>
    let (flag, fp, bits) := loadRow info bmp s.fp { mem := s.mem, start := i * pitch, touched := [] }
    let s := { s with fp, mem := bits.mem, touched := bits.touched.map (fun pos => (i, pos)) ++ s.touched }
    if flag = .err then
      (false, s)
    else
      let s := if cb && pitch = 0 then { s with scanlines := (i, s.mem) :: s.scanlines } else s
      if flag = .end then (true, s) else loadRows info bmp cb pitch i s

def mgLoadBmp (fp : Area) (info : InitInfo) (bmp : MyBitmap) (mem : Nat → Byte) (cb : Bool) : Bool × LoadState :=
  let s : LoadState := { fp, mem, touched := [], scanlines := [] }
  let pitch := if bmp.loadAllocateOne then 0 else bmp.pitch.toNat
  let rows := ((bmp.h - 1).toInt + 1).toNat
  if info.header.biCompression = biBitfields then
    let fp := rwSeek fp (-16)
    let (_rmask, fp) := fpIgetl fp
    let (gmask, fp) := fpIgetl fp
    let (_bmask, fp) := fpIgetl fp
    loadRows { info with gmask } bmp cb pitch rows { s with fp }
  else if info.header.biCompression = biRgb ∨ info.header.biCompression = biRle8
      ∨ info.header.biCompression = biRle4 then
    loadRows info bmp cb pitch rows s
  else
    (false, s)

end MiniGui
