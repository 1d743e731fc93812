import MiniGui.Mybmp.RleStreams

namespace MiniGui

open Function List

section View

variable {four : Bool} {row : Row} {pos : Nat} {pixels : List (Byte × Byte)}

def viewRow (four : Bool) (mem : Nat → Byte) (start : Nat) : Nat → Byte :=
  fun X =>
    if four then
      if X % 2 = 0 then mem (start + X / 2) >>> 4 else mem (start + X / 2) &&& 0x0F
    else
      mem (start + X)

def writer (four : Bool) : WritePixel :=
  if four then writeNibble else writeByte

def placeOf (four : Bool) (X : Nat) : Nat :=
  if four then X / 2 else X

theorem writer_at : WritesAt (writer four) (placeOf four) := by
  cases four with
  | false => exact writeByte_at
  | true => exact writeNibble_at

theorem nibble_writes {a b : Byte} (ha : a.toNat < 16) (hb : b.toNat < 16) (old : Byte)
    : (a <<< 4) >>> 4 = a ∧ (a <<< 4) &&& 0x0F = 0 ∧ (old ||| b) &&& 0x0F = (old &&& 0x0F) ||| b
        ∧ (old ||| b) >>> 4 = old >>> 4 := by
  obtain ⟨a, rfl⟩ := nibble_cases ha
  obtain ⟨b, rfl⟩ := nibble_cases hb
  refine ⟨?_, ?_, ?_, ?_⟩
  all_goals
    apply byte_ext
    simp [Fin.forall_fin_succ]

theorem viewRow_write (left right : Byte) (hnibbles : four = true → left.toNat < 16 ∧ right.toNat < 16)
    : viewRow four (writer four row pos left right).mem row.start =
        putPixel four (viewRow four row.mem row.start) pos left right := by
  funext X
  cases four with
  | false =>
    have hwrite : writer false row pos left right = row.set pos left := rfl
    rw [hwrite]
    unfold viewRow putPixel Row.set
    simp [update_apply]
  | true =>
    obtain ⟨hleft, hright⟩ := hnibbles rfl
    obtain ⟨heven, hlow, hodd, hhigh⟩ := nibble_writes hleft hright (row.get (pos / 2))
    have hwrite : writer true row pos left right = writeNibble row pos left right := rfl
    rw [hwrite]
    unfold viewRow putPixel writeNibble
    have hset : ∀ i b, (row.set i b).mem = update row.mem (row.start + i) b := fun _ _ => rfl
    simp only [if_true]
    by_cases hpos : pos % 2 = 0
    . simp only [hpos, if_true, hset]
      by_cases hbyte : X / 2 = pos / 2
      . rw [hbyte, update_self]
        by_cases hX : X = pos
        . rw [if_pos (by omega), hX, update_self, heven]
        . have hnext : X = pos + 1 := by omega
          rw [if_neg (by omega), update_of_ne hX, hnext, update_self, hlow]
      . rw [update_of_ne (by omega), update_of_ne (by omega), update_of_ne (by omega)]
    simp only [hpos, if_false, hset]
    by_cases hbyte : X / 2 = pos / 2
    . rw [hbyte, update_self]
      by_cases hX : X = pos
      . rw [if_neg (by omega), hX, update_self, hodd]
        rfl
      . rw [if_pos (by omega), update_of_ne hX, hhigh, if_pos (by omega), hbyte]
        rfl
    . rw [update_of_ne (by omega), update_of_ne (by omega)]

theorem viewRow_writePixels (hnibbles : four = true → ∀ p ∈ pixels, p.1.toNat < 16 ∧ p.2.toNat < 16)
    : viewRow four (writePixels (writer four) row pos pixels).mem row.start =
        putPixels four (viewRow four row.mem row.start) pos pixels := by
  induction pixels generalizing row pos with
  | nil => rfl
  | cons p pixels ih =>
    obtain ⟨b, hb⟩ := @writer_at four row pos p.1 p.2
    have hstart : (writer four row pos p.1 p.2).start = row.start := by
      rw [hb]
      rfl
    have hrest := @ih (writer four row pos p.1 p.2) (pos + 1)
      fun hfour q hq => hnibbles hfour q (mem_cons_of_mem _ hq)
    rw [hstart] at hrest
    rw [writePixels, hrest, putPixels, viewRow_write p.1 p.2 fun hfour => hnibbles hfour p (mem_cons_self ..)]

theorem writePixels_frame {a limit : Nat} (hplace : ∀ q, q < pos + pixels.length → placeOf four q < limit)
    (ha : a < row.start ∨ row.start + limit ≤ a)
    : (writePixels (writer four) row pos pixels).mem a = row.mem a := by
  induction pixels generalizing row pos with
  | nil => rfl
  | cons p pixels ih =>
    obtain ⟨b, hb⟩ := @writer_at four row pos p.1 p.2
    rw [length_cons] at hplace
    have hlt := hplace pos (by omega)
    have hrest := @ih (row.set (placeOf four pos) b) (pos + 1) (fun q hq => hplace q (by omega)) ha
    rw [writePixels, hb, hrest]
    unfold Row.set
    dsimp only
    rw [update_of_ne (by omega)]

theorem RleCode.nibbles_of_valid {c : RleCode} (h : c.Valid four)
    : four = true → ∀ p ∈ c.pixels, p.1.toNat < 16 ∧ p.2.toNat < 16 := by
  intro hfour p hp
  cases c with
  | run count left right =>
    have hnibbles := h.2.2
    rw [if_pos hfour] at hnibbles
    have heq := eq_of_mem_replicate hp
    rw [heq]
    exact hnibbles
  | absolute pixels =>
    obtain ⟨q, hq, heq⟩ := List.mem_map.mp hp
    have hnibble := h.2.2 hfour q hq
    rw [← heq]
    exact ⟨hnibble, hnibble⟩
  | endOfLine | endOfBitmap | displace dx dy => simp [RleCode.pixels] at hp

end View

section RowOf

variable {four carry : Bool} {w h x y : Nat} {cs : List RleCode} {px px' : Nat → Byte} {img : Canvas}

def rowOf (four : Bool) : List RleCode → Nat → (Nat → Byte) → (Nat → Byte) × RleFlag × List RleCode
  | [], _, px => (px, .err, [])
  | c :: cs, x, px =>
    match c.flag with
    | .err => rowOf four cs (x + c.columns) (putPixels four px x c.pixels)
    | flag => (px, flag, cs)

theorem rowOf_wellFormed (hwf : WellFormed four w h cs x y) : (rowOf four cs x px).2.1 = .end
        ∨ ((rowOf four cs x px).2.1 = .line ∧ ∃ y', WellFormed four w h (rowOf four cs x px).2.2 0 y') := by
  induction cs generalizing x y px with
  | nil => exact absurd hwf (by simp [WellFormed])
  | cons c cs ih =>
    rw [WellFormed] at hwf
    rw [rowOf]
    cases hflag : c.flag with
    | «end» => exact .inl rfl
    | line =>
      rw [hflag] at hwf
      exact .inr ⟨rfl, _, hwf.2⟩
    | err =>
      rw [hflag] at hwf
      exact ih hwf.2.2.2

theorem rowOf_congr (hwf : WellFormed four w h cs x y) (hpx : ∀ X, X < w → px X = px' X)
    : (∀ X, X < w → (rowOf four cs x px).1 X = (rowOf four cs x px').1 X)
        ∧ (rowOf four cs x px).2 = (rowOf four cs x px').2 := by
  induction cs generalizing x y px px' with
  | nil => exact ⟨hpx, rfl⟩
  | cons c cs ih =>
    rw [WellFormed] at hwf
    rw [rowOf, rowOf]
    cases hflag : c.flag with
    | «end» | line => exact ⟨hpx, rfl⟩
    | err =>
      rw [hflag] at hwf
      have hle := RleCode.length_le_columns hflag
      apply ih hwf.2.2.2
      exact putPixels_congr hpx fun X _ _ => by omega

theorem decode_rowOf : decode four carry h cs x y img =
        (let r := rowOf four cs x (img y)
         let img := update img y r.1
         if r.2.1 = .line ∧ y + 1 < h then
           decode four carry h r.2.2 0 (y + 1) (if carry then update img (y + 1) r.1 else img)
         else
           img) := by
  induction cs generalizing x img with
  | nil =>
    simp [decode, rowOf]
  | cons c cs ih =>
    cases hflag : c.flag with
    | «end» =>
      rw [decode_end hflag, rowOf, hflag]
      simp
    | line =>
      rw [decode_line hflag, rowOf, hflag]
      simp
    | err =>
      rw [decode_err hflag, rowOf, hflag, ih, update_self]
      dsimp only
      rw [update_idem]

end RowOf

section Loop

variable {four : Bool} {w h : Nat} {cs : List RleCode} {code : Area → RleCode × Area} {step : RleState → RleState}
variable {hstep : ∀ s, (step s).flag = .err → Advances s (step s)} {pitch : Nat}

theorem rleLoop_rowOf (hdec : Decodes step (writer four) code) (hplace : ∀ q, q < w → placeOf four q < pitch) {y : Nat}
    (s : RleState) (hs : s.flag = .err) (hcodes : Encodes code cs s.f) (hwf : WellFormed four w h cs s.pos y)
    (hpos : s.pos ≤ w)
    : (rleLoop step hstep w s).flag = (rowOf four cs s.pos (viewRow four s.bits.mem s.bits.start)).2.1
        ∧ viewRow four (rleLoop step hstep w s).bits.mem s.bits.start =
          (rowOf four cs s.pos (viewRow four s.bits.mem s.bits.start)).1
        ∧ Encodes code (rowOf four cs s.pos (viewRow four s.bits.mem s.bits.start)).2.2 (rleLoop step hstep w s).f
        ∧ ∀ a, a < s.bits.start ∨ s.bits.start + pitch ≤ a →
          (rleLoop step hstep w s).bits.mem a = s.bits.mem a := by
  induction cs generalizing s y with
  | nil => exact absurd hwf (by simp [WellFormed])
  | cons c cs ih =>
    rw [WellFormed] at hwf
    obtain ⟨hc, hrest⟩ := hcodes
    have happly := hdec s hs
    rw [hc] at happly
    have hle : (s.pos : Int) ≤ w := by omega
    rw [rleLoop, if_pos hle]
    have hflags : (step s).flag = c.flag := by
      rw [happly]
      rfl
    have hnone : c.flag ≠ .err → c.pixels = [] := by
      cases c <;> simp [RleCode.flag, RleCode.pixels]
    cases hflag : c.flag with
    | «end» | line =>
      rw [dif_neg (by rw [hflags, hflag]; simp), rowOf, hflag, happly]
      unfold applyCode
      rw [hnone (by rw [hflag]; simp), hflag]
      exact ⟨rfl, rfl, hrest, fun _ _ => rfl⟩
    | err =>
      rw [hflag] at hwf
      obtain ⟨hvalid, hcolumns, _, hwf⟩ := hwf
      have hlen := RleCode.length_le_columns hflag
      rw [dif_pos (by rw [hflags, hflag]), rowOf, hflag, happly]
      have hstart : (applyCode (writer four) s c (code s.f).2).bits.start = s.bits.start :=
        writePixels_start writer_at
      have hview : viewRow four (applyCode (writer four) s c (code s.f).2).bits.mem s.bits.start =
          putPixels four (viewRow four s.bits.mem s.bits.start) s.pos c.pixels :=
        viewRow_writePixels (RleCode.nibbles_of_valid hvalid)
      obtain ⟨hf, hv, he, hframe⟩ := ih (applyCode (writer four) s c (code s.f).2) hflag hrest hwf hcolumns
      rw [hstart, hview] at hf hv he
      rw [hstart] at hframe
      refine ⟨hf, hv, he, ?_⟩
      intro a ha
      rw [hframe a ha]
      exact writePixels_frame (fun q hq => hplace q (by omega)) ha

end Loop

section Load

variable {four : Bool} {h : Nat} {cs : List RleCode} {code : Area → RleCode × Area} {info : InitInfo} {bmp : MyBitmap}
variable {f : Area} {bytes : List Byte}

def codeOf (four : Bool) : Area → RleCode × Area :=
  if four then rle4Code else rle8Code

def spelledOf (four : Bool) : RleCode → List Byte → Prop :=
  if four then RleCode.Spelled4 else RleCode.Spelled8

structure RleImage (four : Bool) (info : InitInfo) (bmp : MyBitmap) : Prop where
  compression : info.header.biCompression = if four then biRle4 else biRle8
  width_lt : bmp.w.toNat < 2 ^ 31
  height_lt : bmp.h.toNat < 2 ^ 31
  row_le : ∀ q, q < bmp.w.toNat → placeOf four q < bmp.pitch.toNat

theorem loadRow_rowOf (himage : RleImage four info bmp) (fp : Area) (mem : Nat → Byte) (start : Nat) {y : Nat}
    (hcodes : Encodes (codeOf four) cs fp) (hwf : WellFormed four bmp.w.toNat h cs 0 y)
    : let r := loadRow info bmp fp { mem, start, touched := [] }
      let s := rowOf four cs 0 (viewRow four mem start)
      r.1 = s.2.1 ∧ viewRow four r.2.2.mem start = s.1 ∧ Encodes (codeOf four) s.2.2 r.2.1
        ∧ ∀ a, a < start ∨ start + bmp.pitch.toNat ≤ a → r.2.2.mem a = mem a := by
  have hwidth : bmp.w.toInt = bmp.w.toNat := by
    have hlt := himage.width_lt
    rw [BitVec.toInt_eq_toNat_cond, if_pos (by omega)]
  cases four with
  | false =>
    have hcomp : info.header.biCompression = biRle8 := by simpa using himage.compression
    have hrow : loadRow info bmp fp { mem, start, touched := [] } =
        (let s := readRle8CompressedImage fp { mem, start, touched := [] } bmp.w.toNat
         (s.flag, s.f, s.bits)) := by
      unfold loadRow
      rw [hcomp, if_neg (by decide), if_pos rfl, hwidth]
    rw [hrow]
    exact rleLoop_rowOf rle8_decodes himage.row_le _ rfl hcodes hwf (Nat.zero_le _)
  | true =>
    have hcomp : info.header.biCompression = biRle4 := by simpa using himage.compression
    have hrow : loadRow info bmp fp { mem, start, touched := [] } =
        (let s := readRle4CompressedImage fp { mem, start, touched := [] } bmp.w.toNat
         (s.flag, s.f, s.bits)) := by
      unfold loadRow
      rw [hcomp, if_neg (by decide), if_neg (by decide), if_pos rfl, hwidth]
    rw [hrow]
    exact rleLoop_rowOf rle4_decodes himage.row_le _ rfl hcodes hwf (Nat.zero_le _)

def ShowsImage (four : Bool) (w h pitch : Nat) (mem : Nat → Byte) (img : Canvas) : Prop :=
  ∀ Y X, Y < h → X < w → viewRow four mem ((h - 1 - Y) * pitch) X = img Y X

theorem viewRow_congr {mem mem' : Nat → Byte} {start w pitch X : Nat} (hrow : ∀ q, q < w → placeOf four q < pitch)
    (hmem : ∀ a, start ≤ a → a < start + pitch → mem a = mem' a) (hX : X < w)
    : viewRow four mem start X = viewRow four mem' start X := by
  have hplace := hrow X hX
  have hsame := hmem (start + placeOf four X) (by omega) (by omega)
  unfold viewRow
  unfold placeOf at hsame
  cases four with
  | false => simpa using hsame
  | true =>
    simp only [if_true] at hsame ⊢
    rw [hsame]

theorem loadRows_decode (himage : RleImage four info bmp) (cb : Bool) (n : Nat) (hn : n ≤ h) (s : LoadState) {y : Nat}
    {img : Canvas} (hcodes : Encodes (codeOf four) cs s.fp) (hwf : WellFormed four bmp.w.toNat h cs 0 y)
    (hshows : ShowsImage four bmp.w.toNat h bmp.pitch.toNat s.mem img)
    : (loadRows info bmp cb bmp.pitch.toNat n s).1 = true
        ∧ (0 < n → ShowsImage four bmp.w.toNat h bmp.pitch.toNat (loadRows info bmp cb bmp.pitch.toNat n s).2.mem
          (decode four false h cs 0 (h - n) img)) := by
  induction n generalizing cs s y img with
  | zero => exact ⟨rfl, fun hpos => by contradiction⟩
  | succ i ih =>
    obtain ⟨hflag, hview, hrest, hframe⟩ := loadRow_rowOf himage s.fp s.mem (i * bmp.pitch.toNat) hcodes hwf
    have hindex : h - 1 - (h - (i + 1)) = i := by omega
    -- The pixels of the row are those of the image, up to what is behind the last column.
    have hpx : ∀ X, X < bmp.w.toNat → viewRow four s.mem (i * bmp.pitch.toNat) X = img (h - (i + 1)) X := by
      intro X hX
      rw [← hshows (h - (i + 1)) X (by omega) hX, hindex]
    obtain ⟨hcols, hsame⟩ := rowOf_congr hwf hpx
    rw [hsame] at hflag hrest
    rw [loadRows]
    generalize loadRow info bmp s.fp { mem := s.mem, start := i * bmp.pitch.toNat, touched := [] } = r
      at hflag hview hrest hframe ⊢
    obtain ⟨flag, fp, bits⟩ := r
    dsimp only at hflag hview hrest hframe ⊢
    have hnext : ShowsImage four bmp.w.toNat h bmp.pitch.toNat bits.mem
        (update img (h - (i + 1)) (rowOf four cs 0 (img (h - (i + 1)))).1) := by
      intro Y X hY hX
      by_cases hrow : Y = h - (i + 1)
      . rw [hrow, update_self, hindex, hview, hcols X hX]
      rw [update_of_ne hrow, ← hshows Y X hY hX]
      apply viewRow_congr himage.row_le _ hX
      intro a hle hlt
      apply hframe
      rcases Nat.lt_or_gt_of_ne (show h - 1 - Y ≠ i by omega) with hless | hmore
      . left
        have hmul := Nat.mul_le_mul_right bmp.pitch.toNat (show h - 1 - Y + 1 ≤ i by omega)
        rw [Nat.succ_mul] at hmul
        omega
      right
      have hmul := Nat.mul_le_mul_right bmp.pitch.toNat (show i + 1 ≤ h - 1 - Y by omega)
      rw [Nat.succ_mul] at hmul
      omega
    rcases @rowOf_wellFormed _ _ _ _ _ _ (img (h - (i + 1))) hwf with hend | ⟨hline, y', hwf'⟩
    . rw [hend] at hflag
      rw [hflag, if_neg (by simp), if_pos rfl]
      constructor
      . rfl
      intro _
      rw [decode_rowOf]
      have hnot : ¬((rowOf four cs 0 (img (h - (i + 1)))).2.1 = .line ∧ h - (i + 1) + 1 < h) := by
        rw [hend]
        simp
      rw [if_neg hnot]
      split
      . exact hnext
      . exact hnext
    rw [hline] at hflag
    rw [hflag, if_neg (by simp), if_neg (by simp)]
    have hstep : ∀ s' : LoadState, s'.fp = fp → s'.mem = bits.mem →
        (loadRows info bmp cb bmp.pitch.toNat i s').1 = true
          ∧ ShowsImage four bmp.w.toNat h bmp.pitch.toNat (loadRows info bmp cb bmp.pitch.toNat i s').2.mem
            (decode four false h cs 0 (h - (i + 1)) img) := by
      intro s' hfp hmem
      rw [← hfp] at hrest
      rw [← hmem] at hnext
      obtain ⟨hok, hshow⟩ := ih (by omega) s' hrest hwf' hnext
      refine ⟨hok, ?_⟩
      rw [decode_rowOf]
      by_cases hi : 0 < i
      . have hsucc : h - (i + 1) + 1 = h - i := by omega
        rw [if_pos ⟨hline, by omega⟩, if_neg (by simp), hsucc]
        exact hshow hi
      have hzero : i = 0 := by omega
      rw [if_neg (by omega)]
      rw [hzero] at hnext ⊢
      exact hnext
    split
    . exact ⟨(hstep _ rfl rfl).1, fun _ => (hstep _ rfl rfl).2⟩
    . exact ⟨(hstep _ rfl rfl).1, fun _ => (hstep _ rfl rfl).2⟩

theorem loadRows_scanlines (himage : RleImage four info bmp) (n : Nat) (hn : n ≤ h) (s : LoadState) {y : Nat}
    {img : Canvas} (hcodes : Encodes (codeOf four) cs s.fp) (hwf : WellFormed four bmp.w.toNat h cs 0 y)
    (hview : 0 < n → ∀ X, X < bmp.w.toNat → viewRow four s.mem 0 X = img (h - n) X)
    : ∀ p ∈ (loadRows info bmp true 0 n s).2.scanlines, p ∈ s.scanlines
        ∨ (p.1 < n ∧ ∀ X, X < bmp.w.toNat →
          viewRow four p.2 0 X = decode four true h cs 0 (h - n) img (h - 1 - p.1) X) := by
  induction n generalizing cs s y img with
  | zero =>
    intro p hp
    exact .inl hp
  | succ i ih =>
    obtain ⟨hflag, hrow, hrest, _⟩ := loadRow_rowOf himage s.fp s.mem 0 hcodes hwf
    have hindex : h - 1 - i = h - (i + 1) := by omega
    obtain ⟨hcols, hsame⟩ := rowOf_congr hwf (hview (by omega))
    rw [hsame] at hflag hrest
    rw [loadRows, Nat.mul_zero]
    generalize loadRow info bmp s.fp { mem := s.mem, start := 0, touched := [] } = r at hflag hrow hrest ⊢
    obtain ⟨flag, fp, bits⟩ := r
    dsimp only at hflag hrow hrest ⊢
    simp only [Bool.true_and, decide_true, if_true]
    -- The row that is passed on is not decoded again.
    have hpassed : ∀ X, X < bmp.w.toNat →
        viewRow four bits.mem 0 X = decode four true h cs 0 (h - (i + 1)) img (h - (i + 1)) X := by
      intro X hX
      rw [hrow, hcols X hX, decode_rowOf]
      dsimp only
      split
      . rw [decode_front (by unfold Behind; omega), if_pos rfl, update_of_ne (by omega), update_self]
      . rw [update_self]
    rcases @rowOf_wellFormed _ _ _ _ _ _ (img (h - (i + 1))) hwf with hend | ⟨hline, y', hwf'⟩
    . rw [hend] at hflag
      rw [hflag, if_neg (by simp)]
      simp only [if_true]
      intro p hp
      rcases mem_cons.mp hp with heq | hp
      . right
        rw [heq, hindex]
        exact ⟨by omega, hpassed⟩
      . exact .inl hp
    rw [hline] at hflag
    rw [hflag, if_neg (by simp), if_neg (by simp)]
    intro p hp
    have hcarried : 0 < i → ∀ X, X < bmp.w.toNat → viewRow four bits.mem 0 X =
        update (update img (h - (i + 1)) (rowOf four cs 0 (img (h - (i + 1)))).1) (h - (i + 1) + 1)
          (rowOf four cs 0 (img (h - (i + 1)))).1 (h - i) X := by
      intro hi X hX
      have hsucc : h - (i + 1) + 1 = h - i := by omega
      rw [hsucc, update_self, hrow, hcols X hX]
    rcases @ih _ (by omega) _ _ _ hrest hwf' hcarried p hp with hmem | ⟨hlt, hshow⟩
    . rcases mem_cons.mp hmem with heq | hmem
      . right
        rw [heq, hindex]
        exact ⟨by omega, hpassed⟩
      . exact .inl hmem
    right
    refine ⟨by omega, ?_⟩
    intro X hX
    have hsucc : h - (i + 1) + 1 = h - i := by omega
    rw [hshow X hX, @decode_rowOf four true h 0 (h - (i + 1)) cs img]
    rw [if_pos ⟨hline, by omega⟩, if_pos rfl, hsucc]

theorem exists_showsImage {w pitch : Nat} (hrow : ∀ q, q < w → placeOf four q < pitch) (img : Canvas)
    (hnibbles : ∀ Y X, (img Y X).toNat < 16) : ∃ mem, ShowsImage four w h pitch mem img := by
  refine ⟨fun a =>
    if four then
      img (h - 1 - a / pitch) (2 * (a % pitch)) <<< 4 ||| img (h - 1 - a / pitch) (2 * (a % pitch) + 1)
    else
      img (h - 1 - a / pitch) (a % pitch), ?_⟩
  intro Y X hY hX
  have hplace := hrow X hX
  have hdiv : ((h - 1 - Y) * pitch + placeOf four X) / pitch = h - 1 - Y := by
    rw [Nat.mul_comm, Nat.mul_add_div (by omega), Nat.div_eq_of_lt hplace, Nat.add_zero]
  have hmod : ((h - 1 - Y) * pitch + placeOf four X) % pitch = placeOf four X := by
    rw [Nat.mul_comm, Nat.mul_add_mod, Nat.mod_eq_of_lt hplace]
  have hback : h - 1 - (h - 1 - Y) = Y := by omega
  cases four with
  | false =>
    have hX' : placeOf false X = X := rfl
    rw [hX'] at hdiv hmod
    unfold viewRow
    simp only [Bool.false_eq_true, if_false]
    rw [hdiv, hmod, hback]
  | true =>
    have hX' : placeOf true X = X / 2 := rfl
    rw [hX'] at hdiv hmod
    unfold viewRow
    simp only [if_true]
    rw [hdiv, hmod, hback]
    obtain ⟨a, ha⟩ := nibble_cases (hnibbles Y (2 * (X / 2)))
    obtain ⟨b, hb⟩ := nibble_cases (hnibbles Y (2 * (X / 2) + 1))
    have hparts : (img Y (2 * (X / 2)) <<< 4 ||| img Y (2 * (X / 2) + 1)) >>> 4 = img Y (2 * (X / 2))
        ∧ (img Y (2 * (X / 2)) <<< 4 ||| img Y (2 * (X / 2) + 1)) &&& 0x0F = img Y (2 * (X / 2) + 1) := by
      rw [ha, hb]
      constructor
      all_goals
        apply byte_ext
        simp [Fin.forall_fin_succ]
    split
    next heven =>
      have heq : 2 * (X / 2) = X := by omega
      rw [hparts.1, heq]
    next hodd =>
      have heq : 2 * (X / 2) + 1 = X := by omega
      rw [hparts.2, heq]

end Load

section Meaning

variable {four : Bool} {cs : List RleCode} {info : InitInfo} {bmp : MyBitmap} {f : Area} {bytes : List Byte}

def MyBitmap.whole (bmp : MyBitmap) : MyBitmap :=
  { bmp with loadAllocateOne := false }

def MyBitmap.oneRow (bmp : MyBitmap) : MyBitmap :=
  { bmp with loadAllocateOne := true }

def LoadsMeaning (four : Bool) (info : InitInfo) (bmp : MyBitmap) (f : Area) (cs : List RleCode) : Prop :=
  ∀ mem,
    (∀ cb,
      (mgLoadBmp f info bmp.whole mem cb).1 = true
        ∧ ShowsImage four bmp.w.toNat bmp.h.toNat bmp.pitch.toNat (mgLoadBmp f info bmp.whole mem cb).2.mem
          fun Y X => meant cs 0 0 X Y)
      ∧ ∀ p ∈ (mgLoadBmp f info bmp.oneRow mem true).2.scanlines, ∀ X, X < bmp.w.toNat →
        viewRow four p.2 0 X = meant cs 0 0 X (bmp.h.toNat - 1 - p.1)

theorem mgLoadBmp_rle (himage : RleImage four info bmp) (mem : Nat → Byte) (cb : Bool)
    : mgLoadBmp f info bmp mem cb =
        loadRows info bmp cb (if bmp.loadAllocateOne then 0 else bmp.pitch.toNat) bmp.h.toNat
          { fp := f, mem, touched := [], scanlines := [] } := by
  have hrows := MyBitmap.rows_eq himage.height_lt
  unfold MyBitmap.rows at hrows
  unfold mgLoadBmp
  rw [hrows]
  cases four with
  | false =>
    have hcomp : info.header.biCompression = biRle8 := by simpa using himage.compression
    rw [hcomp, if_neg (by decide), if_pos (by decide)]
  | true =>
    have hcomp : info.header.biCompression = biRle4 := by simpa using himage.compression
    rw [hcomp, if_neg (by decide), if_pos (by decide)]

theorem encodes_codeOf {w h x y : Nat} (hwf : WellFormed four w h cs x y)
    (hstream : Stream (spelledOf four) cs bytes) (hholds : f.Holds bytes)
    : Encodes (codeOf four) cs f := by
  have hvalid : ∀ c ∈ cs, c.Valid four := by
    clear hstream
    induction cs generalizing x y with
    | nil =>
      intro c hc
      contradiction
    | cons c cs ih =>
      rw [WellFormed] at hwf
      have hcode : c.flag ≠ .err → c.Valid four := by
        cases c <;> simp [RleCode.flag, RleCode.Valid]
      intro d hd
      cases hflag : c.flag with
      | «end» =>
        rw [hflag] at hwf
        rcases mem_cons.mp hd with heq | hd
        . rw [heq]
          exact hcode (by rw [hflag]; simp)
        . rw [show cs = [] from hwf] at hd
          contradiction
      | line =>
        rw [hflag] at hwf
        rcases mem_cons.mp hd with heq | hd
        . rw [heq]
          exact hcode (by rw [hflag]; simp)
        . exact ih hwf.2 d hd
      | err =>
        rw [hflag] at hwf
        rcases mem_cons.mp hd with heq | hd
        . rw [heq]
          exact hwf.1
        . exact ih hwf.2.2.2 d hd
  cases four with
  | false => exact encodes_of_stream rle8Code_spelled hvalid hstream hholds
  | true => exact encodes_of_stream rle4Code_spelled hvalid hstream hholds

section

variable (himage : RleImage four info bmp)
include himage

theorem RleImage.whole : RleImage four info bmp.whole :=
  ⟨himage.compression, himage.width_lt, himage.height_lt, himage.row_le⟩

theorem RleImage.oneRow : RleImage four info bmp.oneRow :=
  ⟨himage.compression, himage.width_lt, himage.height_lt, himage.row_le⟩

theorem complete_of_loadsMeaning (hstream : Stream (spelledOf four) cs bytes)
    (hholds : f.Holds bytes) (hwf : WellFormed four bmp.w.toNat bmp.h.toNat cs 0 0)
    (hall : LoadsMeaning four info bmp f cs) (hw : 0 < bmp.w.toNat) (hh : 0 < bmp.h.toNat)
    : Complete four bmp.w.toNat bmp.h.toNat cs 0 0 := by
  have hcodes := encodes_codeOf hwf hstream hholds
  apply complete_of_decodesTo hw hwf hh
  intro img hnibbles _ X Y _ hX hY
  obtain ⟨mem, hshows⟩ := @exists_showsImage four bmp.h.toNat _ _ himage.row_le img hnibbles
  have hmeant := ((hall mem).1 false).2 Y X hY hX
  rw [mgLoadBmp_rle himage.whole] at hmeant
  have hload := (loadRows_decode himage.whole false bmp.h.toNat (Nat.le_refl _)
    { fp := f, mem, touched := [], scanlines := [] } hcodes hwf hshows).2 hh Y X hY hX
  rw [Nat.sub_self] at hload
  rw [← hload]
  exact hmeant

theorem loadsMeaning_of_complete (hstream : Stream (spelledOf four) cs bytes)
    (hholds : f.Holds bytes) (hwf : WellFormed four bmp.w.toNat bmp.h.toNat cs 0 0)
    (hcomplete : 0 < bmp.w.toNat → 0 < bmp.h.toNat → Complete four bmp.w.toNat bmp.h.toNat cs 0 0)
    : LoadsMeaning four info bmp f cs := by
  have hcodes := encodes_codeOf hwf hstream hholds
  have hdecode : ∀ carry img Y X, Y < bmp.h.toNat → X < bmp.w.toNat →
      decode four carry bmp.h.toNat cs 0 (bmp.h.toNat - bmp.h.toNat) img Y X = meant cs 0 0 X Y := by
    intro carry img Y X hY hX
    have hh : 0 < bmp.h.toNat := by omega
    have hw : 0 < bmp.w.toNat := by omega
    rw [Nat.sub_self]
    apply decode_eq_meant hwf (hcomplete hw hh) hh
    . intro _ hodd
      omega
    . unfold Behind
      omega
    . exact hX
    . exact hY
  intro mem
  constructor
  . intro cb
    rw [mgLoadBmp_rle himage.whole]
    have hload := @loadRows_decode four bmp.h.toNat cs info bmp.whole himage.whole cb bmp.h.toNat (Nat.le_refl _)
      { fp := f, mem, touched := [], scanlines := [] } 0
      (fun Y => viewRow four mem ((bmp.h.toNat - 1 - Y) * bmp.pitch.toNat)) hcodes hwf (fun _ _ _ _ => rfl)
    refine ⟨hload.1, ?_⟩
    intro Y X hY hX
    have hpixel := hload.2 (by omega) Y X hY hX
    rw [hdecode _ _ Y X hY hX] at hpixel
    exact hpixel
  rw [mgLoadBmp_rle himage.oneRow]
  intro p hp X hX
  have hrows := @loadRows_scanlines four bmp.h.toNat cs info bmp.oneRow himage.oneRow bmp.h.toNat (Nat.le_refl _)
    { fp := f, mem, touched := [], scanlines := [] } 0 (fun _ => viewRow four mem 0) hcodes hwf
    (fun _ _ _ => rfl) p hp
  rcases hrows with hnone | ⟨hlt, hshow⟩
  . contradiction
  . rw [← hdecode true (fun _ => viewRow four mem 0) _ X (by omega) hX]
    exact hshow X hX

end

theorem rle_loads_iff (himage : RleImage four info bmp) (hstream : Stream (spelledOf four) cs bytes)
    (hholds : f.Holds bytes) (hwf : WellFormed four bmp.w.toNat bmp.h.toNat cs 0 0)
    : LoadsMeaning four info bmp f cs ↔
        (0 < bmp.w.toNat → 0 < bmp.h.toNat → Complete four bmp.w.toNat bmp.h.toNat cs 0 0) := by
  constructor
  . exact complete_of_loadsMeaning himage hstream hholds hwf
  . exact loadsMeaning_of_complete himage hstream hholds hwf

def rleInfo (four : Bool) : InitInfo :=
  {
    header := { biWidth := 2, biHeight := 2, biBitCount := if four then 4 else 8, biCompression := if four then 2 else 1 }
    gmask := 0
  }

def twoByTwo : MyBitmap :=
  { loadAllocateOne := false, depth := 8, w := 2, h := 2, pitch := 4 }

theorem twoByTwo_image (four : Bool) : RleImage four (rleInfo four) twoByTwo := by
  constructor
  . cases four <;> rfl
  . decide
  . decide
  intro q hq
  have hlt : q < 2 := hq
  have hpitch : twoByTwo.pitch.toNat = 4 := rfl
  unfold placeOf
  rw [hpitch]
  split <;> omega

def areaOf (bytes : List Byte) : Area :=
  { type := .mem, bytes, here := 0, uninit := fun _ => 0 }

theorem areaOf_holds (bytes : List Byte) : (areaOf bytes).Holds bytes :=
  ⟨rfl, Nat.zero_le _⟩

theorem rle_loads_twoRows
    : LoadsMeaning true (rleInfo true) twoByTwo (areaOf [2, 0x12, 0, 0, 2, 0x34, 0, 1])
        [.run 2 1 2, .endOfLine, .run 2 3 4, .endOfBitmap]
      ↔ (0 < twoByTwo.w.toNat → 0 < twoByTwo.h.toNat
        → Complete true twoByTwo.w.toNat twoByTwo.h.toNat [.run 2 1 2, .endOfLine, .run 2 3 4, .endOfBitmap] 0 0) := by
  apply rle_loads_iff (twoByTwo_image true) _ (areaOf_holds _)
  . refine ⟨⟨by decide, by decide, by decide, by decide⟩, by decide, by decide, by decide, ?_⟩
    exact ⟨⟨by decide, by decide, by decide, by decide⟩, by decide, by decide, rfl⟩
  . refine ⟨[2, 0x12], _, rfl, rfl, [0, 0], _, rfl, rfl, [2, 0x34], _, rfl, rfl, [0, 1], [], rfl, rfl, trivial⟩

theorem rle_loads_moved
    : ¬LoadsMeaning false (rleInfo false) twoByTwo (areaOf [0, 2, 0, 1, 2, 7, 0, 1])
        [.displace 0 1, .run 2 7 7, .endOfBitmap] := by
  intro hall
  have hcomplete := complete_of_loadsMeaning (twoByTwo_image false) ?_ (areaOf_holds _) ?_ hall (by decide) (by decide)
  . exact absurd hcomplete.1.2 (by decide)
  . exact ⟨[0, 2, 0, 1], _, rfl, rfl, [2, 7], _, rfl, rfl, [0, 1], [], rfl, rfl, trivial⟩
  . refine ⟨⟨by decide, by decide⟩, by decide, by decide, ?_⟩
    exact ⟨⟨by decide, by decide, rfl⟩, by decide, by decide, rfl⟩

end Meaning

end MiniGui
