import MiniGui.Mybmp.RleCodes

namespace MiniGui

section Row

variable (code : Area → RleCode × Area) (width : Int) (limit : Nat)

def RowStep (a b : Nat × Area) : Prop :=
  (a.1 : Int) ≤ width ∧ (code a.2).1.flag = .err ∧ b = (a.1 + (code a.2).1.columns, (code a.2).2)

def RowFits (a : Nat × Area) : Prop :=
  ∀ b, Relation.ReflTransGen (RowStep code width) a b → (b.1 : Int) ≤ width → (code b.2).1.pixels ≠ []
    → b.1 + (code b.2).1.pixels.length ≤ limit

def RowEnds (a : Nat × Area) (g : Area) : Prop :=
  ∃ b, Relation.ReflTransGen (RowStep code width) a b ∧ (b.1 : Int) ≤ width ∧ (code b.2).1 = .endOfLine
    ∧ g = (code b.2).2

variable {code width limit}

theorem rowFits_iff {a : Nat × Area} : RowFits code width limit a ↔
        ((a.1 : Int) ≤ width →
          ((code a.2).1.pixels ≠ [] → a.1 + (code a.2).1.pixels.length ≤ limit)
            ∧ ((code a.2).1.flag = .err
              → RowFits code width limit (a.1 + (code a.2).1.columns, (code a.2).2))) := by
  constructor
  . intro h hle
    constructor
    . exact h a .refl hle
    . intro hflag b hb
      exact h b (.head ⟨hle, hflag, rfl⟩ hb)
  intro h b hb hle
  rcases Relation.ReflTransGen.cases_head hb with heq | ⟨c, hc, hcb⟩
  . rw [← heq] at hle ⊢
    exact (h hle).1
  . obtain ⟨hale, hflag, hceq⟩ := hc
    rw [hceq] at hcb
    exact (h hale).2 hflag b hcb hle

theorem rowEnds_iff {a : Nat × Area} {g : Area} : RowEnds code width a g ↔
        (a.1 : Int) ≤ width ∧
          (((code a.2).1 = .endOfLine ∧ g = (code a.2).2)
            ∨ ((code a.2).1.flag = .err ∧ RowEnds code width (a.1 + (code a.2).1.columns, (code a.2).2) g)) := by
  constructor
  . rintro ⟨b, hb, hle, hend, hg⟩
    rcases Relation.ReflTransGen.cases_head hb with heq | ⟨c, hc, hcb⟩
    . rw [← heq] at hle hend hg
      exact ⟨hle, .inl ⟨hend, hg⟩⟩
    . obtain ⟨hale, hflag, hceq⟩ := hc
      rw [hceq] at hcb
      exact ⟨hale, .inr ⟨hflag, b, hcb, hle, hend, hg⟩⟩
  . rintro ⟨hle, ⟨hend, hg⟩ | ⟨hflag, b, hb, hble, hend, hg⟩⟩
    . exact ⟨a, .refl, hle, hend, hg⟩
    . exact ⟨b, .head ⟨hle, hflag, rfl⟩ hb, hble, hend, hg⟩

end Row

section Loop

variable {code : Area → RleCode × Area} {width : Int} {limit pitch : Nat} {write : WritePixel} {place : Nat → Nat}
variable {step : RleState → RleState} {hstep : ∀ s, (step s).flag = .err → Advances s (step s)}

def Decodes (step : RleState → RleState) (write : WritePixel) (code : Area → RleCode × Area) : Prop :=
  ∀ s, s.flag = .err → step s = applyCode write s (code s.f).1 (code s.f).2

theorem applyCode_touched (hwrite : WritesAt write place) (hplace : ∀ q, place q < pitch ↔ q < limit)
    (s : RleState) (c : RleCode) (f : Area)
    : (∀ i ∈ (applyCode write s c f).bits.touched, i < pitch)
        ↔ (∀ i ∈ s.bits.touched, i < pitch) ∧ (c.pixels ≠ [] → s.pos + c.pixels.length ≤ limit) := by
  unfold applyCode
  simp only [writePixels_touched hwrite]
  constructor
  . intro h
    refine ⟨fun i hi => h i (.inl hi), ?_⟩
    intro hne
    have hpos := List.length_pos_iff.mpr hne
    have hlast := h (place (s.pos + c.pixels.length - 1)) (.inr ⟨_, by omega, by omega, rfl⟩)
    rw [hplace] at hlast
    omega
  rintro ⟨hold, hnew⟩ i (hi | ⟨q, hq, hlt, heq⟩)
  . exact hold i hi
  rw [heq, hplace]
  have hne : c.pixels ≠ [] := by
    intro hnil
    rw [hnil, List.length_nil] at hlt
    omega
  have hle := hnew hne
  omega

theorem rleLoop_touched (hdec : Decodes step write code) (hwrite : WritesAt write place)
    (hplace : ∀ q, place q < pitch ↔ q < limit) (s : RleState) (hs : s.flag = .err)
    : (∀ i ∈ (rleLoop step hstep width s).bits.touched, i < pitch)
        ↔ (∀ i ∈ s.bits.touched, i < pitch) ∧ RowFits code width limit (s.pos, s.f) := by
  fun_induction rleLoop step hstep width s with
  | case1 s hle s' hflag ih =>
    have happly := hdec s hs
    have htouched := applyCode_touched hwrite hplace s (code s.f).1 (code s.f).2
    rw [← happly] at htouched
    rw [ih hflag, htouched, rowFits_iff (a := (s.pos, s.f))]
    have herr : (code s.f).1.flag = .err := by
      have hf := congrArg RleState.flag happly
      exact hf.symm.trans hflag
    have hnext : (s'.pos, s'.f) = (s.pos + (code s.f).1.columns, (code s.f).2) := by
      show ((step s).pos, (step s).f) = _
      rw [happly]
      rfl
    rw [hnext]
    tauto
  | case2 s hle s' hflag =>
    have happly := hdec s hs
    have htouched := applyCode_touched hwrite hplace s (code s.f).1 (code s.f).2
    rw [← happly] at htouched
    rw [htouched, rowFits_iff (a := (s.pos, s.f))]
    have hend : (code s.f).1.flag ≠ .err := by
      have hf := congrArg RleState.flag happly
      intro herr
      exact hflag (hf.trans herr)
    tauto
  | case3 s hle =>
    rw [rowFits_iff (a := (s.pos, s.f))]
    tauto

theorem rleLoop_line (hdec : Decodes step write code) (s : RleState) (hs : s.flag = .err) (g : Area)
    : ((rleLoop step hstep width s).flag = .line ∧ (rleLoop step hstep width s).f = g)
        ↔ RowEnds code width (s.pos, s.f) g := by
  have hline : ∀ c : RleCode, c.flag = .line ↔ c = .endOfLine := by
    intro c
    cases c <;> simp [RleCode.flag]
  fun_induction rleLoop step hstep width s with
  | case1 s hle s' hflag ih =>
    have happly := hdec s hs
    have herr : (code s.f).1.flag = .err := by
      have hf := congrArg RleState.flag happly
      exact hf.symm.trans hflag
    have hnext : (s'.pos, s'.f) = (s.pos + (code s.f).1.columns, (code s.f).2) := by
      show ((step s).pos, (step s).f) = _
      rw [happly]
      rfl
    have hnot : (code s.f).1 ≠ .endOfLine := by
      intro heq
      rw [heq] at herr
      contradiction
    apply (ih hflag).trans
    rw [hnext, rowEnds_iff (a := (s.pos, s.f))]
    tauto
  | case2 s hle s' hflag =>
    have happly := hdec s hs
    have hf : s'.flag = (code s.f).1.flag := congrArg RleState.flag happly
    have harea : s'.f = (code s.f).2 := congrArg RleState.f happly
    rw [rowEnds_iff (a := (s.pos, s.f)), hf, harea, hline]
    rw [hf] at hflag
    constructor
    . rintro ⟨hend, heq⟩
      exact ⟨hle, .inl ⟨hend, heq.symm⟩⟩
    . rintro ⟨_, ⟨hend, heq⟩ | ⟨herr, _⟩⟩
      . exact ⟨hend, heq.symm⟩
      . exact absurd herr hflag
  | case3 s hle =>
    rw [rowEnds_iff (a := (s.pos, s.f)), hs]
    constructor
    . rintro ⟨hline, _⟩
      contradiction
    . rintro ⟨h, _⟩
      contradiction

theorem rle8_decodes : Decodes rle8Step writeByte rle8Code :=
  fun _ h => rle8Step_eq h

theorem rle4_decodes : Decodes rle4Step writeNibble rle4Code :=
  fun _ h => rle4Step_eq h

end Loop

section Rows

variable {info : InitInfo} {bmp : MyBitmap} {cb : Bool} {pitch : Nat}

structure RowSpec (info : InitInfo) (bmp : MyBitmap) (fits : Area → Prop) (ends : Area → Area → Prop) : Prop where
  touched : ∀ fp mem start,
    (∀ i ∈ (loadRow info bmp fp { mem, start, touched := [] }).2.2.touched, i < bmp.pitch.toNat) ↔ fits fp
  line : ∀ fp mem start g,
    ((loadRow info bmp fp { mem, start, touched := [] }).1 = .line
        ∧ (loadRow info bmp fp { mem, start, touched := [] }).2.1 = g)
      ↔ ends fp g

def AllFit (fits : Area → Prop) (ends : Area → Area → Prop) : Nat → Area → Prop
  | 0, _ => True
  | n + 1, fp => fits fp ∧ ∀ g, ends fp g → AllFit fits ends n g

theorem loadRows_touched {fits : Area → Prop} {ends : Area → Area → Prop} (h : RowSpec info bmp fits ends) (n : Nat)
    (s : LoadState) : (∀ p ∈ (loadRows info bmp cb pitch n s).2.touched, p.2 < bmp.pitch.toNat)
        ↔ (∀ p ∈ s.touched, p.2 < bmp.pitch.toNat) ∧ AllFit fits ends n s.fp := by
  induction n generalizing s with
  | zero =>
    rw [loadRows, AllFit, and_true]
  | succ i ih =>
    have htouched := h.touched s.fp s.mem (i * pitch)
    have hline := h.line s.fp s.mem (i * pitch)
    rw [loadRows, AllFit]
    generalize loadRow info bmp s.fp { mem := s.mem, start := i * pitch, touched := [] } = r at htouched hline ⊢
    obtain ⟨flag, fp, bits⟩ := r
    dsimp only at htouched hline ⊢
    have hrow : (∀ p ∈ bits.touched.map (fun pos => (i, pos)) ++ s.touched, p.2 < bmp.pitch.toNat)
        ↔ (∀ p ∈ s.touched, p.2 < bmp.pitch.toNat) ∧ fits s.fp := by
      rw [← htouched]
      simp only [List.mem_append, List.mem_map]
      constructor
      . intro hall
        exact ⟨fun p hp => hall p (.inr hp), fun j hj => hall (i, j) (.inl ⟨j, hj, rfl⟩)⟩
      rintro ⟨hold, hnew⟩ p (⟨j, hj, heq⟩ | hp)
      . rw [← heq]
        exact hnew j hj
      . exact hold p hp
    cases flag with
    | err =>
      rw [if_pos rfl, hrow]
      have hnone : ∀ g, ¬ends s.fp g := by
        intro g hg
        have := ((hline g).mpr hg).1
        contradiction
      constructor
      . rintro ⟨hold, hfits⟩
        exact ⟨hold, hfits, fun g hg => absurd hg (hnone g)⟩
      . rintro ⟨hold, hfits, _⟩
        exact ⟨hold, hfits⟩
    | line =>
      rw [if_neg (by simp), if_neg (by simp), ih]
      have hends : ∀ g, ends s.fp g ↔ fp = g := by
        intro g
        rw [← hline g]
        simp
      simp only [hends, forall_eq']
      split
      . dsimp only
        rw [hrow]
        tauto
      . dsimp only
        rw [hrow]
        tauto
    | «end» =>
      rw [if_neg (by simp), if_pos rfl]
      have hnone : ∀ g, ¬ends s.fp g := by
        intro g hg
        have := ((hline g).mpr hg).1
        contradiction
      have hall : (∀ p ∈ s.touched, p.2 < bmp.pitch.toNat) ∧ fits s.fp
          ↔ (∀ p ∈ s.touched, p.2 < bmp.pitch.toNat) ∧ fits s.fp ∧ ∀ g, ends s.fp g → AllFit fits ends i g := by
        constructor
        . rintro ⟨hold, hfits⟩
          exact ⟨hold, hfits, fun g hg => absurd hg (hnone g)⟩
        . rintro ⟨hold, hfits, _⟩
          exact ⟨hold, hfits⟩
      rw [← hall, ← hrow]
      split
      . rfl
      . rfl

end Rows

theorem bmpComputePitch_eq (width : BitVec 32)
    : (bmpComputePitch 24 width).toNat = (width.toNat * 3 + 3) % 2 ^ 32 / 4 * 4 := by
  have h24 : bmpComputePitch 24 width = (width * 3 + 3) &&& 4294967292#32 := rfl
  rw [h24, toNat_and_neg_four, BitVec.toNat_add, BitVec.toNat_mul]
  simp

theorem three_mul_le_pitch {width : BitVec 32} (h : 0 < width.toInt)
    : 3 * width.toNat ≤ (bmpComputePitch 24 width).toNat ↔ 3 * width.toInt + 3 < 2 ^ 32 := by
  rw [BitVec.toInt_eq_toNat_cond] at h ⊢
  rw [bmpComputePitch_eq]
  split at h
  . omega
  . omega

theorem read16Pixels_touched (gmask : BitVec 32) (n i : Nat) (f : Area) (bits : Row) (j : Nat)
    : j ∈ (read16Pixels gmask n i f bits).2.touched ↔ j ∈ bits.touched ∨ (3 * i ≤ j ∧ j < 3 * (i + n)) := by
  induction n generalizing i f bits with
  | zero =>
    rw [read16Pixels]
    constructor
    . exact .inl
    . rintro (h | h)
      . exact h
      . omega
  | succ n ih =>
    rw [read16Pixels, ih]
    split
    all_goals
      simp only [Row.set, List.mem_cons]
      constructor
      . rintro ((h | h | h | h) | h)
        all_goals first | exact .inl h | (right; omega)
      rintro (h | h)
      . exact .inl (.inr (.inr (.inr h)))
      by_cases hhead : j < 3 * (i + 1)
      . left
        omega
      . right
        omega

def skip16 : Nat → Area → Area
  | 0, f => f
  | n + 1, f => skip16 n (fpIgetw f).2

theorem read16Pixels_area (gmask : BitVec 32) (n i : Nat) (f : Area) (bits : Row)
    : (read16Pixels gmask n i f bits).1 = skip16 n f := by
  induction n generalizing i f bits with
  | zero => rfl
  | succ n ih =>
    rw [read16Pixels, ih]
    rfl

def skipRow16 (width : Int) (f : Area) : Area :=
  if width % 2 ≠ 0 then (fpIgetw (skip16 width.toNat f)).2 else skip16 width.toNat f

theorem read16bitImage_area (f : Area) (bits : Row) (width : Int) (gmask : BitVec 32)
    : (read16bitImage f bits width gmask).1 = skipRow16 width f := by
  unfold read16bitImage skipRow16
  have harea := read16Pixels_area gmask width.toNat 0 f bits
  generalize read16Pixels gmask width.toNat 0 f bits = r at harea ⊢
  obtain ⟨g, row⟩ := r
  dsimp only at harea ⊢
  rw [← harea]
  split
  . rfl
  . rfl

theorem read16bitImage_touched (f : Area) (bits : Row) (width : Int) (gmask : BitVec 32) (j : Nat)
    : j ∈ (read16bitImage f bits width gmask).2.touched ↔ j ∈ bits.touched ∨ j < 3 * width.toNat := by
  unfold read16bitImage
  have htouched := read16Pixels_touched gmask width.toNat 0 f bits j
  generalize read16Pixels gmask width.toNat 0 f bits = r at htouched ⊢
  obtain ⟨g, row⟩ := r
  dsimp only at htouched ⊢
  have hrow : j ∈ row.touched ↔ j ∈ bits.touched ∨ j < 3 * width.toNat := by
    rw [htouched]
    simp
  split
  . exact hrow
  . exact hrow

section Specs

theorem Row.copy_touched (row : Row) (i : Nat) (l : List Byte) (j : Nat)
    : j ∈ (row.copy i l).touched ↔ j ∈ row.touched ∨ (i ≤ j ∧ j < i + l.length) := by
  induction l generalizing row i with
  | nil =>
    rw [Row.copy]
    constructor
    . exact .inl
    rintro (h | h)
    . exact h
    . rw [List.length_nil] at h
      omega
  | cons b l ih =>
    rw [Row.copy, ih, List.length_cons]
    simp only [Row.set, List.mem_cons]
    constructor
    . rintro ((h | h) | h)
      . right
        omega
      . exact .inl h
      . right
        omega
    rintro (h | h)
    . exact .inl (.inr h)
    by_cases hhead : j = i
    . exact .inl (.inl hhead)
    . right
      omega

variable {info : InitInfo} {bmp : MyBitmap}

theorem rowSpec_rle8 (h : info.header.biCompression = biRle8)
    : RowSpec info bmp (fun f => RowFits rle8Code bmp.w.toInt bmp.pitch.toNat (0, f))
        (fun f => RowEnds rle8Code bmp.w.toInt (0, f)) := by
  have hrow : ∀ fp bits, loadRow info bmp fp bits =
      ((readRle8CompressedImage fp bits bmp.w.toInt).flag, (readRle8CompressedImage fp bits bmp.w.toInt).f,
        (readRle8CompressedImage fp bits bmp.w.toInt).bits) := by
    intro fp bits
    unfold loadRow
    rw [h, if_neg (by decide), if_pos rfl]
  constructor
  . intro fp mem start
    rw [hrow]
    apply (rleLoop_touched rle8_decodes writeByte_at (fun _ => Iff.rfl) _ rfl).trans
    simp
  . intro fp mem start g
    rw [hrow]
    exact rleLoop_line rle8_decodes _ rfl g

theorem rowSpec_rle4 (h : info.header.biCompression = biRle4)
    : RowSpec info bmp (fun f => RowFits rle4Code bmp.w.toInt (2 * bmp.pitch.toNat) (0, f))
        (fun f => RowEnds rle4Code bmp.w.toInt (0, f)) := by
  have hrow : ∀ fp bits, loadRow info bmp fp bits =
      ((readRle4CompressedImage fp bits bmp.w.toInt).flag, (readRle4CompressedImage fp bits bmp.w.toInt).f,
        (readRle4CompressedImage fp bits bmp.w.toInt).bits) := by
    intro fp bits
    unfold loadRow
    rw [h, if_neg (by decide), if_neg (by decide), if_pos rfl]
  constructor
  . intro fp mem start
    rw [hrow]
    have hhalf : ∀ q, q / 2 < bmp.pitch.toNat ↔ q < 2 * bmp.pitch.toNat := by omega
    apply (rleLoop_touched rle4_decodes writeNibble_at hhalf _ rfl).trans
    simp
  . intro fp mem start g
    rw [hrow]
    exact rleLoop_line rle4_decodes _ rfl g

theorem rowSpec_rgb16 (h : info.header.biCompression = biRgb) (h16 : info.header.biBitCount = 16)
    : RowSpec info bmp (fun _ => 3 * bmp.w.toInt.toNat ≤ bmp.pitch.toNat)
        (fun f g => skipRow16 bmp.w.toInt f = g) := by
  have hrow : ∀ fp bits, loadRow info bmp fp bits =
      (.line, (read16bitImage fp bits bmp.w.toInt info.gmask).1,
        (read16bitImage fp bits bmp.w.toInt info.gmask).2) := by
    intro fp bits
    unfold loadRow
    rw [if_pos h, if_pos h16]
  constructor
  . intro fp mem start
    rw [hrow]
    simp only [read16bitImage_touched, List.not_mem_nil, false_or]
    constructor
    . intro hall
      by_cases hpos : bmp.w.toInt.toNat = 0
      . omega
      . have hlast := hall (3 * bmp.w.toInt.toNat - 1) (by omega)
        omega
    . intro hle i hi
      omega
  . intro fp mem start g
    rw [hrow]
    rw [read16bitImage_area]
    simp

theorem rowSpec_plain (h : info.header.biCompression = biRgb) (h16 : info.header.biBitCount ≠ 16)
    : RowSpec info bmp (fun _ => True) (fun f g => (rwRead f 1 bmp.pitch.toNat).2 = g) := by
  have hrow : ∀ fp bits, loadRow info bmp fp bits =
      (.line, (rwRead fp 1 bmp.pitch.toNat).2, bits.copy 0 (rwRead fp 1 bmp.pitch.toNat).1) := by
    intro fp bits
    unfold loadRow
    rw [if_pos h, if_neg h16]
  constructor
  . intro fp mem start
    have hlen := rwRead_length fp bmp.pitch.toNat
    rw [hrow, iff_true]
    intro i hi
    rw [Row.copy_touched] at hi
    rcases hi with hi | hi
    . simp at hi
    . omega
  . intro fp mem start g
    rw [hrow]
    simp

theorem rowSpec_bitfields (h : info.header.biCompression = biBitfields)
    : RowSpec info bmp (fun _ => True) (fun f g => f = g) := by
  have hrow : ∀ fp bits, loadRow info bmp fp bits = (.line, fp, bits) := by
    intro fp bits
    unfold loadRow
    rw [h, if_neg (by decide), if_neg (by decide), if_neg (by decide)]
  constructor
  . intro fp mem start
    rw [hrow]
    simp
  . intro fp mem start g
    rw [hrow]
    simp

theorem allFit_const {P : Prop} (next : Area → Area) (n : Nat) (fp : Area)
    : AllFit (fun _ => P) (fun f g => next f = g) n fp ↔ n = 0 ∨ P := by
  induction n generalizing fp with
  | zero =>
    rw [AllFit]
    simp
  | succ n ih =>
    rw [AllFit]
    simp only [forall_eq', ih]
    constructor
    . exact fun h => .inr h.1
    . rintro (h | h)
      . omega
      . exact ⟨h, .inr h⟩

end Specs

def MyBitmap.rows (bmp : MyBitmap) : Nat :=
  ((bmp.h - 1).toInt + 1).toNat

def BitmapFits (info : InitInfo) (bmp : MyBitmap) (fp : Area) : Prop :=
  (info.header.biCompression = biRgb → info.header.biBitCount = 16 → bmp.rows ≠ 0 → 3 * bmp.w.toInt + 3 < 2 ^ 32)
    ∧ (info.header.biCompression = biRle8 →
      AllFit (fun f => RowFits rle8Code bmp.w.toInt bmp.pitch.toNat (0, f))
        (fun f => RowEnds rle8Code bmp.w.toInt (0, f)) bmp.rows fp)
    ∧ (info.header.biCompression = biRle4 →
      AllFit (fun f => RowFits rle4Code bmp.w.toInt (2 * bmp.pitch.toNat) (0, f))
        (fun f => RowEnds rle4Code bmp.w.toInt (0, f)) bmp.rows fp)

def PaletteFits (fp : Area) : Prop :=
  let (fileheader, fp) := readBmFileHeader fp
  let (biSize, _) := fpIgetl fp
  fileheader.bfType = 19778 →
    (40 ≤ biSize.toInt → (fileheader.bfOffBits - biSize - 14).toNat < 257 * 4)
      ∧ (biSize.toInt = 12 → (fileheader.bfOffBits - 26).toNat < 257 * 3)

theorem readBmiColors_length (n : Nat) (f : Area) (winFlag : Bool) : (readBmiColors n f winFlag).1.length = n := by
  induction n generalizing f with
  | zero => rfl
  | succ n ih =>
    rw [readBmiColors, List.length_cons, ih]

theorem udiv_toInt (x : BitVec 32) (k : Nat) (hk : 3 ≤ k) (hlt : k < 2 ^ 32)
    : (x / BitVec.ofNat 32 k).toInt.toNat = x.toNat / k := by
  have hdiv : (x / BitVec.ofNat 32 k).toNat = x.toNat / k := by
    rw [BitVec.toNat_udiv, BitVec.toNat_ofNat, Nat.mod_eq_of_lt hlt]
  have hle : x.toNat / k ≤ x.toNat / 3 := Nat.div_le_div_left hk (by omega)
  rw [BitVec.toInt_eq_toNat_cond, hdiv, if_pos (by omega)]
  rfl

theorem mgInitBmp_pal (fp : Area) (bmp : MyBitmap) : (mgInitBmp fp bmp).pal.length ≤ 256 ↔ PaletteFits fp := by
  unfold mgInitBmp PaletteFits
  generalize readBmFileHeader fp = p
  obtain ⟨fileheader, f⟩ := p
  dsimp only
  generalize fpIgetl f = q
  obtain ⟨biSize, f⟩ := q
  by_cases htype : fileheader.bfType = 19778
  . rw [if_neg (by simpa using htype)]
    by_cases hwin : biSize.toInt ≥ 40
    . have hncol := udiv_toInt (fileheader.bfOffBits - biSize - 14) 4 (by omega) (by omega)
      rw [if_pos hwin, readBmiColors_length]
      have hos2 : biSize.toInt ≠ 12 := by omega
      simp only [htype, hwin, hos2, true_imp_iff, false_imp_iff, and_true]
      have heq : BitVec.ofNat 32 4 = 4 := rfl
      rw [heq] at hncol
      omega
    rw [if_neg hwin]
    by_cases hos2 : biSize.toInt = 12
    . have hncol := udiv_toInt (fileheader.bfOffBits - 26) 3 (by omega) (by omega)
      have hlt : ¬(40 : Int) ≤ 12 := by omega
      rw [if_pos hos2, readBmiColors_length]
      simp only [htype, hos2, true_imp_iff, hlt, false_imp_iff, true_and]
      have heq : BitVec.ofNat 32 3 = 3 := rfl
      rw [heq] at hncol
      omega
    . rw [if_neg hos2]
      exact iff_of_true (Nat.zero_le _) fun _ => ⟨fun h => absurd h hwin, fun h => absurd h hos2⟩
  . rw [if_pos htype]
    exact iff_of_true (Nat.zero_le _) fun h => absurd h htype

theorem mgInitBmp_pitch {fp : Area} {bmp : MyBitmap} {r : InitInfo × MyBitmap} (h : r ∈ (mgInitBmp fp bmp).init)
    (h16 : r.1.header.biBitCount = 16) : r.2.pitch = bmpComputePitch 24 r.2.w := by
  have hfinish : ∀ header : BitmapInfoHeader, r = finishInit bmp header → r.2.pitch = bmpComputePitch 24 r.2.w := by
    intro header heq
    rw [heq] at h16 ⊢
    unfold finishInit at h16 ⊢
    rw [if_pos h16]
  unfold mgInitBmp at h
  generalize readBmFileHeader fp = p at h
  obtain ⟨fileheader, f⟩ := p
  generalize fpIgetl f = q at h
  obtain ⟨biSize, f⟩ := q
  dsimp only at h
  split at h
  . simp at h
  split at h
  . rw [Option.mem_some_iff] at h
    exact hfinish _ h.symm
  split at h
  . rw [Option.mem_some_iff] at h
    exact hfinish _ h.symm
  . simp at h

theorem mgLoadBmp_touched {fp : Area} {info : InitInfo} {bmp : MyBitmap}
    (hpitch : info.header.biBitCount = 16 → bmp.pitch = bmpComputePitch 24 bmp.w) (mem : Nat → Byte) (cb : Bool)
    : (∀ p ∈ (mgLoadBmp fp info bmp mem cb).2.touched, p.2 < bmp.pitch.toNat) ↔ BitmapFits info bmp fp := by
  have hrows : ((bmp.h - 1).toInt + 1).toNat = bmp.rows := rfl
  have hrle8 : biRle8 ≠ biRgb := by decide
  have hrle4 : biRle4 ≠ biRgb := by decide
  have hrle48 : biRle4 ≠ biRle8 := by decide
  unfold mgLoadBmp BitmapFits
  rw [hrows]
  by_cases hbf : info.header.biCompression = biBitfields
  . rw [if_pos hbf]
    have hspec := @rowSpec_bitfields { info with gmask := (fpIgetl (fpIgetl (rwSeek fp (-16))).2).1 } bmp hbf
    apply (loadRows_touched hspec _ _).trans
    rw [hbf]
    constructor
    . intro _
      exact ⟨fun h => absurd h (by decide), fun h => absurd h (by decide), fun h => absurd h (by decide)⟩
    . intro _
      refine ⟨fun p hp => by contradiction, ?_⟩
      exact (allFit_const id _ _).mpr (.inr trivial)
  rw [if_neg hbf]
  by_cases hrgb : info.header.biCompression = biRgb
  . rw [if_pos (.inl hrgb)]
    by_cases h16 : info.header.biBitCount = 16
    . rw [loadRows_touched (rowSpec_rgb16 hrgb h16), allFit_const (skipRow16 bmp.w.toInt)]
      have hw := @three_mul_le_pitch bmp.w
      have hcond := bmp.w.toInt_eq_toNat_cond
      rw [hpitch h16]
      simp only [hrgb, h16, hrle8.symm, hrle4.symm, List.not_mem_nil, false_imp_iff, true_imp_iff, and_true,
        true_and, implies_true]
      by_cases hpos : 0 < bmp.w.toInt
      . have hnat : bmp.w.toInt.toNat = bmp.w.toNat := by
          split at hcond
          . omega
          . omega
        rw [hnat, hw hpos]
        tauto
      have hnat : bmp.w.toInt.toNat = 0 := by omega
      rw [hnat]
      constructor
      . intro _ _
        omega
      . intro _
        right
        omega
    . rw [loadRows_touched (rowSpec_plain hrgb h16), allFit_const fun f => (rwRead f 1 bmp.pitch.toNat).2]
      simp only [hrgb, h16, hrle8.symm, hrle4.symm, false_imp_iff, true_imp_iff, and_true, or_true, iff_true]
      intro p hp
      contradiction
  by_cases h8 : info.header.biCompression = biRle8
  . rw [if_pos (.inr (.inl h8)), loadRows_touched (rowSpec_rle8 h8)]
    simp [h8, hrle8, hrle48.symm]
  by_cases h4 : info.header.biCompression = biRle4
  . rw [if_pos (.inr (.inr h4)), loadRows_touched (rowSpec_rle4 h4)]
    simp [h4, hrle4, hrle48]
  . rw [if_neg (by tauto)]
    simp [hrgb, h8, h4]

def ReadsInBounds (fp : Area) (bmp : MyBitmap) : Prop :=
  (mgInitBmp fp bmp).pal.length ≤ 256
    ∧ ∀ r ∈ (mgInitBmp fp bmp).init, ∀ mem cb,
      ∀ p ∈ (mgLoadBmp (mgInitBmp fp bmp).fp r.1 r.2 mem cb).2.touched, p.2 < r.2.pitch.toNat

theorem bmp_in_bounds_iff (fp : Area) (bmp : MyBitmap) : ReadsInBounds fp bmp
        ↔ PaletteFits fp ∧ ∀ r ∈ (mgInitBmp fp bmp).init, BitmapFits r.1 r.2 (mgInitBmp fp bmp).fp := by
  unfold ReadsInBounds
  rw [mgInitBmp_pal]
  have hload : ∀ r ∈ (mgInitBmp fp bmp).init,
      (∀ mem cb, ∀ p ∈ (mgLoadBmp (mgInitBmp fp bmp).fp r.1 r.2 mem cb).2.touched, p.2 < r.2.pitch.toNat)
        ↔ BitmapFits r.1 r.2 (mgInitBmp fp bmp).fp := by
    intro r hr
    have hpitch := mgInitBmp_pitch hr
    constructor
    . intro h
      exact (mgLoadBmp_touched hpitch (fun _ => 0) false).mp (h _ _)
    . intro h mem cb
      exact (mgLoadBmp_touched hpitch mem cb).mpr h
  constructor
  . rintro ⟨hpal, hall⟩
    exact ⟨hpal, fun r hr => (hload r hr).mp (hall r hr)⟩
  . rintro ⟨hpal, hall⟩
    exact ⟨hpal, fun r hr => (hload r hr).mpr (hall r hr)⟩

def tooManyColours : Area :=
  { type := .mem, bytes := [66, 77, 0, 0, 0, 0, 0, 0, 0, 0, 58, 4, 0, 0, 40, 0, 0, 0], here := 0, uninit := fun _ => 0 }

theorem bmp_in_bounds_tooManyColours : ¬ReadsInBounds tooManyColours ⟨false, 32, 0, 0, 0⟩ := by
  intro h
  have hpal := (mgInitBmp_pal tooManyColours _).mp h.1
  have hlt := (hpal (by decide)).1 (by decide)
  revert hlt
  decide

end MiniGui
