import MiniGui.Gdi.Hlines

namespace MiniGui

open ByteMem

open BitVec (ofNat setWidth_eq toNat_ofNat)

theorem byteAt_apply {n : Nat} (big : Bool) (rop : Rop) (dst src : BitVec (8 * n)) (k : Nat)
    : byteAt big (rop.apply dst src) k = rop.apply (byteAt big dst k) (byteAt big src k) := by
  cases rop with
  | set => rfl
  | and => exact BitVec.extractLsb'_and
  | or => exact BitVec.extractLsb'_or
  | xor => exact BitVec.extractLsb'_xor

namespace Hline

section Loops

variable (b : Build) (rop : Rop) {n m : Nat}

theorem drawPixels_eq {pixel : BitVec (8 * n)} {word : BitVec (8 * m)}
    (h : ∀ i k, k < m → byteAt b.bigEndian word k = byteAt b.bigEndian pixel ((i * m + k) % n)) {w w' : Nat}
    (hsize : w * n = w' * m) (row : Nat) (mem : Mem)
    : drawPixels b rop n pixel row w mem = drawPixels b rop m word row w' mem := by
  unfold drawPixels
  apply @forWords_eq n b.bigEndian _ (fun j dst => rop.apply dst (byteAt b.bigEndian pixel (j % n)))
  . intro i dst k hk
    have hmod : (i * n + k) % n = k := by
      rw [Nat.add_comm, Nat.add_mul_mod_self_right, Nat.mod_eq_of_lt hk]
    dsimp only
    rw [byteAt_apply, hmod]
  . intro i dst k hk
    rw [byteAt_apply, h i k hk]
  . exact hsize

theorem putPixels_bytewise (src : Mem) (s n : Nat)
    : Bytewise b.bigEndian (fun i (dst : BitVec (8 * n)) => rop.apply dst (load b.bigEndian n src (s + i * n)))
      (fun j dst => rop.apply dst (src (s + j))) := by
  intro i dst k hk
  rw [byteAt_apply, byteAt_load _ _ hk, Nat.add_assoc]

theorem putPixels_eq {w w' : Nat} (hsize : w * n = w' * m) (src : Mem) (s row : Nat) (mem : Mem)
    : putPixels b rop n src s row w mem = putPixels b rop m src s row w' mem := by
  exact forWords_eq (putPixels_bytewise b rop src s n) (putPixels_bytewise b rop src s m) hsize row mem

theorem putPixels_byte (src : Mem) (s row w : Nat) (mem : Mem) {j : Nat} (hj : j < w * n)
    : putPixels b rop n src s row w mem (row + j) = rop.apply (mem (row + j)) (src (s + j)) :=
  forWords_byte (putPixels_bytewise b rop src s n) w row mem hj

theorem putPixels_outside (src : Mem) (s row w : Nat) (mem : Mem) {q : Nat} (hq : q < row ∨ row + w * n ≤ q)
    : putPixels b rop n src s row w mem q = mem q :=
  forWords_outside w row 0 mem hq

theorem drawPixels_add (pixel : BitVec (8 * n)) (row a c : Nat) (mem : Mem)
    : drawPixels b rop n pixel row (a + c) mem
      = drawPixels b rop n pixel (row + a * n) c (drawPixels b rop n pixel row a mem) := by
  unfold drawPixels
  rw [forWords_add, forWords_shift]

theorem putPixels_add (src : Mem) (s row a c : Nat) (mem : Mem)
    : putPixels b rop n src s row (a + c) mem
      = putPixels b rop n src (s + a * n) (row + a * n) c (putPixels b rop n src s row a mem) := by
  have haddr : ∀ i, s + (i + a) * n = s + a * n + i * n := by
    intro i
    ring
  unfold putPixels
  rw [forWords_add, forWords_shift]
  simp only [haddr]

end Loops

section Memset

variable (b : Build) (val : GalPixel)

def rounds (n : BitVec 32) : Nat :=
  if n = 0 then 2 ^ 32 else n.toNat

theorem rounds_one {n : BitVec 32} (h : n - 1 = 0) : rounds n = 1 := by
  have hone : n = 1 := by bv_omega
  rw [hone]
  rfl

theorem rounds_succ {n : BitVec 32} (h : n - 1 ≠ 0) : rounds n = rounds (n - 1) + 1 := by
  rw [rounds, rounds, if_neg h]
  split
  . next hzero =>
    rw [hzero]
    rfl
  . bv_omega

theorem rounds_pos (n : BitVec 32) : 0 < rounds n := by
  by_cases h : n - 1 = 0
  . rw [rounds_one h]
    omega
  . rw [rounds_succ h]
    omega

theorem memset4Rounds_eq {fuel : Nat} {n : BitVec 32} (h : rounds n ≤ fuel) (p : Nat) (mem : Mem)
    : memset4Rounds b val fuel n p mem = drawPixels b .set 4 val p (4 * rounds n) mem := by
  induction fuel generalizing n p mem with
  | zero =>
    have := rounds_pos n
    omega
  | succ fuel ih =>
    rw [memset4Rounds]
    split
    . next hlast => rw [rounds_one hlast]
    rename_i hmore
    have hsucc := rounds_succ hmore
    have hwords : 4 * rounds n = 4 + 4 * rounds (n - 1) := by omega
    rw [ih (by omega), hwords, drawPixels_add]

theorem memset4_entered (n : BitVec 32) (first dst : Nat) (mem : Mem) : (if n - 1 = 0 then
        drawPixels b .set 4 val dst first mem
      else
        memset4Rounds b val (2 ^ 32) (n - 1) (dst + first * 4) (drawPixels b .set 4 val dst first mem))
      = drawPixels b .set 4 val dst (first + 4 * (rounds n - 1)) mem := by
  have hbound : rounds (n - 1) ≤ 2 ^ 32 := by
    unfold rounds
    split <;> omega
  split
  . next hlast =>
    have hwords : first + 4 * (rounds n - 1) = first := by
      rw [rounds_one hlast, Nat.sub_self, Nat.mul_zero, Nat.add_zero]
    rw [hwords]
  rename_i hmore
  have hsucc := rounds_succ hmore
  have hwords : rounds n - 1 = rounds (n - 1) := by omega
  rw [memset4Rounds_eq b val hbound, ← drawPixels_add, hwords]

theorem words_entered {count : Nat} (h : count < 2 ^ 31)
    : (if ofNat 32 count % 4 = 0 then 4 else (ofNat 32 count % 4).toNat)
        + 4 * (rounds ((ofNat 32 count + 3) / 4) - 1)
      = if count = 0 then 2 ^ 34 else count := by
  by_cases hzero : count = 0
  . subst hzero
    rfl
  have hcount : (ofNat 32 count).toNat = count := by
    rw [toNat_ofNat]
    omega
  have hthree : (3 : BitVec 32).toNat = 3 := rfl
  have hfour : (4 : BitVec 32).toNat = 4 := rfl
  have hn : ((ofNat 32 count + 3) / 4).toNat = (count + 3) / 4 := by
    rw [BitVec.toNat_udiv, BitVec.toNat_add, hcount, hthree, hfour, Nat.mod_eq_of_lt (by omega)]
  have hmod : (ofNat 32 count % 4).toNat = count % 4 := by
    rw [BitVec.toNat_umod, hcount, hfour]
  have hrounds : rounds ((ofNat 32 count + 3) / 4) = (count + 3) / 4 := by
    rw [rounds, if_neg, hn]
    intro heq
    rw [heq] at hn
    have hzero : (0 : BitVec 32).toNat = 0 := rfl
    omega
  have hlast : ofNat 32 count % 4 = 0 ↔ count % 4 = 0 := by
    rw [← BitVec.toNat_inj, hmod]
    rfl
  rw [if_neg hzero, hrounds, hmod]
  by_cases hround : count % 4 = 0
  . rw [if_pos (hlast.mpr hround)]
    omega
  . rw [if_neg (fun h => hround (hlast.mp h))]
    omega

theorem galMemset4_eq {count : Nat} (h : count < 2 ^ 31) (dst : Nat) (mem : Mem)
    : galMemset4 b dst val (ofNat 32 count) mem
      = drawPixels b .set 4 val dst (if b.i386 = false ∧ count = 0 then 2 ^ 34 else count) mem := by
  rw [galMemset4]
  by_cases hasm : b.i386 = true
  . have hcount : (ofNat 32 count).toNat = count := by
      rw [toNat_ofNat]
      omega
    rw [if_pos hasm, hcount, hasm, if_neg (by simp)]
  have hc : b.i386 = false := by simpa using hasm
  rw [if_neg hasm]
  rw [memset4_entered, words_entered h, hc]
  simp only [true_and]

end Memset

section Words

variable (big : Bool) (px : GalPixel)

theorem byteAt_makelong_makeword {k : Nat} (hk : k < 4)
    : @byteAt 4 big (makelong ((makeword px px).setWidth 32) ((makeword px px).setWidth 32)) k
      = px.extractLsb' 0 8 := by
  have hlane : lane big 4 k < 4 := lane_lt hk
  unfold byteAt
  generalize lane big 4 k = l at hlane
  unfold makelong makeword
  ext i hi
  interval_cases l <;> interval_cases i <;> simp

theorem byteAt_makelong {k : Nat} (hk : k < 4)
    : @byteAt 4 big (makelong px px) k = px.extractLsb' (8 * lane big 2 (k % 2)) 8 := by
  have hlane : lane big 4 k < 4 := lane_lt hk
  have hpair : lane big 2 (k % 2) = lane big 4 k % 2 := by
    unfold lane
    split <;> omega
  rw [hpair]
  unfold byteAt
  generalize lane big 4 k = l at hlane
  unfold makelong
  ext i hi
  interval_cases l <;> interval_cases i <;> simp

theorem byteAt_setWidth {n : Nat} {k : Nat} (hk : k < n)
    : byteAt big (px.setWidth (8 * n)) k = px.extractLsb' (8 * lane big n k) 8 := by
  have hlane : lane big n k < n := lane_lt hk
  unfold byteAt
  ext i hi
  have hlt : 8 * lane big n k + i < 8 * n := by omega
  simp [hlt]

theorem byteAt_zero (n k : Nat) : byteAt big (0 : BitVec (8 * n)) k = 0 := by
  unfold byteAt
  ext i hi
  simp

end Words

section Draw

variable (b : Build) (rop : Rop) (dc : LineDc) (w : Nat) (mem : Mem)

def drawLine (n : Nat) : Mem :=
  drawPixels b rop n (dc.curPixel.setWidth (8 * n)) dc.curDst w mem

def MemsetNothing (len : PixelLen) : Prop :=
  b.i386 = false ∧ rop = .set ∧ w = 0 ∧ (len = .four ∨ dc.curPixel = 0 ∧ dc.curDst % 4 = 0)

variable {b dc w}

theorem dcDrawHlineSet0_eq {n : Nat} (hn : 0 < n) (hpixel : dc.curPixel = 0 ∨ n = 1) (hw : w * n < 2 ^ 31)
    (hsome : b.i386 = true ∨ w ≠ 0 ∨ ¬(dc.curPixel = 0 ∧ dc.curDst % 4 = 0))
    : dcDrawHlineSet0 b dc w mem n = drawLine b .set dc w mem n := by
  rw [dcDrawHlineSet0, drawLine]
  split
  . next hfast =>
    rcases hfast with ⟨hzero, halign, hwords⟩
    have hmany : ¬(b.i386 = false ∧ w * n / 4 = 0) := by
      rintro ⟨hc, hnone⟩
      rcases hsome with hasm | hsome | hother
      . rw [hc] at hasm
        cases hasm
      . have hpos : 0 < w * n := Nat.mul_pos (Nat.pos_of_ne_zero hsome) hn
        omega
      . exact hother ⟨hzero, halign⟩
    rw [galMemset4_eq b 0 (by omega), if_neg hmany, hzero]
    symm
    apply drawPixels_eq
    . intro i k hk
      have hword : byteAt b.bigEndian (0 : BitVec (8 * 4)) k = 0 := byteAt_zero b.bigEndian 4 k
      have hpixel : byteAt b.bigEndian ((0 : GalPixel).setWidth (8 * n)) ((i * 4 + k) % n) = 0 := by
        rw [byteAt_setWidth _ _ (Nat.mod_lt _ hn)]
        simp
      exact hword.trans hpixel.symm
    . omega
  rw [memset]
  symm
  apply drawPixels_eq
  . intro i k hk
    have hbyte : byteAt b.bigEndian (dc.curPixel.setWidth (8 * 1)) k
        = dc.curPixel.extractLsb' (8 * lane b.bigEndian 1 k) 8 :=
      byteAt_setWidth _ _ hk
    refine Eq.trans hbyte ?_
    rw [byteAt_setWidth _ _ (Nat.mod_lt _ hn)]
    rcases hpixel with hzero | hone
    . rw [hzero]
      simp
    . subst hone
      have hfirst : (i * 1 + k) % 1 = k := by omega
      rw [hfirst]
  . omega

theorem dcDrawHlineSet2_eq (hw : w * 2 < 2 ^ 31)
    (hsome : b.i386 = true ∨ w ≠ 0 ∨ ¬(dc.curPixel = 0 ∧ dc.curDst % 4 = 0))
    : dcDrawHlineSet2 b dc w mem = drawLine b .set dc w mem 2 := by
  rw [dcDrawHlineSet2]
  split
  . next hzero => exact dcDrawHlineSet0_eq mem (by decide) (.inl hzero) hw hsome
  . split <;> rfl

theorem dcDrawHlineSet3_eq (hw : w * 3 < 2 ^ 31)
    (hsome : b.i386 = true ∨ w ≠ 0 ∨ ¬(dc.curPixel = 0 ∧ dc.curDst % 4 = 0))
    : dcDrawHlineSet3 b dc w mem = drawLine b .set dc w mem 3 := by
  rw [dcDrawHlineSet3]
  split
  . next hzero => exact dcDrawHlineSet0_eq mem (by decide) (.inl hzero) hw hsome
  . rfl

theorem dcDrawHlineSet4_eq (hw : w * 4 < 2 ^ 31) (hsome : b.i386 = true ∨ w ≠ 0)
    : dcDrawHlineSet4 b dc w mem = drawLine b .set dc w mem 4 := by
  have hmany : ¬(b.i386 = false ∧ w = 0) := by
    rintro ⟨hc, hnone⟩
    rcases hsome with hasm | hsome
    . rw [hc] at hasm
      cases hasm
    . exact hsome hnone
  rw [dcDrawHlineSet4, galMemset4_eq b _ (by omega), if_neg hmany, drawLine, setWidth_eq]

variable (b dc w)

theorem dcDrawHlineRop1_eq : dcDrawHlineRop1 b rop dc w mem = drawLine b rop dc w mem 1 := by
  rw [dcDrawHlineRop1]
  split
  . next hfast =>
    symm
    apply drawPixels_eq
    . intro i k hk
      refine Eq.trans (byteAt_makelong_makeword b.bigEndian dc.curPixel hk) ?_
      have hfirst : (i * 4 + k) % 1 = 0 := Nat.mod_one _
      have hlane : lane b.bigEndian 1 0 = 0 := by
        have := @lane_lt 1 b.bigEndian 0 (by decide)
        omega
      rw [hfirst, byteAt_setWidth _ _ (by decide), hlane]
    . omega
  . rfl

theorem dcDrawHlineRop2_eq : dcDrawHlineRop2 b rop dc w mem = drawLine b rop dc w mem 2 := by
  rw [dcDrawHlineRop2]
  split
  . next hfast =>
    symm
    apply drawPixels_eq
    . intro i k hk
      refine Eq.trans (byteAt_makelong b.bigEndian dc.curPixel hk) ?_
      have hpair : (i * 4 + k) % 2 = k % 2 := by omega
      rw [hpair, byteAt_setWidth _ _ (Nat.mod_lt _ (by decide))]
    . omega
  . rfl

theorem dcDrawHlineRop4_eq : dcDrawHlineRop4 b rop dc w mem = drawLine b rop dc w mem 4 := by
  have hpixel : dc.curPixel.setWidth (8 * 4) = dc.curPixel := setWidth_eq dc.curPixel
  rw [dcDrawHlineRop4, drawLine, hpixel]
  split <;> rfl

variable {b rop dc w}

theorem drawHlineOps_eq {len : PixelLen} (hw : w * len.bytes < 2 ^ 31) (hsome : ¬MemsetNothing b rop dc w len)
    : drawHlineOps b rop dc w mem len = drawLine b rop dc w mem len.bytes := by
  have hset : rop = .set → b.i386 = true ∨ w ≠ 0 ∨ ¬(len = .four ∨ dc.curPixel = 0 ∧ dc.curDst % 4 = 0) := by
    intro hrop
    by_contra hnone
    apply hsome
    refine ⟨?_, hrop, ?_, ?_⟩
    . by_contra hasm
      exact hnone (.inl (by simpa using hasm))
    . by_contra hwords
      exact hnone (.inr (.inl hwords))
    . by_contra hkind
      exact hnone (.inr (.inr hkind))
  cases rop with
  | set =>
    have hset := hset rfl
    cases len with
    | one => exact dcDrawHlineSet0_eq mem (by decide) (.inr rfl) hw (by simpa using hset)
    | two => exact dcDrawHlineSet2_eq mem hw (by simpa using hset)
    | three => exact dcDrawHlineSet3_eq mem hw (by simpa using hset)
    | four => exact dcDrawHlineSet4_eq mem hw (by simpa using hset)
  | and =>
    cases len with
    | one => exact dcDrawHlineRop1_eq b .and dc w mem
    | two => exact dcDrawHlineRop2_eq b .and dc w mem
    | three => rfl
    | four => exact dcDrawHlineRop4_eq b .and dc w mem
  | or =>
    cases len with
    | one => exact dcDrawHlineRop1_eq b .or dc w mem
    | two => exact dcDrawHlineRop2_eq b .or dc w mem
    | three => rfl
    | four => exact dcDrawHlineRop4_eq b .or dc w mem
  | xor =>
    cases len with
    | one => exact dcDrawHlineRop1_eq b .xor dc w mem
    | two => exact dcDrawHlineRop2_eq b .xor dc w mem
    | three => rfl
    | four => exact dcDrawHlineRop4_eq b .xor dc w mem

theorem drawHlineOps_nothing {len : PixelLen} (h : MemsetNothing b rop dc w len)
    : drawHlineOps b rop dc w mem len = drawPixels b .set 4 dc.curPixel dc.curDst (2 ^ 34) mem := by
  rcases h with ⟨hc, rfl, rfl, hkind⟩
  have hset0 : ∀ n, dc.curPixel = 0 → dc.curDst % 4 = 0
      → dcDrawHlineSet0 b dc 0 mem n = drawPixels b .set 4 dc.curPixel dc.curDst (2 ^ 34) mem := by
    intro n hzero halign
    rw [dcDrawHlineSet0, Nat.zero_mul, if_pos ⟨hzero, halign, rfl⟩, galMemset4_eq b 0 (by omega), if_pos ⟨hc, rfl⟩,
      hzero]
  rcases hkind with rfl | ⟨hzero, halign⟩
  . have hfour := @galMemset4_eq b dc.curPixel 0 (by omega) dc.curDst mem
    rw [if_pos ⟨hc, rfl⟩] at hfour
    exact hfour
  cases len with
  | one => exact hset0 1 hzero halign
  | two =>
    have htwo : dcDrawHlineSet2 b dc 0 mem = dcDrawHlineSet0 b dc 0 mem 2 := if_pos hzero
    exact htwo.trans (hset0 2 hzero halign)
  | three =>
    have hthree : dcDrawHlineSet3 b dc 0 mem = dcDrawHlineSet0 b dc 0 mem 3 := if_pos hzero
    exact hthree.trans (hset0 3 hzero halign)
  | four =>
    have hfour := @galMemset4_eq b dc.curPixel 0 (by omega) dc.curDst mem
    rw [if_pos ⟨hc, rfl⟩] at hfour
    exact hfour

end Draw

section Put

variable (b : Build) (rop : Rop) (dc : LineDc) (src : Mem) (s w : Nat) (mem : Mem)

def putLine (n : Nat) : Mem :=
  putHlineLoop b rop dc src s w mem n

variable {b dc s w}

theorem putLine_solid (h : dc.bkmode ≠ .bmTransparent) (n : Nat)
    : putLine b rop dc src s w mem n = putPixels b rop n src s dc.curDst w mem := by
  rw [putLine, putHlineLoop, if_neg h]

theorem dcPutHlineSet0_eq (n : Nat)
    : dcPutHlineSet0 b dc src s w mem n = putPixels b .set n src s dc.curDst w mem := by
  rw [dcPutHlineSet0]
  split
  . exact putPixels_eq b .set (by omega) src s dc.curDst mem
  . exact putPixels_eq b .set (by omega) src s dc.curDst mem

theorem dcPutHlineSet_eq (n : Nat)
    : (if dc.bkmode ≠ .bmTransparent then dcPutHlineSet0 b dc src s w mem n else putHlineLoop b .set dc src s w mem n)
      = putLine b .set dc src s w mem n := by
  split
  . next h => rw [dcPutHlineSet0_eq, putLine_solid .set src mem h]
  . rfl

theorem dcPutHlineRop1_eq : dcPutHlineRop1 b rop dc src s w mem = putLine b rop dc src s w mem 1 := by
  rw [dcPutHlineRop1]
  split
  . next hfast =>
    rw [putLine_solid rop src mem hfast.2.1]
    exact putPixels_eq b rop (by omega) src s dc.curDst mem
  . rfl

theorem dcPutHlineRop2_eq : dcPutHlineRop2 b rop dc src s w mem = putLine b rop dc src s w mem 2 := by
  rw [dcPutHlineRop2]
  split
  . next hfast =>
    rw [putLine_solid rop src mem hfast.2.1]
    exact putPixels_eq b rop (by omega) src s dc.curDst mem
  . rfl

theorem dcPutHlineRop4_eq : dcPutHlineRop4 b rop dc src s w mem = putLine b rop dc src s w mem 4 := by
  rw [dcPutHlineRop4]
  split
  . next hfast => exact (putLine_solid rop src mem hfast.2 4).symm
  . rfl

theorem putHlineLoopTwice_eq (n : Nat)
    : putHlineLoopTwice b rop dc src s w mem n = putLine b rop dc src s w mem n := by
  rw [putHlineLoopTwice, putLine, putHlineLoop, Nat.sub_self]
  split <;> rfl

theorem putHlineLoopTwice3_eq
    : putHlineLoopTwice3 b rop dc src s w mem = putHlineLoop3 b rop dc src s w mem := by
  rw [putHlineLoopTwice3, putHlineLoop3, Nat.sub_self]
  split <;> rfl

theorem dcPutHlineRop3_iff (hasm : b.i386 = true) (hsolid : dc.bkmode ≠ .bmTransparent)
    : dcPutHlineRop3 b rop dc src s w mem = putLine b rop dc src s w mem 3
      ↔ (dc.curDst % 4 = 0 ∧ s % 4 = 0)
        ∨ ∀ j < w * 3 / 4 * 4, rop.apply (mem (dc.curDst + j)) (src (s + j)) = mem (dc.curDst + j) := by
  have hline : putLine b rop dc src s w mem 3
      = putPixels b rop 1 src (s + w * 3 / 4 * 4) (dc.curDst + w * 3 / 4 * 4) (w * 3 % 4)
          (putPixels b rop 1 src s dc.curDst (w * 3 / 4 * 4) mem) := by
    rw [putLine_solid rop src mem hsolid,
      @putPixels_eq b rop 3 1 w (w * 3 / 4 * 4 + w * 3 % 4) (by omega), putPixels_add]
    simp only [Nat.mul_one]
  have hwidth : w * 2 + w = w * 3 := by omega
  rw [dcPutHlineRop3, if_pos ⟨hasm, hsolid⟩, hline, hwidth]
  dsimp only
  by_cases hwords : dc.curDst % 4 = 0 ∧ s % 4 = 0 ∧ w * 3 / 4 ≠ 0
  . rw [if_pos hwords, asmMemropcpy4, @putPixels_eq b rop 4 1 (w * 3 / 4) (w * 3 / 4 * 4) (by omega)]
    simp only [true_iff]
    exact .inl ⟨hwords.1, hwords.2.1⟩
  rw [if_neg hwords]
  constructor
  . intro hsame
    by_cases halign : dc.curDst % 4 = 0 ∧ s % 4 = 0
    . exact .inl halign
    right
    intro j hj
    have hbyte := congrFun hsame (dc.curDst + j)
    rw [putPixels_outside b rop src _ _ _ _ (by omega), putPixels_outside b rop src _ _ _ _ (by omega),
      putPixels_byte b rop src _ _ _ _ (by omega)] at hbyte
    exact hbyte.symm
  intro hsame
  have hfirst : putPixels b rop 1 src s dc.curDst (w * 3 / 4 * 4) mem = mem := by
    funext q
    by_cases hq : dc.curDst ≤ q ∧ q < dc.curDst + w * 3 / 4 * 4
    . have haddr : q = dc.curDst + (q - dc.curDst) := by omega
      rw [haddr, putPixels_byte b rop src _ _ _ _ (by omega)]
      rcases hsame with ⟨hdst, hsrc⟩ | hsame
      . have hnone : w * 3 / 4 = 0 := by
          by_contra hlen
          exact hwords ⟨hdst, hsrc, hlen⟩
        omega
      . exact hsame _ (by omega)
    . exact putPixels_outside b rop src _ _ _ _ (by omega)
  rw [hfirst]

theorem putHlineLoop3_iff (hmode : dc.bkmode = .bmTransparent)
    : putHlineLoop3 b rop dc src s w mem = putLine b rop dc src s w mem 3
      ↔ ∀ j < w,
          equal24bit dc (load b.bigEndian 3 mem (dc.curDst + j * 3))
              = isSkip dc 3 (load b.bigEndian 3 src (s + j * 3))
            ∨ rop.apply (load b.bigEndian 3 mem (dc.curDst + j * 3)) (load b.bigEndian 3 src (s + j * 3))
              = load b.bigEndian 3 mem (dc.curDst + j * 3) := by
  rw [putHlineLoop3, if_pos hmode, putLine, putHlineLoop, if_pos hmode, putPixelsIf, putPixelsIf,
    forWords_eq_iff (by decide)]
  apply forall₂_congr
  intro j hj
  generalize load b.bigEndian 3 mem (dc.curDst + j * 3) = row
  generalize load b.bigEndian 3 src (s + j * 3) = pixel
  dsimp only
  cases equal24bit dc row <;> cases isSkip dc 3 pixel <;> simp [eq_comm]

theorem dcPutHlineXor3_eq : dcPutHlineXor3 b dc src s w mem = dcPutHlineRop3 b .xor dc src s w mem := by
  rw [dcPutHlineXor3]
  split
  . rfl
  . next hloop => rw [putHlineLoopTwice3_eq, dcPutHlineRop3, if_neg hloop]

theorem dcPutHlineOr4_eq : dcPutHlineOr4 b dc src s w mem = putLine b .or dc src s w mem 4 := by
  rw [← dcPutHlineRop4_eq, dcPutHlineOr4, putHlineLoopTwice_eq]
  rfl

theorem dcPutHlineXor4_eq : dcPutHlineXor4 b dc src s w mem = putLine b .xor dc src s w mem 4 := by
  rw [← dcPutHlineRop4_eq, dcPutHlineXor4, putHlineLoopTwice_eq]
  rfl

variable (b dc s w)

def SkipsAgree : Prop :=
  ∀ j < w,
    equal24bit dc (load b.bigEndian 3 mem (dc.curDst + j * 3)) = isSkip dc 3 (load b.bigEndian 3 src (s + j * 3))
      ∨ rop.apply (load b.bigEndian 3 mem (dc.curDst + j * 3)) (load b.bigEndian 3 src (s + j * 3))
        = load b.bigEndian 3 mem (dc.curDst + j * 3)

def WordsKept : Prop :=
  (dc.curDst % 4 = 0 ∧ s % 4 = 0)
    ∨ ∀ j < w * 3 / 4 * 4, rop.apply (mem (dc.curDst + j)) (src (s + j)) = mem (dc.curDst + j)

def PutFits (len : PixelLen) : Prop :=
  len = .three →
    (dc.bkmode = .bmTransparent → SkipsAgree b rop dc src s w mem)
      ∧ (b.i386 = true → dc.bkmode ≠ .bmTransparent → rop ≠ .set → WordsKept rop dc src s w mem)

variable {b rop dc s w}

theorem putFits_transparent (h : dc.bkmode = .bmTransparent)
    : PutFits b rop dc src s w mem .three ↔ SkipsAgree b rop dc src s w mem := by
  constructor
  . intro hfits
    exact (hfits rfl).1 h
  . intro hskips _
    exact ⟨fun _ => hskips, fun _ hsolid => absurd h hsolid⟩

theorem putFits_solid (h : dc.bkmode ≠ .bmTransparent) : PutFits b rop dc src s w mem .three
      ↔ (b.i386 = true → rop ≠ .set → WordsKept rop dc src s w mem) := by
  constructor
  . intro hfits hasm hrop
    exact (hfits rfl).2 hasm h hrop
  . intro hwords _
    exact ⟨fun hmode => absurd hmode h, fun hasm _ hrop => hwords hasm hrop⟩

theorem dcPutHlineSet3_iff
    : dcPutHlineSet3 b dc src s w mem = putLine b .set dc src s w mem 3 ↔ PutFits b .set dc src s w mem .three := by
  rw [dcPutHlineSet3]
  by_cases hmode : dc.bkmode = .bmTransparent
  . rw [if_neg (not_not.mpr hmode), putFits_transparent src mem hmode]
    exact putHlineLoop3_iff .set src mem hmode
  . rw [if_pos hmode, putFits_solid src mem hmode, dcPutHlineSet0_eq, putLine_solid .set src mem hmode]
    simp

theorem dcPutHlineRop3_fits (hrop : rop ≠ .set)
    : dcPutHlineRop3 b rop dc src s w mem = putLine b rop dc src s w mem 3 ↔ PutFits b rop dc src s w mem .three := by
  by_cases hmode : dc.bkmode = .bmTransparent
  . rw [dcPutHlineRop3, if_neg (fun h => h.2 hmode), putFits_transparent src mem hmode]
    exact putHlineLoop3_iff rop src mem hmode
  rw [putFits_solid src mem hmode]
  by_cases hasm : b.i386 = true
  . rw [dcPutHlineRop3_iff rop src mem hasm hmode]
    exact ⟨fun h _ _ => h, fun h => h hasm hrop⟩
  . rw [dcPutHlineRop3, if_neg (fun h => hasm h.1), putLine_solid rop src mem hmode, putHlineLoop3, if_neg hmode]
    simp [hasm]

theorem putHlineOps_iff {len : PixelLen}
    : putHlineOps b rop dc src s w mem len = putLine b rop dc src s w mem len.bytes
      ↔ PutFits b rop dc src s w mem len := by
  have hfits : len ≠ .three → PutFits b rop dc src s w mem len := fun hlen h => absurd h hlen
  cases rop with
  | set =>
    cases len with
    | one => exact iff_of_true (dcPutHlineSet_eq src mem 1) (hfits (by simp))
    | two => exact iff_of_true (dcPutHlineSet_eq src mem 2) (hfits (by simp))
    | three => exact dcPutHlineSet3_iff src mem
    | four => exact iff_of_true (dcPutHlineSet_eq src mem 4) (hfits (by simp))
  | and =>
    cases len with
    | one => exact iff_of_true (dcPutHlineRop1_eq .and src mem) (hfits (by simp))
    | two => exact iff_of_true (dcPutHlineRop2_eq .and src mem) (hfits (by simp))
    | three => exact dcPutHlineRop3_fits src mem (by simp)
    | four => exact iff_of_true (dcPutHlineRop4_eq .and src mem) (hfits (by simp))
  | or =>
    cases len with
    | one => exact iff_of_true (dcPutHlineRop1_eq .or src mem) (hfits (by simp))
    | two => exact iff_of_true (dcPutHlineRop2_eq .or src mem) (hfits (by simp))
    | three => exact dcPutHlineRop3_fits src mem (by simp)
    | four => exact iff_of_true (dcPutHlineOr4_eq src mem) (hfits (by simp))
  | xor =>
    cases len with
    | one => exact iff_of_true (dcPutHlineRop1_eq .xor src mem) (hfits (by simp))
    | two => exact iff_of_true (dcPutHlineRop2_eq .xor src mem) (hfits (by simp))
    | three =>
      have hxor : putHlineOps b .xor dc src s w mem .three = dcPutHlineRop3 b .xor dc src s w mem :=
        dcPutHlineXor3_eq src mem
      rw [hxor]
      exact dcPutHlineRop3_fits src mem (by simp)
    | four => exact iff_of_true (dcPutHlineXor4_eq src mem) (hfits (by simp))

end Put

section Exact

variable (b : Build) (rop : Rop) (len : PixelLen) (dc : LineDc) (src : Mem) (s w : Nat) (mem : Mem)

def DrawExact (mem' : Mem) : Prop :=
  (∀ i < w, load b.bigEndian len.bytes mem' (dc.curDst + i * len.bytes)
      = rop.apply (load b.bigEndian len.bytes mem (dc.curDst + i * len.bytes))
          (dc.curPixel.setWidth (8 * len.bytes)))
    ∧ ∀ q, q < dc.curDst ∨ dc.curDst + w * len.bytes ≤ q → mem' q = mem q

def PutExact (mem' : Mem) : Prop :=
  (∀ i < w,
      let dst := load b.bigEndian len.bytes mem (dc.curDst + i * len.bytes)
      let pixel := load b.bigEndian len.bytes src (s + i * len.bytes)
      load b.bigEndian len.bytes mem' (dc.curDst + i * len.bytes)
        = if dc.bkmode = .bmTransparent ∧ pixel.setWidth 32 = dc.skipPixel then dst else rop.apply dst pixel)
    ∧ ∀ q, q < dc.curDst ∨ dc.curDst + w * len.bytes ≤ q → mem' q = mem q

def DrawFits : Prop :=
  MemsetNothing b rop dc w len → ∀ j < 2 ^ 34, load b.bigEndian 4 mem (dc.curDst + j * 4) = dc.curPixel

theorem bytes_pos (len : PixelLen) : 0 < len.bytes := by
  cases len <;> decide

theorem drawExact_iff (mem' : Mem)
    : DrawExact b rop len dc w mem mem' ↔ mem' = drawLine b rop dc w mem len.bytes := by
  rw [drawLine, drawPixels, eq_forWords_iff (bytes_pos len), DrawExact]

theorem putExact_iff (mem' : Mem)
    : PutExact b rop len dc src s w mem mem' ↔ mem' = putLine b rop dc src s w mem len.bytes := by
  rw [putLine, putHlineLoop]
  by_cases hmode : dc.bkmode = .bmTransparent
  . rw [if_pos hmode, putPixelsIf, eq_forWords_iff (bytes_pos len), PutExact]
    simp only [isSkip, hmode, true_and, decide_eq_true_eq]
  . rw [if_neg hmode, putPixels, eq_forWords_iff (bytes_pos len), PutExact]
    simp only [hmode, false_and, if_false]

theorem drawExact_drawHlineOps (hw : w * len.bytes < 2 ^ 31)
    : DrawExact b rop len dc w mem (drawHlineOps b rop dc w mem len) ↔ DrawFits b rop len dc w mem := by
  rw [drawExact_iff]
  by_cases hnothing : MemsetNothing b rop dc w len
  . have hw0 : w = 0 := hnothing.2.2.1
    have hline : drawLine b rop dc w mem len.bytes = mem := by
      rw [hw0]
      rfl
    rw [drawHlineOps_nothing mem hnothing, hline, eq_comm, drawPixels, eq_forWords_iff (by decide)]
    constructor
    . rintro ⟨hwords, _⟩ _ j hj
      exact hwords j hj
    . intro hfits
      exact ⟨fun j hj => hfits hnothing j hj, fun _ _ => rfl⟩
  . exact iff_of_true (drawHlineOps_eq mem hw hnothing) (fun h => absurd h hnothing)

/--
The fast paths agree with the definition by pixels unless `GAL_memset4` in C gets no word, pixels of three bytes are
put with the transparent mode, or the words of an unaligned line of them are passed over.
-/
theorem hlines_exact_iff (hw : w * len.bytes < 2 ^ 31)
    : (DrawExact b rop len dc w mem (drawHlineOps b rop dc w mem len) ↔ DrawFits b rop len dc w mem)
      ∧ (PutExact b rop len dc src s w mem (putHlineOps b rop dc src s w mem len)
        ↔ PutFits b rop dc src s w mem len) := by
  constructor
  . exact drawExact_drawHlineOps b rop len dc w mem hw
  . rw [putExact_iff]
    exact putHlineOps_iff src mem

def onePixel : LineDc :=
  { curDst := 0, curPixel := 5, skipPixel := 0, bkmode := .bmTransparent }

theorem hlines_exact_iff_onePixel : (DrawExact ⟨true, false⟩ .set .three onePixel 1 (fun _ => 7)
          (drawHlineOps ⟨true, false⟩ .set onePixel 1 (fun _ => 7) .three)
        ↔ DrawFits ⟨true, false⟩ .set .three onePixel 1 (fun _ => 7))
      ∧ (PutExact ⟨true, false⟩ .set .three onePixel (fun _ => 3) 0 1 (fun _ => 7)
          (putHlineOps ⟨true, false⟩ .set onePixel (fun _ => 3) 0 1 (fun _ => 7) .three)
        ↔ PutFits ⟨true, false⟩ .set onePixel (fun _ => 3) 0 1 (fun _ => 7) .three) :=
  hlines_exact_iff ⟨true, false⟩ .set .three onePixel (fun _ => 3) 0 1 (fun _ => 7) (by decide)

theorem not_hlines_exact
    : ¬∀ (b : Build) (rop : Rop) (len : PixelLen) (dc : LineDc) (src : Mem) (s w : Nat) (mem : Mem),
        w * len.bytes < 2 ^ 31
          → DrawExact b rop len dc w mem (drawHlineOps b rop dc w mem len)
            ∧ PutExact b rop len dc src s w mem (putHlineOps b rop dc src s w mem len) := by
  intro h
  have hput := (h ⟨true, false⟩ .set .three onePixel (fun _ => 3) 0 1 (fun _ => 0) (by decide)).2.1 0 (by decide)
  revert hput
  decide +kernel

end Exact

end Hline

end MiniGui
