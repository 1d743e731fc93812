import MiniGui.Ext.Gif89a

namespace MiniGui

def dataBlockArea (area : Area) : Nat × Area :=
  match readOK area 1 with
  | (true, [count], area) =>
    if count = 0 then
      (0, area)
    else
      let (ok, _, area) := readOK area count.toNat
      (if ok then count.toNat else 0, area)
  | (_, _, area) => (0, area)

def skipBlocksArea (fuel : Nat) (area : Area) : Area :=
  match fuel with
  | 0 => area
  | fuel + 1 =>
    match dataBlockArea area with
    | (0, area) => area
    | (_, area) => skipBlocksArea fuel area

def extensionArea (area : Area) (label : Byte) : Area :=
  let fuel := area.rest.length + 1
  if label = 0xf9 then skipBlocksArea fuel (dataBlockArea area).2 else skipBlocksArea fuel area

def imageArea (fuel : Nat) (c : Byte) (area : Area) : Option Area :=
  match fuel with
  | 0 => none
  | fuel + 1 =>
    let next (area : Area) : Option Area :=
      match readOK area 1 with
      | (true, [c], area) => imageArea fuel c area
      | _ => none
    if c = 0x3b then
      none
    else if c = 0x21 then
      match readOK area 1 with
      | (true, [label], area) => next (extensionArea area label)
      | _ => none
    else if c = 0x2c then
      match readImageDesc area with
      | (none, _) => none
      | (some _, area) => some area
    else
      next area

def firstImage (area : Area) : Option Area :=
  match readGifGlobal area with
  | (none, _) => none
  | (some _, area) =>
    match readOK area 1 with
    | (true, [c], area) => imageArea (area.rest.length + 2) c area
    | _ => none

def DecodesPixels (area : Area) (pixels : Bool) : Prop :=
  ∃ c area', readOK area 1 = (true, [c], area') ∧ (maxLwzBits < c.toNat ∨ pixels = true)

structure GifCall where
  area : Area
  memory : Nat → GifMemory

def GifCall.DecodesImage (call : GifCall) : Prop :=
  ∃ area ∈ firstImage call.area, DecodesPixels area (call.memory 0).pixels

def createAnimations (calls : List GifCall) (st : GifStatics) : Except GifFault GifStatics :=
  calls.foldlM
    (fun st call => do
      let (_, g) ← createAnimationFromGif89a call.memory ⟨call.area, st⟩
      .ok g.st)
    st

section Reads

variable {area : Area} {g : Gif}

theorem rwRead_rest (area : Area) (size maxnum : Nat)
    : (rwRead area size maxnum).2.rest.length + (rwRead area size maxnum).1.length = area.rest.length := by
  have hle : (rwRead area size maxnum).1.length ≤ area.rest.length := by
    unfold rwRead
    split
    . exact List.length_take_le' _ _
    . exact List.length_take_le' _ _
  have hrest : (rwRead area size maxnum).2.rest = area.rest.drop (rwRead area size maxnum).1.length := by
    unfold rwRead Area.rest
    rw [List.drop_drop]
  rw [hrest, List.length_drop]
  omega

theorem readOK_rest (area : Area) (len : Nat)
    : (readOK area len).2.2.rest.length + (readOK area len).2.1.length = area.rest.length :=
  rwRead_rest area len 1

theorem readOK_length {len : Nat} {copied : List Byte} {area' : Area} (h : readOK area len = (true, copied, area'))
    : copied.length = len ∧ area'.rest.length + len = area.rest.length := by
  have hrest := readOK_rest area len
  have hok : copied.length = len := by
    have hfst : (readOK area len).1 = true := by rw [h]
    unfold readOK at hfst h
    rw [Prod.mk.injEq, Prod.mk.injEq] at h
    rw [decide_eq_true_eq, h.2.1] at hfst
    exact hfst
  rw [h] at hrest
  dsimp only at hrest
  omega

theorem readOK_one (area : Area)
    : (∃ c area', readOK area 1 = (true, [c], area') ∧ area'.rest.length + 1 = area.rest.length)
      ∨ ∃ copied area', readOK area 1 = (false, copied, area') := by
  rcases h : readOK area 1 with ⟨ok, copied, area'⟩
  cases ok with
  | false => exact .inr ⟨copied, area', rfl⟩
  | true =>
    have hlen := readOK_length h
    obtain ⟨c, hc⟩ := List.length_eq_one_iff.mp hlen.1
    rw [hc]
    exact .inl ⟨c, area', rfl, hlen.2⟩

theorem getDataBlock_area (g : Gif)
    : (getDataBlock g).1 = (dataBlockArea g.area).1 ∧ (getDataBlock g).2.2.area = (dataBlockArea g.area).2
        ∧ (getDataBlock g).2.2.st.lastByte = g.st.lastByte := by
  unfold getDataBlock dataBlockArea
  rcases readOK_one g.area with ⟨c, area', h, _⟩ | ⟨copied, area', h⟩
  . rw [h]
    dsimp only
    split
    . exact ⟨rfl, rfl, rfl⟩
    . exact ⟨rfl, rfl, rfl⟩
  . rw [h]
    exact ⟨rfl, rfl, rfl⟩

theorem dataBlockArea_length (area : Area) : (dataBlockArea area).2.rest.length ≤ area.rest.length
        ∧ ((dataBlockArea area).1 ≠ 0 → (dataBlockArea area).2.rest.length < area.rest.length) := by
  unfold dataBlockArea
  rcases readOK_one area with ⟨c, area', h, hlen⟩ | ⟨copied, area', h⟩
  . rw [h]
    dsimp only
    split
    . dsimp only
      omega
    have hrest := readOK_rest area' c.toNat
    constructor
    . show (readOK area' c.toNat).2.2.rest.length ≤ _
      omega
    . intro _
      show (readOK area' c.toNat).2.2.rest.length < _
      omega
  . have hrest := readOK_rest area 1
    rw [h] at hrest ⊢
    dsimp only at hrest ⊢
    omega

theorem skipDataBlocks_spec {fuel : Nat} {g : Gif} (h : g.area.rest.length < fuel)
    : ∃ g', skipDataBlocks fuel g = .ok g' ∧ g'.area = skipBlocksArea fuel g.area ∧ g'.st.lastByte = g.st.lastByte
        ∧ g'.area.rest.length ≤ g.area.rest.length := by
  induction fuel generalizing g with
  | zero => omega
  | succ fuel ih =>
    unfold skipDataBlocks skipBlocksArea
    have hblock := getDataBlock_area g
    have hlen := dataBlockArea_length g.area
    rcases hdata : getDataBlock g with ⟨count, copied, g'⟩
    rcases harea : dataBlockArea g.area with ⟨count', area'⟩
    rw [hdata, harea] at hblock
    rw [harea] at hlen
    dsimp only at hblock hlen
    obtain ⟨hcount, hg, hlast⟩ := hblock
    rw [hcount]
    cases count' with
    | zero =>
      refine ⟨_, rfl, hg, hlast, ?_⟩
      rw [hg]
      exact hlen.1
    | succ n =>
      obtain ⟨g'', heq, ha, hl, hle⟩ := @ih ⟨g'.area, { g'.st with extBuf := copyBytes g'.st.extBuf 0 copied }⟩ (by
        rw [hg]
        omega)
      refine ⟨g'', heq, ?_, hl.trans hlast, ?_⟩
      . rw [ha]
        exact congrArg (skipBlocksArea fuel) hg
      . dsimp only at hle
        rw [hg] at hle
        omega

theorem doExtension_spec (g : Gif) (label : Byte) (screen : GifScreen)
    : ∃ g' screen', doExtension g label screen = .ok (g', screen') ∧ g'.area = extensionArea g.area label
        ∧ g'.st.lastByte = g.st.lastByte ∧ g'.area.rest.length ≤ g.area.rest.length := by
  unfold doExtension extensionArea
  by_cases hlabel : label = 0xf9
  . rw [if_pos hlabel, if_pos hlabel]
    have hblock := getDataBlock_area g
    have hlen := (dataBlockArea_length g.area).1
    rcases hdata : getDataBlock g with ⟨count, copied, g'⟩
    rw [hdata] at hblock
    dsimp only at hblock ⊢
    obtain ⟨_, hg, hlast⟩ := hblock
    have hfuel : g'.area.rest.length < g.area.rest.length + 1 := by
      rw [hg]
      omega
    obtain ⟨g'', heq, ha, hl, hle⟩ :=
      @skipDataBlocks_spec _ ⟨g'.area, { g'.st with extBuf := copyBytes g'.st.extBuf 0 copied }⟩ hfuel
    rw [heq]
    refine ⟨g'', _, rfl, ?_, hl.trans hlast, ?_⟩
    . rw [ha, hg]
    . dsimp only at hle
      omega
  . rw [if_neg hlabel, if_neg hlabel]
    obtain ⟨g'', heq, ha, hl, hle⟩ := @skipDataBlocks_spec _ g (Nat.lt_succ_self _)
    rw [heq]
    exact ⟨g'', _, rfl, ha, hl, hle⟩

end Reads

section Images

variable {g : Gif} {desc : ImageDesc}

theorem readPixels_first {fuel : Nat} {bits : Int → Byte} {xpos ypos pass : Nat} (hfresh : g.st.fresh = true)
    (hcurbit : g.st.curbit = 0) (hlastbit : g.st.lastbit = 0) (hdone : g.st.done = false) (hlast : g.st.lastByte = 0)
    : readPixels fuel desc g bits xpos ypos pass = .error (.bounds .buf (-2)) := by
  have hcode : getCode { g with st := { g.st with fresh := false } } = .error (.bounds .buf (-2)) := by
    unfold getCode
    rw [hcurbit, hlastbit, hdone, hlast, if_pos (by omega)]
    rfl
  have hread : lwzReadByte g = .error (.bounds .buf (-2)) := by
    unfold lwzReadByte
    rw [if_pos hfresh]
    unfold firstCode
    rw [hcode]
    rfl
  unfold readPixels
  rw [hread]
  rfl

theorem lwzStart_spec (g : Gif) (c : Nat) : (maxLwzBits < c ∧ ∃ fault, lwzStart g c = .error fault)
      ∨ c ≤ maxLwzBits ∧ ∃ st, lwzStart g c = .ok { g with st } ∧ st.fresh = true ∧ st.curbit = 0 ∧ st.lastbit = 0
          ∧ st.done = false ∧ st.lastByte = g.st.lastByte := by
  unfold lwzStart
  by_cases hshift : c ≥ 31
  . left
    rw [if_pos hshift]
    exact ⟨by unfold maxLwzBits; omega, _, rfl⟩
  rw [if_neg hshift]
  by_cases hbits : maxLwzBits < c
  . left
    have hlt : (2 : Int) ^ c > 2 ^ maxLwzBits := by
      exact_mod_cast Nat.pow_lt_pow_right (by omega) hbits
    rw [if_pos hlt]
    exact ⟨hbits, _, rfl⟩
  right
  have hle : ¬(2 : Int) ^ c > 2 ^ maxLwzBits := by
    rw [gt_iff_lt, not_lt]
    exact_mod_cast Nat.pow_le_pow_right (by omega) (by omega : c ≤ maxLwzBits)
  rw [if_neg hle]
  exact ⟨by omega, _, rfl, rfl, rfl, rfl, rfl, rfl⟩

theorem readImage_spec (hlast : g.st.lastByte = 0) (pixels : Bool)
    : (DecodesPixels g.area pixels ∧ ∃ fault, readImage g desc pixels = .error fault)
      ∨ ¬DecodesPixels g.area pixels ∧ ∃ g', readImage g desc pixels = .ok (none, g') ∧ g'.st.lastByte = 0 := by
  unfold readImage DecodesPixels
  rcases readOK_one g.area with ⟨c, area', h, _⟩ | ⟨copied, area', h⟩
  . rw [h]
    dsimp only
    rcases lwzStart_spec { g with area := area' } c.toNat with ⟨hc, fault, heq⟩ | ⟨hc, st, heq, hfresh, hcurbit,
      hlastbit, hdone, hst⟩
    . left
      rw [heq]
      exact ⟨⟨c, area', rfl, Or.inl hc⟩, fault, rfl⟩
    rw [heq]
    cases pixels with
    | true =>
      left
      refine ⟨⟨c, area', rfl, Or.inr rfl⟩, .bounds .buf (-2), ?_⟩
      have hpixels := @readPixels_first ⟨area', st⟩ desc (desc.height * gifPitch desc.width + 1) (fun _ => 0) 0 0 0
        hfresh hcurbit hlastbit hdone (hst.trans hlast)
      show (readPixels _ desc ⟨area', st⟩ (fun _ => 0) 0 0 0 >>= _) = _
      rw [hpixels]
      rfl
    | false =>
      right
      constructor
      . rintro ⟨c', area'', heq', hor⟩
        rw [Prod.mk.injEq, Prod.mk.injEq, List.singleton_inj] at heq'
        rw [← heq'.2.1] at hor
        rcases hor with hor | hor
        . omega
        . cases hor
      . exact ⟨⟨area', st⟩, rfl, hst.trans hlast⟩
  right
  rw [h]
  constructor
  . rintro ⟨c, area'', heq, _⟩
    cases heq
  . exact ⟨_, rfl, hlast⟩

theorem readBlocks_spec {fuel : Nat} {memory : Nat → GifMemory} {c : Byte} {screen : GifScreen} {g : Gif}
    (hfuel : g.area.rest.length < fuel) (hlast : g.st.lastByte = 0)
    : ((∃ area ∈ imageArea fuel c g.area, DecodesPixels area (memory 0).pixels)
        ∧ ∃ fault, readBlocks fuel memory c screen [] g = .error fault)
      ∨ (¬∃ area ∈ imageArea fuel c g.area, DecodesPixels area (memory 0).pixels)
          ∧ ∃ frames g', readBlocks fuel memory c screen [] g = .ok (frames, g') ∧ g'.st.lastByte = 0 := by
  induction fuel generalizing c screen g with
  | zero => omega
  | succ fuel ih =>
    -- what is read of a block and of the byte behind it
    have hnext : ∀ (screen : GifScreen) (g' : Gif), g'.area.rest.length ≤ g.area.rest.length → g'.st.lastByte = 0 →
        ((∃ area ∈ (match readOK g'.area 1 with
            | (true, [c], area) => imageArea fuel c area
            | _ => none), DecodesPixels area (memory 0).pixels)
          ∧ ∃ fault, (match readOK g'.area 1 with
            | (true, [c], area) => readBlocks fuel memory c screen [] { g' with area }
            | (_, _, area) => .ok (some [], { g' with area })) = .error fault)
        ∨ (¬∃ area ∈ (match readOK g'.area 1 with
            | (true, [c], area) => imageArea fuel c area
            | _ => none), DecodesPixels area (memory 0).pixels)
          ∧ ∃ frames g'', (match readOK g'.area 1 with
            | (true, [c], area) => readBlocks fuel memory c screen [] { g' with area }
            | (_, _, area) => .ok (some [], { g' with area })) = .ok (frames, g'') ∧ g''.st.lastByte = 0 := by
      intro screen g' hle hst
      rcases readOK_one g'.area with ⟨c', area', h, hlen⟩ | ⟨copied, area', h⟩
      . rw [h]
        apply @ih c' screen ⟨area', g'.st⟩
        . dsimp only
          omega
        . exact hst
      . rw [h]
        right
        exact ⟨by simp, _, _, rfl, hst⟩
    unfold readBlocks imageArea
    by_cases hend : c = 0x3b
    . rw [if_pos hend, if_pos hend]
      right
      exact ⟨by simp, _, _, rfl, hlast⟩
    rw [if_neg hend, if_neg hend]
    by_cases hext : c = 0x21
    . rw [if_pos hext, if_pos hext]
      rcases readOK_one g.area with ⟨label, area', h, hlen⟩ | ⟨copied, area', h⟩
      . rw [h]
        obtain ⟨g', screen', heq, ha, hl, hle⟩ := doExtension_spec { g with area := area' } label screen
        dsimp only at ha hl hle ⊢
        rw [heq, ← ha]
        exact hnext screen' g' (by omega) (hl.trans hlast)
      . rw [h]
        right
        exact ⟨by simp, _, _, rfl, hlast⟩
    rw [if_neg hext, if_neg hext]
    by_cases himage : c = 0x2c
    . rw [if_pos himage, if_pos himage]
      rcases readImageDesc g.area with ⟨desc, area'⟩
      cases desc with
      | none =>
        right
        exact ⟨by simp, _, _, rfl, hlast⟩
      | some desc =>
        dsimp only
        rcases @readImage_spec { g with area := area' } desc hlast (memory 0).pixels with ⟨hdec, fault,
          heq⟩ | ⟨hdec, g', heq, hst⟩
        . left
          rw [List.length_nil, heq]
          exact ⟨⟨area', rfl, hdec⟩, fault, rfl⟩
        right
        rw [List.length_nil, heq]
        refine ⟨?_, _, _, rfl, hst⟩
        rintro ⟨area'', hmem, hdec'⟩
        rw [Option.mem_some_iff] at hmem
        rw [← hmem] at hdec'
        exact hdec hdec'
    . rw [if_neg himage, if_neg himage]
      exact hnext screen g (Nat.le_refl _) hlast

theorem createAnimation_spec (call : GifCall) {st : GifStatics} (hlast : st.lastByte = 0)
    : (call.DecodesImage ∧ ∃ fault, createAnimationFromGif89a call.memory ⟨call.area, st⟩ = .error fault)
      ∨ ¬call.DecodesImage
          ∧ ∃ anim g', createAnimationFromGif89a call.memory ⟨call.area, st⟩ = .ok (anim, g') ∧ g'.st.lastByte = 0 := by
  unfold GifCall.DecodesImage firstImage createAnimationFromGif89a
  rcases readGifGlobal call.area with ⟨screen, area⟩
  cases screen with
  | none =>
    right
    exact ⟨by simp, _, _, rfl, hlast⟩
  | some screen =>
    dsimp only
    rcases readOK_one area with ⟨c, area', h, _⟩ | ⟨copied, area', h⟩
    . rw [h]
      dsimp only
      rcases @readBlocks_spec (area'.rest.length + 2) call.memory c screen ⟨area', st⟩ (by dsimp only; omega) hlast with
        ⟨hdec, fault, heq⟩ | ⟨hdec, frames, g', heq, hst⟩
      . left
        rw [heq]
        exact ⟨hdec, fault, rfl⟩
      . right
        rw [heq]
        exact ⟨hdec, _, _, rfl, hst⟩
    . rw [h]
      right
      exact ⟨by simp, _, _, rfl, hlast⟩

end Images

theorem createAnimations_spec (calls : List GifCall) {st : GifStatics} (hlast : st.lastByte = 0)
    : (∃ st', createAnimations calls st = .ok st') ↔ ∀ call ∈ calls, ¬call.DecodesImage := by
  unfold createAnimations
  induction calls generalizing st with
  | nil => exact iff_of_true ⟨st, rfl⟩ (by simp)
  | cons call calls ih =>
    rw [List.foldlM_cons, List.forall_mem_cons]
    rcases createAnimation_spec call hlast with ⟨hdec, fault, heq⟩ | ⟨hdec, anim, g, heq, hst⟩
    . rw [heq]
      apply iff_of_false
      . rintro ⟨st', hst'⟩
        cases hst'
      . intro h
        exact h.1 hdec
    . rw [heq]
      rw [and_iff_right hdec]
      exact ih hst

theorem gif_decoding_safe_iff (calls : List GifCall)
    : (∃ st, createAnimations calls .start = .ok st) ↔ ∀ call ∈ calls, ¬call.DecodesImage :=
  createAnimations_spec calls rfl

def onePixelGif : GifCall :=
  {
    area :=
      {
        type := .mem
        bytes :=
          [0x47, 0x49, 0x46, 0x38, 0x39, 0x61, 1, 0, 1, 0, 0, 0, 0, 0x2c, 0, 0, 0, 0, 1, 0, 1, 0, 0, 2, 2, 0x44, 1, 0, 0x3b]
        here := 0
        uninit := fun _ => 0
      }
    memory := fun _ => ⟨true, true, true⟩
  }

theorem gif_decoding_onePixel : createAnimations [onePixelGif] .start = .error (.bounds .buf (-2)) := by
  rfl

end MiniGui
