import MiniGui.Mybmp.RWops

namespace MiniGui

open Function

inductive GifArray where
  | table
  | stack
  | buf
  | bits
deriving DecidableEq, Repr

inductive GifFault where
  | bounds (array : GifArray) (index : Int)
  | shift
  | fuel
deriving DecidableEq, Repr

def maxLwzBits : Nat := 12

structure GifStatics where
  zeroDataBlock : Bool
  fresh : Bool
  codeSize : Nat
  setCodeSize : Nat
  maxCode : Int
  maxCodeSize : Int
  firstcode : Int
  oldcode : Int
  clearCode : Int
  endCode : Int
  table0 : Int → Int
  table1 : Int → Int
  stack : Nat → Int
  sp : Nat
  buf : Int → Byte
  curbit : Int
  lastbit : Int
  done : Bool
  lastByte : Int
  extBuf : Nat → Byte

def GifStatics.start : GifStatics where
  zeroDataBlock := false
  fresh := false
  codeSize := 0
  setCodeSize := 0
  maxCode := 0
  maxCodeSize := 0
  firstcode := 0
  oldcode := 0
  clearCode := 0
  endCode := 0
  table0 _ := 0
  table1 _ := 0
  stack _ := 0
  sp := 0
  buf _ := 0
  curbit := 0
  lastbit := 0
  done := false
  lastByte := 0
  extBuf _ := 0

structure Gif where
  area : Area
  st : GifStatics

def readOK (area : Area) (len : Nat) : Bool × List Byte × Area :=
  let (copied, area) := rwRead area len 1
  (decide (copied.length = len), copied, area)

def lmToUint (a b : Byte) : Nat :=
  b.toNat * 256 + a.toNat

def copyBytes (buf : Nat → Byte) (start : Nat) (bytes : List Byte) : Nat → Byte :=
  fun i => if start ≤ i then bytes.getD (i - start) (buf i) else buf i

def getDataBlock (g : Gif) : Nat × List Byte × Gif :=
  match readOK g.area 1 with
  | (true, [count], area) =>
    let g := { g with area, st := { g.st with zeroDataBlock := decide (count = 0) } }
    if count = 0 then
      (0, [], g)
    else
      let (ok, copied, area) := readOK area count.toNat
      (if ok then count.toNat else 0, copied, { g with area })
  | (_, _, area) => (0, [], { g with area })

def skipDataBlocks (fuel : Nat) (g : Gif) : Except GifFault Gif :=
  match fuel with
  | 0 => .error .fuel
  | fuel + 1 =>
    match getDataBlock g with
    | (0, copied, g) => .ok { g with st := { g.st with extBuf := copyBytes g.st.extBuf 0 copied } }
    | (_, copied, g) => skipDataBlocks fuel { g with st := { g.st with extBuf := copyBytes g.st.extBuf 0 copied } }

def checkIndex (array : GifArray) (size : Nat) (index : Int) : Except GifFault Unit :=
  if 0 ≤ index ∧ index < size then .ok () else .error (.bounds array index)

def codeBits (buf : Int → Byte) (curbit : Int) (codeSize : Nat) : Except GifFault Int :=
  (List.range codeSize).foldlM
    (fun (ret : Int) (j : Nat) => do
      let i := curbit + j
      checkIndex .buf 280 (i.tdiv 8)
      .ok (if (buf (i.tdiv 8)).getLsbD (i.tmod 8).toNat then ret + 2 ^ j else ret))
    0

def getCode (g : Gif) : Except GifFault (Int × Gif) :=
  if g.st.curbit + g.st.codeSize ≥ g.st.lastbit then
    if g.st.done then
      .ok (-1, g)
    else do
      checkIndex .buf 280 (g.st.lastByte - 2)
      checkIndex .buf 280 (g.st.lastByte - 1)
      let buf := update g.st.buf 0 (g.st.buf (g.st.lastByte - 2))
      let buf := update buf 1 (buf (g.st.lastByte - 1))
      let (count, copied, g) := getDataBlock g
      let st :=
        { g.st with
          buf := fun i => if 2 ≤ i then copied.getD (i - 2).toNat (buf i) else buf i
          done := g.st.done || decide (count = 0)
          lastByte := 2 + count
          curbit := g.st.curbit - g.st.lastbit + 16
          lastbit := (2 + count) * 8 }
      let ret ← codeBits st.buf st.curbit st.codeSize
      .ok (ret, { g with st := { st with curbit := st.curbit + st.codeSize } })
  else do
    let ret ← codeBits g.st.buf g.st.curbit g.st.codeSize
    .ok (ret, { g with st := { g.st with curbit := g.st.curbit + g.st.codeSize } })

def GifStatics.clearTable (st : GifStatics) : GifStatics :=
  { st with
    table0 := fun _ => 0
    table1 := fun i => if 0 ≤ i ∧ i < st.clearCode then i else 0 }

def lwzStart (g : Gif) (inputCodeSize : Nat) : Except GifFault Gif := do
  if inputCodeSize ≥ 31 then
    .error .shift
  else
    let clearCode : Int := 2 ^ inputCodeSize
    -- the loop over the codes up to the clear code
    if clearCode > 2 ^ maxLwzBits then
      .error (.bounds .table (2 ^ maxLwzBits))
    else
      .ok { g with st := { g.st with
        setCodeSize := inputCodeSize
        codeSize := inputCodeSize + 1
        clearCode
        endCode := clearCode + 1
        maxCodeSize := 2 * clearCode
        maxCode := clearCode + 2
        curbit := 0
        lastbit := 0
        done := false
        fresh := true
        table0 := fun _ => 0
        table1 := fun i => if 0 ≤ i ∧ i < clearCode then i else g.st.table1 i
        sp := 0 } }

def firstCode (fuel : Nat) (g : Gif) : Except GifFault (Int × Gif) :=
  match fuel with
  | 0 => .error .fuel
  | fuel + 1 => do
    let (code, g) ← getCode g
    let g := { g with st := { g.st with firstcode := code, oldcode := code } }
    if code = g.st.clearCode then firstCode fuel g else .ok (code, g)

def push (st : GifStatics) (v : Int) : Except GifFault GifStatics := do
  checkIndex .stack (2 ^ maxLwzBits * 2) st.sp
  .ok { st with stack := update st.stack st.sp v, sp := st.sp + 1 }

/--
The loop over the chain of a code. `none` is a circular entry, and `room` is what is left of the stack.
-/
def followChain (room : Nat) (st : GifStatics) (code : Int) : Except GifFault (Option (Int × GifStatics)) :=
  if code < st.clearCode then
    .ok (some (code, st))
  else
    match room with
    | 0 => .error (.bounds .stack st.sp)
    | room + 1 => do
      checkIndex .table (2 ^ maxLwzBits) code
      let st ← push st (st.table1 code)
      if code = st.table0 code then
        .ok none
      else
        followChain room st (st.table0 code)

def popByte (g : Gif) : Int × Gif :=
  (g.st.stack (g.st.sp - 1), { g with st := { g.st with sp := g.st.sp - 1 } })

def decodeCode (g : Gif) (incode : Int) : Except GifFault (Int × Gif) := do
  let (st, code) ←
    if incode ≥ g.st.maxCode then do
      let st ← push g.st g.st.firstcode
      .ok (st, g.st.oldcode)
    else
      .ok (g.st, incode)
  match ← followChain (2 ^ maxLwzBits * 2 - st.sp) st code with
  | none => .ok (-1, { g with st })
  | some (code, st) => do
    checkIndex .table (2 ^ maxLwzBits) code
    let st ← push { st with firstcode := st.table1 code } (st.table1 code)
    let st :=
      if st.maxCode < 2 ^ maxLwzBits then
        let st :=
          { st with
            table0 := update st.table0 st.maxCode st.oldcode
            table1 := update st.table1 st.maxCode st.firstcode
            maxCode := st.maxCode + 1 }
        if st.maxCode ≥ st.maxCodeSize ∧ st.maxCodeSize < 2 ^ maxLwzBits then
          { st with maxCodeSize := st.maxCodeSize * 2, codeSize := st.codeSize + 1 }
        else
          st
      else
        st
    .ok (popByte { g with st := { st with oldcode := incode } })

def lwzReadByte (g : Gif) : Except GifFault (Int × Gif) :=
  let fuel := 8 * g.area.rest.length + 300
  if g.st.fresh then
    firstCode fuel { g with st := { g.st with fresh := false } }
  else if g.st.sp > 0 then
    .ok (popByte g)
  else do
    let (code, g) ← getCode g
    if code < 0 then
      .ok (code, g)
    else if code = g.st.clearCode then do
      let st := g.st.clearTable
      let (code, g) ← getCode { g with st := { st with
        codeSize := st.setCodeSize + 1
        maxCodeSize := 2 * st.clearCode
        maxCode := st.clearCode + 2
        sp := 0 } }
      .ok (code, { g with st := { g.st with firstcode := code, oldcode := code } })
    else if code = g.st.endCode then
      if g.st.zeroDataBlock then
        .ok (-2, g)
      else do
        let rest ← skipDataBlocks fuel g
        .ok (-2, { rest with st := { rest.st with extBuf := g.st.extBuf } })
    else
      decodeCode g code

structure GifScreen where
  width : Nat
  height : Nat
  bitPixel : Nat
  background : Nat
  transparent : Int
  delayTime : Int
  inputFlag : Int
  disposal : Nat

structure ImageDesc where
  top : Nat
  left : Nat
  width : Nat
  height : Nat
  haveColorMap : Bool
  bitPixel : Nat
  interlace : Bool

def graphicControl (buf : Nat → Byte) (screen : GifScreen) : GifScreen :=
  { screen with
    disposal := ((buf 0).toNat / 4) % 8
    inputFlag := ((buf 0).toNat / 2) % 2
    delayTime := lmToUint (buf 1) (buf 2)
    transparent := if (buf 0).getLsbD 0 then (buf 3).toNat else -1 }

def doExtension (g : Gif) (label : Byte) (screen : GifScreen) : Except GifFault (Gif × GifScreen) := do
  let fuel := g.area.rest.length + 1
  if label = 0xf9 then
    let (_, copied, g) := getDataBlock g
    let extBuf := copyBytes g.st.extBuf 0 copied
    let g ← skipDataBlocks fuel { g with st := { g.st with extBuf } }
    .ok (g, graphicControl extBuf screen)
  else
    let g ← skipDataBlocks fuel g
    .ok (g, screen)

def readColorMap (number : Nat) (area : Area) : Bool × Area :=
  match number with
  | 0 => (true, area)
  | number + 1 =>
    match readOK area 3 with
    | (true, _, area) => readColorMap number area
    | (false, _, area) => (false, area)

def readGifGlobal (area : Area) : Option GifScreen × Area :=
  match readOK area 6 with
  | (true, [b0, b1, b2, b3, b4, b5], area) =>
    -- "GIF", and "87a" or "89a"
    if [b0, b1, b2] ≠ [0x47, 0x49, 0x46] ∨ ([b3, b4, b5] ≠ [0x38, 0x37, 0x61] ∧ [b3, b4, b5] ≠ [0x38, 0x39, 0x61]) then
      (none, area)
    else
      match readOK area 7 with
      | (true, [w0, w1, h0, h1, flags, background, _], area) =>
        let screen : GifScreen :=
          {
            width := lmToUint w0 w1
            height := lmToUint h0 h1
            bitPixel := 2 ^ ((flags.toNat % 8) + 1)
            background := background.toNat
            transparent := -1
            delayTime := -1
            inputFlag := -1
            disposal := 0
          }
        if flags.getLsbD 7 then
          let (ok, area) := readColorMap screen.bitPixel area
          (if ok then some screen else none, area)
        else
          (some screen, area)
      | (_, _, area) => (none, area)
  | (_, _, area) => (none, area)

def readImageDesc (area : Area) : Option ImageDesc × Area :=
  match readOK area 9 with
  | (true, [t0, t1, l0, l1, w0, w1, h0, h1, flags], area) =>
    let desc : ImageDesc :=
      {
        top := lmToUint t0 t1
        left := lmToUint l0 l1
        width := lmToUint w0 w1
        height := lmToUint h0 h1
        haveColorMap := flags.getLsbD 7
        bitPixel := 2 ^ ((flags.toNat % 8) + 1)
        interlace := flags.getLsbD 6
      }
    if desc.haveColorMap then
      let (ok, area) := readColorMap desc.bitPixel area
      (if ok then some desc else none, area)
    else
      (some desc, area)
  | (_, _, area) => (none, area)

def gifPitch (width : Nat) : Nat :=
  (width + 3) / 4 * 4

/--
The row behind a full one and its pass; `none` behind the last pass.
-/
def nextRow (desc : ImageDesc) (ypos pass : Nat) : Option (Nat × Nat) :=
  if desc.interlace then
    let ypos := ypos + (match pass with | 0 => 8 | 1 => 8 | 2 => 4 | 3 => 2 | _ => 0)
    if ypos ≥ desc.height then
      match pass with
      | 0 => some (4, 1)
      | 1 => some (2, 2)
      | 2 => some (1, 3)
      | _ => none
    else
      some (ypos, pass)
  else
    some (ypos + 1, pass)

def readPixels (fuel : Nat) (desc : ImageDesc) (g : Gif) (bits : Int → Byte) (xpos ypos pass : Nat)
    : Except GifFault (Bool × (Int → Byte) × Gif) := do
  let (v, g) ← lwzReadByte g
  match fuel with
  | 0 => .error .fuel
  | fuel + 1 =>
    if v < 0 then
      .ok (false, bits, g)
    else do
      let index : Int := ypos * gifPitch desc.width + xpos
      checkIndex .bits (desc.height * gifPitch desc.width) index
      let bits := update bits index (BitVec.ofInt 8 v)
      if xpos + 1 = desc.width then
        match nextRow desc ypos pass with
        | none => .ok (true, bits, g)
        | some (ypos, pass) =>
          if ypos ≥ desc.height then .ok (true, bits, g) else readPixels fuel desc g bits 0 ypos pass
      else if ypos ≥ desc.height then
        .ok (true, bits, g)
      else
        readPixels fuel desc g bits (xpos + 1) ypos pass

def readImage (g : Gif) (desc : ImageDesc) (malloc : Bool) : Except GifFault (Option (Int → Byte) × Gif) :=
  match readOK g.area 1 with
  | (true, [c], area) => do
    let g ← lwzStart { g with area } c.toNat
    if !malloc then
      .ok (none, g)
    else do
      let (ok, bits, g) ← readPixels (desc.height * gifPitch desc.width + 1) desc g (fun _ => 0) 0 0 0
      .ok (if ok then some bits else none, g)
  | (_, _, area) => .ok (none, { g with area })

structure GifFrame where
  disposal : Nat
  offX : Nat
  offY : Nat
  width : Nat
  height : Nat
  delayTime : Int
  bits : Int → Byte

structure GifMemory where
  pixels : Bool
  frame : Bool
  memDc : Bool

/--
The loop of `CreateAnimationFromGIF89a` over the blocks. `c` is the byte that has been read, and `none` is a null pointer.
-/
def readBlocks (fuel : Nat) (memory : Nat → GifMemory) (c : Byte) (screen : GifScreen) (frames : List GifFrame) (g : Gif)
    : Except GifFault (Option (List GifFrame) × Gif) :=
  match fuel with
  | 0 => .error .fuel
  | fuel + 1 =>
    let next (screen : GifScreen) (frames : List GifFrame) (g : Gif) : Except GifFault (Option (List GifFrame) × Gif) :=
      match readOK g.area 1 with
      | (true, [c], area) => readBlocks fuel memory c screen frames { g with area }
      | (_, _, area) => .ok (some frames, { g with area })
    if c = 0x3b then
      .ok (some frames, g)
    else if c = 0x21 then
      match readOK g.area 1 with
      | (true, [label], area) => do
        let (g, screen) ← doExtension { g with area } label screen
        next screen frames g
      | (_, _, area) => .ok (none, { g with area })
    else if c = 0x2c then
      match readImageDesc g.area with
      | (none, area) => .ok (none, { g with area })
      | (some desc, area) => do
        let mem := memory frames.length
        match ← readImage { g with area } desc mem.pixels with
        | (none, g) => .ok (none, g)
        | (some bits, g) =>
          if mem.frame && mem.memDc then
            let frame : GifFrame :=
              {
                disposal := screen.disposal
                offX := desc.top
                offY := desc.left
                width := desc.width
                height := desc.height
                delayTime := if screen.delayTime > 10 then screen.delayTime else 10
                bits
              }
            next screen (frames ++ [frame]) g
          else
            .ok (none, g)
    else
      next screen frames g

def createAnimationFromGif89a (memory : Nat → GifMemory) (g : Gif)
    : Except GifFault (Option (GifScreen × List GifFrame) × Gif) :=
  match readGifGlobal g.area with
  | (none, area) => .ok (none, { g with area })
  | (some screen, area) =>
    match readOK area 1 with
    | (true, [c], area) => do
      let (frames, g) ← readBlocks (area.rest.length + 2) memory c screen [] { g with area }
      .ok (frames.map fun frames => (screen, frames), g)
    | (_, _, area) => .ok (none, { g with area })

end MiniGui
