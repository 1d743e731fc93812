import MiniGui.Gdi.Rect
import Mathlib.Logic.Relation

namespace MiniGui
namespace Flood

def shortOf (n : Int) : Int :=
  n.bmod 65536

inductive Fault where
  /-- an access outside of the array of lines, or through the null pointer of a failed `realloc` -/
  | wild
  /-- the loops have not come to their end after so many rounds -/
  | more
deriving DecidableEq, Repr

structure FloodedLine where
  inUse : Bool
  todoAbove : Bool
  todoBelow : Bool
  lpos : Int
  rpos : Int
  y : Int
  next : Int
deriving DecidableEq, Repr

structure Segment where
  left : Int
  right : Int
  y : Int
deriving DecidableEq, Repr

structure FillEnv where
  dstRc : Rect
  equalPixel : Int → Int → Bool
  grants : Nat → Bool

structure FloodInfo where
  lines : List FloodedLine
  drawn : List Segment
deriving DecidableEq

namespace FloodedLine

def flags (p : FloodedLine) : Bool :=
  p.inUse || p.todoAbove || p.todoBelow

def seg (p : FloodedLine) : Segment :=
  ⟨p.lpos, p.rpos, p.y⟩

end FloodedLine

def lineAt (lines : List FloodedLine) (c : Int) : Except Fault FloodedLine :=
  if c < 0 then
    .error .wild
  else
    match lines[c.toNat]? with
    | some p => .ok p
    | none => .error .wild

def lastLine (lines : List FloodedLine) (rounds : Nat) (c : Int) : Except Fault Int :=
  match rounds with
  | 0 => .error .more
  | rounds + 1 =>
    match lineAt lines c with
    | .error e => .error e
    | .ok p => if p.next ≠ 0 then lastLine lines rounds p.next else .ok c

def workLeft (equalPixel : Int → Int → Bool) (y : Int) (pixels : Nat) (x : Int) : Int :=
  match pixels with
  | 0 => x
  | pixels + 1 => if equalPixel (x - 1) y then workLeft equalPixel y pixels (x - 1) else x

def workRight (equalPixel : Int → Int → Bool) (y : Int) (pixels : Nat) (x : Int) : Int :=
  match pixels with
  | 0 => x
  | pixels + 1 => if equalPixel (x + 1) y then workRight equalPixel y pixels (x + 1) else x

namespace FillEnv

variable (env : FillEnv)

def segmentAt (x y : Int) : Segment :=
  {
    left := workLeft env.equalPixel y (x - env.dstRc.left).toNat x
    right := workRight env.equalPixel y (env.dstRc.right - 1 - x).toNat x
    y := y
  }

def stored (s : Segment) : FloodedLine :=
  {
    inUse := true
    todoAbove := decide (s.y > env.dstRc.top)
    todoBelow := decide (s.y + 1 < env.dstRc.bottom)
    lpos := shortOf s.left
    rpos := shortOf s.right
    y := shortOf s.y
    next := 0
  }

def flooder (fi : FloodInfo) (x y : Int) : Except Fault (FloodInfo × Int) :=
  if env.equalPixel x y = false then
    .ok (fi, x + 1)
  else
    let s := env.segmentAt x y
    match lineAt fi.lines (y - env.dstRc.top) with
    | .error e => .error e
    | .ok p =>
      if p.flags then
        match lastLine fi.lines (fi.lines.length + 1) (y - env.dstRc.top) with
        | .error e => .error e
        | .ok c =>
          match lineAt fi.lines c with
          | .error e => .error e
          | .ok p =>
            if env.grants (fi.lines.length + 1) then
              let lines := fi.lines.set c.toNat { p with next := shortOf fi.lines.length }
              .ok (⟨lines ++ [env.stored s], fi.drawn ++ [s]⟩, s.right + 2)
            else
              .error .wild
      else
        .ok (⟨fi.lines.set (y - env.dstRc.top).toNat (env.stored s), fi.drawn ++ [s]⟩, s.right + 2)

end FillEnv

def findLine (lines : List FloodedLine) (left : Int) (rounds : Nat) (c : Int) : Except Fault (Option Int) :=
  match rounds with
  | 0 => .error .more
  | rounds + 1 =>
    match lineAt lines c with
    | .error e => .error e
    | .ok p =>
      if left ≥ p.lpos ∧ left ≤ p.rpos then
        .ok (some (p.rpos + 2))
      else if p.next = 0 then
        .ok none
      else
        findLine lines left rounds p.next

namespace FillEnv

variable (env : FillEnv)

def checkLoop (y right : Int) (rounds : Nat) (fi : FloodInfo) (left : Int) (ret : Bool)
    : Except Fault (FloodInfo × Bool) :=
  match rounds with
  | 0 => .ok (fi, ret)
  | rounds + 1 =>
    if left ≤ right then
      match findLine fi.lines left (fi.lines.length + 1) (y - env.dstRc.top) with
      | .error e => .error e
      | .ok (some left) => checkLoop y right rounds fi left ret
      | .ok none =>
        match env.flooder fi left y with
        | .error e => .error e
        | .ok (fi, left) => checkLoop y right rounds fi left true
    else
      .ok (fi, ret)

def checkFloodLine (fi : FloodInfo) (y left right : Int) : Except Fault (FloodInfo × Bool) :=
  env.checkLoop y right (right + 1 - left).toNat fi left false

def checkBelow (fi : FloodInfo) (c : Nat) (p : FloodedLine) : Except Fault (FloodInfo × Bool) :=
  if p.todoBelow then
    env.checkFloodLine { fi with lines := fi.lines.set c { p with todoBelow := false } } (p.y + 1) p.lpos p.rpos
  else
    .ok (fi, false)

def checkAbove (fi : FloodInfo) (c : Nat) (p : FloodedLine) : Except Fault (FloodInfo × Bool) :=
  if p.todoAbove then
    env.checkFloodLine { fi with lines := fi.lines.set c { p with todoAbove := false } } (p.y - 1) p.lpos p.rpos
  else
    .ok (fi, false)

def visitLine (fi : FloodInfo) (c : Nat) : Except Fault (FloodInfo × Bool × Nat) :=
  match lineAt fi.lines c with
  | .error e => .error e
  | .ok p =>
    match env.checkBelow fi c p with
    | .error e => .error e
    | .ok (fi, below) =>
      match lineAt fi.lines c with
      | .error e => .error e
      | .ok p =>
        match env.checkAbove fi c p with
        | .error e => .error e
        | .ok (fi, above) =>
          -- special case shortcut for going backwards
          let back := above = true ∧ (c : Int) < env.dstRc.bottom - env.dstRc.top ∧ c > 0
          .ok (fi, below || above, if back then c - 1 else c + 1)

def floodLoop (rounds : Nat) (fi : FloodInfo) (c : Nat) (done : Bool) : Except Fault FloodInfo :=
  match rounds with
  | 0 => .error .more
  | rounds + 1 =>
    if c < fi.lines.length then
      match env.visitLine fi c with
      | .error e => .error e
      | .ok (fi, found, c) => floodLoop rounds fi c (done && !found)
    else if done then
      .ok fi
    else
      floodLoop rounds fi 0 true

def rows : Nat :=
  (env.dstRc.bottom - env.dstRc.top).toNat

def blankLine (y : Int) : FloodedLine :=
  {
    inUse := false
    todoAbove := false
    todoBelow := false
    lpos := 32767
    rpos := -32768
    y := shortOf y
    next := 0
  }

def floodFillGenerator (rounds : Nat) (x y : Int) : Except Fault (Bool × List Segment) :=
  if x < env.dstRc.left ∨ x ≥ env.dstRc.right ∨ y < env.dstRc.top ∨ y ≥ env.dstRc.bottom then
    .ok (true, [])
  else if env.grants env.rows then
    match env.flooder ⟨List.replicate env.rows (blankLine y), []⟩ x y with
    | .error e => .error e
    | .ok (fi, _) =>
      match env.floodLoop rounds fi 0 true with
      | .error e => .error e
      | .ok fi => .ok (true, fi.drawn)
  else
    .ok (false, [])

end FillEnv

end Flood

end MiniGui
