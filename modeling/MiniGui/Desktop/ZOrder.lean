import MiniGui.Gdi.Region
import MiniGui.Kernel.Queue

/-!
The z-order store of a layer, which lies in memory that the server shares with its clients: the records of
`zi-procs.h`, the slot bitmap of `kernel/slotset.c`, and how a layer is set up in `server/layer.c`.
-/

namespace MiniGui

open Function

def ZOF_REFERENCE : BitVec 32 := 0x00000001
def ZOF_VISIBLE : BitVec 32 := 0x00000002
def ZOF_DISABLED : BitVec 32 := 0x00000004

def ZOF_TYPE_DESKTOP : BitVec 32 := 0x50000000
def ZOF_TYPE_GLOBAL : BitVec 32 := 0x30000000
def ZOF_TYPE_TOPMOST : BitVec 32 := 0x20000000
def ZOF_TYPE_NORMAL : BitVec 32 := 0x10000000
def ZOF_TYPE_MASK : BitVec 32 := 0xF0000000

def ZOF_TF_MAINWIN : BitVec 32 := 0x01000000
def ZOF_TF_TOOLWIN : BitVec 32 := 0x02000000

def DEF_NR_POPUPMENUS : Nat := 16

def HWND_OTHERPROC : Hwnd := 0xFFFFFFFE

def MSG_SETFOCUS : Int := 0x0030
def MSG_KILLFOCUS : Int := 0x0031
def MSG_ACTIVE : Int := 0x0033
def MSG_NCACTIVATE : Int := 0x00B3

def slotMask (j : Nat) : BitVec 8 :=
  0x80#8 >>> j

def unusedBit (byte : BitVec 8) : Option Nat :=
  (List.range 8).find? (fun j => byte &&& slotMask j ≠ 0)

def lookforUnusedSlot (bitmap : Nat → BitVec 8) (lenBmp : Nat) : Option (Nat × (Nat → BitVec 8)) :=
  (List.range lenBmp).findSome? fun i =>
    (unusedBit (bitmap i)).map fun j =>
      (8 * i + j, update bitmap i (bitmap i &&& ~~~slotMask j))

def slotSetUse (bitmap : Nat → BitVec 8) (index : Nat) : Nat → BitVec 8 :=
  update bitmap (index / 8) (bitmap (index / 8) &&& ~~~slotMask (index % 8))

def slotClearUse (bitmap : Nat → BitVec 8) (index : Nat) : Nat → BitVec 8 :=
  if bitmap (index / 8) &&& slotMask (index % 8) ≠ 0 then
    bitmap
  else
    update bitmap (index / 8) (bitmap (index / 8) ||| slotMask (index % 8))

structure ZOrderNode where
  flags : BitVec 32
  caption : String
  rc : Rect
  dirtyRc : Rect
  age : Nat
  cli : Int
  hwnd : Hwnd
  mainWin : Hwnd
  next : Int
  prev : Int
deriving DecidableEq, Repr

namespace ZOrderNode

def zero : ZOrderNode :=
  {
    flags := 0
    caption := ""
    rc := .zero
    dirtyRc := .zero
    age := 0
    cli := 0
    hwnd := HWND_DESKTOP
    mainWin := 0
    next := 0
    prev := 0
  }

def type (node : ZOrderNode) : BitVec 32 :=
  node.flags &&& ZOF_TYPE_MASK

def has (node : ZOrderNode) (flag : BitVec 32) : Bool :=
  node.flags &&& flag ≠ 0

def visible (node : ZOrderNode) : Bool :=
  node.has ZOF_VISIBLE

def bumpAge (node : ZOrderNode) : ZOrderNode :=
  { node with age := node.age + 1 }

def setFlag (node : ZOrderNode) (flag : BitVec 32) : ZOrderNode :=
  { node with flags := node.flags ||| flag }

def clearFlag (node : ZOrderNode) (flag : BitVec 32) : ZOrderNode :=
  { node with flags := node.flags &&& ~~~flag }

end ZOrderNode

inductive ZType where
  | global
  | topmost
  | normal
deriving DecidableEq, Repr

def chainOf (type : BitVec 32) : Option ZType :=
  if type = ZOF_TYPE_GLOBAL then
    some .global
  else if type = ZOF_TYPE_TOPMOST then
    some .topmost
  else if type = ZOF_TYPE_NORMAL then
    some .normal
  else
    none

structure MenuNode where
  rc : Rect
  hwnd : Hwnd
deriving DecidableEq, Repr

/--
`ZORDERINFO` with what lies behind it in memory. The fields that are there once for each of the chains are
functions of the chain. Addresses outside the array of nodes are slots as well, which are memory of their own.
-/
structure ZOrderInfo where
  sizeUsageBmp : Nat
  maxNrPopupmenus : Nat
  maxNr : ZType → Nat
  nrPopupmenus : Int
  nr : ZType → Int
  first : ZType → Int
  activeWin : Int
  cliTrackmenu : Int
  usageBmp : Nat → BitVec 8
  menuNodes : Int → MenuNode
  nodes : Int → ZOrderNode

namespace ZOrderInfo

def maxNrNodes (zi : ZOrderInfo) : Nat :=
  zi.maxNr .global + zi.maxNr .topmost + zi.maxNr .normal

def setNode (zi : ZOrderInfo) (slot : Int) (f : ZOrderNode → ZOrderNode) : ZOrderInfo :=
  { zi with nodes := update zi.nodes slot (f (zi.nodes slot)) }

def setFirst (zi : ZOrderInfo) (t : ZType) (slot : Int) : ZOrderInfo :=
  { zi with first := update zi.first t slot }

def setNr (zi : ZOrderInfo) (t : ZType) (nr : Int) : ZOrderInfo :=
  { zi with nr := update zi.nr t nr }

end ZOrderInfo

def allocLayer (rcScr : Rect) (nrGlobals nrTopmosts nrNormals : Nat) : ZOrderInfo :=
  let desktop : ZOrderNode :=
    {
      ZOrderNode.zero with
      flags := ZOF_TYPE_DESKTOP ||| ZOF_VISIBLE
      rc := rcScr
    }
  {
    sizeUsageBmp := (7 + nrGlobals + nrTopmosts + nrNormals) / 8
    maxNrPopupmenus := DEF_NR_POPUPMENUS
    maxNr := fun
      | .global => nrGlobals
      | .topmost => nrTopmosts
      | .normal => nrNormals
    nrPopupmenus := 0
    nr := fun
      | .global => 1
      | .topmost => 0
      | .normal => 0
    first := fun _ => 0
    activeWin := 0
    cliTrackmenu := -1
    usageBmp := slotSetUse (fun _ => 0xFF) 0
    menuNodes := fun _ => { rc := .zero, hwnd := 0 }
    nodes := fun slot => if slot = 0 then desktop else ZOrderNode.zero
  }

end MiniGui
