import MiniGui.Gdi.Rect

namespace MiniGui

structure PolygonEdge where
  top : Int
  bottom : Int
  x : Int
  dx : Int
  w : Int
deriving DecidableEq, Repr

structure PolygonSpan where
  x1 : Int
  x2 : Int
  y : Int
deriving DecidableEq, Repr

namespace PolygonEdge

def fixOne : Int := 65536

def fillEdgeStructure (i1 i2 : Int × Int) : PolygonEdge :=
  let upper := if i2.2 < i1.2 then i2 else i1
  let lower := if i2.2 < i1.2 then i1 else i2
  let dx := ((lower.1 - upper.1) * fixOne).tdiv (lower.2 - upper.2)
  let x := upper.1 * fixOne
  {
    top := upper.2
    bottom := lower.2 - 1
    x := if dx < 0 then x + min (dx + fixOne) 0 else x
    dx
    w := max (dx.natAbs - fixOne) 0
  }

def addKey (edge : PolygonEdge) : Int :=
  edge.x + (edge.w + edge.dx).tdiv 2

def sortKey (edge : PolygonEdge) : Int :=
  edge.x + edge.w.tdiv 2

def advance (edge : PolygonEdge) (rows : Int) : PolygonEdge :=
  { edge with x := edge.x + edge.dx * rows }

end PolygonEdge

def placeEdge (edge : PolygonEdge) (before : PolygonEdge → Bool) : List PolygonEdge → List PolygonEdge
  | [] => [edge]
  | pos :: next => if before pos then pos :: placeEdge edge before next else edge :: pos :: next

def addEdge (list : List PolygonEdge) (edge : PolygonEdge) (sortByX : Bool) : List PolygonEdge :=
  placeEdge edge (fun pos => if sortByX then pos.addKey < edge.addKey else pos.top < edge.top) list

structure EdgeTable where
  top : Int
  bottom : Int
  inactiveEdges : List PolygonEdge
deriving DecidableEq, Repr

namespace EdgeTable

def enter (table : EdgeTable) (i1 i2 : Int × Int) : EdgeTable :=
  if i1.2 ≠ i2.2 then
    let edge := PolygonEdge.fillEdgeStructure i1 i2
    if edge.bottom ≥ edge.top then
      {
        top := if edge.top < table.top then edge.top else table.top
        bottom := if edge.bottom > table.bottom then edge.bottom else table.bottom
        inactiveEdges := addEdge table.inactiveEdges edge false
      }
    else
      table
  else
    table

def fill (table : EdgeTable) (i2 : Int × Int) : List (Int × Int) → EdgeTable
  | [] => table
  | i1 :: points => fill (table.enter i1 i2) i1 points

end EdgeTable

def edgeTable (points : List (Int × Int)) : EdgeTable :=
  EdgeTable.fill ⟨2147483647, -2147483648, []⟩ (points.getLastD (0, 0)) points

def seedEdges (rcOutput : Rect) : List PolygonEdge → List PolygonEdge → List PolygonEdge × List PolygonEdge
  | [], activeEdges => ([], activeEdges)
  | edge :: next, activeEdges =>
    if edge.top < rcOutput.top ∧ edge.bottom > rcOutput.top then
      let moved := edge.advance (rcOutput.top - edge.top)
      seedEdges rcOutput next (placeEdge moved (fun pos => pos.addKey < edge.addKey) activeEdges)
    else if edge.bottom < rcOutput.top ∨ edge.top > rcOutput.bottom then
      seedEdges rcOutput next activeEdges
    else
      let rest := seedEdges rcOutput next activeEdges
      (edge :: rest.1, rest.2)

def activateEdges (c : Int) : List PolygonEdge → List PolygonEdge → List PolygonEdge × List PolygonEdge
  | [], activeEdges => ([], activeEdges)
  | edge :: next, activeEdges =>
    if edge.top = c then
      activateEdges c next (addEdge activeEdges edge true)
    else
      (edge :: next, activeEdges)

def drawEdges (c : Int) : List PolygonEdge → List PolygonSpan
  | edge :: next :: rest =>
    ⟨edge.x.tdiv PolygonEdge.fixOne, (next.x + next.w).tdiv PolygonEdge.fixOne, c⟩ :: drawEdges c rest
  | _ => []

def updateEdges (c : Int) (done : List PolygonEdge) : List PolygonEdge → List PolygonEdge
  | [] => done.reverse
  | edge :: next =>
    if c ≥ edge.bottom then
      updateEdges c done next
    else
      let moved := edge.advance 1
      updateEdges c (placeEdge moved (fun prev => moved.sortKey < prev.sortKey) done) next

def scanRows : Nat → Int → List PolygonEdge → List PolygonEdge → List PolygonSpan
  | 0, _, _, _ => []
  | rows + 1, c, inactiveEdges, activeEdges =>
    let edges := activateEdges c inactiveEdges activeEdges
    drawEdges c edges.2 ++ scanRows rows (c + 1) edges.1 (updateEdges c [] edges.2)

def polygonGeneratorEx (points : List (Int × Int)) (rcOutput : Option Rect) : List PolygonSpan :=
  let table := edgeTable points
  match rcOutput with
  | none => scanRows (table.bottom - table.top + 1).toNat table.top table.inactiveEdges []
  | some rcOutput =>
    let edges := seedEdges rcOutput table.inactiveEdges []
    scanRows (rcOutput.bottom - rcOutput.top + 1).toNat rcOutput.top edges.1 edges.2

def spansOn (y : Int) (spans : List PolygonSpan) : List PolygonSpan :=
  spans.filter fun span => span.y = y

end MiniGui
