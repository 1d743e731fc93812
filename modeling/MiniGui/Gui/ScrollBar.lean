import Mathlib.Tactic

namespace MiniGui

structure ScrollBarInfo where
  minPos : Int
  maxPos : Int
  curPos : Int
  pageStep : Int

structure ScrollInfo where
  sifRange : Bool
  sifPos : Bool
  sifPage : Bool
  nMin : Int
  nMax : Int
  nPage : Int
  nPos : Int

namespace ScrollBarInfo

def created : ScrollBarInfo :=
  { minPos := 0, maxPos := 100, curPos := 0, pageStep := 0 }

def limitPos (sBar : ScrollBarInfo) : ScrollBarInfo :=
  let max := sBar.maxPos - (if sBar.pageStep - 1 > 0 then sBar.pageStep - 1 else 0)
  if sBar.curPos > max then { sBar with curPos := max } else sBar

def setScrollPos (sBar : ScrollBarInfo) (iNewPos : Int) : ScrollBarInfo :=
  if iNewPos = sBar.curPos then
    sBar
  else
    limitPos { sBar with curPos := if iNewPos < sBar.minPos then sBar.minPos else iNewPos }

def validate (sBar : ScrollBarInfo) : ScrollBarInfo :=
  let range := sBar.maxPos - sBar.minPos + 1
  limitPos
    { sBar with
      curPos := if sBar.curPos < sBar.minPos then sBar.minPos else sBar.curPos
      pageStep := if sBar.pageStep ≤ 0 then 0 else if sBar.pageStep > range then range else sBar.pageStep }

def setScrollRange (sBar : ScrollBarInfo) (iMinPos iMaxPos : Int) : ScrollBarInfo :=
  if iMinPos = sBar.minPos ∧ iMaxPos = sBar.maxPos then
    sBar
  else
    validate
      { sBar with
        minPos := if iMinPos < iMaxPos then iMinPos else iMaxPos
        maxPos := if iMinPos > iMaxPos then iMinPos else iMaxPos }

def setScrollInfo (sBar : ScrollBarInfo) (si : ScrollInfo) : ScrollBarInfo :=
  let range := si.sifRange && (sBar.minPos != si.nMin || sBar.maxPos != si.nMax)
  let pos := si.sifPos && sBar.curPos != si.nPos
  let page := si.sifPage && sBar.pageStep != si.nPage
  if !range && !pos && !page then
    sBar
  else if !range && pos && !page then
    sBar.setScrollPos si.nPos
  else
    validate
      {
        minPos := if range then (if si.nMin < si.nMax then si.nMin else si.nMax) else sBar.minPos
        maxPos := if range then (if si.nMin < si.nMax then si.nMax else si.nMin) else sBar.maxPos
        curPos := if pos then si.nPos else sBar.curPos
        pageStep := if page then si.nPage else sBar.pageStep
      }

structure Inv (sBar : ScrollBarInfo) : Prop where
  range : sBar.minPos ≤ sBar.maxPos
  page : 0 ≤ sBar.pageStep ∧ sBar.pageStep ≤ sBar.maxPos - sBar.minPos + 1
  pos : sBar.minPos ≤ sBar.curPos ∧ sBar.curPos ≤ sBar.maxPos - max (sBar.pageStep - 1) 0

theorem created_inv : created.Inv := by
  constructor <;> decide

variable {sBar : ScrollBarInfo}

theorem limitPos_inv (hrange : sBar.minPos ≤ sBar.maxPos)
    (hpage : 0 ≤ sBar.pageStep ∧ sBar.pageStep ≤ sBar.maxPos - sBar.minPos + 1)
    (hpos : sBar.minPos ≤ sBar.curPos) : sBar.limitPos.Inv := by
  have hmax : sBar.minPos ≤ sBar.maxPos - max (sBar.pageStep - 1) 0 := by omega
  unfold limitPos
  rw [show (if sBar.pageStep - 1 > 0 then sBar.pageStep - 1 else 0) = max (sBar.pageStep - 1) 0 by omega]
  dsimp only
  split
  next => exact ⟨hrange, hpage, hmax, le_refl _⟩
  next hle => exact ⟨hrange, hpage, hpos, not_lt.mp hle⟩

theorem setScrollPos_inv (h : sBar.Inv) (iNewPos : Int) : (sBar.setScrollPos iNewPos).Inv := by
  unfold setScrollPos
  split
  next => exact h
  next =>
    apply limitPos_inv
    . exact h.range
    . exact h.page
    . dsimp only
      omega

theorem validate_inv (hrange : sBar.minPos ≤ sBar.maxPos) : sBar.validate.Inv := by
  apply limitPos_inv
  . exact hrange
  . dsimp only
    omega
  . dsimp only
    omega

theorem setScrollRange_inv (h : sBar.Inv) (iMinPos iMaxPos : Int)
    : (sBar.setScrollRange iMinPos iMaxPos).Inv := by
  unfold setScrollRange
  split
  next => exact h
  next =>
    apply validate_inv
    dsimp only
    omega

theorem setScrollInfo_inv (h : sBar.Inv) (si : ScrollInfo) : (sBar.setScrollInfo si).Inv := by
  have hrange := h.range
  unfold setScrollInfo
  dsimp only
  split
  next => exact h
  next =>
    split
    next => exact setScrollPos_inv h si.nPos
    next =>
      apply validate_inv
      dsimp only
      split <;> omega

inductive ScrollCall where
  | setPos (iNewPos : Int)
  | setRange (iMinPos iMaxPos : Int)
  | setInfo (si : ScrollInfo)

def onCall (sBar : ScrollBarInfo) : ScrollCall → ScrollBarInfo
  | .setPos iNewPos => sBar.setScrollPos iNewPos
  | .setRange iMinPos iMaxPos => sBar.setScrollRange iMinPos iMaxPos
  | .setInfo si => sBar.setScrollInfo si

theorem onCall_inv (h : sBar.Inv) (call : ScrollCall) : (sBar.onCall call).Inv := by
  cases call with
  | setPos iNewPos => exact setScrollPos_inv h iNewPos
  | setRange iMinPos iMaxPos => exact setScrollRange_inv h iMinPos iMaxPos
  | setInfo si => exact setScrollInfo_inv h si

theorem run_inv (h : sBar.Inv) (calls : List ScrollCall) : (calls.foldl onCall sBar).Inv := by
  induction calls generalizing sBar with
  | nil => exact h
  | cons call calls ih => exact ih (onCall_inv h call)

theorem setScrollInfo_pos (sBar : ScrollBarInfo) (nMin nMax nPage nPos : Int)
    : sBar.setScrollInfo ⟨false, true, false, nMin, nMax, nPage, nPos⟩ = sBar.setScrollPos nPos := by
  by_cases hsame : sBar.curPos = nPos
  . rw [setScrollPos, if_pos hsame.symm]
    simp [setScrollInfo, hsame]
  . simp [setScrollInfo, hsame]

/--
Both ways to set the position lead to the same one, behind every sequence of calls.
-/
theorem scrollBar_runs (calls : List ScrollCall) : (calls.foldl onCall created).Inv
      ∧ ∀ nMin nMax nPage nPos,
        (onCall (calls.foldl onCall created) (.setInfo ⟨false, true, false, nMin, nMax, nPage, nPos⟩)).curPos
          = (onCall (calls.foldl onCall created) (.setPos nPos)).curPos := by
  refine ⟨run_inv created_inv calls, ?_⟩
  intro nMin nMax nPage nPos
  exact congrArg curPos (setScrollInfo_pos _ nMin nMax nPage nPos)

end ScrollBarInfo

end MiniGui
