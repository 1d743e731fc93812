import MiniGui.Gdi.GenDc
import MiniGui.Library.Reach

namespace MiniGui

open ClipRgn Reach

inductive Hdc (n : Nat) where
  | screen
  | slot (i : Fin n)
deriving DecidableEq, Repr

structure DcSlot (ι : Type) where
  inuse : Bool
  -- `DataType == TYPE_HDC`
  isHdc : Bool
  pdc : Dc ι

structure DcPool (ι : Type) (n : Nat) where
  galScreen : GalSurface
  dcSlot : Fin n → DcSlot ι
  screenDc : DcSlot ι

namespace Dc

variable {ι : Type}

def initScreenDC (surface : GalSurface) : Dc ι :=
  let devRC : Rect := ⟨0, 0, surface.w, surface.h⟩
  {
    dcType := .scrdc
    hwnd := none
    surface
    lcrgn := emptyClipRgn
    ecrgn := (setClipRgn emptyClipRgn devRC).2
    bIsClient := false
    devRC
    oldage := 0
  }

/--
The part of the parent that `GetSubDC` is asked for, on the screen. There is none if the arguments are refused.
-/
def subRect (parent : Dc ι) (offX offY width height : Int) : Option Rect :=
  let parentWidth := parent.devRC.right - parent.devRC.left
  let parentHeight := parent.devRC.bottom - parent.devRC.top
  if offX < 0 ∨ offX ≥ parentWidth ∨ offY < 0 ∨ offY ≥ parentHeight ∨ width ≤ 0 ∨ height ≤ 0 then
    none
  else
    let width := if offX + width > parentWidth then parentWidth - offX else width
    let height := if offY + height > parentHeight then parentHeight - offY else height
    let left := parent.devRC.left + offX
    let top := parent.devRC.top + offY
    some ⟨left, top, left + width, top + height⟩

end Dc

namespace DcPool

variable {ι : Type} {n : Nat}

def init (galScreen : GalSurface) (mem : Fin n → Dc ι) : DcPool ι n :=
  {
    galScreen
    dcSlot := fun i => ⟨false, false, { mem i with lcrgn := emptyClipRgn, ecrgn := emptyClipRgn, oldage := 0 }⟩
    screenDc := ⟨false, true, .initScreenDC galScreen⟩
  }

def dcHDC2PDC (pool : DcPool ι n) (hdc : Hdc n) : DcSlot ι :=
  match hdc with
  | .screen => pool.screenDc
  | .slot i => pool.dcSlot i

def store (pool : DcPool ι n) (hdc : Hdc n) (slot : DcSlot ι) : DcPool ι n :=
  match hdc with
  | .screen => { pool with screenDc := slot }
  | .slot i => { pool with dcSlot := Function.update pool.dcSlot i slot }

def unusedSlot (pool : DcPool ι n) : Option (Fin n) :=
  (List.finRange n).find? fun i => !(pool.dcSlot i).inuse

def releaseDC (pool : DcPool ι n) (hDC : Hdc n) : DcPool ι n :=
  let slot := pool.dcHDC2PDC hDC
  pool.store hDC
    { slot with inuse := false, pdc := { slot.pdc with lcrgn := emptyClipRgn, ecrgn := emptyClipRgn, oldage := 0 } }

/--
`none` is `HDC_INVALID`. `memcpy (&pdc, &pdc_parent, sizeof (DC))` goes to the pointer `pdc` and to what lies behind it
on the stack. Of that only the pointer is modelled: it is that of the parent from then on.
-/
def getSubDC (pool : DcPool ι n) (hdc : Hdc n) (offX offY width height : Int) : Option (Hdc n) × DcPool ι n :=
  let parent := pool.dcHDC2PDC hdc
  if !parent.isHdc ∨ parent.pdc.dcType ≠ .gendc then
    (none, pool)
  else
    match parent.pdc.subRect offX offY width height with
    | none => (none, pool)
    | some devRC =>
      match pool.unusedSlot with
      | none => (none, pool)
      | some i =>
        let slot := pool.dcSlot i
        let pool := pool.store (.slot i) { slot with inuse := true, isHdc := true, pdc := { slot.pdc with dcType := .gendc } }
        let slot := pool.dcHDC2PDC hdc
        let ecrgn := (intersectClipRect slot.pdc.ecrgn devRC).2
        (some hdc, pool.store hdc { slot with pdc := { slot.pdc with bIsClient := false, devRC, ecrgn } })

variable [DecidableEq ι]

def takeDC (pool : DcPool ι n) (env : GdiEnv ι) (hWnd : Option ι) (bIsClient : Bool) : Hdc n × DcPool ι n :=
  match pool.unusedSlot with
  | none => (.screen, pool)
  | some i =>
    let pdc := Dc.initDC env hWnd bIsClient pool.galScreen
    (.slot i, pool.store (.slot i) ⟨true, true, { pdc with lcrgn := (pool.dcSlot i).pdc.lcrgn }⟩)

def getDC (pool : DcPool ι n) (env : GdiEnv ι) (hWnd : Option ι) : Hdc n × DcPool ι n :=
  pool.takeDC env hWnd false

def getClientDC (pool : DcPool ι n) (env : GdiEnv ι) (hWnd : Option ι) : Hdc n × DcPool ι n :=
  pool.takeDC env hWnd true

def mgCheckEcrgn (pool : DcPool ι n) (env : GdiEnv ι) (hdc : Hdc n) : DcPool ι n :=
  let slot := pool.dcHDC2PDC hdc
  if slot.pdc.dcType = .gendc then
    pool.store hdc { slot with pdc := (slot.pdc.dcGenerateECRgn env false).2 }
  else
    pool

end DcPool

inductive PoolCall (ι : Type) (n : Nat) where
  | getDC (env : GdiEnv ι) (hWnd : Option ι)
  | getClientDC (env : GdiEnv ι) (hWnd : Option ι)
  | getSubDC (hdc : Hdc n) (offX offY width height : Int)
  | releaseDC (hDC : Hdc n)
  | drawTo (env : GdiEnv ι) (hdc : Hdc n)

structure PoolState (ι : Type) (n : Nat) where
  pool : DcPool ι n
  live : List (Hdc n)

namespace PoolState

variable {ι : Type} {n : Nat}

def init (galScreen : GalSurface) (mem : Fin n → Dc ι) : PoolState ι n :=
  ⟨.init galScreen mem, []⟩

section Exec

variable [DecidableEq ι]

def exec (s : PoolState ι n) (call : PoolCall ι n) : Option (PoolState ι n) :=
  match call with
  | .getDC env hWnd =>
    let (hdc, pool) := s.pool.getDC env hWnd
    some ⟨pool, hdc :: s.live⟩
  | .getClientDC env hWnd =>
    let (hdc, pool) := s.pool.getClientDC env hWnd
    some ⟨pool, hdc :: s.live⟩
  | .getSubDC hdc offX offY width height =>
    if hdc = .screen ∨ hdc ∈ s.live then
      let (sub, pool) := s.pool.getSubDC hdc offX offY width height
      some ⟨pool, sub.toList ++ s.live⟩
    else
      none
  | .releaseDC hDC =>
    if hDC ∈ s.live then some ⟨s.pool.releaseDC hDC, s.live.erase hDC⟩ else none
  | .drawTo env hdc =>
    if hdc = .screen ∨ hdc ∈ s.live then some ⟨s.pool.mgCheckEcrgn env hdc, s.live⟩ else none

def Step (s : PoolState ι n) (call : PoolCall ι n) (s' : PoolState ι n) : Prop :=
  s.exec call = some s'

end Exec

structure Integrity (s : PoolState ι n) : Prop where
  distinct : (s.live.filter fun hdc => hdc ≠ .screen).Nodup
  released : s.live = [] → ∀ i, (s.pool.dcSlot i).inuse = false
  screen :
    s.pool.screenDc.pdc.ecrgn.pixels = Rect.pixels ⟨0, 0, s.pool.galScreen.w, s.pool.galScreen.h⟩

def SubDcConfined [DecidableEq ι] (pool : DcPool ι n) (hdc : Hdc n) (offX offY width height : Int) : Prop :=
  let parent := pool.dcHDC2PDC hdc
  ∀ sub pool', pool.getSubDC hdc offX offY width height = (some sub, pool') →
    pool'.dcHDC2PDC hdc = parent
      ∧ ∀ rc, parent.pdc.subRect offX offY width height = some rc →
          (pool'.dcHDC2PDC sub).pdc.ecrgn.pixels ⊆ rc.pixels
            ∧ ∀ env, ((pool'.mgCheckEcrgn env sub).dcHDC2PDC sub).pdc.ecrgn.pixels ⊆ rc.pixels

def Admitted (s : PoolState ι n) (call : PoolCall ι n) : Prop :=
  match call with
  | .releaseDC hDC => hDC ≠ .screen
  | .getSubDC hdc offX offY width height =>
    let parent := s.pool.dcHDC2PDC hdc
    parent.isHdc = false ∨ parent.pdc.dcType ≠ .gendc ∨ parent.pdc.subRect offX offY width height = none
      ∨ s.pool.unusedSlot = none
  | _ => True

end PoolState

namespace DcPool

variable {ι : Type} {n : Nat} {pool : DcPool ι n}

theorem unusedSlot_inuse {i : Fin n} (h : pool.unusedSlot = some i) : (pool.dcSlot i).inuse = false := by
  have hfree := List.find?_some h
  simpa using hfree

theorem store_slot_inuse (i j : Fin n) (slot : DcSlot ι)
    : ((pool.store (.slot i) slot).dcSlot j).inuse = if j = i then slot.inuse else (pool.dcSlot j).inuse := by
  unfold store
  dsimp only
  by_cases h : j = i
  . rw [if_pos h, h, Function.update_self]
  . rw [if_neg h, Function.update_of_ne h]

theorem getSubDC_refused {hdc : Hdc n} {offX offY width height : Int}
    (h : (pool.dcHDC2PDC hdc).isHdc = false ∨ (pool.dcHDC2PDC hdc).pdc.dcType ≠ .gendc
      ∨ (pool.dcHDC2PDC hdc).pdc.subRect offX offY width height = none ∨ pool.unusedSlot = none)
    : pool.getSubDC hdc offX offY width height = (none, pool) := by
  unfold getSubDC
  dsimp only
  split
  . rfl
  next hparent =>
    split
    . rfl
    next devRC hrect =>
      split
      . rfl
      next i hslot =>
        rcases h with h | h | h | h
        . exact absurd (.inl (by simp [h])) hparent
        . exact absurd (.inr h) hparent
        . rw [hrect] at h
          cases h
        . rw [hslot] at h
          cases h

end DcPool

namespace PoolState

variable {ι : Type} {n : Nat}

structure Tracks (galScreen : GalSurface) (s : PoolState ι n) : Prop where
  inuse : ∀ i, (s.pool.dcSlot i).inuse = true ↔ .slot i ∈ s.live
  nodup : (s.live.filter fun hdc => hdc ≠ .screen).Nodup
  surface : s.pool.galScreen = galScreen
  screenDc : s.pool.screenDc.pdc = .initScreenDC galScreen

variable {galScreen : GalSurface} {s s' : PoolState ι n}

theorem tracks_init (galScreen : GalSurface) (mem : Fin n → Dc ι) : (init galScreen mem).Tracks galScreen := by
  constructor
  . intro i
    simp [init, DcPool.init]
  . exact List.nodup_nil
  . rfl
  . rfl

theorem Tracks.integrity (h : s.Tracks galScreen) : s.Integrity := by
  constructor
  . exact h.nodup
  . intro hlive i
    rw [← Bool.not_eq_true, h.inuse, hlive]
    exact List.not_mem_nil
  rw [h.screenDc, h.surface]
  show (setClipRgn emptyClipRgn _).2.pixels = _
  rw [setClipRgn_eq]
  split
  next hempty => rw [Dc.pixels_of_isRectEmpty hempty, pixels_eq_empty rfl]
  next => rw [pixels_single]

theorem Integrity.screen_nonempty (h : s.Integrity) (hw : 0 < s.pool.galScreen.w) (hh : 0 < s.pool.galScreen.h)
    : s.pool.screenDc.pdc.ecrgn.rects ≠ [] := by
  intro hnil
  have hmem : ((0, 0) : Int × Int) ∈ Rect.pixels ⟨0, 0, s.pool.galScreen.w, s.pool.galScreen.h⟩ := by
    rw [Rect.mem_pixels]
    unfold Rect.Mem
    dsimp only
    omega
  rw [← h.screen, pixels_eq_empty hnil] at hmem
  exact hmem

theorem Tracks.releaseDC (h : s.Tracks galScreen) (i : Fin n)
    : Tracks galScreen ⟨s.pool.releaseDC (.slot i), s.live.erase (.slot i)⟩ := by
  have hfilter : (s.live.erase (.slot i)).filter (fun hdc => hdc ≠ .screen)
      = (s.live.filter fun hdc => hdc ≠ .screen).erase (.slot i) := by
    rw [List.erase_filter]
  constructor
  . intro j
    unfold DcPool.releaseDC
    rw [DcPool.store_slot_inuse]
    have hmem : Hdc.slot j ∈ s.live.erase (.slot i) ↔ j ≠ i ∧ Hdc.slot j ∈ s.live := by
      have hpos : ∀ l : List (Hdc n), Hdc.slot j ∈ l ↔ Hdc.slot j ∈ l.filter fun hdc => hdc ≠ .screen := by
        intro l
        rw [List.mem_filter]
        simp
      rw [hpos, hfilter, h.nodup.mem_erase_iff, ← hpos, ne_eq, Hdc.slot.injEq]
    rw [hmem]
    by_cases hj : j = i
    . rw [if_pos hj]
      exact iff_of_false Bool.false_ne_true fun hne => hne.1 hj
    . rw [if_neg hj, h.inuse, and_iff_right hj]
  . rw [hfilter]
    exact h.nodup.erase _
  . exact h.surface
  . exact h.screenDc

variable [DecidableEq ι]

theorem Tracks.takeDC (h : s.Tracks galScreen) (env : GdiEnv ι) (hWnd : Option ι) (bIsClient : Bool)
    : Tracks galScreen
        ⟨(s.pool.takeDC env hWnd bIsClient).2, (s.pool.takeDC env hWnd bIsClient).1 :: s.live⟩ := by
  unfold DcPool.takeDC
  cases hslot : s.pool.unusedSlot with
  | none =>
    constructor
    . intro i
      rw [h.inuse, List.mem_cons]
      simp
    . rw [List.filter_cons_of_neg (by simp)]
      exact h.nodup
    . exact h.surface
    . exact h.screenDc
  | some i =>
    have hfree := DcPool.unusedSlot_inuse hslot
    have hlive : .slot i ∉ s.live := by
      rw [← h.inuse, hfree]
      exact Bool.false_ne_true
    constructor
    . intro j
      rw [DcPool.store_slot_inuse, List.mem_cons, Hdc.slot.injEq, ← h.inuse j]
      by_cases hj : j = i
      . rw [if_pos hj]
        exact iff_of_true rfl (.inl hj)
      . rw [if_neg hj, or_iff_right hj]
    . rw [List.filter_cons_of_pos (by simp), List.nodup_cons]
      refine ⟨?_, h.nodup⟩
      intro hmem
      exact hlive (List.mem_of_mem_filter hmem)
    . exact h.surface
    . exact h.screenDc

theorem Tracks.drawTo (h : s.Tracks galScreen) (env : GdiEnv ι) (hdc : Hdc n)
    : Tracks galScreen ⟨s.pool.mgCheckEcrgn env hdc, s.live⟩ := by
  unfold DcPool.mgCheckEcrgn
  cases hdc with
  | screen =>
    have hscr : (s.pool.dcHDC2PDC .screen).pdc.dcType ≠ .gendc := by
      show s.pool.screenDc.pdc.dcType ≠ .gendc
      rw [h.screenDc]
      exact DcType.noConfusion
    rw [if_neg hscr]
    exact h
  | slot i =>
    dsimp only
    split
    . constructor
      . intro j
        rw [DcPool.store_slot_inuse, ← h.inuse j]
        split
        next hj => rw [hj]; rfl
        next => rfl
      . exact h.nodup
      . exact h.surface
      . exact h.screenDc
    . exact h

theorem Tracks.step {call : PoolCall ι n} (h : s.Tracks galScreen) (hok : s.Admitted call) (hstep : s.Step call s')
    : s'.Tracks galScreen := by
  unfold Step exec at hstep
  cases call with
  | getDC env hWnd =>
    rw [← Option.some.inj hstep]
    exact h.takeDC env hWnd false
  | getClientDC env hWnd =>
    rw [← Option.some.inj hstep]
    exact h.takeDC env hWnd true
  | getSubDC hdc offX offY width height =>
    dsimp only at hstep
    rw [DcPool.getSubDC_refused hok] at hstep
    split at hstep
    . rw [← Option.some.inj hstep]
      exact h
    . cases hstep
  | releaseDC hDC =>
    dsimp only at hstep
    split at hstep
    . rw [← Option.some.inj hstep]
      cases hDC with
      | screen => exact absurd rfl hok
      | slot i => exact h.releaseDC i
    . cases hstep
  | drawTo env hdc =>
    dsimp only at hstep
    split at hstep
    . rw [← Option.some.inj hstep]
      exact h.drawTo env hdc
    . cases hstep

theorem Tracks.admitted {call : PoolCall ι n} (h : s.Tracks galScreen) (hw : 0 < galScreen.w) (hh : 0 < galScreen.h)
    (hstep : s.Step call s') (hs' : s'.Integrity) : s.Admitted call := by
  unfold Step exec at hstep
  cases call with
  | getDC env hWnd => trivial
  | getClientDC env hWnd => trivial
  | drawTo env hdc => trivial
  | releaseDC hDC =>
    dsimp only at hstep
    split at hstep
    . intro hscreen
      rw [← Option.some.inj hstep, hscreen] at hs'
      rw [← h.surface] at hw hh
      exact hs'.screen_nonempty hw hh rfl
    . cases hstep
  | getSubDC hdc offX offY width height =>
    by_contra hnot
    unfold Admitted at hnot
    dsimp only at hnot hstep
    push Not at hnot
    obtain ⟨hhdc, hgen, hrect, hslot⟩ := hnot
    have hne : hdc ≠ .screen := by
      intro hscreen
      rw [hscreen] at hgen
      have hscr : s.pool.screenDc.pdc.dcType = .gendc := hgen
      rw [h.screenDc] at hscr
      cases hscr
    have hsub : (s.pool.getSubDC hdc offX offY width height).1 = some hdc := by
      unfold DcPool.getSubDC
      rw [if_neg (by simp [hhdc, hgen])]
      split
      next hnone => exact absurd hnone hrect
      next =>
        split
        next hnone => exact absurd hnone hslot
        next => rfl
    split at hstep
    next hlive =>
      rw [← Option.some.inj hstep, hsub] at hs'
      have hdistinct := hs'.distinct
      dsimp only [Option.toList_some] at hdistinct
      rw [List.singleton_append, List.filter_cons_of_pos (by simpa using hne), List.nodup_cons] at hdistinct
      apply hdistinct.1
      rw [List.mem_filter]
      exact ⟨hlive.resolve_left hne, by simpa using hne⟩
    next => cases hstep

theorem dc_pool_run {mem : Fin n → Dc ι} (h : Reachable Step Admitted (init galScreen mem) s)
    : s.Integrity
        ∧ (∀ hdc offX offY width height, s.Admitted (.getSubDC hdc offX offY width height) →
            SubDcConfined s.pool hdc offX offY width height)
        ∧ ∀ call s', 0 < galScreen.w → 0 < galScreen.h → s.Step call s' → (s'.Integrity ↔ s.Admitted call) := by
  have htracks : s.Tracks galScreen := by
    apply h.invariant (tracks_init galScreen mem)
    intro s call s' hs hok hstep
    exact hs.step hok hstep
  refine ⟨htracks.integrity, ?_, ?_⟩
  . intro hdc offX offY width height hok sub pool' heq
    rw [DcPool.getSubDC_refused hok] at heq
    cases heq
  intro call s' hw hh hstep
  constructor
  . exact htracks.admitted hw hh hstep
  . intro hok
    exact (htracks.step hok hstep).integrity

def emptyScreen : PoolState Unit 1 :=
  init ⟨10, 10⟩ fun _ => .createMemDC 0 0

def tooManyDcs : List (PoolCall Unit 1) :=
  [.getDC Dc.emptyDesk none, .getDC Dc.emptyDesk none, .releaseDC .screen, .releaseDC (.slot 0)]

theorem dc_pool_run_oneDc
    : ∃ s, [PoolCall.getDC Dc.emptyDesk none, .releaseDC (.slot 0)].foldlM exec emptyScreen = some s
        ∧ s.live = [] ∧ s.Integrity := by
  refine ⟨_, rfl, by decide, ?_⟩
  have hreach := @Reachable.foldlM _ _ Step Admitted emptyScreen exec
    [PoolCall.getDC Dc.emptyDesk none, .releaseDC (.slot 0)] ?_ _ rfl
  . exact (dc_pool_run hreach).1
  intro call hcall s s' hstep
  rw [List.mem_pair] at hcall
  rcases hcall with h | h
  . rw [h] at hstep ⊢
    exact ⟨trivial, hstep⟩
  rw [h] at hstep ⊢
  refine ⟨?_, hstep⟩
  intro hscreen
  cases hscreen

theorem dc_pool_run_tooManyDcs
    : ∃ s, tooManyDcs.foldlM exec emptyScreen = some s ∧ s.live = [] ∧ ¬s.Integrity := by
  refine ⟨_, rfl, by decide, ?_⟩
  intro h
  exact h.screen_nonempty (by decide) (by decide) rfl

end PoolState

end MiniGui
