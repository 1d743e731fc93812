import MiniGui.Gdi.GenDc
import MiniGui.Gui.Invalidate

namespace MiniGui

open Function List

open ClipRgn

def Ctrls.chain {ι : Type} : Ctrls ι → List ι
  | .null => []
  | .ctrl pCtrl _ next => pCtrl :: next.chain

def Window.rcWindow {ι : Type} (w : Window ι) : Rect :=
  ⟨w.left, w.top, w.right, w.bottom⟩

structure PaintWin (ι : Type) where
  env : GdiEnv ι
  hWnd : ι
  children : Ctrls ι
  pParent : ι
  siblings : Ctrls ι
  surface : GalSurface
  /-- `WS_EX_TRANSPARENT`, `WS_EX_USEPRIVATECDC` and `WS_EX_CLIPCHILDREN` of `dwExStyle` -/
  transparent : Bool
  usePrivateCdc : Bool
  clipChildren : Bool
  envOk : Dc.EnvOk env
  nodup : (hWnd :: children.all).Nodup
  family : (env.tree.wnd hWnd).isControl = true → (pParent :: siblings.all).Nodup ∧ hWnd ∈ siblings.chain
  width : (env.tree.wnd hWnd).cl ≤ (env.tree.wnd hWnd).cr
  height : (env.tree.wnd hWnd).ct ≤ (env.tree.wnd hWnd).cb

structure PaintState (ι : Type) where
  invRgn : ι → InvRgn
  privCDC : Dc ι
  free : Nat
  held : Nat

inductive UpdateCall where
  | invalidateRect (prc : Option Rect)
  | beginPaint
  | endPaint

namespace PaintWin

variable {ι : Type} [DecidableEq ι] (w : PaintWin ι)

def self : Window ι :=
  w.env.tree.wnd w.hWnd

def invalidateRect (prc : Option Rect) (m : ι → InvRgn) : ι → InvRgn :=
  if w.self.isControl && w.transparent then
    let rcInParent : Rect := ⟨w.self.cl, w.self.ct, w.self.cr, w.self.cb⟩
    match prc with
    | some rc =>
      let meet := intersectRect rcInParent (offsetRect rc w.self.cl w.self.ct)
      if meet.1 then wndInvalidateRect w.env.tree.wnd w.pParent w.siblings (some meet.2) m else m
    | none => wndInvalidateRect w.env.tree.wnd w.pParent w.siblings (some rcInParent) m
  else
    wndInvalidateRect w.env.tree.wnd w.hWnd w.children prc m

def screenDc : Dc ι where
  dcType := .scrdc
  hwnd := none
  surface := w.surface
  lcrgn := emptyClipRgn
  ecrgn := emptyClipRgn
  bIsClient := false
  devRC := w.env.tree.rcScr
  oldage := 0

def getClientDC (free : Nat) : Dc ι :=
  if 0 < free then Dc.initDC w.env (some w.hWnd) true w.surface else w.screenDc

def childRects : List Rect :=
  if w.clipChildren then
    (w.children.chain.filter fun child =>
      (w.env.tree.wnd child).visible && doesIntersect (w.env.tree.wnd child).rcWindow w.self.rcClient).map
        fun child => (w.env.tree.wnd child).rcWindow
  else
    []

def beginPaint (s : PaintState ι) : Dc ι × PaintState ι :=
  let hdc := if w.usePrivateCdc then s.privCDC else w.getClientDC s.free
  let hdc := hdc.selectClipRegion w.env (s.invRgn w.hWnd).rgn
  let hdc := w.childRects.foldl Dc.excludeClipRect hdc
  let invRgn := Function.update s.invRgn w.hWnd { s.invRgn w.hWnd with rgn := emptyClipRgn }
  if w.usePrivateCdc then
    (hdc, { s with invRgn, privCDC := hdc })
  else if 0 < s.free then
    (hdc, { s with invRgn, free := s.free - 1, held := s.held + 1 })
  else
    (hdc, { s with invRgn })

def endPaint (s : PaintState ι) : PaintState ι :=
  if w.usePrivateCdc then
    { s with privCDC := s.privCDC.selectClipRect w.env none }
  else if 0 < s.held then
    { s with free := s.free + 1, held := s.held - 1 }
  else
    s

def next (s : PaintState ι) : UpdateCall → PaintState ι
  | .invalidateRect prc => { s with invRgn := w.invalidateRect prc s.invRgn }
  | .beginPaint => (w.beginPaint s).2
  | .endPaint => w.endPaint s

def start (invRgn : ι → InvRgn) (free : Nat) : PaintState ι :=
  ⟨invRgn, Dc.initDC w.env (some w.hWnd) true w.surface, free, 0⟩

def update (s : PaintState ι) : Set (Int × Int) :=
  (s.invRgn w.hWnd).rgn.pixels

def wanted (prc : Option Rect) : Set (Int × Int) :=
  area (prc.map normalizeRect) ∩ w.self.rcClient.pixels

def covered : Set (Int × Int) :=
  if w.clipChildren then
    { p | ∃ child ∈ w.children.chain, (w.env.tree.wnd child).visible = true ∧ p ∈ (w.env.tree.wnd child).rcWindow.pixels }
  else
    ∅

def excluded : Set (Int × Int) :=
  { p | ∃ rc ∈ w.childRects, p ∈ rc.pixels }

def toBeSeen (s : Set (Int × Int)) : Set (Int × Int) :=
  (Dc.initDC w.env (some w.hWnd) true w.surface).onScreen s ∩ (Dc.initDC w.env (some w.hWnd) true w.surface).seen w.env

def Faithful : PaintState ι → Set (Int × Int) → List UpdateCall → Prop
  | s, pending, [] => w.update s = pending
  | s, pending, .invalidateRect prc :: calls =>
    w.update s = pending ∧ Faithful (w.next s (.invalidateRect prc)) (pending ∪ w.wanted prc) calls
  | s, pending, .beginPaint :: calls =>
    w.update s = pending ∧ (w.beginPaint s).1.ecrgn.pixels = w.toBeSeen (pending \ w.covered)
      ∧ Faithful (w.next s .beginPaint) ∅ calls
  | s, pending, .endPaint :: calls => w.update s = pending ∧ Faithful (w.next s .endPaint) pending calls

def CallOk (s : PaintState ι) : UpdateCall → Prop
  | .invalidateRect prc =>
    w.self.isControl = true ∧ w.transparent = true →
      (w.self.visible = true ∧ w.self.ctrlAsMainWin = false ∧ prc.map normalizeRect = prc) ∨ w.wanted prc ⊆ w.update s
  | .beginPaint =>
    if w.usePrivateCdc = true ∨ 0 < s.free then
      w.update s ≠ ∅ ∨ w.toBeSeen Set.univ ⊆ w.toBeSeen w.excluded
    else
      (w.update s ∩ w.env.tree.rcScr.pixels) \ w.covered = w.toBeSeen (w.update s \ w.covered)
  | .endPaint => True

def CallsOk : PaintState ι → List UpdateCall → Prop
  | _, [] => True
  | s, call :: calls => w.CallOk s call ∧ CallsOk (w.next s call) calls

end PaintWin

section Dcs

variable {ι : Type} [DecidableEq ι] {env : GdiEnv ι} {pdc pdc' pdc'' : Dc ι}

omit [DecidableEq ι] in
theorem Dc.SameWindow.trans (h : Dc.SameWindow env pdc pdc') (h' : Dc.SameWindow env pdc' pdc'')
    : Dc.SameWindow env pdc pdc'' :=
  ⟨h'.genOk, h'.hwnd.trans h.hwnd, h'.bIsClient.trans h.bIsClient, h'.devRC.trans h.devRC⟩

theorem isRectEmpty_of_proper {rc : Rect} (h : rc.Proper) : isRectEmpty rc = false := by
  unfold Rect.Proper at h
  unfold isRectEmpty
  grind

theorem Dc.selectClipRegion_ecrgn (henv : Dc.EnvOk env) (h : Dc.GenOk env pdc) {rgn : ClipRgn} (hrgn : rgn.WellFormed)
    : Dc.SameWindow env pdc (pdc.selectClipRegion env rgn)
        ∧ (rgn.pixels = ∅ → (pdc.selectClipRegion env rgn).ecrgn.pixels = pdc.seen env)
        ∧ (rgn.pixels ≠ ∅ → (pdc.selectClipRegion env rgn).ecrgn.pixels = pdc.onScreen rgn.pixels ∩ pdc.seen env) := by
  have hcopy := @copyOf_spec pdc.lcrgn rgn hrgn
  have hok : Dc.GenOk env { pdc with lcrgn := pdc.lcrgn.copyOf rgn } := ⟨h.isGen, h.devRC, hcopy.1, h.ecrgn⟩
  have hregen := Dc.sameWindow_regenerate henv hok
  have heq : pdc.selectClipRegion env rgn = { pdc with lcrgn := pdc.lcrgn.copyOf rgn }.regenerate env := by
    unfold Dc.selectClipRegion
    rw [if_pos h.isGen]
    rfl
  rw [heq]
  rw [hcopy.2.1] at hregen
  exact ⟨⟨hregen.1.genOk, rfl, rfl, hregen.1.devRC⟩, hregen.2⟩

omit [DecidableEq ι] in
theorem Dc.excludeClipRect_ecrgn (h : Dc.GenOk env pdc) {rc : Rect} (hrc : rc.Proper)
    : Dc.SameWindow env pdc (pdc.excludeClipRect rc)
        ∧ (pdc.excludeClipRect rc).ecrgn.pixels = pdc.ecrgn.pixels \ pdc.onScreen rc.pixels := by
  have hreset := Dc.resetLcrgn_spec h.lcrgn
  have hl := @subtractClipRect_wellFormed _ rc hreset.1
  have he := @subtractClipRect_wellFormed _ (pdc.dp2sp rc) h.ecrgn
  rw [Dc.dp2sp_pixels h.isGen] at he
  have hempty : ¬isRectEmpty rc = true := by
    rw [isRectEmpty_of_proper hrc]
    exact Bool.false_ne_true
  unfold Dc.excludeClipRect
  rw [normalizeRect_of_proper hrc, if_neg hempty, if_pos h.isGen, hreset.2.2]
  exact ⟨⟨⟨h.isGen, h.devRC, hl.1, he.1⟩, rfl, rfl, rfl⟩, he.2⟩

omit [DecidableEq ι] in
theorem Dc.foldl_exclude {rects : List Rect} (h : Dc.GenOk env pdc) (hproper : ∀ rc ∈ rects, rc.Proper)
    : Dc.SameWindow env pdc (rects.foldl Dc.excludeClipRect pdc)
        ∧ (rects.foldl Dc.excludeClipRect pdc).ecrgn.pixels = pdc.ecrgn.pixels \ pdc.onScreen { p | ∃ rc ∈ rects, p ∈ rc.pixels } := by
  induction rects generalizing pdc with
  | nil =>
    refine ⟨⟨h, rfl, rfl, rfl⟩, ?_⟩
    ext p
    simp [Dc.onScreen, shift]
  | cons rc rects ih =>
    have hstep := Dc.excludeClipRect_ecrgn h (hproper rc mem_cons_self)
    have hrest := ih hstep.1.genOk (fun rc' hrc' => hproper rc' (mem_cons_of_mem rc hrc'))
    refine ⟨hstep.1.trans hrest.1, ?_⟩
    rw [foldl_cons, hrest.2, hstep.2, hstep.1.onScreen]
    ext p
    simp only [Dc.onScreen, Set.mem_sdiff, mem_shift, Set.mem_setOf_eq, mem_cons, exists_eq_or_imp, not_or]
    tauto

omit [DecidableEq ι] in
theorem Dc.foldl_exclude_screen {rects : List Rect} (hscreen : pdc.dcType = .scrdc) (he : pdc.ecrgn.WellFormed)
    (hproper : ∀ rc ∈ rects, rc.Proper)
    : (rects.foldl Dc.excludeClipRect pdc).ecrgn.pixels = pdc.ecrgn.pixels \ { p | ∃ rc ∈ rects, p ∈ rc.pixels } := by
  induction rects generalizing pdc with
  | nil =>
    ext p
    simp
  | cons rc rects ih =>
    have hrc := hproper rc mem_cons_self
    have hempty : ¬isRectEmpty rc = true := by
      rw [isRectEmpty_of_proper hrc]
      exact Bool.false_ne_true
    have hstep : pdc.excludeClipRect rc = { pdc with ecrgn := (subtractClipRect pdc.ecrgn rc).2 } := by
      unfold Dc.excludeClipRect
      rw [normalizeRect_of_proper hrc, if_neg hempty, if_neg (by rw [hscreen]; decide)]
    have hsub := @subtractClipRect_wellFormed _ rc he
    have hrest := @ih { pdc with ecrgn := (subtractClipRect pdc.ecrgn rc).2 } hscreen hsub.1
      (fun rc' hrc' => hproper rc' (mem_cons_of_mem rc hrc'))
    rw [foldl_cons, hstep, hrest, hsub.2]
    ext p
    simp only [Set.mem_sdiff, Set.mem_setOf_eq, mem_cons, exists_eq_or_imp, not_or]
    tauto

end Dcs

section Chain

variable {ι : Type} {wnd : ι → Window ι}

theorem Ctrls.chain_subset {t : Ctrls ι} {i : ι} (h : i ∈ t.chain) : i ∈ t.all := by
  induction t with
  | null => cases h
  | ctrl pCtrl children next _ ih =>
    rcases mem_cons.mp h with heq | h
    . rw [heq]
      exact mem_cons_self
    . exact mem_cons_of_mem _ (mem_append_right _ (ih h))

theorem reached_chain_iff {t : Ctrls ι} {i : ι} (hnodup : t.all.Nodup) (hi : i ∈ t.chain) {prc r : Option Rect}
    : Reached wnd t prc i r
        ↔ ((wnd i).visible = true ∧ (wnd i).ctrlAsMainWin = false) ∧ r = prc.map (toClient (wnd i)) := by
  induction t with
  | null => cases hi
  | ctrl pCtrl children next _ ih =>
    obtain ⟨hfresh, hboth⟩ := nodup_cons.mp hnodup
    obtain ⟨-, hnext, hdisjoint⟩ := nodup_append.mp hboth
    constructor
    . intro h
      cases h with
      | here hvisible hmain => exact ⟨⟨hvisible, hmain⟩, rfl⟩
      | child _ _ h =>
        exfalso
        rcases mem_cons.mp hi with heq | hi
        . rw [← heq] at hfresh
          exact hfresh (mem_append_left _ h.mem_all)
        . exact hdisjoint i h.mem_all i (Ctrls.chain_subset hi) rfl
      | next h =>
        rcases mem_cons.mp hi with heq | hi
        . rw [← heq] at hfresh
          exact absurd (mem_append_right _ h.mem_all) hfresh
        . exact (ih hnext hi).mp h
    rintro ⟨⟨hvisible, hmain⟩, rfl⟩
    rcases mem_cons.mp hi with heq | hi
    . rw [heq] at hvisible hmain ⊢
      exact .here hvisible hmain
    . exact .next ((ih hnext hi).mpr ⟨⟨hvisible, hmain⟩, rfl⟩)

end Chain

namespace PaintWin

variable {ι : Type} [DecidableEq ι] (w : PaintWin ι)

def gained (prc : Option Rect) : Set (Int × Int) :=
  if w.self.isControl = true ∧ w.transparent = true then
    if w.self.visible = true ∧ w.self.ctrlAsMainWin = false then area prc ∩ w.self.rcClient.pixels else ∅
  else
    w.wanted prc

section Invalidate

variable {w} {m : ι → InvRgn}

theorem parent_invalidates (h : InOrder w.env.tree.wnd m) (hcontrol : w.self.isControl = true) (rc : Rect)
    : InOrder w.env.tree.wnd (wndInvalidateRect w.env.tree.wnd w.pParent w.siblings (some rc) m)
        ∧ (wndInvalidateRect w.env.tree.wnd w.pParent w.siblings (some rc) m w.hWnd).rgn.pixels
          = (m w.hWnd).rgn.pixels
            ∪ (if w.self.visible = true ∧ w.self.ctrlAsMainWin = false then
                (toClient w.self rc).pixels ∩ w.self.rcClient.pixels else ∅) := by
  obtain ⟨hnodup, hchain⟩ := w.family hcontrol
  obtain ⟨hfresh, hall⟩ := nodup_cons.mp hnodup
  have hne : w.hWnd ≠ w.pParent := by
    intro heq
    rw [← heq] at hfresh
    exact hfresh (Ctrls.chain_subset hchain)
  let t : InvTree ι := ⟨w.env.tree.wnd, w.pParent, w.siblings, m, hnodup, fun i => (h i).1, fun i => (h i).2⟩
  have hcascades := t.invalidated_cascades (some rc)
  have hreached := @reached_chain_iff ι w.env.tree.wnd w.siblings w.hWnd hall hchain (some rc)
  refine ⟨hcascades.inOrder, ?_⟩
  by_cases hshown : w.self.visible = true ∧ w.self.ctrlAsMainWin = false
  . have hgain := hcascades.reached w.hWnd _ (hreached.mpr ⟨hshown, rfl⟩)
    rw [update_of_ne hne] at hgain
    rw [if_pos hshown]
    exact hgain
  have hkeep := hcascades.others w.hWnd (fun r hr => hshown (hreached.mp hr).1)
  rw [update_of_ne hne] at hkeep
  rw [if_neg hshown, Set.union_empty]
  exact congrArg (fun inv : InvRgn => inv.rgn.pixels) hkeep

omit [DecidableEq ι] in
theorem toClient_client (w : PaintWin ι) : toClient w.self ⟨w.self.cl, w.self.ct, w.self.cr,
    w.self.cb⟩ = w.self.rcClient := by
  unfold toClient offsetRect Window.rcClient
  simp only [Rect.mk.injEq]
  omega

theorem invalidateRect_spec (h : InOrder w.env.tree.wnd m) (prc : Option Rect)
    : InOrder w.env.tree.wnd (w.invalidateRect prc m)
        ∧ (w.invalidateRect prc m w.hWnd).rgn.pixels = (m w.hWnd).rgn.pixels ∪ w.gained prc := by
  unfold invalidateRect gained
  by_cases htrans : w.self.isControl = true ∧ w.transparent = true
  . rw [if_pos (Bool.and_eq_true_iff.mpr htrans), if_pos htrans]
    cases prc with
    | none =>
      have hparent := parent_invalidates h htrans.1 ⟨w.self.cl, w.self.ct, w.self.cr, w.self.cb⟩
      rw [toClient_client, Set.inter_self] at hparent
      rw [show area none = Set.univ from rfl, Set.univ_inter]
      exact hparent
    | some rc =>
      dsimp only
      have hpart : (toClient w.self (intersectRect ⟨w.self.cl, w.self.ct, w.self.cr, w.self.cb⟩
          (offsetRect rc w.self.cl w.self.ct)).2).pixels = w.self.rcClient.pixels ∩ rc.pixels := by
        rw [← toClient_client]
        unfold toClient
        rw [offsetRect_pixels, offsetRect_pixels, intersectRect_pixels, offsetRect_pixels]
        ext p
        simp only [mem_shift, Set.mem_inter_iff, Rect.mem_pixels]
        rw [show p.1 - -w.self.cl - w.self.cl = p.1 by omega, show p.2 - -w.self.ct - w.self.ct = p.2 by omega]
      by_cases hmeet : (intersectRect ⟨w.self.cl, w.self.ct, w.self.cr,
        w.self.cb⟩ (offsetRect rc w.self.cl w.self.ct)).1 = true
      . have hparent := parent_invalidates h htrans.1
          (intersectRect ⟨w.self.cl, w.self.ct, w.self.cr, w.self.cb⟩ (offsetRect rc w.self.cl w.self.ct)).2
        rw [hpart] at hparent
        rw [if_pos hmeet, show area (some rc) = rc.pixels from rfl]
        rw [Set.inter_comm w.self.rcClient.pixels, Set.inter_assoc, Set.inter_self] at hparent
        exact hparent
      rw [if_neg hmeet, show area (some rc) = rc.pixels from rfl]
      rw [intersectRect_proper] at hmeet
      have hnone : rc.pixels ∩ w.self.rcClient.pixels = ∅ := by
        rw [Set.inter_comm, ← hpart]
        unfold toClient
        rw [offsetRect_pixels, Rect.pixels_eq_empty hmeet]
        rfl
      rw [hnone, ite_self, Set.union_empty]
      exact ⟨h, rfl⟩
  rw [if_neg (fun hand => htrans (Bool.and_eq_true_iff.mp hand)), if_neg htrans]
  let t : InvTree ι := ⟨w.env.tree.wnd, w.hWnd, w.children, m, w.nodup, fun i => (h i).1, fun i => (h i).2⟩
  have hcascades := t.invalidated_cascades prc
  obtain ⟨hfresh, -⟩ := nodup_cons.mp w.nodup
  refine ⟨hcascades.inOrder, ?_⟩
  have hkeep := hcascades.others w.hWnd (fun r hr => hfresh hr.mem_all)
  rw [update_self] at hkeep
  rw [show wndInvalidateRect w.env.tree.wnd w.hWnd w.children prc m w.hWnd = addInvalid (m w.hWnd) prc w.self.rcClient from hkeep]
  exact (addInvalid_spec (h w.hWnd).2 prc).2

theorem gained_iff (s : PaintState ι) (prc : Option Rect)
    : w.update s ∪ w.gained prc = w.update s ∪ w.wanted prc ↔ w.CallOk s (.invalidateRect prc) := by
  unfold gained CallOk
  by_cases htrans : w.self.isControl = true ∧ w.transparent = true
  . rw [if_pos htrans]
    simp only [htrans, and_self, true_implies]
    by_cases hshown : w.self.visible = true ∧ w.self.ctrlAsMainWin = false
    . rw [if_pos hshown]
      by_cases hnormal : prc.map normalizeRect = prc
      . unfold wanted
        rw [hnormal]
        exact iff_of_true rfl (.inl ⟨hshown.1, hshown.2, rfl⟩)
      . rw [area_of_inverted hnormal, Set.empty_inter, Set.union_empty, eq_comm, Set.union_eq_left]
        simp [hnormal]
    rw [if_neg hshown, Set.union_empty, eq_comm, Set.union_eq_left]
    constructor
    . exact .inr
    . rintro (⟨hvisible, hmain, -⟩ | h)
      . exact absurd ⟨hvisible, hmain⟩ hshown
      . exact h
  . rw [if_neg htrans]
    exact iff_of_true rfl (fun h => absurd h htrans)

end Invalidate

section Begin

variable {w}

structure Steady (w : PaintWin ι) (s : PaintState ι) : Prop where
  inOrder : InOrder w.env.tree.wnd s.invRgn
  privCDC : Dc.SameWindow w.env (Dc.initDC w.env (some w.hWnd) true w.surface) s.privCDC

variable {s : PaintState ι}

theorem Steady.wellFormed (h : Steady w s) : (s.invRgn w.hWnd).rgn.WellFormed := by
  have hwidth := w.width
  have hheight := w.height
  apply (h.inOrder w.hWnd).2.wellFormed
  . unfold Window.rcClient
    dsimp only
    omega
  . unfold Window.rcClient
    dsimp only
    omega

omit [DecidableEq ι] in
theorem childRects_proper : ∀ rc ∈ w.childRects, rc.Proper := by
  intro rc hrc
  unfold childRects at hrc
  split at hrc
  . obtain ⟨child, hchild, rfl⟩ := List.mem_map.mp hrc
    have hmeet := (Bool.and_eq_true_iff.mp (mem_filter.mp hchild).2).2
    exact (proper_of_doesIntersect hmeet).1
  . cases hrc

theorem update_sdiff_covered (h : Steady w s) : w.update s \ w.covered = w.update s \ w.excluded := by
  ext p
  rw [Set.mem_sdiff, Set.mem_sdiff, and_congr_right_iff]
  intro hp
  have hclient := (h.inOrder w.hWnd).2.inside hp
  rw [not_iff_not]
  unfold covered excluded childRects
  split
  . constructor
    . rintro ⟨child, hchild, hvisible, hmem⟩
      refine ⟨_, List.mem_map_of_mem (mem_filter.mpr ⟨hchild, ?_⟩), hmem⟩
      rw [hvisible, Bool.true_and]
      exact doesIntersect_of_mem hmem hclient
    rintro ⟨rc, hrc, hmem⟩
    obtain ⟨child, hchild, rfl⟩ := List.mem_map.mp hrc
    obtain ⟨hchain, hand⟩ := mem_filter.mp hchild
    exact ⟨child, hchain, (Bool.and_eq_true_iff.mp hand).1, hmem⟩
  constructor
  . intro h
    cases h
  . rintro ⟨rc, hrc, -⟩
    cases hrc

theorem paintDc_spec {s : PaintState ι} (h : Steady w s) {hdc : Dc ι}
    (hdcOk : Dc.SameWindow w.env (Dc.initDC w.env (some w.hWnd) true w.surface) hdc)
    : Dc.SameWindow w.env (Dc.initDC w.env (some w.hWnd) true w.surface)
          (w.childRects.foldl Dc.excludeClipRect (hdc.selectClipRegion w.env (s.invRgn w.hWnd).rgn))
        ∧ ((w.childRects.foldl Dc.excludeClipRect (hdc.selectClipRegion w.env (s.invRgn w.hWnd).rgn)).ecrgn.pixels
              = w.toBeSeen (w.update s \ w.covered)
            ↔ w.update s ≠ ∅ ∨ w.toBeSeen Set.univ ⊆ w.toBeSeen w.excluded) := by
  have hselect := Dc.selectClipRegion_ecrgn w.envOk hdcOk.genOk h.wellFormed
  have hall := hdcOk.trans hselect.1
  have hexclude := @Dc.foldl_exclude ι w.env _ w.childRects hselect.1.genOk childRects_proper
  refine ⟨hall.trans hexclude.1, ?_⟩
  rw [hexclude.2, update_sdiff_covered h, hall.onScreen]
  rw [hdcOk.seen, hdcOk.onScreen] at hselect
  change _ \ Dc.onScreen _ w.excluded = _ ↔ _
  unfold toBeSeen
  by_cases hempty : w.update s = ∅
  . rw [hselect.2.1 hempty, hempty, Set.empty_sdiff]
    have hnone : (Dc.initDC w.env (some w.hWnd) true w.surface).onScreen ∅ = ∅ := rfl
    have huniv : (Dc.initDC w.env (some w.hWnd) true w.surface).onScreen Set.univ = Set.univ := rfl
    rw [hnone, huniv, Set.empty_inter, Set.univ_inter, Set.sdiff_eq_empty]
    constructor
    . exact fun hsub => .inr (Set.subset_inter hsub (le_refl _))
    . rintro (hne | hsub)
      . exact absurd rfl hne
      . exact hsub.trans Set.inter_subset_left
  rw [hselect.2.2 hempty, Dc.onScreen_sdiff]
  refine iff_of_true ?_ (.inl hempty)
  ext p
  simp only [Set.mem_sdiff, Set.mem_inter_iff]
  change (p ∈ Dc.onScreen _ (w.update s) ∧ _) ∧ _ ↔ _
  tauto

theorem screenDc_spec (h : Steady w s)
    : (w.childRects.foldl Dc.excludeClipRect (w.screenDc.selectClipRegion w.env (s.invRgn w.hWnd).rgn)).ecrgn.pixels
        = (w.update s ∩ w.env.tree.rcScr.pixels) \ w.covered := by
  have hcopy := @copyOf_spec w.screenDc.ecrgn _ h.wellFormed
  have hcut := @intersectClipRect_spec _ w.env.tree.rcScr hcopy.1
  have hselect : w.screenDc.selectClipRegion w.env (s.invRgn w.hWnd).rgn
      = { w.screenDc with
          ecrgn := (intersectClipRect (w.screenDc.ecrgn.copyOf (s.invRgn w.hWnd).rgn) w.env.tree.rcScr).2 } := by
    have hscreen : w.screenDc.dcType ≠ .gendc := fun h => nomatch (show DcType.scrdc = .gendc from h)
    unfold Dc.selectClipRegion
    rw [if_neg hscreen]
    rfl
  have hcovered := update_sdiff_covered h
  rw [hselect, Dc.foldl_exclude_screen rfl hcut.1 childRects_proper, hcut.2, hcopy.2.1]
  change (w.update s ∩ _) \ w.excluded = _
  rw [Set.inter_comm, Set.inter_sdiff_assoc, ← hcovered, ← Set.inter_sdiff_assoc]

theorem beginPaint_spec (h : Steady w s)
    : Steady w (w.next s .beginPaint) ∧ w.update (w.next s .beginPaint) = ∅
        ∧ ((w.beginPaint s).1.ecrgn.pixels = w.toBeSeen (w.update s \ w.covered) ↔ w.CallOk s .beginPaint) := by
  have hregions : InOrder w.env.tree.wnd
      (Function.update s.invRgn w.hWnd { s.invRgn w.hWnd with rgn := emptyClipRgn }) := by
    intro i
    by_cases hi : i = w.hWnd
    . rw [hi, update_self]
      refine ⟨(h.inOrder w.hWnd).1, sound_empty, fun _ _ => wellFormed_of_nil rfl, ?_⟩
      rw [pixels_eq_empty rfl]
      exact Set.empty_subset _
    . rw [update_of_ne hi]
      exact h.inOrder i
  have hnone : (Function.update s.invRgn w.hWnd { s.invRgn w.hWnd with rgn := emptyClipRgn } w.hWnd).rgn.pixels = ∅ := by
    rw [update_self]
    exact pixels_eq_empty rfl
  unfold next CallOk beginPaint getClientDC
  by_cases hpriv : w.usePrivateCdc = true
  . have hspec := paintDc_spec h h.privCDC
    rw [if_pos hpriv, if_pos hpriv, if_pos (.inl hpriv)]
    exact ⟨⟨hregions, hspec.1⟩, hnone, hspec.2⟩
  rw [if_neg hpriv, if_neg hpriv]
  by_cases hfree : 0 < s.free
  . have hinit := Dc.initDC_exact w.envOk (some w.hWnd) true w.surface
    have hspec := @paintDc_spec ι _ w s h _ ⟨hinit.1, rfl, rfl, rfl⟩
    rw [if_pos hfree, if_pos hfree, if_pos (.inr hfree)]
    exact ⟨⟨hregions, h.privCDC⟩, hnone, hspec.2⟩
  . rw [if_neg hfree, if_neg hfree, if_neg (not_or.mpr ⟨hpriv, hfree⟩), screenDc_spec h]
    exact ⟨⟨hregions, h.privCDC⟩, hnone, Iff.rfl⟩

theorem endPaint_spec (h : Steady w s)
    : Steady w (w.next s .endPaint) ∧ w.update (w.next s .endPaint) = w.update s := by
  unfold next endPaint
  dsimp only
  split
  . have hspec := (Dc.generate_spec w.envOk h.privCDC.genOk (@wellFormed_of_nil emptyClipRgn rfl) ∅).1
    have heq : s.privCDC.selectClipRect w.env none = ({ s.privCDC with lcrgn := emptyClipRgn }.dcGenerateECRgn w.env true).2 := by
      unfold Dc.selectClipRect Dc.selectRect
      rw [if_pos h.privCDC.genOk.isGen]
    refine ⟨⟨h.inOrder, ?_⟩, rfl⟩
    rw [heq]
    exact h.privCDC.trans hspec
  . split
    . exact ⟨⟨h.inOrder, h.privCDC⟩, rfl⟩
    . exact ⟨h, rfl⟩

theorem invalidateRect_steady (h : Steady w s) (prc : Option Rect)
    : Steady w (w.next s (.invalidateRect prc))
        ∧ w.update (w.next s (.invalidateRect prc)) = w.update s ∪ w.gained prc := by
  have hspec := invalidateRect_spec h.inOrder prc
  exact ⟨⟨hspec.1, h.privCDC⟩, hspec.2⟩

end Begin

theorem Faithful.update_eq {w : PaintWin ι} {s : PaintState ι} {pending : Set (Int × Int)} {calls : List UpdateCall}
    (h : w.Faithful s pending calls) : w.update s = pending := by
  cases calls with
  | nil => exact h
  | cons call calls =>
    cases call with
    | invalidateRect prc | beginPaint | endPaint => exact h.1

theorem faithful_iff {w : PaintWin ι} {s : PaintState ι} (h : Steady w s) (calls : List UpdateCall)
    : w.Faithful s (w.update s) calls ↔ w.CallsOk s calls := by
  induction calls generalizing s with
  | nil => exact iff_of_true rfl trivial
  | cons call calls ih =>
    cases call with
    | invalidateRect prc =>
      have hstep := invalidateRect_steady h prc
      have hgained := gained_iff (w := w) s prc
      unfold Faithful CallsOk
      constructor
      . rintro ⟨-, hrest⟩
        have hkept := hrest.update_eq
        rw [hstep.2] at hkept
        rw [← hkept, ← hstep.2, ih hstep.1] at hrest
        exact ⟨hgained.mp hkept, hrest⟩
      rintro ⟨hok, hrest⟩
      refine ⟨rfl, ?_⟩
      rw [← hgained.mpr hok, ← hstep.2, ih hstep.1]
      exact hrest
    | beginPaint =>
      have hstep := beginPaint_spec h
      unfold Faithful CallsOk
      rw [← ih hstep.1, hstep.2.1, hstep.2.2]
      simp only [true_and]
    | endPaint =>
      have hstep := endPaint_spec h
      unfold Faithful CallsOk
      rw [← ih hstep.1, hstep.2]
      exact ⟨fun h => ⟨trivial, h.2⟩, fun h => ⟨rfl, h.2⟩⟩

structure Regions (w : PaintWin ι) where
  invRgn : ι → InvRgn
  inOrder : InOrder w.env.tree.wnd invRgn

/--
The calls of a run paint what has been invalidated exactly when each of them is in order.
-/
theorem paint_iff (w : PaintWin ι) (regions : Regions w) (free : Nat) (calls : List UpdateCall)
    : w.Faithful (w.start regions.invRgn free) (w.update (w.start regions.invRgn free)) calls
        ↔ w.CallsOk (w.start regions.invRgn free) calls := by
  have hinit := Dc.initDC_exact w.envOk (some w.hWnd) true w.surface
  exact faithful_iff ⟨regions.inOrder, hinit.1, rfl, rfl, rfl⟩ calls

def oneWindow : PaintWin Unit where
  env :=
    {
      tree :=
        {
          rcScr := ⟨0, 0, 640, 480⟩
          wnd := fun _ =>
            {
              isControl := false, left := 0, top := 0, right := 100, bottom := 100, cl := 0, ct := 0, cr := 100, cb := 100
              visible := true, ctrlAsMainWin := false, pParent := none, children := none, pMainWin := ()
            }
          nrWnds := 1
        }
      gcrInfo := { crgn := single ⟨0, 0, 100, 100⟩, age := 0 }
    }
  hWnd := ()
  children := .null
  pParent := ()
  siblings := .null
  surface := ⟨640, 480⟩
  transparent := false
  usePrivateCdc := false
  clipChildren := false
  envOk := by
    refine ⟨⟨?_, ?_, ?_, ?_⟩, ?_⟩
    . intro h
      exact ⟨[], rfl, Nat.zero_le 1⟩
    . intro h l hctrl
      cases hctrl
    . intro h p hp
      cases hp
    . intro p c hc
      cases hc
    . apply wellFormed_single
      unfold Rect.Proper
      decide
  nodup := by decide
  family := fun h => nomatch h
  width := by decide
  height := by decide

theorem toBeSeen_oneWindow : (0, 0) ∈ oneWindow.toBeSeen Set.univ := by
  refine ⟨trivial, ?_, ?_, ?_⟩
  . change (0, 0) ∈ (single ⟨0, 0, 100, 100⟩).pixels
    rw [pixels_single, Rect.mem_pixels]
    decide
  . change (0, 0) ∈ (⟨0, 0, 100, 100⟩ : Rect).pixels
    rw [Rect.mem_pixels]
    decide
  . trivial

def noRegions : Regions oneWindow where
  invRgn := fun _ => ⟨emptyClipRgn, 0⟩
  inOrder := by
    intro i
    refine ⟨rfl, sound_empty, fun _ _ => wellFormed_of_nil rfl, ?_⟩
    rw [pixels_eq_empty rfl]
    exact Set.empty_subset _

theorem not_faithful_empty
    : ¬∀ (w : PaintWin Unit) (regions : Regions w) (free : Nat) (calls : List UpdateCall),
        w.Faithful (w.start regions.invRgn free) (w.update (w.start regions.invRgn free)) calls := by
  intro h
  have hrun := h oneWindow noRegions 1 [.beginPaint]
  have hinit := Dc.initDC_exact oneWindow.envOk (some ()) true oneWindow.surface
  have hsteady : Steady oneWindow (oneWindow.start noRegions.invRgn 1) := ⟨noRegions.inOrder, hinit.1, rfl, rfl, rfl⟩
  have hcall := (beginPaint_spec hsteady).2.2
  unfold Faithful at hrun
  have hok := hcall.mp hrun.2.1
  unfold CallOk at hok
  dsimp only at hok
  have hfree : oneWindow.usePrivateCdc = true ∨ 0 < (oneWindow.start noRegions.invRgn 1).free := Or.inr (Nat.one_pos)
  rw [if_pos hfree] at hok
  rcases hok with hne | hsub
  . exact hne (pixels_eq_empty rfl)
  . obtain ⟨⟨rc, hrc, -⟩, -⟩ := hsub toBeSeen_oneWindow
    cases hrc

end PaintWin

end MiniGui
