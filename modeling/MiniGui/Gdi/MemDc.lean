import MiniGui.Gdi.ClipCalls

namespace MiniGui

open ClipRgn

namespace Dc

variable {ι : Type}

def createMemDC (width height : Int) : Dc ι :=
  let devRC : Rect := ⟨0, 0, width, height⟩
  {
    dcType := .memdc
    hwnd := none
    surface := ⟨width, height⟩
    lcrgn := emptyClipRgn
    ecrgn := (setClipRgn emptyClipRgn devRC).2
    bIsClient := false
    devRC
    oldage := 0
  }

def createCompatibleDCEx (pdc : Dc ι) (width height : Int) : Dc ι :=
  if width ≤ 0 ∨ height ≤ 0 then
    createMemDC (pdc.devRC.right - pdc.devRC.left) (pdc.devRC.bottom - pdc.devRC.top)
  else
    createMemDC width height

/--
`none` is `HDC_INVALID`.
-/
def createSubMemDC (parent : Dc ι) (offX offY width height : Int) (compToParent : Bool) : Option (Dc ι) :=
  if parent.dcType ≠ .memdc then
    none
  else if offX < 0 ∨ offX ≥ parent.devRC.right ∨ offY < 0 ∨ offY ≥ parent.devRC.bottom ∨ width ≤ 0 ∨ height ≤ 0 then
    none
  else
    let width := min width (parent.devRC.right - parent.devRC.left)
    let height := min height (parent.devRC.bottom - parent.devRC.top)
    let width := if offX + width > parent.devRC.right then parent.devRC.right - offX else width
    let height := if offY + height > parent.devRC.bottom then parent.devRC.bottom - offY else height
    let sub := createMemDC width height
    if compToParent then
      let ecrgn := emptyClipRgn.copyOf parent.ecrgn
      let ecrgn := if offX ≠ 0 ∨ offY ≠ 0 then offsetRegion ecrgn (-offX) (-offY) else ecrgn
      some { sub with ecrgn := (intersectClipRect ecrgn sub.devRC).2 }
    else
      some sub

end Dc

def ClipOp.Valid (op : ClipOp) : Prop :=
  match op with
  | .selectRegion rgn => rgn.WellFormed
  | _ => True

namespace Rect

def Within (r bound : Rect) : Prop :=
  bound.left ≤ r.left ∧ r.right ≤ bound.right ∧ bound.top ≤ r.top ∧ r.bottom ≤ bound.bottom
deriving Decidable

theorem within_iff {r bound : Rect} (h : r.Proper) : r.Within bound ↔ r.pixels ⊆ bound.pixels := by
  unfold Proper at h
  constructor
  . intro hin p hp
    rw [mem_pixels] at hp ⊢
    unfold Within at hin
    unfold Mem at hp ⊢
    omega
  intro hsub
  have hfirst : (r.left, r.top) ∈ bound.pixels := by
    apply hsub
    rw [mem_pixels]
    unfold Mem
    omega
  have hlast : (r.right - 1, r.bottom - 1) ∈ bound.pixels := by
    apply hsub
    rw [mem_pixels]
    unfold Mem
    omega
  rw [mem_pixels] at hfirst hlast
  unfold Mem at hfirst hlast
  unfold Within
  omega

end Rect

namespace Dc

variable {ι : Type} [DecidableEq ι]

section Invariant

variable {pdc : Dc ι} {env : GdiEnv ι} {op : ClipOp}

def Inside (pdc : Dc ι) : Prop :=
  pdc.devRC = ⟨0, 0, pdc.surface.w, pdc.surface.h⟩ ∧ ∀ r ∈ pdc.ecrgn.rects, r.Within pdc.devRC
deriving Decidable

structure MemOk (pdc : Dc ι) : Prop where
  isMem : pdc.dcType = .memdc
  devRC : pdc.devRC = ⟨0, 0, pdc.surface.w, pdc.surface.h⟩
  ecrgn : pdc.ecrgn.WellFormed

omit [DecidableEq ι] in
theorem MemOk.inside_iff (h : MemOk pdc) : pdc.Inside ↔ pdc.ecrgn.pixels ⊆ pdc.devRC.pixels := by
  constructor
  . intro hin p hp
    rcases hp with ⟨r, hr, hmem⟩
    apply (Rect.within_iff (h.ecrgn.banded.1 r hr)).mp (hin.2 r hr)
    exact hmem
  intro hsub
  refine ⟨h.devRC, ?_⟩
  intro r hr
  rw [Rect.within_iff (h.ecrgn.banded.1 r hr)]
  intro p hp
  apply hsub
  exact ⟨r, hr, hp⟩

omit [DecidableEq ι] in
theorem memOk_createMemDC {width height : Int} (hw : 0 ≤ width) (hh : 0 ≤ height)
    : MemOk (createMemDC width height : Dc ι) ∧ (createMemDC width height : Dc ι).Inside := by
  unfold createMemDC
  dsimp only
  rw [setClipRgn_eq]
  split
  . refine ⟨⟨rfl, rfl, wellFormed_of_nil rfl⟩, rfl, ?_⟩
    intro r hr
    simp [emptyClipRgn] at hr
  rename_i hempty
  have hproper : (⟨0, 0, width, height⟩ : Rect).Proper := by
    unfold isRectEmpty at hempty
    unfold Rect.Proper
    grind
  refine ⟨⟨rfl, rfl, wellFormed_single hproper⟩, rfl, ?_⟩
  intro r hr
  unfold single at hr
  rw [List.mem_singleton] at hr
  rw [hr]
  unfold Rect.Within
  dsimp only
  omega

def clipped (pdc : Dc ι) (op : ClipOp) : Set (Int × Int) :=
  match op with
  | .excludeRect rc => pdc.ecrgn.pixels \ (normalizeRect rc).pixels
  | .includeRect rc => pdc.ecrgn.pixels ∪ (normalizeRect rc).pixels
  | .rectIntersect rc =>
    if isRectEmpty (normalizeRect rc) then pdc.ecrgn.pixels else pdc.ecrgn.pixels ∩ (normalizeRect rc).pixels
  | .selectRect none => pdc.devRC.pixels
  | .selectRect (some rc) =>
    if isRectEmpty (normalizeRect rc) then pdc.ecrgn.pixels else (normalizeRect rc).pixels ∩ pdc.devRC.pixels
  | .selectRegion rgn => rgn.pixels ∩ pdc.devRC.pixels
  | .generate _ => pdc.ecrgn.pixels

theorem pixels_of_isRectEmpty {rc : Rect} (h : isRectEmpty rc = true) : rc.pixels = ∅ := by
  rw [Set.eq_empty_iff_forall_notMem]
  intro p
  exact isRectEmpty_not_mem h p.1 p.2

theorem MemOk.selectRect (h : MemOk pdc) (select : Option Rect) : MemOk (pdc.selectRect env select)
        ∧ (pdc.selectRect env select).ecrgn.pixels = (select.getD pdc.devRC).pixels ∩ pdc.devRC.pixels
        ∧ (pdc.selectRect env select).devRC = pdc.devRC := by
  unfold Dc.selectRect
  rw [if_neg (by rw [h.isMem]; decide)]
  dsimp only
  rw [← intersectRect_pixels]
  split
  . next hmeet =>
    have hproper := intersectRect_proper.mp hmeet
    rw [setClipRgn_eq, if_neg]
    . refine ⟨⟨h.isMem, h.devRC, wellFormed_single hproper⟩, ?_, rfl⟩
      apply pixels_single
    . unfold Rect.Proper at hproper
      unfold isRectEmpty
      grind
  rename_i hmeet
  refine ⟨⟨h.isMem, h.devRC, wellFormed_of_nil rfl⟩, ?_, rfl⟩
  rw [pixels_eq_empty rfl, Rect.pixels_eq_empty]
  intro hproper
  exact hmeet (intersectRect_proper.mpr hproper)

theorem MemOk.exec (h : MemOk pdc) (hop : op.Valid)
    : MemOk (pdc.exec env op) ∧ (pdc.exec env op).ecrgn.pixels = pdc.clipped op
        ∧ (pdc.exec env op).devRC = pdc.devRC := by
  have hgen : ¬pdc.dcType = .gendc := by
    rw [h.isMem]
    decide
  cases op with
  | excludeRect rc =>
    unfold Dc.exec excludeClipRect clipped
    dsimp only
    split
    . next hempty =>
      rw [pixels_of_isRectEmpty hempty, Set.sdiff_empty]
      exact ⟨h, rfl, rfl⟩
    . have hspec := @subtractClipRect_wellFormed _ (normalizeRect rc) h.ecrgn
      exact ⟨⟨h.isMem, h.devRC, hspec.1⟩, hspec.2, rfl⟩
  | includeRect rc =>
    unfold Dc.exec includeClipRect clipped
    dsimp only
    split
    . next hempty =>
      rw [pixels_of_isRectEmpty hempty, Set.union_empty]
      exact ⟨h, rfl, rfl⟩
    rename_i hempty
    have hproper := normalizeRect_proper (by simpa using hempty)
    have hspec := addClipRect_spec h.ecrgn hproper
    exact ⟨⟨h.isMem, h.devRC, hspec.1⟩, hspec.2, rfl⟩
  | rectIntersect rc =>
    unfold Dc.exec clipRectIntersect clipped
    dsimp only
    split
    . exact ⟨h, rfl, rfl⟩
    . have hspec := @intersectClipRect_spec _ (normalizeRect rc) h.ecrgn
      exact ⟨⟨h.isMem, h.devRC, hspec.1⟩, hspec.2, rfl⟩
  | selectRect select =>
    cases select with
    | none =>
      unfold Dc.exec selectClipRect clipped
      have hspec := @MemOk.selectRect _ _ _ env h none
      rw [Option.getD_none, Set.inter_self] at hspec
      exact hspec
    | some rc =>
      unfold Dc.exec selectClipRect clipped
      dsimp only
      split
      . exact ⟨h, rfl, rfl⟩
      . exact h.selectRect (some (normalizeRect rc))
  | selectRegion rgn =>
    unfold Dc.exec selectClipRegion clipped
    dsimp only
    rw [if_neg hgen]
    have hcopy := @copyOf_spec pdc.ecrgn rgn hop
    have hspec := @intersectClipRect_spec _ pdc.devRC hcopy.1
    rw [hcopy.2.1] at hspec
    exact ⟨⟨h.isMem, h.devRC, hspec.1⟩, hspec.2, rfl⟩
  | generate fForce =>
    unfold Dc.exec clipped
    dsimp only
    rw [if_neg hgen]
    exact ⟨h, rfl, rfl⟩

theorem MemOk.run (h : MemOk pdc) {ops : List ClipOp} (hops : ∀ op ∈ ops, op.Valid)
    : MemOk (pdc.run env ops) ∧ (pdc.run env ops).devRC = pdc.devRC := by
  induction ops using List.reverseRecOn with
  | nil => exact ⟨h, rfl⟩
  | append_singleton ops op ih =>
    have hrun : pdc.run env (ops ++ [op]) = (pdc.run env ops).exec env op := by
      unfold Dc.run
      rw [List.foldl_concat]
    have hstep := ih (fun a ha => hops a (List.mem_append_left _ ha))
    have hexec := @MemOk.exec _ _ _ env op hstep.1 (hops op (by simp))
    rw [hrun]
    exact ⟨hexec.1, hexec.2.2.trans hstep.2⟩

end Invariant

def KeepsWithin (bound : Rect) (op : ClipOp) : Prop :=
  match op with
  | .includeRect rc => isRectEmpty (normalizeRect rc) = true ∨ (normalizeRect rc).Within bound
  | _ => True

variable {pdc : Dc ι} {env : GdiEnv ι} {op : ClipOp}

theorem MemOk.inside_exec (h : MemOk pdc) (hin : pdc.Inside) (hop : op.Valid)
    : (pdc.exec env op).Inside ↔ KeepsWithin pdc.devRC op := by
  have hexec := @MemOk.exec _ _ _ env op h hop
  rw [h.inside_iff] at hin
  rw [hexec.1.inside_iff, hexec.2.1, hexec.2.2]
  unfold clipped KeepsWithin
  cases op with
  | excludeRect rc =>
    simp only [iff_true]
    exact Set.sdiff_subset.trans hin
  | includeRect rc =>
    dsimp only
    rw [Set.union_subset_iff]
    by_cases hempty : isRectEmpty (normalizeRect rc) = true
    . simp [hempty, hin, pixels_of_isRectEmpty hempty]
    . have hproper := normalizeRect_proper (by simpa using hempty)
      rw [Rect.within_iff hproper]
      simp [hempty, hin]
  | rectIntersect rc =>
    simp only [iff_true]
    split
    . exact hin
    . exact Set.inter_subset_left.trans hin
  | selectRect select =>
    simp only [iff_true]
    cases select with
    | none => exact subset_rfl
    | some rc =>
      dsimp only
      split
      . exact hin
      . exact Set.inter_subset_right
  | selectRegion rgn =>
    simp only [iff_true]
    exact Set.inter_subset_right
  | generate fForce =>
    simp only [iff_true]
    exact hin

inductive MemDc (env : GdiEnv ι) : Dc ι → Prop where
  | mem {width height : Int} (hw : 0 ≤ width) (hh : 0 ≤ height) : MemDc env (createMemDC width height)
  | compatible {pdc : Dc ι} {width height : Int}
      (hdev : pdc.devRC.left ≤ pdc.devRC.right ∧ pdc.devRC.top ≤ pdc.devRC.bottom)
      : MemDc env (pdc.createCompatibleDCEx width height)
  | sub {parent pdc : Dc ι} {ops : List ClipOp} {offX offY width height : Int} {compToParent : Bool}
      (hparent : MemDc env parent) (hops : ∀ op ∈ ops, op.Valid)
      (hsub : (parent.run env ops).createSubMemDC offX offY width height compToParent = some pdc)
      : MemDc env pdc

omit [DecidableEq ι] in
theorem memOk_createSubMemDC {parent : Dc ι} (h : MemOk parent) {offX offY width height : Int} {compToParent : Bool}
    (hsub : parent.createSubMemDC offX offY width height compToParent = some pdc)
    : MemOk pdc ∧ pdc.Inside := by
  unfold createSubMemDC at hsub
  rw [if_neg (by rw [h.isMem]; decide)] at hsub
  split at hsub
  . simp at hsub
  rename_i hsize
  extract_lets w1 h1 w2 h2 sub ecrgn1 ecrgn2 at hsub
  have hdev := h.devRC
  have hw : 0 ≤ w2 := by
    rw [hdev] at hsize
    simp only [w2, w1, hdev]
    grind
  have hh : 0 ≤ h2 := by
    rw [hdev] at hsize
    simp only [h2, h1, hdev]
    grind
  have hfresh := @memOk_createMemDC ι w2 h2 hw hh
  split at hsub
  . rw [Option.some.injEq] at hsub
    have hcopy := @copyOf_spec emptyClipRgn _ h.ecrgn
    have hwf2 : ecrgn2.WellFormed := by
      simp only [ecrgn2]
      split
      . exact (offsetRegion_spec hcopy.1 _ _).1
      . exact hcopy.1
    have hspec := @intersectClipRect_spec _ sub.devRC hwf2
    have hok : MemOk pdc := by
      rw [← hsub]
      exact ⟨rfl, rfl, hspec.1⟩
    refine ⟨hok, ?_⟩
    rw [hok.inside_iff, ← hsub]
    rw [hspec.2]
    exact Set.inter_subset_right
  . rw [Option.some.injEq] at hsub
    rw [← hsub]
    exact hfresh

theorem MemDc.memOk (h : MemDc env pdc) : MemOk pdc ∧ pdc.Inside := by
  induction h with
  | mem hw hh => exact memOk_createMemDC hw hh
  | compatible hdev =>
    unfold createCompatibleDCEx
    split
    . apply memOk_createMemDC <;> omega
    . apply memOk_createMemDC <;> omega
  | sub _ hops hsub ih => exact memOk_createSubMemDC (ih.1.run hops).1 hsub

/--
A memory DC never draws outside its surface as long as nothing outside of it is included.
-/
theorem memDC_inside (h : MemDc env pdc) (ops : List ClipOp) (hops : ∀ op ∈ ops, op.Valid)
    : (∀ done, done <+: ops → (pdc.run env done).Inside) ↔ ∀ op ∈ ops, KeepsWithin pdc.devRC op := by
  have hok := h.memOk
  induction ops using List.reverseRecOn with
  | nil =>
    simp only [List.prefix_nil, forall_eq, List.not_mem_nil, false_implies, implies_true, iff_true]
    exact hok.2
  | append_singleton ops op ih =>
    have hvalid : ∀ a ∈ ops, a.Valid := fun a ha => hops a (List.mem_append_left _ ha)
    have hrun : pdc.run env (ops ++ [op]) = (pdc.run env ops).exec env op := by
      unfold Dc.run
      rw [List.foldl_concat]
    have hstate := @MemOk.run _ _ _ env hok.1 ops hvalid
    constructor
    . intro hall a ha
      have hbefore : ∀ done, done <+: ops → (pdc.run env done).Inside := by
        intro done hdone
        exact hall done (hdone.trans (List.prefix_append _ _))
      rw [List.mem_append, List.mem_singleton] at ha
      rcases ha with ha | ha
      . exact (ih hvalid).mp hbefore a ha
      have hlast := hall _ List.prefix_rfl
      rw [hrun, hstate.1.inside_exec (hbefore _ List.prefix_rfl) (hops op (by simp)), hstate.2] at hlast
      rw [ha]
      exact hlast
    intro hall done hdone
    have hbefore := (ih hvalid).mpr (fun a ha => hall a (List.mem_append_left _ ha))
    rw [List.prefix_concat_iff] at hdone
    rcases hdone with heq | hdone
    . rw [heq, hrun, hstate.1.inside_exec (hbefore _ List.prefix_rfl) (hops op (by simp)), hstate.2]
      exact hall op (by simp)
    . exact hbefore done hdone

def emptyDesk : GdiEnv Unit where
  tree :=
    {
      rcScr := ⟨0, 0, 640, 480⟩
      wnd := fun _ =>
        {
          isControl := false, left := 0, top := 0, right := 0, bottom := 0, cl := 0, ct := 0, cr := 0, cb := 0
          visible := false, ctrlAsMainWin := false, pParent := none, children := none, pMainWin := ()
        }
      nrWnds := 0
    }
  gcrInfo := { crgn := emptyClipRgn, age := 0 }

theorem memDC_inside_kept
    : ((createMemDC 10 10).run emptyDesk [ClipOp.includeRect ⟨2, 2, 8, 8⟩]).Inside := by
  have hmem : MemDc emptyDesk (createMemDC 10 10) := .mem (by decide) (by decide)
  have hall := memDC_inside hmem [ClipOp.includeRect ⟨2, 2, 8, 8⟩] (by simp [ClipOp.Valid])
  apply hall.mpr _ _ (List.prefix_refl _)
  simp [KeepsWithin, createMemDC, Rect.Within, normalizeRect]

theorem memDC_inside_left
    : MemDc emptyDesk (createMemDC 10 10) ∧ (createMemDC 10 10 : Dc Unit).Inside
        ∧ ¬((createMemDC 10 10).run emptyDesk [.includeRect ⟨-5, -5, 20, 20⟩]).Inside := by
  refine ⟨.mem (by decide) (by decide), ?_, ?_⟩
  . decide
  . decide

end Dc

end MiniGui
