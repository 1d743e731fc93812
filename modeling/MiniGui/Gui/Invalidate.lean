import MiniGui.Gdi.ClipCalls

namespace MiniGui

open Function List Option

structure InvRgn where
  rgn : ClipRgn
  frozen : Nat
deriving DecidableEq

inductive Ctrls (ι : Type) where
  | null
  | ctrl (pCtrl : ι) (children next : Ctrls ι)

def Ctrls.all {ι : Type} : Ctrls ι → List ι
  | .null => []
  | .ctrl pCtrl children next => pCtrl :: (children.all ++ next.all)

def isCovered (prc1 prc2 : Rect) : Bool :=
  !(prc1.left < prc2.left || prc1.top < prc2.top || prc1.right > prc2.right || prc1.bottom > prc2.bottom)

def Window.rcClient {ι : Type} (w : Window ι) : Rect :=
  ⟨0, 0, w.cr - w.cl, w.cb - w.ct⟩

def addInvalid (pInvRgn : InvRgn) (prc : Option Rect) (prcClient : Rect) : InvRgn :=
  match prc with
  | none => { pInvRgn with rgn := (setClipRgn pInvRgn.rgn prcClient).2 }
  | some rc =>
    let rcTemp := normalizeRect rc
    if isCovered prcClient rcTemp then
      { pInvRgn with rgn := (setClipRgn pInvRgn.rgn prcClient).2 }
    else
      let meet := intersectRect rcTemp prcClient
      if meet.1 then { pInvRgn with rgn := (addClipRect pInvRgn.rgn meet.2).2 } else pInvRgn

def wndUpdateInvalidRegion (pInvRgn : InvRgn) (prc : Option Rect) (prcClient : Rect) : InvRgn :=
  if pInvRgn.frozen ≠ 0 then pInvRgn else addInvalid pInvRgn prc prcClient

section Cascade

variable {ι : Type} [DecidableEq ι] (wnd : ι → Window ι)

def toClient (pCtrl : Window ι) (rc : Rect) : Rect :=
  offsetRect rc (-pCtrl.cl) (-pCtrl.ct)

def wndCascadeInvalidateChildren : Ctrls ι → Option Rect → (ι → InvRgn) → ι → InvRgn
  | .null, _, m => m
  | .ctrl pCtrl children next, prc, m =>
    let w := wnd pCtrl
    if !w.visible || w.ctrlAsMainWin then
      wndCascadeInvalidateChildren next prc m
    else
      match prc with
      | some rc =>
        let rcTemp := toClient w rc
        let meet := intersectRect rcTemp w.rcClient
        let m :=
          if meet.1 then
            update m pCtrl (wndUpdateInvalidRegion (m pCtrl) (some meet.2) w.rcClient)
          else
            m
        wndCascadeInvalidateChildren next prc (wndCascadeInvalidateChildren children (some rcTemp) m)
      | none =>
        let m := update m pCtrl (wndUpdateInvalidRegion (m pCtrl) none w.rcClient)
        wndCascadeInvalidateChildren next none (wndCascadeInvalidateChildren children none m)

def wndInvalidateRect (hWnd : ι) (children : Ctrls ι) (prc : Option Rect) (m : ι → InvRgn) : ι → InvRgn :=
  let w := wnd hWnd
  if !w.isControl then
    if (m hWnd).frozen ≠ 0 then
      m
    else
      wndCascadeInvalidateChildren wnd children prc (update m hWnd (addInvalid (m hWnd) prc w.rcClient))
  else
    -- the children get the rectangle as it was given here too
    wndCascadeInvalidateChildren wnd children prc
      (update m hWnd (wndUpdateInvalidRegion (m hWnd) prc w.rcClient))

inductive Reached : Ctrls ι → Option Rect → ι → Option Rect → Prop where
  | here {pCtrl : ι} {children next : Ctrls ι} {prc : Option Rect} (hvisible : (wnd pCtrl).visible = true)
    (hmain : (wnd pCtrl).ctrlAsMainWin = false)
    : Reached (.ctrl pCtrl children next) prc pCtrl (prc.map (toClient (wnd pCtrl)))
  | child {pCtrl i : ι} {children next : Ctrls ι} {prc r : Option Rect} (hvisible : (wnd pCtrl).visible = true)
    (hmain : (wnd pCtrl).ctrlAsMainWin = false) (h : Reached children (prc.map (toClient (wnd pCtrl))) i r)
    : Reached (.ctrl pCtrl children next) prc i r
  | next {pCtrl i : ι} {children next : Ctrls ι} {prc r : Option Rect} (h : Reached next prc i r)
    : Reached (.ctrl pCtrl children next) prc i r

end Cascade

/--
The pixels of a rectangle, where no rectangle stands for all of them.
-/
def area : Option Rect → Set (Int × Int)
  | none => Set.univ
  | some rc => rc.pixels

structure UpdateRgn (rc : Rect) (rgn : ClipRgn) : Prop where
  sound : rgn.Sound
  wellFormed : rc.left ≤ rc.right → rc.top ≤ rc.bottom → rgn.WellFormed
  inside : rgn.pixels ⊆ rc.pixels

structure InvTree (ι : Type) where
  wnd : ι → Window ι
  hWnd : ι
  children : Ctrls ι
  invRgn : ι → InvRgn
  nodup : (hWnd :: children.all).Nodup
  unfrozen : ∀ i, (invRgn i).frozen = 0
  updateRgn : ∀ i, UpdateRgn (wnd i).rcClient (invRgn i).rgn

namespace InvTree

variable {ι : Type} [DecidableEq ι]

def invalidated (t : InvTree ι) (prc : Option Rect) : ι → InvRgn :=
  wndInvalidateRect t.wnd t.hWnd t.children prc t.invRgn

structure Exact (t : InvTree ι) (prc : Option Rect) : Prop where
  window : (t.invalidated prc t.hWnd).rgn.pixels
    = (t.invRgn t.hWnd).rgn.pixels ∪ area (prc.map normalizeRect) ∩ (t.wnd t.hWnd).rcClient.pixels
  reached : ∀ i r, Reached t.wnd t.children (prc.map normalizeRect) i r →
    (t.invalidated prc i).rgn.pixels = (t.invRgn i).rgn.pixels ∪ area r ∩ (t.wnd i).rcClient.pixels
  others : ∀ i, i ≠ t.hWnd → (∀ r, ¬Reached t.wnd t.children (prc.map normalizeRect) i r) →
    (t.invalidated prc i).rgn.pixels = (t.invRgn i).rgn.pixels
  inside : ∀ i, (t.invalidated prc i).rgn.pixels ⊆ (t.wnd i).rcClient.pixels

def Clean (t : InvTree ι) (prc : Option Rect) : Prop :=
  prc.map normalizeRect = prc
    ∨ ∀ i r, Reached t.wnd t.children (prc.map normalizeRect) i r →
        area r ∩ (t.wnd i).rcClient.pixels ⊆ (t.invRgn i).rgn.pixels

end InvTree

open ClipRgn

theorem isCovered_subset {a b : Rect} (h : isCovered a b = true) : a.pixels ⊆ b.pixels := by
  intro p hp
  unfold isCovered at h
  rw [Rect.mem_pixels] at hp ⊢
  unfold Rect.Mem at hp ⊢
  simp only [Bool.not_eq_true', Bool.or_eq_false_iff, decide_eq_false_iff_not] at h
  omega

theorem normalizeRect_of_proper {r : Rect} (h : r.Proper) : normalizeRect r = r := by
  unfold Rect.Proper at h
  unfold normalizeRect
  grind

theorem normalizeRect_offset (r : Rect) (x y : Int)
    : normalizeRect (offsetRect r x y) = offsetRect (normalizeRect r) x y := by
  unfold normalizeRect offsetRect
  grind

theorem pixels_of_normalizeRect_ne {r : Rect} (h : normalizeRect r ≠ r) : r.pixels = ∅ := by
  apply Rect.pixels_eq_empty
  intro hproper
  exact h (normalizeRect_of_proper hproper)

section Region

variable {rc : Rect} {inv : InvRgn}

theorem setClipRgn_update (h : UpdateRgn rc inv.rgn)
    : UpdateRgn rc (setClipRgn inv.rgn rc).2 ∧ (setClipRgn inv.rgn rc).2.pixels = rc.pixels := by
  rw [setClipRgn_eq]
  split
  . rename_i hempty
    have hnone : rc.pixels = ∅ := by
      rw [Set.eq_empty_iff_forall_notMem]
      intro p
      exact isRectEmpty_not_mem hempty p.1 p.2
    refine ⟨h, ?_⟩
    have hsub := h.inside
    rw [hnone] at hsub ⊢
    exact Set.subset_empty_iff.mp hsub
  rename_i hnonempty
  refine ⟨⟨sound_single rc, ?_, ?_⟩, pixels_single rc⟩
  . intro hx hy
    apply wellFormed_single
    unfold isRectEmpty at hnonempty
    unfold Rect.Proper
    simp only [Bool.or_eq_true, decide_eq_true_eq, not_or] at hnonempty
    omega
  . rw [pixels_single]

theorem addInvalid_spec (h : UpdateRgn rc inv.rgn) (prc : Option Rect)
    : UpdateRgn rc (addInvalid inv prc rc).rgn
        ∧ (addInvalid inv prc rc).rgn.pixels = inv.rgn.pixels ∪ area (prc.map normalizeRect) ∩ rc.pixels := by
  have hset := setClipRgn_update h
  have hunion : rc.pixels = inv.rgn.pixels ∪ rc.pixels := (Set.union_eq_self_of_subset_left h.inside).symm
  unfold addInvalid
  cases prc with
  | none =>
    refine ⟨hset.1, ?_⟩
    rw [show area (Option.map normalizeRect none) = Set.univ from rfl, Set.univ_inter, ← hunion]
    exact hset.2
  | some r =>
    rw [map_some]
    dsimp only [area]
    by_cases hcovered : isCovered rc (normalizeRect r) = true
    . rw [if_pos hcovered]
      refine ⟨hset.1, ?_⟩
      rw [Set.inter_eq_self_of_subset_right (isCovered_subset hcovered), ← hunion]
      exact hset.2
    rw [if_neg hcovered]
    have hmeet := intersectRect_pixels (normalizeRect r) rc
    by_cases hpart : (intersectRect (normalizeRect r) rc).1 = true
    . rw [if_pos hpart]
      have hproper := intersectRect_proper.mp hpart
      have hrc : rc.Proper := by
        rw [intersectRect_fst] at hpart
        exact (proper_of_doesIntersect hpart).2
      have hadd := addClipRect_spec (h.wellFormed (Int.le_of_lt hrc.1) (Int.le_of_lt hrc.2)) hproper
      rw [hmeet] at hadd
      refine ⟨⟨Or.inl hadd.1, fun _ _ => hadd.1, ?_⟩, hadd.2⟩
      rw [hadd.2]
      exact Set.union_subset h.inside Set.inter_subset_right
    . rw [if_neg hpart]
      rw [intersectRect_proper] at hpart
      refine ⟨h, ?_⟩
      rw [← hmeet, Rect.pixels_eq_empty hpart, Set.union_empty]

theorem addInvalid_frozen (prc : Option Rect) : (addInvalid inv prc rc).frozen = inv.frozen := by
  unfold addInvalid
  split
  . rfl
  dsimp only
  split
  . rfl
  . split <;> rfl

end Region

section Cascade

variable {ι : Type} [DecidableEq ι] {wnd : ι → Window ι}

def InOrder (wnd : ι → Window ι) (m : ι → InvRgn) : Prop :=
  ∀ i, (m i).frozen = 0 ∧ UpdateRgn (wnd i).rcClient (m i).rgn

theorem InOrder.update {m : ι → InvRgn} (h : InOrder wnd m) (pCtrl : ι) (prc : Option Rect)
    : InOrder wnd (update m pCtrl (addInvalid (m pCtrl) prc (wnd pCtrl).rcClient)) := by
  intro i
  by_cases hi : i = pCtrl
  . rw [hi, update_self, addInvalid_frozen]
    exact ⟨(h pCtrl).1, (addInvalid_spec (h pCtrl).2 prc).1⟩
  . rw [update_of_ne hi]
    exact h i

theorem wndUpdateInvalidRegion_eq {inv : InvRgn} (h : inv.frozen = 0) (prc : Option Rect) (rc : Rect)
    : wndUpdateInvalidRegion inv prc rc = addInvalid inv prc rc := by
  unfold wndUpdateInvalidRegion
  rw [if_neg (fun hne => hne h)]

theorem addInvalid_meet {inv : InvRgn} {rc r : Rect} (h : UpdateRgn rc inv.rgn) (hmeet : (intersectRect r rc).1 = true)
    : (addInvalid inv (some (intersectRect r rc).2) rc).rgn.pixels = inv.rgn.pixels ∪ r.pixels ∩ rc.pixels := by
  rw [(addInvalid_spec h _).2, map_some, normalizeRect_of_proper (intersectRect_proper.mp hmeet)]
  dsimp only [area]
  rw [intersectRect_pixels, Set.inter_assoc, Set.inter_self]

omit [DecidableEq ι] in
theorem Reached.mem_all {t : Ctrls ι} {prc r : Option Rect} {i : ι} (h : Reached wnd t prc i r) : i ∈ t.all := by
  induction h with
  | here => exact mem_cons_self
  | child _ _ _ ih => exact mem_cons_of_mem _ (mem_append_left _ ih)
  | next _ ih => exact mem_cons_of_mem _ (mem_append_right _ ih)

structure Cascades (wnd : ι → Window ι) (t : Ctrls ι) (prc : Option Rect) (m m' : ι → InvRgn) : Prop where
  inOrder : InOrder wnd m'
  reached : ∀ i r, Reached wnd t prc i r → (m' i).rgn.pixels = (m i).rgn.pixels ∪ area r ∩ (wnd i).rcClient.pixels
  others : ∀ i, (∀ r, ¬Reached wnd t prc i r) → m' i = m i

omit [DecidableEq ι] in
theorem Cascades.ctrl {pCtrl : ι} {children next : Ctrls ι} {prc : Option Rect} {m m₁ m₂ m₃ : ι → InvRgn}
    (hvisible : (wnd pCtrl).visible = true) (hmain : (wnd pCtrl).ctrlAsMainWin = false)
    (hnodup : (Ctrls.ctrl pCtrl children next).all.Nodup)
    (hself : (m₁ pCtrl).rgn.pixels = (m pCtrl).rgn.pixels ∪ area (prc.map (toClient (wnd pCtrl))) ∩ (wnd pCtrl).rcClient.pixels)
    (hsame : ∀ i, i ≠ pCtrl → m₁ i = m i) (hchildren : Cascades wnd children (prc.map (toClient (wnd pCtrl))) m₁ m₂)
    (hnext : Cascades wnd next prc m₂ m₃) : Cascades wnd (.ctrl pCtrl children next) prc m m₃ := by
  obtain ⟨hfresh, hboth⟩ := nodup_cons.mp hnodup
  obtain ⟨-, -, hdisjoint⟩ := nodup_append.mp hboth
  have hnotChild : ∀ r, ¬Reached wnd children (prc.map (toClient (wnd pCtrl))) pCtrl r :=
    fun r h => hfresh (mem_append_left _ h.mem_all)
  have hnotNext : ∀ r, ¬Reached wnd next prc pCtrl r := fun r h => hfresh (mem_append_right _ h.mem_all)
  constructor
  . exact hnext.inOrder
  . intro i r h
    cases h with
    | here =>
      rw [hnext.others pCtrl hnotNext, hchildren.others pCtrl hnotChild]
      exact hself
    | child _ _ h =>
      have hne : i ≠ pCtrl := by
        rintro rfl
        exact hnotChild _ h
      have hnot : ∀ r, ¬Reached wnd next prc i r := fun r h' => hdisjoint i h.mem_all i h'.mem_all rfl
      rw [hnext.others i hnot, hchildren.reached i r h, hsame i hne]
    | next h =>
      have hne : i ≠ pCtrl := by
        rintro rfl
        exact hnotNext _ h
      have hnot : ∀ r, ¬Reached wnd children (prc.map (toClient (wnd pCtrl))) i r :=
        fun r h' => hdisjoint i h'.mem_all i h.mem_all rfl
      rw [hnext.reached i r h, hchildren.others i hnot, hsame i hne]
  intro i hnot
  have hne : i ≠ pCtrl := by
    rintro rfl
    exact hnot _ (.here hvisible hmain)
  rw [hnext.others i (fun r h => hnot r (.next h)),
    hchildren.others i (fun r h => hnot r (.child hvisible hmain h)), hsame i hne]

theorem cascade_spec {t : Ctrls ι} (hnodup : t.all.Nodup) (prc : Option Rect) {m : ι → InvRgn} (h : InOrder wnd m)
    : Cascades wnd t prc m (wndCascadeInvalidateChildren wnd t prc m) := by
  induction t generalizing prc m with
  | null => exact ⟨h, (fun _ _ h => nomatch h), fun _ _ => rfl⟩
  | ctrl pCtrl children next ihChildren ihNext =>
    obtain ⟨-, hboth⟩ := nodup_cons.mp hnodup
    obtain ⟨hchildren, hnext, -⟩ := nodup_append.mp hboth
    unfold wndCascadeInvalidateChildren
    by_cases hskip : (!(wnd pCtrl).visible || (wnd pCtrl).ctrlAsMainWin) = true
    . have hno : ¬((wnd pCtrl).visible = true ∧ (wnd pCtrl).ctrlAsMainWin = false) := by
        rintro ⟨hvisible, hmain⟩
        rw [hvisible, hmain] at hskip
        cases hskip
      rw [if_pos hskip]
      have hrest := ihNext hnext prc h
      refine ⟨hrest.inOrder, ?_, fun i hnot => hrest.others i (fun r h => hnot r (.next h))⟩
      intro i r hr
      cases hr with
      | here hvisible hmain | child hvisible hmain _ => exact absurd ⟨hvisible, hmain⟩ hno
      | next hr => exact hrest.reached i r hr
    rw [if_neg hskip]
    rw [Bool.not_eq_true, Bool.or_eq_false_iff, Bool.not_eq_false'] at hskip
    obtain ⟨hvisible, hmain⟩ := hskip
    have hframe : ∀ (inv : InvRgn) i, i ≠ pCtrl
      → update m pCtrl inv i = m i := fun _ _ hi => update_of_ne hi _ _
    cases prc with
    | none =>
      rw [wndUpdateInvalidRegion_eq (h pCtrl).1]
      have hstep := h.update pCtrl none
      refine Cascades.ctrl hvisible hmain hnodup ?_ (hframe _) (ihChildren hchildren none hstep) (ihNext hnext none ?_)
      . rw [update_self]
        exact (addInvalid_spec (h pCtrl).2 none).2
      . exact (ihChildren hchildren none hstep).inOrder
    | some rc =>
      dsimp only
      by_cases hmeet : (intersectRect (toClient (wnd pCtrl) rc) (wnd pCtrl).rcClient).1 = true
      . rw [if_pos hmeet, wndUpdateInvalidRegion_eq (h pCtrl).1]
        have hstep := h.update pCtrl (some (intersectRect (toClient (wnd pCtrl) rc) (wnd pCtrl).rcClient).2)
        have hrest := ihChildren hchildren (some (toClient (wnd pCtrl) rc)) hstep
        refine Cascades.ctrl hvisible hmain hnodup ?_ (hframe _) hrest (ihNext hnext _ hrest.inOrder)
        rw [update_self]
        exact addInvalid_meet (h pCtrl).2 hmeet
      rw [if_neg hmeet]
      have hrest := ihChildren hchildren (some (toClient (wnd pCtrl) rc)) h
      refine Cascades.ctrl hvisible hmain hnodup ?_ (fun _ _ => rfl) hrest (ihNext hnext _ hrest.inOrder)
      rw [intersectRect_proper] at hmeet
      rw [map_some]
      dsimp only [area]
      rw [← intersectRect_pixels, Rect.pixels_eq_empty hmeet, Set.union_empty]

omit [DecidableEq ι] in
theorem map_toClient_normalize (prc : Option Rect) (w : Window ι)
    : (prc.map (toClient w)).map normalizeRect = (prc.map normalizeRect).map (toClient w) := by
  cases prc with
  | none => rfl
  | some rc => exact congrArg some (normalizeRect_offset rc _ _)

omit [DecidableEq ι] in
theorem Reached.normalize {t : Ctrls ι} {prc r : Option Rect} {i : ι} (h : Reached wnd t prc i r)
    : Reached wnd t (prc.map normalizeRect) i (r.map normalizeRect) := by
  induction h with
  | here hvisible hmain =>
    rw [map_toClient_normalize]
    exact .here hvisible hmain
  | child hvisible hmain _ ih =>
    rw [map_toClient_normalize] at ih
    exact .child hvisible hmain ih
  | next _ ih => exact .next ih

omit [DecidableEq ι] in
theorem map_toClient_injective {a b : Option Rect} {w : Window ι} (h : a.map (toClient w) = b.map (toClient w))
    : a = b := by
  apply map_injective ?_ h
  intro r r' heq
  unfold toClient offsetRect at heq
  obtain ⟨left, top, right, bottom⟩ := r
  obtain ⟨left', top', right', bottom'⟩ := r'
  simp only [Rect.mk.injEq] at heq ⊢
  omega

omit [DecidableEq ι] in
theorem Reached.of_normalize {t : Ctrls ι} {prc r : Option Rect} {i : ι} (h : Reached wnd t (prc.map normalizeRect) i r)
    : ∃ r', Reached wnd t prc i r' ∧ r'.map normalizeRect = r
      ∧ (prc.map normalizeRect ≠ prc → r'.map normalizeRect ≠ r') := by
  have hinverted : ∀ (prc : Option Rect) (w : Window ι), prc.map normalizeRect ≠ prc →
      (prc.map (toClient w)).map normalizeRect ≠ prc.map (toClient w) := by
    intro prc w hne heq
    rw [map_toClient_normalize] at heq
    exact hne (map_toClient_injective heq)
  induction t generalizing prc with
  | null => cases h
  | ctrl pCtrl children next ihChildren ihNext =>
    cases h with
    | here hvisible hmain => exact ⟨_, .here hvisible hmain, map_toClient_normalize _ _, hinverted _ _⟩
    | child hvisible hmain h =>
      rw [← map_toClient_normalize] at h
      obtain ⟨r', hr', heq, hne⟩ := ihChildren h
      exact ⟨r', .child hvisible hmain hr', heq, fun h => hne (hinverted _ _ h)⟩
    | next h =>
      obtain ⟨r', hr', heq, hne⟩ := ihNext h
      exact ⟨r', .next hr', heq, hne⟩

theorem area_of_inverted {r : Option Rect} (h : r.map normalizeRect ≠ r) : area r = ∅ := by
  cases r with
  | none => exact absurd rfl h
  | some rc => exact pixels_of_normalizeRect_ne (fun heq => h (congrArg some heq))

end Cascade

namespace InvTree

variable {ι : Type} [DecidableEq ι] (t : InvTree ι) (prc : Option Rect)

omit [DecidableEq ι] in
theorem inOrder : InOrder t.wnd t.invRgn :=
  fun i => ⟨t.unfrozen i, t.updateRgn i⟩

theorem invalidated_eq : t.invalidated prc = wndCascadeInvalidateChildren t.wnd t.children prc
        (update t.invRgn t.hWnd (addInvalid (t.invRgn t.hWnd) prc (t.wnd t.hWnd).rcClient)) := by
  unfold invalidated wndInvalidateRect
  dsimp only
  rw [wndUpdateInvalidRegion_eq (t.unfrozen t.hWnd)]
  split
  . rw [if_neg (fun hne => hne (t.unfrozen t.hWnd))]
  . rfl

theorem invalidated_cascades
    : Cascades t.wnd t.children prc (update t.invRgn t.hWnd (addInvalid (t.invRgn t.hWnd) prc (t.wnd t.hWnd).rcClient))
        (t.invalidated prc) := by
  rw [invalidated_eq]
  exact cascade_spec (nodup_cons.mp t.nodup).2 prc (t.inOrder.update t.hWnd prc)

/--
An invalidation is exact, but for the controls where an inverted rectangle is passed on.
-/
theorem invalidates_iff : t.Exact prc ↔ t.Clean prc := by
  have hcascades := t.invalidated_cascades prc
  obtain ⟨hfresh, -⟩ := nodup_cons.mp t.nodup
  have hreached : ∀ i r, Reached t.wnd t.children prc i r →
      (t.invalidated prc i).rgn.pixels = (t.invRgn i).rgn.pixels ∪ area r ∩ (t.wnd i).rcClient.pixels := by
    intro i r h
    have hne : i ≠ t.hWnd := by
      rintro rfl
      exact hfresh h.mem_all
    rw [hcascades.reached i r h, update_of_ne hne]
  constructor
  . intro h
    by_cases hnormal : prc.map normalizeRect = prc
    . exact .inl hnormal
    right
    intro i r hr
    obtain ⟨r', hr', -, hinverted⟩ := hr.of_normalize
    have hsame := h.reached i r hr
    rw [hreached i r' hr', area_of_inverted (hinverted hnormal), Set.empty_inter, Set.union_empty] at hsame
    rw [hsame]
    exact Set.subset_union_right
  intro h
  constructor
  . rw [hcascades.others t.hWnd (fun r h => hfresh h.mem_all), update_self]
    exact (addInvalid_spec (t.updateRgn t.hWnd) prc).2
  . intro i r hr
    rcases h with hnormal | hcovered
    . rw [hnormal] at hr
      exact hreached i r hr
    obtain ⟨r', hr', heq, hinverted⟩ := hr.of_normalize
    by_cases hnormal : prc.map normalizeRect = prc
    . rw [hnormal] at hr
      exact hreached i r hr
    . rw [hreached i r' hr', area_of_inverted (hinverted hnormal), Set.empty_inter, Set.union_empty]
      exact (Set.union_eq_self_of_subset_right (hcovered i r hr)).symm
  . intro i hne hnot
    rw [hcascades.others i (fun r h => hnot _ h.normalize), update_of_ne hne]
  . intro i
    exact (hcascades.inOrder i).2.inside

end InvTree

def oneControl : InvTree Bool where
  wnd := fun i =>
    ⟨i, if i then 10 else 0, if i then 10 else 0, if i then 50 else 100, if i then 50 else 100, if i then 10 else 0,
      if i then 10 else 0, if i then 50 else 100, if i then 50 else 100, true, false, if i then some false else none,
      if i then none else some true, false⟩
  hWnd := false
  children := .ctrl true .null .null
  invRgn := fun _ => ⟨emptyClipRgn, 0⟩
  nodup := by decide
  unfrozen := fun _ => rfl
  updateRgn := by
    intro i
    refine ⟨sound_empty, fun _ _ => wellFormed_of_nil rfl, ?_⟩
    rw [pixels_eq_empty rfl]
    exact Set.empty_subset _

theorem not_invalidates_inverted : ¬∀ (t : InvTree Bool) (prc : Option Rect), t.Exact prc := by
  intro h
  have hsame := (h oneControl (some ⟨60, 60, 0, 0⟩)).reached true (some ⟨-10, -10, 50, 50⟩) (.here rfl rfl)
  have hnone : (oneControl.invalidated (some ⟨60, 60, 0, 0⟩) true).rgn = emptyClipRgn := by decide
  have hmem : ((0, 0) : Int × Int) ∈ area (some ⟨-10, -10, 50, 50⟩) ∩ (oneControl.wnd true).rcClient.pixels := by
    refine ⟨?_, ?_⟩
    . rw [area, Rect.mem_pixels]
      decide
    . rw [Rect.mem_pixels]
      decide
  rw [hnone, pixels_eq_empty rfl] at hsame
  have hfalse : ((0, 0) : Int × Int) ∈ (∅ : Set (Int × Int)) := by
    rw [hsame]
    exact .inr hmem
  exact hfalse

end MiniGui
